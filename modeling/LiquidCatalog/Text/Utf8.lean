/-!
Texts as UTF-8 bytes.
-/

namespace LiquidCatalog.Text

def utf8 (s : List Char) : List UInt8 := s.flatMap String.utf8EncodeChar

@[simp] theorem utf8_nil : utf8 [] = [] := rfl

@[simp] theorem utf8_append (s t : List Char) : utf8 (s ++ t) = utf8 s ++ utf8 t := by
  simp [utf8]

theorem utf8_flatten (l : List (List Char)) : utf8 l.flatten = (l.map utf8).flatten := by
  induction l with
  | nil => rfl
  | cons s l ih => simp [ih]

/-- The text that the bytes stand for, if they are UTF-8 throughout. -/
def ofUtf8? (bytes : List UInt8) : Option String := String.fromUTF8? bytes.toByteArray

theorem ofUtf8?_utf8 (s : List Char) : ofUtf8? (utf8 s) = some (String.ofList s) := by
  have hbytes : (utf8 s).toByteArray = (String.ofList s).toByteArray := by
    simp [utf8, List.utf8Encode]
  have hvalid : (String.ofList s).toByteArray.IsValidUTF8 := (String.ofList s).isValidUTF8
  rw [ofUtf8?, hbytes, String.fromUTF8?, dif_pos hvalid]
  rfl

end LiquidCatalog.Text
