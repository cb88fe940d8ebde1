/-!
Text between the double quotes of a PO string.

A backslash, a double quote, a line feed, a carriage return and a tab are written as a backslash
and one more character; everything else stands for itself. Decoding undoes these five escapes and
refuses everything else, so a text has exactly one written form.
-/

namespace LiquidCatalog.Po.Quoted

def encodeChar : Char → List Char
  | '\\' => ['\\', '\\']
  | '"' => ['\\', '"']
  | '\n' => ['\\', 'n']
  | '\r' => ['\\', 'r']
  | '\t' => ['\\', 't']
  | c => [c]

def encode (s : List Char) : List Char := s.flatMap encodeChar

/-- The character that a backslash and `c` stand for. -/
def unescape? : Char → Option Char
  | '\\' => some '\\'
  | '"' => some '"'
  | 'n' => some '\n'
  | 'r' => some '\r'
  | 't' => some '\t'
  | _ => none

def decode : List Char → Option (List Char)
  | [] => some []
  | ['\\'] => none
  | '\\' :: c :: s =>
    match unescape? c with
    | some d => (decode s).map (d :: ·)
    | none => none
  | c :: s => if encodeChar c = [c] then (decode s).map (c :: ·) else none

/-- Parts a text at the first quote that no backslash escapes. -/
def untilQuote? : List Char → Option (List Char × List Char)
  | [] => none
  | '"' :: s => some ([], s)
  | ['\\'] => none
  | '\\' :: c :: s => (untilQuote? s).map fun (body, rest) => ('\\' :: c :: body, rest)
  | c :: s => (untilQuote? s).map fun (body, rest) => (c :: body, rest)

@[simp] theorem encode_nil : encode [] = [] := rfl

@[simp] theorem encode_cons (c : Char) (s : List Char) :
    encode (c :: s) = encodeChar c ++ encode s := rfl

theorem encode_append (s t : List Char) : encode (s ++ t) = encode s ++ encode t := by
  simp [encode]

/-- What one character is written as is read back as that character. -/
theorem decode_encodeChar_append (c : Char) (s : List Char) :
    decode (encodeChar c ++ s) = (decode s).map (c :: ·) := by
  unfold encodeChar
  split
  · simp [decode, unescape?]
  · simp [decode, unescape?]
  · simp [decode, unescape?]
  · simp [decode, unescape?]
  · simp [decode, unescape?]
  · next h1 h2 h3 h4 h5 =>
    rw [List.singleton_append, decode, if_pos] <;> simp_all [encodeChar]

theorem decode_encode (s : List Char) : decode (encode s) = some s := by
  induction s with
  | nil => rfl
  | cons c s ih => rw [encode_cons, decode_encodeChar_append, ih]; rfl

theorem encodeChar_of_unescape? {c d : Char} (h : unescape? c = some d) :
    encodeChar d = ['\\', c] := by
  unfold unescape? at h
  split at h <;> simp_all [encodeChar] <;> subst h <;> rfl

theorem eq_encode_of_decode {t s : List Char} (h : decode t = some s) : t = encode s := by
  fun_induction decode t generalizing s with
  | case1 => simp_all
  | case2 => simp at h
  | case3 c t d hd ih =>
    obtain ⟨u, hu, rfl⟩ := Option.map_eq_some_iff.1 h
    rw [encode_cons, encodeChar_of_unescape? hd, ← ih hu]; rfl
  | case4 => simp at h
  | case5 c t _ _ hc ih =>
    obtain ⟨u, hu, rfl⟩ := Option.map_eq_some_iff.1 h
    rw [encode_cons, hc, ← ih hu]; rfl
  | case6 => simp at h

theorem decode_eq_some_iff {t s : List Char} : decode t = some s ↔ t = encode s :=
  ⟨eq_encode_of_decode, fun h => h ▸ decode_encode s⟩

end LiquidCatalog.Po.Quoted

namespace LiquidCatalog.Po

def escape (s : String) : String := String.ofList (Quoted.encode s.toList)

def unescape (s : String) : Option String := (Quoted.decode s.toList).map String.ofList

@[simp] theorem unescape_escape (s : String) : unescape (escape s) = some s := by
  simp [unescape, escape, Quoted.decode_encode]

end LiquidCatalog.Po
