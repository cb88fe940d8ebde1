import LiquidCatalog.Main
import LiquidCatalog.Po.Reader
import LiquidCatalog.Proofs.Output.Delivery
import LiquidCatalog.Proofs.Po.Delivery
import LiquidCatalog.Proofs.Po.Layout
import LiquidCatalog.Proofs.Po.RoundTrip
import LiquidCatalog.Proofs.Po.Session
import LiquidCatalog.Proofs.Po.LifeCycle
import LiquidCatalog.Proofs.Po.Quoted
import LiquidCatalog.Proofs.Po.LineEnds
import LiquidCatalog.Proofs.Po.HeaderText
import LiquidCatalog.Proofs.Extraction.HeaderFields
import LiquidCatalog.Proofs.Catalog.Grouping
import LiquidCatalog.Proofs.Catalog.History
import LiquidCatalog.Proofs.Catalog.Merge
import LiquidCatalog.Proofs.Catalog.Cover
import LiquidCatalog.Proofs.Catalog.OfTemplates
import LiquidCatalog.Proofs.Provenance
import LiquidCatalog.Proofs.FileTree.Node
import LiquidCatalog.Proofs.Catalog.Separate
import LiquidCatalog.Proofs.Text.Lines
import LiquidCatalog.Proofs.Text.Occurrences
import LiquidCatalog.Proofs.Liquid.Grammar
import LiquidCatalog.Proofs.Liquid.Tag
import LiquidCatalog.Proofs.Liquid.Marker
import LiquidCatalog.Proofs.Liquid.Block
import LiquidCatalog.Proofs.Liquid.Pairing
import LiquidCatalog.Proofs.Liquid.Extract
import LiquidCatalog.Proofs.Liquid.Segment
import LiquidCatalog.Proofs.Liquid.Crossing
import LiquidCatalog.Proofs.FileTree.Listing
import LiquidCatalog.Proofs.FileTree.Leads
import LiquidCatalog.Proofs.FileTree.Changes
import LiquidCatalog.Proofs.Extraction.Reading
import LiquidCatalog.Proofs.Extraction.Effects
import LiquidCatalog.Proofs.FileTree.Seen
import LiquidCatalog.Proofs.FileTree.Templates
import LiquidCatalog.Proofs.Path
import LiquidCatalog.Proofs.Text.Utf8Order
import LiquidCatalog.Proofs.Extraction.Discovery
import LiquidCatalog.Proofs.FileTree.Below
import LiquidCatalog.Proofs.Extraction.DefaultBase
import LiquidCatalog.Proofs.Extraction.ContextOrder
