/-
  PointOfSale/Catalog.lean
  ========================
  **Catalog files**: all items as one JSON array, laid out when it is written.
  A file is replaced as a whole.
-/
import PointOfSale.Files.Basic
import PointOfSale.Json.Printer
import PointOfSale.Json.Reader
import PointOfSale.Wire.Menu

namespace PointOfSale

/-- Why a catalog cannot be read or written. -/
inductive CatalogFault where
  | inaccessible (fault : FileFault)
  | malformed
  deriving DecidableEq, Repr

def CatalogFault.message : CatalogFault → String
  | inaccessible fault => "Failed to access catalog file: " ++ fault.message
  | malformed => "Malformed catalog file"

namespace Catalog

def ofText? (text : String) : Option (List Item) :=
  (Json.ofString? text).bind (Json.list? Item.ofJson?)

def text (items : List Item) : String := (Json.ofList Item.toJson items).prettyText

variable {m : Type → Type} [Monad m] [Files m]

def load (path : String) : ExceptT CatalogFault m (List Item) := do
  match ← (Files.read path : m _) with
  | .error fault => throw (.inaccessible fault)
  | .ok text =>
    match ofText? text with
    | some items => return items
    | none => throw .malformed

def save (path : String) (items : List Item) : ExceptT CatalogFault m Unit := do
  match ← (Files.write path (text items) : m _) with
  | .error fault => throw (.inaccessible fault)
  | .ok () => return ()

end Catalog

end PointOfSale
