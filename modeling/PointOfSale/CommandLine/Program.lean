/-
  PointOfSale/CommandLine/Program.lean
  ====================================
  **The program**: read settings and the catalog, then price a selection or move
  stock, and print the answer as JSON.  The catalog file is written in one case
  only, when an adjustment that is to be kept has succeeded.
-/
import PointOfSale.Catalog
import PointOfSale.CommandLine.Arguments
import PointOfSale.Order.Desk
import PointOfSale.Settings
import PointOfSale.Wire.Menu
import PointOfSale.Wire.Order

namespace PointOfSale.CommandLine

/-- Why a run fails. -/
inductive RunFault where
  | settings
  | noCatalog
  | catalog (fault : CatalogFault)
  | unreadable (path : String)
  | malformed (path : String)
  | engine (fault : Fault)
  deriving DecidableEq

def RunFault.message : RunFault → String
  | settings => "Failed to load config"
  | noCatalog => "No catalog file given (use --catalog or catalog.path)"
  | catalog fault => fault.message
  | unreadable path => "Failed to read " ++ path
  | malformed path => "Malformed JSON in " ++ path
  | engine fault => fault.message

inductive Outcome where
  | printed (text : String)
  | failed (fault : RunFault)
  /-- The arguments do not follow the grammar. -/
  | misused
  deriving DecidableEq

namespace Outcome

/-- The exit code of the program. -/
def exitCode : Outcome → UInt32
  | printed _ => 0
  | failed _ => 1
  | misused => 2

def output : Outcome → String
  | printed text => text
  | _ => ""

end Outcome

/-- The variable that names the catalog. -/
def catalogVariable : String := "TILLPOINT_CATALOG"

variable {m : Type → Type} [Monad m] [Files m]

def readRecord {α : Type} (read : Json → Option α) (path : String) : ExceptT RunFault m α := do
  match ← (Files.read path : m _) with
  | .error _ => throw (.unreadable path)
  | .ok text =>
    match (Json.ofString? text).bind read with
    | some a => return a
    | none => throw (.malformed path)

/-- A result of the engine within a run. -/
def engine {α : Type} : Except Fault α → ExceptT RunFault m α
  | .ok a => pure a
  | .error fault => throw (.engine fault)

/-- Carry a command out on the items of a catalog. -/
def carryOut (desk : Desk) (catalog : String) (items : List Item) :
    Command → ExceptT RunFault m Json
  | .quote item path => do
    let choices ← readRecord (Json.list? Choice.ofJson?) path
    let (quote, _) ← engine ((desk.quote item choices).run (.ofList items))
    return quote.toJson
  | .preview path => do
    let selection ← readRecord Selection.ofJson? path
    let (amounts, _) ← engine ((desk.preview selection).run (.ofList items))
    return Json.ofOption AmountTable.toJson amounts
  | .adjust item path operation commits => do
    let op ← engine (Operation.parse operation)
    let selections ← readRecord (Json.list? Selection.ofJson?) path
    let (amounts, store) ← engine ((desk.adjust item selections op commits).run (.ofList items))
    if commits then (Catalog.save catalog store.snapshot).adapt .catalog
    return Json.ofTable AmountTable.toJson amounts

def answer (args : Arguments) (env : Environment) : ExceptT RunFault m Json := do
  match ← (Settings.load? env : m _) with
  | none => throw .settings
  | some settings =>
    match args.catalog.or settings.catalogPath with
    | none => throw .noCatalog
    | some catalog =>
      let items ← (Catalog.load catalog).adapt .catalog
      carryOut settings.desk catalog items args.command

def run (args : List String) (env : Environment) : m Outcome := do
  match arguments? args (env.lookup catalogVariable) with
  | none => return .misused
  | some args =>
    match ← (answer args env).run with
    | .ok j => return .printed (j.prettyText ++ "\n")
    | .error fault => return .failed fault

end PointOfSale.CommandLine
