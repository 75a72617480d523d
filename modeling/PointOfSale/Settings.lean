/-
  PointOfSale/Settings.lean
  =========================
  **What can be set**, and where settings come from.  A setting that is missing has
  its default; one that is there has to have a value of its kind.
-/
import PointOfSale.Files.Basic
import PointOfSale.Json.Reader
import PointOfSale.Order.Desk
import PointOfSale.Settings.Address
import PointOfSale.Settings.Toml.Document
import PointOfSale.Wire.Scalar

namespace PointOfSale

/-! ### The settings and their values

Texts are also taken from numbers and truth values, and a section may be written as the
list of its settings. -/

/-- The settings of the program. -/
structure Settings where
  /-- The tax rate in percent of items that have none. -/
  taxRate : Decimal := Decimal.zero
  previewKey : String := defaultPreviewKey
  /-- Which messages are logged. -/
  logFilter : String := "tillpoint=info"
  catalogPath : Option String := none
  deriving DecidableEq, Repr

namespace Settings

/-- The desk that follows the settings. -/
def desk (s : Settings) : Desk := { ledger := ⟨s.previewKey⟩, defaultTaxRate := s.taxRate }

/-- Read a text; numbers are written without an exponent. -/
def text? : Json → Option String
  | .string s => some s
  | .bool true => some "true"
  | .bool false => some "false"
  | .number (.whole i) => some (String.ofList (Text.integer i))
  | .number (.real x) => some (String.ofList x.positionalChars)
  | _ => none

/-- The values of the settings of a section, in order.  A section may also be a list
    of them; what follows the last is passed over. -/
def section? (keys : List (List String)) : Json → Option (List (Option Json))
  | .array items => Json.fields? keys (.array (items.take keys.length))
  | j => Json.fields? keys j

/-- Read the section on prices and stock into settings. -/
def withEngine? (s : Settings) (j : Json) : Option Settings := do
  match ← section? [["default_tax_rate"], ["preview_key"]] j with
  | [taxRate, previewKey] =>
    return { s with
      taxRate := ← Json.optional s.taxRate Decimal.ofJson? taxRate
      previewKey := ← Json.optional s.previewKey text? previewKey }
  | _ => none

/-- Read the section on messages into settings. -/
def withLogging? (s : Settings) (j : Json) : Option Settings := do
  match ← section? [["filter"]] j with
  | [logFilter] => return { s with logFilter := ← Json.optional s.logFilter text? logFilter }
  | _ => none

/-- Read the section on the catalog into settings.  As a list it has to hold the path. -/
def withCatalog? (s : Settings) (j : Json) : Option Settings := do
  if let .array [] := j then none
  match ← section? [["path"]] j with
  | [path] => return { s with catalogPath := ← Json.optional none (Json.nullable? text?) path }
  | _ => none

def ofJson? (j : Json) : Option Settings := do
  match ← section? [["engine"], ["logging"], ["catalog"]] j with
  | [engine, logging, catalog] =>
    let s ← Json.optional {} (withEngine? {}) engine
    let s ← Json.optional s (withLogging? s) logging
    Json.optional s (withCatalog? s) catalog
  | _ => none

end Settings

/-! ### Where settings come from

Three files in the directory `config`, each of which may be missing, and then variables of
the environment; later sources win.  A file is looked for under its name as it stands, and
then with the ending of each format. -/

abbrev Environment := List (String × String)

inductive SettingsFormat where
  | toml
  | json
  deriving DecidableEq, Repr

namespace SettingsFormat

/-- The formats in the order in which they are looked for. -/
def all : List SettingsFormat := [.toml, .json]

def ending : SettingsFormat → String
  | toml => ".toml"
  | json => ".json"

/-- How deep settings may nest. -/
def maxDepth : Nat := 127

/-- Read a JSON text whose outermost value is an object without values beyond all
    numbers. -/
def jsonLayer? (text : String) : Option (List (String × Json)) := do
  let j ← Json.ofString? text
  if !j.isUsable || maxDepth < j.depth then none
  match j.withoutRepeats with
  | .object members => return members
  | _ => none

/-- A text without the byte order mark at its start. -/
def withoutMark (text : String) : String :=
  match text.toList with
  | '\uFEFF' :: cs => String.ofList cs
  | _ => text

/-- The members of a text in a format. -/
def layer? (format : SettingsFormat) (text : String) : Option (List (String × Json)) :=
  match format with
  | toml => (Toml.ofText? (withoutMark text)).map Settings.Address.membersOf
  | json => jsonLayer? (withoutMark text)

end SettingsFormat

namespace Settings

section Files

variable {m : Type → Type} [Monad m] [Files m]

/-- The layer of the first file that is there; no layer where none is or the file
    cannot be read. -/
def firstLayer? (name : String) : List SettingsFormat → m (Option (List (String × Json)))
  | [] => return some []
  | format :: formats => do
    match ← Files.read (name ++ format.ending) with
    | .ok text => return format.layer? text
    | .error fault => if fault.isAbsence then firstLayer? name formats else return some []

/-- The layer of a file.  A file of just that name hides those with an ending, and
    counts only if its own ending is that of a format. -/
def fileLayer? (name : String) : m (Option (List (String × Json))) := do
  match ← Files.read name with
  | .ok text =>
    match SettingsFormat.all.find? fun format => Path.hasEnding format.ending name with
    | some format => return format.layer? text
    | none => return some []
  | .error fault =>
    if fault.isAbsence && Path.lastName name ≠ ".." then
      firstLayer? (Path.plain name) SettingsFormat.all
    else return some []

end Files

/-! ### The environment -/

/-- What the names of variables that hold settings begin with, in any case. -/
def variableMark : String := "tillpoint__"

/-- Double underscores as points. -/
def pointed : List Char → List Char
  | [] => []
  | '_' :: '_' :: cs => '.' :: pointed cs
  | c :: cs => c :: pointed cs

/-- A character in lower case, where that is an ASCII letter. -/
def lowered (c : Char) : Char := if c = '\u212A' then 'k' else c.toLower

/-- The setting that a variable holds. -/
def ofVariable? (v : String × String) : Option (String × Json) :=
  let name := v.1.toList.map lowered
  let mark := variableMark.toList
  if mark.isPrefixOf name then
    some (String.ofList (pointed (name.drop mark.length)), .string v.2)
  else none

/-- The layer of the environment. -/
def variableLayer (env : Environment) : List (String × Json) := env.filterMap ofVariable?

/-! ### All sources -/

/-- The variable that names the file between the others. -/
def modeVariable : String := "RUN_MODE"

/-- The mode where none is given. -/
def defaultMode : String := "development"

/-- The names of the settings files, in order. -/
def fileNames (env : Environment) : List String :=
  ["config/default", "config/" ++ (env.lookup modeVariable).getD defaultMode, "config/local"]

/-- The settings of all sources, unless one is malformed or a value is not of its
    kind. -/
def load? {m : Type → Type} [Monad m] [Files m] (env : Environment) : m (Option Settings) := do
  let layers ← (fileNames env).mapM (fileLayer? (m := m))
  return do
    let layers ← layers.mapM id
    ofJson? ((layers ++ [variableLayer env]).foldl overlay (.object []))

end Settings

end PointOfSale
