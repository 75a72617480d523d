/-
  PointOfSale/CommandLine/Arguments.lean
  ======================================
  **The grammar of the command line.**  Options begin with two hyphens; a value
  stands behind an equals sign or is the next argument, which then may not begin
  with a hyphen unless it is one hyphen alone.  No option is given twice.  Two
  hyphens alone may end the arguments.
-/
import PointOfSale.Uuid

namespace PointOfSale.CommandLine

/-- What the program is asked to do. -/
inductive Command where
  /-- Quote the price of an item for the choices in a file. -/
  | quote (item : Uuid) (choices : String)
  /-- Show the stock that the selection in a file would leave. -/
  | preview (selection : String)
  /-- Apply an operation for the selections in a file, and write the catalog back if
      asked to. -/
  | adjust (item : Uuid) (selections : String) (operation : String) (commits : Bool)
  deriving DecidableEq, Repr

structure Arguments where
  catalog : Option String := none
  command : Command
  deriving DecidableEq, Repr

/-! ### Options -/

/-- The options that a command has. -/
structure Options where
  /-- Those with a value. -/
  valued : List String
  /-- Those without. -/
  flags : List String := []

/-- Options that were given, with their values; a flag has the empty one. -/
abbrev Given := List (String × String)

/-- The name of an option, and the value behind its equals sign. -/
def optionParts? (arg : String) : Option (String × Option String) :=
  match arg.toList with
  | '-' :: '-' :: cs =>
    let (name, value) := cs.span (· ≠ '=')
    some (String.ofList name, value.tail?.map String.ofList)
  | _ => none

/-- Whether an argument may be the value of an option before it. -/
def isValue (arg : String) : Bool := !arg.startsWith "-" || arg = "-"

/-- What an argument is where an option may stand. -/
inductive Word where
  /-- An option that is complete. -/
  | option (name value : String)
  /-- An option whose value is the next argument. -/
  | awaiting (name : String)
  /-- No option. -/
  | plain
  /-- An option that is not known, or a flag with a value. -/
  | refused
  deriving DecidableEq, Repr

/-- What an argument is among the options of a command. -/
def Options.word (options : Options) (arg : String) : Word :=
  match optionParts? arg with
  | none => if isValue arg then .plain else .refused
  | some (name, value) =>
    if options.valued.contains name then
      match value with
      | some v => .option name v
      | none => .awaiting name
    else if options.flags.contains name && value.isNone then .option name ""
    else .refused

/-- Read options up to the first argument that is none, and give what is left.  An
    option may be waiting for its value. -/
def Options.read? (options : Options) (waiting : Option String) :
    List String → Option (Given × List String)
  | [] => if waiting.isNone then some ([], []) else none
  | arg :: rest =>
    match waiting with
    | some name =>
      if isValue arg then
        (options.read? none rest).map fun (given, left) => ((name, arg) :: given, left)
      else none
    | none =>
      match options.word arg with
      | .option name value =>
        (options.read? none rest).map fun (given, left) => ((name, value) :: given, left)
      | .awaiting name => options.read? (some name) rest
      | .plain => some ([], arg :: rest)
      | .refused => none

/-- Read options, each at most once. -/
def Options.readDistinct? (options : Options) (args : List String) :
    Option (Given × List String) := do
  let (given, rest) ← options.read? none args
  if (given.map (·.1)).Nodup then return (given, rest) else none

def terminator : String := "--"

/-- Read the options of a command, which nothing follows. -/
def Options.readAll? (options : Options) (args : List String) : Option Given := do
  let args := if args.getLast? = some terminator then args.dropLast else args
  let (given, rest) ← options.readDistinct? args
  if rest.isEmpty then return given else none

/-! ### Commands -/

/-- A path may not be empty. -/
def path? (text : String) : Option String := if text = "" then none else some text

/-- The operation of `adjust` where none is given. -/
def defaultOperation : String := "decrement"

def command? (name : String) (args : List String) : Option Command := do
  if name = "quote" then
    let given ← Options.readAll? { valued := ["item", "selections"] } args
    return .quote (← Uuid.ofString? (← given.lookup "item"))
      (← path? (← given.lookup "selections"))
  else if name = "preview" then
    let given ← Options.readAll? { valued := ["selection"] } args
    return .preview (← path? (← given.lookup "selection"))
  else if name = "adjust" then
    let given ← Options.readAll?
      { valued := ["item", "selections", "op"], flags := ["commit"] } args
    return .adjust (← Uuid.ofString? (← given.lookup "item"))
      (← path? (← given.lookup "selections"))
      ((given.lookup "op").getD defaultOperation) (given.lookup "commit").isSome
  else none

/-- Read the arguments of a run.  The catalog that the environment names counts where
    the arguments name none. -/
def arguments? (args : List String) (catalogVariable : Option String) : Option Arguments := do
  let (given, rest) ← Options.readDistinct? { valued := ["catalog"] } args
  match rest with
  | name :: args =>
    let command ← command? name args
    match (given.lookup "catalog").or catalogVariable with
    | some path => return { catalog := some (← path? path), command }
    | none => return { command }
  | [] => none

end PointOfSale.CommandLine
