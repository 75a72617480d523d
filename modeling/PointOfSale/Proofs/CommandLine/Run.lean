/-
  PointOfSale/Proofs/CommandLine/Run.lean
  =======================================
  **The program, step by step, on a disk that keeps a log.**  Each step that reads gives
  what the disk holds and leaves the log as it is; only saving the catalog writes.  So a
  run that does not commit an adjustment writes nothing (`writes_nothing`).
-/
import PointOfSale.CommandLine.Program
import PointOfSale.Proofs.Catalog
import PointOfSale.Proofs.Files
import PointOfSale.Settings

namespace PointOfSale

/-! ### Reading the settings

Files are read one after the other, and where reading keeps the state, so do all of them. -/

namespace Settings

variable {σ : Type} [Files (StateM σ)]
  (hread : ∀ path, KeepsState (Files.read path : StateM σ (Except FileFault String)))

include hread

theorem keepsState_firstLayer? (name : String) (formats : List SettingsFormat) :
    KeepsState (firstLayer? (m := StateM σ) name formats) := by
  induction formats with
  | nil => exact .pure (some [])
  | cons format formats ih =>
    refine (hread (name ++ format.ending)).bind ?_
    rintro (fault | text)
    · dsimp only
      split
      · exact ih
      · exact .pure (some [])
    · exact .pure (format.layer? text)

theorem keepsState_fileLayer? (name : String) :
    KeepsState (fileLayer? (m := StateM σ) name) := by
  refine (hread name).bind ?_
  rintro (fault | text)
  · dsimp only
    split
    · exact keepsState_firstLayer? hread _ _
    · exact .pure (some [])
  · dsimp only
    split <;> exact .pure _

theorem keepsState_load? (env : Environment) : KeepsState (load? (m := StateM σ) env) := by
  refine (KeepsState.mapM (keepsState_fileLayer? hread) (fileNames env)).bind ?_
  intro layers
  exact .pure _

end Settings

namespace CommandLine

/-! ### The program, step by step -/

variable {α : Type}

theorem run_engine (x : Except Fault α) (log : LoggedDisk) :
    (engine (m := StateM LoggedDisk) x).run.run log = (x.mapError .engine, log) := by
  cases x <;> rfl

theorem run_readRecord (read : Json → Option α) (path : String) (log : LoggedDisk) :
    (readRecord (m := StateM LoggedDisk) read path).run.run log =
      (match log.disk.read path with
        | .ok text =>
          match (Json.ofString? text).bind read with
          | some a => .ok a
          | none => .error (.malformed path)
        | .error _ => .error (.unreadable path), log) := by
  rw [readRecord, run_lift_bind, LoggedDisk.run_read]
  cases log.disk.read path with
  | error fault => rfl
  | ok text =>
    dsimp only
    cases (Json.ofString? text).bind read <;> rfl

/-- Run the program on a disk that keeps a log. -/
def runOn (args : List String) (env : Environment) (log : LoggedDisk) : Outcome × LoggedDisk :=
  (run (m := StateM LoggedDisk) args env).run log

/-- The end of a run, by what it answers. -/
def Outcome.ofAnswer : Except RunFault Json → Outcome
  | .ok j => .printed (j.prettyText ++ "\n")
  | .error fault => .failed fault

theorem runOn_eq {args : List String} {env : Environment} {arguments : Arguments}
    (h : arguments? args (env.lookup catalogVariable) = some arguments) (log : LoggedDisk) :
    runOn args env log =
      let ended := (answer (m := StateM LoggedDisk) arguments env).run.run log
      (Outcome.ofAnswer ended.1, ended.2) := by
  rw [runOn, run, h]
  dsimp only
  rw [StateT.run_bind]
  rcases (answer (m := StateM LoggedDisk) arguments env).run.run log with ⟨r, after⟩
  cases r <;> rfl

/-! ### Runs that do not commit -/

theorem keepsState_readRecord (read : Json → Option α) (path : String) :
    KeepsState (readRecord (m := StateM LoggedDisk) read path).run := by
  intro log
  rw [run_readRecord]

theorem keepsState_engine (x : Except Fault α) :
    KeepsState (engine (m := StateM LoggedDisk) x).run := by
  intro log
  rw [run_engine]

theorem keepsState_carryOut {desk : Desk} {catalog : String} {items : List Item}
    {command : Command} (h : ∀ id path token, command ≠ .adjust id path token true) :
    KeepsState (carryOut (m := StateM LoggedDisk) desk catalog items command).run := by
  cases command with
  | quote item path =>
    refine .bind_of_fails (keepsState_readRecord _ path) fun choices => ?_
    exact .bind_of_fails (keepsState_engine _) fun _ => .pure _
  | preview path =>
    refine .bind_of_fails (keepsState_readRecord _ path) fun selection => ?_
    exact .bind_of_fails (keepsState_engine _) fun _ => .pure _
  | adjust item path operation commits =>
    cases commits with
    | true => exact absurd rfl (h item path operation)
    | false =>
      refine .bind_of_fails (keepsState_engine _) fun op => ?_
      refine .bind_of_fails (keepsState_readRecord _ path) fun selections => ?_
      exact .bind_of_fails (keepsState_engine _) fun _ => .pure _

theorem keepsState_answer {arguments : Arguments} {env : Environment}
    (h : ∀ id path token, arguments.command ≠ .adjust id path token true) :
    KeepsState (answer (m := StateM LoggedDisk) arguments env).run := by
  intro log
  rw [answer, run_lift_bind, Settings.keepsState_load? LoggedDisk.keepsState_read env log]
  cases ((Settings.load? (m := StateM LoggedDisk) env).run log).1 with
  | none => rfl
  | some settings =>
    dsimp only
    cases arguments.catalog.or settings.catalogPath with
    | none => rfl
    | some catalog =>
      refine KeepsState.bind_of_fails ?_ (fun items => keepsState_carryOut h) log
      intro other
      rw [run_adapt, Catalog.run_load, LoggedDisk.run_read]

/-- A run that does not commit an adjustment writes nothing. -/
theorem writes_nothing {args : List String} {env : Environment}
    (h : ∀ named id path token, arguments? args (env.lookup catalogVariable) ≠
      some ⟨named, .adjust id path token true⟩) (log : LoggedDisk) :
    (runOn args env log).2 = log := by
  cases harguments : arguments? args (env.lookup catalogVariable) with
  | none =>
    rw [runOn, run, harguments]
    rfl
  | some arguments =>
    rw [runOn_eq harguments]
    apply keepsState_answer
    intro id path token hcommand
    apply h arguments.catalog id path token
    rw [harguments, ← hcommand]

end CommandLine

end PointOfSale
