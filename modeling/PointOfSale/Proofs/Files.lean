/-
  PointOfSale/Proofs/Files.lean
  =============================
  **Reading and writing files, on a disk that is a value.**  What is written to a file
  is read from it: a write puts a text at a place and changes no other, and every directory
  stays one, so the path leads to the same place after the write as before.

  A program with faults, over a state, runs from a state to a result and a state; a fault
  does not undo what was done before it.  A program that only reads keeps its state.
-/
import PointOfSale.Files.Disk
import PointOfSale.Proofs.Checked

namespace PointOfSale

namespace Disk

variable {disk : Disk} {place target : List String}

/-! ### Putting a text at a place -/

theorem find?_replaced (files : List (List String × String)) (place other : List String)
    (text : String) :
    ((files.map fun f => if f.1 = place then (place, text) else f).find? (·.1 = other)).map (·.2) =
      if other = place then (files.find? (·.1 = other)).map fun _ => text
      else (files.find? (·.1 = other)).map (·.2) := by
  induction files with
  | nil => simp
  | cons f fs ih =>
    rw [List.map_cons]
    by_cases hplace : f.1 = place
    · by_cases hother : other = place
      · simp [hplace, hother]
      · have hne : place ≠ other := fun heq => hother heq.symm
        simpa [hplace, hne, hother] using ih
    · by_cases hother : f.1 = other
      · have hne : other ≠ place := fun heq => hplace (hother.trans heq)
        simp [hother, hne]
      · simpa [hplace, hother] using ih

theorem text?_put (disk : Disk) (place other : List String) (text : String) :
    (disk.put place text).text? other = if other = place then some text else disk.text? other := by
  rw [put]
  split
  case isTrue hthere =>
    rw [text?, find?_replaced]
    split
    case isTrue hother =>
      obtain ⟨f, hf⟩ : ∃ f, disk.files.find? (·.1 = other) = some f := by
        rw [← Option.isSome_iff_exists, List.find?_isSome]
        simpa [hother] using hthere
      rw [hf, Option.map_some]
    case isFalse => rfl
  case isFalse hnew =>
    have hnone : disk.files.find? (·.1 = place) = none := by
      simpa only [List.any_eq_true, not_exists, not_and, List.find?_eq_none] using hnew
    by_cases hother : other = place
    · simp [text?, hother, hnone]
    · simp [text?, hother, Ne.symm hother]

theorem hasDirectory_put {directory : List String} (h : disk.hasDirectory directory = true)
    (place : List String) (text : String) : (disk.put place text).hasDirectory directory = true := by
  rw [hasDirectory, Bool.or_eq_true] at h ⊢
  refine h.imp_right fun hfile => ?_
  obtain ⟨f, hf, hbelow⟩ := List.any_eq_true.1 hfile
  apply List.any_eq_true.2
  rw [put]
  split
  · -- a file at the place keeps its place
    refine ⟨_, List.mem_map_of_mem hf, ?_⟩
    split
    case isTrue heq => rwa [heq] at hbelow
    case isFalse => exact hbelow
  · exact ⟨f, List.mem_append_left _ hf, hbelow⟩

/-! ### Paths -/

/-- A path that leads to a place leads there also when a text is put at it. -/
theorem walk_put (htarget : disk.hasDirectory target = false) (text : String) {names : List String}
    (h : disk.walk place names = .ok target) : (disk.put target text).walk place names = .ok target := by
  induction names generalizing place with
  | nil => exact h
  | cons name names ih =>
    rw [walk] at h
    split at h
    case isTrue => cases h
    case isFalse hfree =>
    split at h
    case isTrue => cases h
    case isFalse hdirectory =>
    -- the walk goes on from a directory, so from another place than the target
    have hne : place ≠ target := by
      rintro rfl
      simp [htarget] at hdirectory
    have hkept : (disk.put target text).hasDirectory place = true := by
      apply hasDirectory_put
      simpa using hdirectory
    rw [walk, text?_put, if_neg hne, if_neg hfree, hkept]
    split at h
    case isTrue hstay => simpa [hstay] using ih h
    case isFalse hmove =>
    split at h
    case isTrue hup =>
      subst hup
      simpa [hmove] using ih h
    case isFalse hdown => simpa [hmove, hdown] using ih h

/-- **A file that is written is read as the text that was written.** -/
theorem read_of_write {after : Disk} {path text : String} (h : disk.write path text = .ok after) :
    after.read path = .ok text := by
  rw [write] at h
  obtain ⟨target, hlocate, h⟩ := bind_eq_ok_iff.1 h
  obtain ⟨hfile, rfl⟩ : disk.hasDirectory target = false ∧ disk.put target text = after := by
    split at h
    case isTrue => cases h
    case isFalse hfile => exact ⟨by simpa using hfile, by simpa using h⟩
  have hagain : (disk.put target text).locate path = .ok target := by
    rw [locate] at hlocate ⊢
    split at hlocate
    case isTrue => cases hlocate
    case isFalse hpath =>
      rw [if_neg hpath]
      exact walk_put hfile text hlocate
  rw [read, hagain, ok_bind, text?_put, if_pos rfl]
  rfl

/-- A file in the working directory is read by its name. -/
theorem read_of_text? {name text : String} (hname : Path.names name = [name])
    (hstay : Path.isStay name = false) (hup : name ≠ "..") (hroot : name.startsWith "/" = false)
    (hfree : disk.text? [] = none) (htext : disk.text? [name] = some text) :
    disk.read name = .ok text := by
  have hne : name ≠ "" := by
    rintro rfl
    cases hstay
  have hlocate : disk.locate name = .ok [name] := by
    simp [locate, hne, hroot, hname, walk, hfree, hasDirectory, isAround, hstay, hup]
  rw [read, hlocate, ok_bind, htext]
  rfl

/-! ### Programs on a disk -/

theorem run_read (path : String) (disk : Disk) :
    (Files.read path : StateM Disk _).run disk = (disk.read path, disk) := rfl

theorem run_write (path text : String) (disk : Disk) :
    (Files.write path text : StateM Disk _).run disk =
      match disk.write path text with
      | .ok after => (.ok (), after)
      | .error fault => (.error fault, disk) := by
  cases h : disk.write path text <;> simp [Files.write, h] <;> rfl

end Disk

variable {σ ε ε' α β : Type}

/-! ### Programs with faults -/

theorem run_bind (x : ExceptT ε (StateM σ) α) (f : α → ExceptT ε (StateM σ) β) (s : σ) :
    (x >>= f).run.run s =
      match x.run.run s with
      | (.ok a, after) => (f a).run.run after
      | (.error fault, after) => (.error fault, after) := by
  rw [ExceptT.run_bind, StateT.run_bind]
  rcases x.run.run s with ⟨r, after⟩
  cases r <;> rfl

/-- A step that cannot fail is run, and the rest goes on from where it ends. -/
theorem run_lift_bind (x : StateM σ α) (f : α → ExceptT ε (StateM σ) β) (s : σ) :
    ((liftM x : ExceptT ε (StateM σ) α) >>= f).run.run s =
      (f (x.run s).1).run.run (x.run s).2 := rfl

theorem run_adapt (x : ExceptT ε (StateM σ) α) (f : ε → ε') (s : σ) :
    (x.adapt f).run.run s = ((x.run.run s).1.mapError f, (x.run.run s).2) := rfl

/-! ### Programs that only read -/

/-- The program ends in the state that it starts in. -/
def KeepsState (x : StateM σ α) : Prop := ∀ s, (x.run s).2 = s

namespace KeepsState

theorem pure (a : α) : KeepsState (pure a : StateM σ α) := fun _ => rfl

theorem bind {x : StateM σ α} {f : α → StateM σ β} (hx : KeepsState x)
    (hf : ∀ a, KeepsState (f a)) : KeepsState (x >>= f) := by
  intro s
  have hbind : ((x >>= f).run s).2 = ((f (x.run s).1).run (x.run s).2).2 := rfl
  rw [hbind, hf, hx]

theorem mapM {f : α → StateM σ β} (hf : ∀ a, KeepsState (f a)) (as : List α) :
    KeepsState (as.mapM f) := by
  induction as with
  | nil => exact pure []
  | cons a as ih =>
    rw [List.mapM_cons]
    exact (hf a).bind fun b => ih.bind fun bs => pure (b :: bs)

/-- A program that may fail keeps its state if both of its steps do. -/
theorem bind_of_fails {x : ExceptT ε (StateM σ) α} {f : α → ExceptT ε (StateM σ) β}
    (hx : KeepsState x.run) (hf : ∀ a, KeepsState (f a).run) : KeepsState (x >>= f).run := by
  intro s
  have hkept := hx s
  rw [run_bind]
  rcases hrun : x.run.run s with ⟨fault | a, after⟩
  · rwa [hrun] at hkept
  · rw [hrun] at hkept
    dsimp only at hkept ⊢
    rw [hkept]
    exact hf a s

end KeepsState

/-! ### A disk that keeps a log

A write is seen whether it changes a file, leaves it as it was, or fails. -/

/-- A disk, and every write that was tried on it, in order. -/
structure LoggedDisk where
  disk : Disk := {}
  writes : List (String × String) := []
  deriving DecidableEq

namespace LoggedDisk

def write (log : LoggedDisk) (path text : String) : Except FileFault Unit × LoggedDisk :=
  let writes := log.writes ++ [(path, text)]
  match log.disk.write path text with
  | .ok disk => (.ok (), { disk, writes })
  | .error fault => (.error fault, { log with writes })

theorem writes_write (log : LoggedDisk) (path text : String) :
    (log.write path text).2.writes = log.writes ++ [(path, text)] := by
  unfold write
  cases log.disk.write path text <;> rfl

instance : Files (StateM LoggedDisk) where
  read path := return (← get).disk.read path
  write path text := do
    let (result, after) := (← get).write path text
    set after
    return result

theorem run_read (path : String) (log : LoggedDisk) :
    (Files.read path : StateM LoggedDisk _).run log = (log.disk.read path, log) := rfl

theorem run_write (path text : String) (log : LoggedDisk) :
    (Files.write path text : StateM LoggedDisk _).run log = log.write path text := rfl

theorem keepsState_read (path : String) : KeepsState (Files.read path : StateM LoggedDisk _) :=
  fun _ => rfl

end LoggedDisk

end PointOfSale
