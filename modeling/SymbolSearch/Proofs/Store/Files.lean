import Mathlib.Data.Set.Basic
import SymbolSearch.Files
import SymbolSearch.Proofs.Distinct

/-!
# What stands where

Where a path leads does not depend on files, only on the directories on the way. So it still leads
there after directories were made or files were written, and a file that was written is read back,
while all others stay as they are.
-/

namespace SymbolSearch.FileTree

variable {tree middle after : FileTree}

/-- The place to which a path leads. -/
def locate (tree : FileTree) (path : String) : Except FileFault (List String) :=
  tree.locateFrom [] (tree.steps path)

theorem read_of_locate {path : String} {place : List String} (h : tree.locate path = .ok place) :
    tree.read path = match tree.entry? place with
      | none => .error .notFound
      | some .directory => .error .isDirectory
      | some (.file content) => .ok content := by
  rw [read, show tree.locateFrom [] (tree.steps path) = .ok place from h]
  rfl

theorem read_of_lost {path : String} {fault : FileFault} (h : tree.locate path = .error fault) :
    tree.read path = .error fault := by
  rw [read, show tree.locateFrom [] (tree.steps path) = .error fault from h]
  rfl

theorem read_eq_ok_iff {path : String} {content : Bytes} : tree.read path = .ok content
    ↔ ∃ place, tree.locate path = .ok place ∧ tree.entry? place = some (.file content) := by
  cases hplace : tree.locate path with
  | error fault => simp [read_of_lost hplace]
  | ok place =>
    rw [read_of_locate hplace]
    split <;> simp_all

/-! ### Entries -/

theorem entry_root (tree : FileTree) : tree.entry? [] = some .directory := rfl

theorem lookup_put (tree : FileTree) (place : List String) (entry : FileEntry)
    (other : List String) : (tree.put place entry).entries.lookup other
      = if other = place then some entry else tree.entries.lookup other := by
  rw [put, List.lookup_cons]
  by_cases hother : other = place
  · simp [hother]
  · rw [beq_false_of_ne hother, if_neg hother]
    exact Distinct.lookup_filter_ne hother tree.entries

theorem entry_put {place : List String} (hplace : place ≠ []) (entry : FileEntry)
    (other : List String) : entry? (tree.put place entry) other
      = if other = place then some entry else tree.entry? other := by
  unfold entry?
  rw [lookup_put]
  by_cases hroot : other = []
  · simp [hroot, Ne.symm hplace]
  · simp [hroot]

theorem ne_root_of_entry {place : List String} (h : tree.entry? place ≠ some .directory) :
    place ≠ [] := by
  rintro rfl
  exact h tree.entry_root

/-! ### Places -/

/-- The place one step away. -/
def next (place : List String) (step : String) : List String :=
  if step = "." then place else if step = ".." then place.dropLast else place ++ [step]

theorem locateFrom_cons (tree : FileTree) (place : List String) (step : String)
    (steps : List String) : tree.locateFrom place (step :: steps)
      = match tree.entry? place with
        | none => .error .notFound
        | some (.file _) => .error .notDirectory
        | some .directory => tree.locateFrom (next place step) steps := by
  rw [locateFrom, next]
  cases tree.entry? place with
  | none => rfl
  | some entry =>
    cases entry with
    | file content => rfl
    | directory =>
      by_cases hdot : step = "."
      · simp [hdot]
      · by_cases hdots : step = ".."
        · simp [hdots]
        · simp [hdot, hdots]

theorem locateFrom_cons_eq_ok_iff {place target : List String} {step : String}
    {steps : List String} : tree.locateFrom place (step :: steps) = .ok target
      ↔ tree.entry? place = some .directory
        ∧ tree.locateFrom (next place step) steps = .ok target := by
  rw [locateFrom_cons]
  cases tree.entry? place with
  | none => simp
  | some entry => cases entry <;> simp

theorem locateFrom_append (tree : FileTree) (place : List String) (steps more : List String) :
    tree.locateFrom place (steps ++ more)
      = tree.locateFrom place steps >>= fun middle => tree.locateFrom middle more := by
  induction steps generalizing place with
  | nil => rfl
  | cons step steps ih =>
    rw [List.cons_append, locateFrom_cons, locateFrom_cons]
    cases tree.entry? place with
    | none => rfl
    | some entry =>
      cases entry with
      | file content => rfl
      | directory => exact ih (next place step)

/-! ### Trees that grow -/

/-- Directories may have been added, and files at the given places changed, but nothing else. -/
structure Keeps (changed : Set (List String)) (tree after : FileTree) : Prop where
  working : after.working = tree.working
  directories : ∀ place, tree.entry? place = some .directory → after.entry? place = some .directory
  files : ∀ place ∉ changed, ∀ content,
    after.entry? place = some (.file content) ↔ tree.entry? place = some (.file content)

namespace Keeps

variable {changed : Set (List String)}

theorem refl (tree : FileTree) : Keeps changed tree tree where
  working := rfl
  directories := fun _ h => h
  files := fun _ _ _ => Iff.rfl

theorem trans (first : Keeps changed tree middle) (second : Keeps changed middle after) :
    Keeps changed tree after where
  working := second.working.trans first.working
  directories := fun place h => second.directories place (first.directories place h)
  files := fun place h content => (second.files place h content).trans (first.files place h content)

theorem mono {more : Set (List String)} (keeps : Keeps changed tree after) (h : changed ⊆ more) :
    Keeps more tree after where
  working := keeps.working
  directories := keeps.directories
  files := fun place hplace => keeps.files place fun hchanged => hplace (h hchanged)

theorem locateFrom (keeps : Keeps changed tree after) {place target steps : List String}
    (h : tree.locateFrom place steps = .ok target) :
    after.locateFrom place steps = .ok target := by
  induction steps generalizing place with
  | nil => exact h
  | cons step steps ih =>
    rw [locateFrom_cons_eq_ok_iff] at h ⊢
    exact ⟨keeps.directories place h.1, ih h.2⟩

/-- A path leads where it led before. -/
theorem locate (keeps : Keeps changed tree after) {path : String} {place : List String}
    (h : tree.locate path = .ok place) : after.locate path = .ok place := by
  rw [FileTree.locate, steps, keeps.working]
  exact keeps.locateFrom h

/-- What could be read can still be read, unless it is one of the files that changed. -/
theorem read (keeps : Keeps changed tree after) {path : String} {content : Bytes}
    (h : tree.read path = .ok content)
    (hchanged : ∀ place, tree.locate path = .ok place → place ∉ changed) :
    after.read path = .ok content := by
  obtain ⟨place, hplace, hentry⟩ := read_eq_ok_iff.1 h
  refine read_eq_ok_iff.2 ⟨place, keeps.locate hplace, ?_⟩
  exact (keeps.files place (hchanged place hplace) content).2 hentry

end Keeps

/-! ### Directories that are made -/

theorem keeps_put_directory {place : List String} (h : tree.entry? place = none) :
    Keeps ∅ tree (tree.put place .directory) := by
  have hplace : place ≠ [] := by
    rintro rfl
    cases h
  refine ⟨rfl, fun other hother => ?_, fun other _ content => ?_⟩
  · by_cases hsame : other = place <;> simp_all [entry_put]
  · by_cases hsame : other = place <;> simp_all [entry_put]

theorem keeps_makeDirectory {steps : List String} (h : tree.makeDirectory steps = .ok after) :
    Keeps ∅ tree after := by
  rw [makeDirectory] at h
  cases hplace : tree.locateFrom [] steps with
  | error fault =>
    rw [hplace] at h
    cases h
  | ok place =>
    rw [hplace] at h
    dsimp only [bind, Except.bind] at h
    split at h
    · cases h
    · cases h
      exact keeps_put_directory (by assumption)
    · cases h
    · cases h

theorem keeps_ensureDirectory {steps : List String} (h : tree.ensureDirectory steps = .ok after) :
    Keeps ∅ tree after := by
  rw [ensureDirectory] at h
  split at h
  · cases h
    exact keeps_makeDirectory (by assumption)
  · split at h
    · split at h
      · cases h
        exact .refl tree
      · cases h
    · cases h

theorem keeps_makeDirectoriesBack {steps : List String}
    (h : tree.makeDirectoriesBack steps = .ok after) : Keeps ∅ tree after := by
  induction steps generalizing after with
  | nil =>
    cases h
    exact .refl tree
  | cons step before ih =>
    rw [makeDirectoriesBack] at h
    split at h
    · cases hbefore : tree.makeDirectoriesBack before with
      | error fault =>
        rw [hbefore] at h
        cases h
      | ok middle =>
        rw [hbefore] at h
        exact (ih hbefore).trans (keeps_ensureDirectory h)
    · exact keeps_ensureDirectory h

/-- Making directories changes no file. -/
theorem keeps_makeDirectories {path : String} (h : tree.makeDirectories path = .ok after) :
    Keeps ∅ tree after :=
  keeps_makeDirectoriesBack h

/-! ### Files that are written -/

theorem write_of_locate {path : String} {place : List String} (h : tree.locate path = .ok place)
    (content : Bytes) :
    tree.write path content = match tree.entry? place, tree.entry? place.dropLast with
      | some .directory, _ => .error .isDirectory
      | _, some .directory => .ok (tree.put place (.file content))
      | _, some (.file _) => .error .notDirectory
      | _, none => .error .notFound := by
  rw [write, show tree.locateFrom [] (tree.steps path) = .ok place from h]
  rfl

theorem write_of_lost {path : String} {fault : FileFault} (h : tree.locate path = .error fault)
    (content : Bytes) : tree.write path content = .error fault := by
  rw [write, show tree.locateFrom [] (tree.steps path) = .error fault from h]
  rfl

/-- Where a file is put, and what was there. -/
theorem write_eq_ok_iff {path : String} {content : Bytes} :
    tree.write path content = .ok after
      ↔ ∃ place, tree.locate path = .ok place ∧ tree.entry? place ≠ some .directory
        ∧ tree.entry? place.dropLast = some .directory
        ∧ tree.put place (.file content) = after := by
  cases hplace : tree.locate path with
  | error fault => simp [write_of_lost hplace]
  | ok place =>
    rw [write_of_locate hplace]
    split <;> simp_all

theorem keeps_put_file {place : List String} (h : tree.entry? place ≠ some .directory)
    (content : Bytes) : Keeps {place} tree (tree.put place (.file content)) := by
  have hplace : place ≠ [] := ne_root_of_entry h
  refine ⟨rfl, fun other hother => ?_, fun other hchanged other' => ?_⟩
  · have hne : other ≠ place := by
      rintro rfl
      exact h hother
    rw [entry_put hplace, if_neg hne]
    exact hother
  · have hne : other ≠ place := hchanged
    rw [entry_put hplace, if_neg hne]

end SymbolSearch.FileTree
