import Mathlib.Data.List.Perm.Subperm
import SymbolSearch.Proofs.Store.Names

/-!
# Files that are written aside

So that nobody reads half an index, its bytes are written into a new file beside the one they are
meant for, which takes the name of the other when it is complete. Among the names for the new file
there is always one that is free, and in the end the tree is as if the bytes had been written at
once: no file stays behind.
-/

namespace SymbolSearch

namespace FileTree

variable {tree after : FileTree}

/-- A new file, where nothing stands yet. -/
def create (tree : FileTree) (path : String) : Except FileFault FileTree := do
  let place ← tree.locate path
  match tree.entry? place, tree.entry? place.dropLast with
  | some _, _ => .error .alreadyExists
  | none, some .directory => .ok (tree.put place (.file []))
  | none, some (.file _) => .error .notDirectory
  | none, none => .error .notFound

/-- A new file at the first of the paths where nothing stands yet. -/
def createFirst (tree : FileTree) : List String → Except FileFault (String × FileTree)
  | [] => .error .alreadyExists
  | path :: others =>
    match tree.create path with
    | .error .alreadyExists => createFirst tree others
    | .error fault => .error fault
    | .ok after => .ok (path, after)

def remove (tree : FileTree) (place : List String) : FileTree :=
  { tree with entries := tree.entries.filter (·.1 != place) }

/-- Moves a file, over the one that stands at the target. -/
def rename (tree : FileTree) (source target : String) : Except FileFault FileTree := do
  let origin ← tree.locate source
  let place ← tree.locate target
  match tree.entry? origin with
  | none => .error .notFound
  | some .directory => .error .isDirectory
  | some (.file content) =>
    let written ← tree.write target content
    .ok (if origin = place then tree else written.remove origin)

/-! ### Free names -/

theorem entry_eq_none_iff {place : List String} (hplace : place ≠ []) :
    tree.entry? place = none ↔ place ∉ tree.entries.map (·.1) := by
  unfold entry?
  rw [if_neg (by simpa using hplace), List.lookup_eq_none_iff, List.mem_map]
  constructor
  · rintro h ⟨entry, hentry, rfl⟩
    simpa using h entry hentry
  · intro h entry hentry
    exact bne_iff_ne.2 fun hsame => h ⟨entry, hentry, hsame.symm⟩

/-- There are too few entries for all of the places. -/
theorem exists_free {places : List (List String)} (hnodup : places.Nodup)
    (hroot : ∀ place ∈ places, place ≠ []) (hlength : tree.entries.length < places.length) :
    ∃ place ∈ places, tree.entry? place = none := by
  by_contra! hall
  have hsubset : places ⊆ tree.entries.map (·.1) := by
    intro place hplace
    have hentry := hall place hplace
    rw [Ne, entry_eq_none_iff (hroot place hplace), not_not] at hentry
    exact hentry
  have hle := (hnodup.subperm hsubset).length_le
  rw [List.length_map] at hle
  omega

theorem exists_free_name (around : List String) {names : List String} (hnodup : names.Nodup)
    (hlength : tree.entries.length < names.length) :
    ∃ name ∈ names, tree.entry? (around ++ [name]) = none := by
  have hplaces : (names.map fun name => around ++ [name]).Nodup := by
    apply hnodup.map
    intro name other h
    simpa using h
  obtain ⟨place, hplace, hentry⟩ := exists_free hplaces (by simp) (by simpa using hlength)
  obtain ⟨name, hname, rfl⟩ := List.mem_map.1 hplace
  exact ⟨name, hname, hentry⟩

theorem create_of_locate {path : String} {place : List String}
    (hplace : tree.locate path = .ok place)
    (hparent : tree.entry? place.dropLast = some .directory) :
    tree.create path = if tree.entry? place = none then .ok (tree.put place (.file []))
      else .error .alreadyExists := by
  rw [create, hplace]
  dsimp only [bind, Except.bind]
  rw [hparent]
  cases tree.entry? place <;> simp

/-- The first name in a directory that is free is taken. -/
theorem createFirst_eq_ok {directory : String} {around : List String}
    (haround : tree.directoryAt directory = .ok around) {names : List String}
    (plain : ∀ name ∈ names, Path.IsPlain name)
    (hfree : ∃ name ∈ names, tree.entry? (around ++ [name]) = none) :
    ∃ name ∈ names, tree.entry? (around ++ [name]) = none
      ∧ tree.createFirst (names.map (Path.join directory))
        = .ok (Path.join directory name, tree.put (around ++ [name]) (.file [])) := by
  induction names with
  | nil =>
    obtain ⟨name, hname, -⟩ := hfree
    cases hname
  | cons name others ih =>
    obtain ⟨hplace, hparent⟩ :=
      locate_join_of_directoryAt (plain name List.mem_cons_self) haround
    rw [List.map_cons, createFirst, create_of_locate hplace hparent]
    by_cases hname : tree.entry? (around ++ [name]) = none
    · exact ⟨name, List.mem_cons_self, hname, by rw [if_pos hname]⟩
    · have hothers : ∃ other ∈ others, tree.entry? (around ++ [other]) = none := by
        obtain ⟨other, hother, hentry⟩ := hfree
        rcases List.mem_cons.1 hother with rfl | hother
        · exact absurd hentry hname
        · exact ⟨other, hother, hentry⟩
      obtain ⟨other, hother, hentry, hcreate⟩ :=
        ih (fun other h => plain other (List.mem_cons_of_mem _ h)) hothers
      rw [if_neg hname]
      exact ⟨other, List.mem_cons_of_mem _ hother, hentry, hcreate⟩

theorem createFirst_eq_error {fault : FileFault} {paths : List String} (hpaths : paths ≠ [])
    (h : ∀ path ∈ paths, tree.locate path = .error fault) :
    tree.createFirst paths = .error fault := by
  induction paths with
  | nil => exact absurd rfl hpaths
  | cons path others ih =>
    have hcreate : tree.create path = .error fault := by
      rw [create, h path List.mem_cons_self]
      rfl
    have hothers : others = [] ∨ tree.createFirst others = .error fault := by
      by_cases hnil : others = []
      · exact .inl hnil
      · exact .inr (ih hnil fun other hother => h other (List.mem_cons_of_mem _ hother))
    rw [createFirst, hcreate]
    cases fault with
    | alreadyExists =>
      rcases hothers with rfl | hothers
      · rfl
      · exact hothers
    | _ => rfl

/-! ### A file that takes the place of another -/

theorem put_put (tree : FileTree) (place : List String) (first second : FileEntry) :
    (tree.put place first).put place second = tree.put place second := by
  simp only [put, List.filter_cons, bne_self_eq_false, Bool.false_eq_true, if_false,
    List.filter_filter, Bool.and_self]

/-- Nothing stays behind of a file that was new and is removed. -/
theorem remove_put_put {aside place : List String} (haside : aside ≠ []) (hne : aside ≠ place)
    (hfree : tree.entry? aside = none) (first second : FileEntry) :
    ((tree.put aside first).put place second).remove aside = tree.put place second := by
  have hothers : tree.entries.filter (fun entry => entry.1 != aside) = tree.entries := by
    apply List.filter_eq_self.2
    intro entry hentry
    have hmem := (entry_eq_none_iff haside).1 hfree
    exact bne_iff_ne.2 fun hsame => hmem (List.mem_map.2 ⟨entry, hentry, hsame⟩)
  have hfirst : (aside != place) = true := bne_iff_ne.2 hne
  have hsecond : (place != aside) = true := bne_iff_ne.2 (Ne.symm hne)
  simp only [remove, put, hothers, List.filter_cons, hfirst, hsecond, if_true, bne_self_eq_false,
    Bool.false_eq_true, if_false, List.filter_filter]
  rw [← List.filter_filter, List.filter_comm, hothers]

theorem write_of_directory {path : String} {place : List String}
    (hplace : tree.locate path = .ok place) (h : tree.entry? place = some .directory)
    (content : Bytes) : tree.write path content = .error .isDirectory := by
  rw [write_of_locate hplace, h]

theorem rename_of_locate {source target : String} {origin place : List String} {content : Bytes}
    (horigin : tree.locate source = .ok origin) (hplace : tree.locate target = .ok place)
    (hentry : tree.entry? origin = some (.file content)) (hne : origin ≠ place) :
    tree.rename source target = (tree.write target content).map (·.remove origin) := by
  rw [rename, horigin, hplace]
  dsimp only [bind, Except.bind]
  rw [hentry]
  simp only [if_neg hne]
  cases tree.write target content <;> rfl

theorem write_created {path : String} {place : List String} (hplace : tree.locate path = .ok place)
    (hroot : place ≠ []) (hfree : tree.entry? place = none)
    (hparent : tree.entry? place.dropLast = some .directory) (content : Bytes) :
    (tree.put place (.file [])).write path content = .ok (tree.put place (.file content)) := by
  have keeps : Keeps {place} tree (tree.put place (.file [])) := keeps_put_file (by simp [hfree]) []
  refine write_eq_ok_iff.2 ⟨place, keeps.locate hplace, ?_, keeps.directories _ hparent, ?_⟩
  · simp [entry_put hroot]
  · rw [put_put]

/-- To write a new file aside and move it is to write at once. -/
theorem rename_put {source target : String} {aside place : List String}
    (haside : tree.locate source = .ok aside) (hplace : tree.locate target = .ok place)
    (hroot : aside ≠ []) (hfree : tree.entry? aside = none) (hne : aside ≠ place)
    (hparent : tree.entry? place.dropLast = some .directory) (content : Bytes) :
    (tree.put aside (.file content)).rename source target = tree.write target content := by
  have keeps : Keeps {aside} tree (tree.put aside (.file content)) :=
    keeps_put_file (by simp [hfree]) content
  have hfilled : entry? (tree.put aside (.file content)) aside = some (.file content) := by
    rw [entry_put hroot, if_pos rfl]
  have hsame : entry? (tree.put aside (.file content)) place = tree.entry? place := by
    rw [entry_put hroot, if_neg (Ne.symm hne)]
  rw [rename_of_locate (keeps.locate haside) (keeps.locate hplace) hfilled hne]
  by_cases hdirectory : tree.entry? place = some .directory
  · rw [write_of_directory hplace hdirectory,
      write_of_directory (keeps.locate hplace) (hsame.trans hdirectory)]
    rfl
  · have hwrite : tree.write target content = .ok (tree.put place (.file content)) :=
      write_eq_ok_iff.2 ⟨place, hplace, hdirectory, hparent, rfl⟩
    have hwrite' : (tree.put aside (.file content)).write target content
        = .ok ((tree.put aside (.file content)).put place (.file content)) :=
      write_eq_ok_iff.2 ⟨place, keeps.locate hplace, by rwa [hsame],
        keeps.directories _ hparent, rfl⟩
    rw [hwrite, hwrite', Except.map, remove_put_put hroot hne hfree]

/-- Writes a new file beside the one at a path and puts it in place when it is complete. The texts
are put behind the path, one after another, until the name is free. -/
def writeAside (tree : FileTree) (path : String) (suffixes : List String) (content : Bytes) :
    Except FileFault FileTree := do
  let (aside, tree) ← tree.createFirst (suffixes.map (path ++ ·))
  let tree ← tree.write aside content
  tree.rename aside path

theorem writeAside_eq_write {directory name : String} (plain : Path.IsPlain name)
    {suffixes : List String} (hsuffixes : suffixes.Nodup)
    (hlength : tree.entries.length < suffixes.length)
    (plain' : ∀ suffix ∈ suffixes, suffix ≠ "" ∧ Path.IsPlain (name ++ suffix))
    (content : Bytes) : tree.writeAside (Path.join directory name) suffixes content
      = tree.write (Path.join directory name) content := by
  have hpaths : suffixes.map (Path.join directory name ++ ·)
      = (suffixes.map (name ++ ·)).map (Path.join directory) := by
    rw [List.map_map]
    apply List.map_congr_left
    intro suffix hsuffix
    exact plain.join_append (plain' suffix hsuffix).2 directory
  have plains : ∀ other ∈ suffixes.map (name ++ ·), Path.IsPlain other := by
    intro other hother
    obtain ⟨suffix, hsuffix, rfl⟩ := List.mem_map.1 hother
    exact (plain' suffix hsuffix).2
  rw [writeAside, hpaths]
  cases haround : tree.directoryAt directory with
  -- Where there is no directory, the new file fails for the same reason as the old one.
  | error fault =>
    have hnonempty : (suffixes.map (name ++ ·)).map (Path.join directory) ≠ [] := by
      intro hnil
      have hzero := congrArg List.length hnil
      simp only [List.length_map, List.length_nil] at hzero
      omega
    have hcreate : tree.createFirst ((suffixes.map (name ++ ·)).map (Path.join directory))
        = .error fault := by
      apply createFirst_eq_error hnonempty
      intro path hpath
      obtain ⟨other, hother, rfl⟩ := List.mem_map.1 hpath
      rw [locate_join (plains other hother), haround]
      rfl
    have hlost : tree.locate (Path.join directory name) = .error fault := by
      rw [locate_join plain, haround]
      rfl
    rw [hcreate, write_of_lost hlost]
    rfl
  | ok around =>
    have hnames : (suffixes.map (name ++ ·)).Nodup := by
      apply hsuffixes.map
      intro suffix suffix' h
      simpa using h
    obtain ⟨other, hother, hentry, hcreate⟩ := createFirst_eq_ok haround plains
      (exists_free_name around hnames (by simpa using hlength))
    obtain ⟨haside, hparent⟩ := locate_join_of_directoryAt (plains other hother) haround
    obtain ⟨hplace, hparent'⟩ := locate_join_of_directoryAt plain haround
    have hne : around ++ [other] ≠ around ++ [name] := by
      obtain ⟨suffix, hsuffix, rfl⟩ := List.mem_map.1 hother
      simpa using (plain' suffix hsuffix).1
    have hroot : around ++ [other] ≠ [] := by simp
    rw [hcreate]
    change (FileTree.write _ _ content >>= fun written => written.rename _ _) = _
    rw [write_created haside hroot hentry hparent]
    exact rename_put haside hplace hroot hentry hne hparent' content

end FileTree

/-! ### Indexes that are saved -/

namespace IndexStore

/-- What the name of a new file has at its end, in the order of the attempts. -/
def suffixes (files : FileTree) (process : Nat) (drawn : Nat → Nat) : List String :=
  (List.range (files.entries.length + 1)).map fun i => s!".tmp.{process}.{drawn i}"

/-- Writes an index beside its file and puts it in place when it is complete. Each new file has a
number in its name that is drawn for it. -/
def saveAside (process : Nat) (drawn : Nat → Nat) (files : FileTree) (path : String)
    (index : SymbolIndex) : Except IndexError FileTree := do
  let directory := (Path.parent? path).getD ""
  let files ← (files.makeDirectories directory).mapError (ioError path)
  (files.writeAside path (suffixes files process drawn) (IndexCodec.encode index)).mapError
    (ioError path)

theorem toList_suffix (process number : Nat) : s!".tmp.{process}.{number}".toList
    = ".tmp.".toList ++ Nat.toDigits 10 process ++ '.' :: Nat.toDigits 10 number := by
  have hsuffix : s!".tmp.{process}.{number}" = ".tmp." ++ process.repr ++ "." ++ number.repr := rfl
  rw [hsuffix]
  simp [Nat.toList_repr]

theorem nodup_suffixes {drawn : Nat → Nat} (hdrawn : drawn.Injective) (files : FileTree)
    (process : Nat) : (suffixes files process drawn).Nodup := by
  apply List.nodup_range.map
  intro i j h
  have hnumber := congrArg String.toList h
  simp only [toList_suffix, List.append_cancel_left_eq, List.cons.injEq, true_and] at hnumber
  apply hdrawn
  apply repr_injective
  rw [Nat.repr_eq_ofList_toDigits, hnumber, Nat.repr_eq_ofList_toDigits]

/-- The files of indexes are as they would be if they were written at once, and no other file comes
of it. -/
theorem saveAside_eq_save {drawn : Nat → Nat} (hdrawn : drawn.Injective) (process : Nat)
    (files : FileTree) (directory : String) (key : CacheKey) (index : SymbolIndex) :
    saveAside process drawn files (storedAt directory key) index
      = save files (storedAt directory key) index := by
  have hwrite (tree : FileTree) (content : Bytes) :
      tree.writeAside (storedAt directory key) (suffixes tree process drawn)
        content = tree.write (storedAt directory key) content := by
    apply FileTree.writeAside_eq_write (isPlain_fileName key) (nodup_suffixes hdrawn tree process)
    · simp [suffixes]
    · intro suffix hsuffix
      obtain ⟨i, -, rfl⟩ := List.mem_map.1 hsuffix
      have hslash : '/' ∉ s!".tmp.{process}.{drawn i}".toList := by
        rw [toList_suffix]
        simp [not_mem_toDigits]
      refine ⟨?_, isPlain_fileName_append key _ hslash⟩
      intro hempty
      have hnil := congrArg String.toList hempty
      simp at hnil
  simp only [saveAside, save, hwrite]

end IndexStore

end SymbolSearch
