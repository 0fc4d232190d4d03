import Mathlib.Data.List.Basic
import SymbolSearch.Index.Cache
import SymbolSearch.Proofs.Store.Files

/-!
# The names of stored files

A name without slashes that is joined to a directory leads to a place in this directory, and other
names lead to other places. The name of a stored index tells the project and the fingerprint, so the
files of different contents stand in different places.
-/

namespace SymbolSearch

/-! ### Pieces of a text -/

namespace Text

variable {p : Char → Bool}

theorem pieces_ne_nil (p : Char → Bool) (cs : List Char) : pieces p cs ≠ [] := by
  cases cs with
  | nil => simp [pieces]
  | cons c rest =>
    rw [pieces]
    split <;> simp

theorem pieces_of_none {cs : List Char} (h : ∀ c ∈ cs, p c = false) : pieces p cs = [cs] := by
  induction cs with
  | nil => rfl
  | cons c rest ih =>
    rw [pieces, h c List.mem_cons_self, ih fun d hd => h d (List.mem_cons_of_mem _ hd)]

/-- The pieces in front of a separator do not see what comes after it. -/
theorem pieces_append (separator : Char) (h : p separator = true) (front rest : List Char) :
    pieces p (front ++ separator :: rest) = pieces p front ++ pieces p rest := by
  induction front with
  | nil => simp [pieces, h]
  | cons c front ih =>
    rw [List.cons_append, pieces, pieces, ih]
    cases p c with
    | true => rfl
    | false =>
      cases hfront : pieces p front with
      | nil => exact absurd hfront (pieces_ne_nil p front)
      | cons part parts => rfl

end Text

/-! ### Paths into a directory -/

namespace Path

/-- A name that leads from a directory to a place in it. -/
structure IsPlain (name : String) : Prop where
  slash : '/' ∉ name.toList
  ne_empty : name ≠ ""
  ne_dot : name ≠ "."
  ne_dots : name ≠ ".."

/-- The steps from the root to a directory, for a path seen from `base`. -/
def around (base : List String) (directory : String) : List String :=
  (if isAbsolute directory then [] else base) ++ (names directory).filter (!·.isEmpty)

variable {name : String}

theorem isAbsolute_iff {path : String} : isAbsolute path = true ↔ ∃ rest, path.toList = '/' :: rest := by
  rw [isAbsolute, String.startsWith_string_iff]
  exact ⟨fun ⟨rest, h⟩ => ⟨rest, h.symm⟩, fun ⟨rest, h⟩ => ⟨rest, h.symm⟩⟩

theorem endsWith_slash_iff {path : String} :
    path.endsWith "/" = true ↔ ∃ front, path.toList = front ++ ['/'] := by
  rw [String.endsWith_eq_endsWith_toSlice, String.Slice.endsWith_string_iff, String.copy_toSlice]
  exact ⟨fun ⟨front, h⟩ => ⟨front, h.symm⟩, fun ⟨front, h⟩ => ⟨front, h.symm⟩⟩

theorem IsPlain.names_eq (plain : IsPlain name) : names name = [name] := by
  have hnone : ∀ c ∈ name.toList, decide (c = '/') = false := by
    intro c hc
    apply decide_eq_false
    rintro rfl
    exact plain.slash hc
  rw [names, Text.pieces_of_none hnone]
  simp

theorem IsPlain.not_endsWith (plain : IsPlain name) : name.endsWith "/" = false := by
  rw [Bool.eq_false_iff]
  intro h
  obtain ⟨front, hfront⟩ := endsWith_slash_iff.1 h
  exact plain.slash (by simp [hfront])

theorem IsPlain.not_isAbsolute (plain : IsPlain name) : isAbsolute name = false := by
  rw [Bool.eq_false_iff]
  intro h
  obtain ⟨rest, hrest⟩ := isAbsolute_iff.1 h
  exact plain.slash (by simp [hrest])

theorem IsPlain.join_append (plain : IsPlain name) {suffix : String}
    (plain' : IsPlain (name ++ suffix)) (directory : String) :
    join directory name ++ suffix = join directory (name ++ suffix) := by
  rw [join, join, plain.not_isAbsolute, plain'.not_isAbsolute]
  split
  · rfl
  · split
    · rw [String.append_assoc]
    · rw [String.append_assoc]

/-- A plain name is the last of the names of the path. -/
theorem IsPlain.steps_append (plain : IsPlain name) {path : String} {front : List Char}
    (hpath : path.toList = front ++ '/' :: name.toList) :
    steps path = (names (String.ofList front)).filter (!·.isEmpty) ++ [name] := by
  have hnames : names path = names (String.ofList front) ++ [name] := by
    rw [← plain.names_eq, names, names, names, hpath,
      Text.pieces_append '/' (by simp), List.map_append, String.toList_ofList]
  have hends : path.endsWith "/" = false := by
    rw [Bool.eq_false_iff]
    intro h
    obtain ⟨others, hothers⟩ := endsWith_slash_iff.1 h
    have hlast : path.toList.getLast? = some '/' := by simp [hothers]
    rw [hpath, ← List.singleton_append, ← List.append_assoc, List.getLast?_append] at hlast
    cases hname : name.toList.getLast? with
    | none => exact plain.ne_empty (String.toList_eq_nil_iff.1 (List.getLast?_eq_none_iff.1 hname))
    | some c =>
      rw [hname] at hlast
      obtain rfl := Option.some.inj hlast
      exact plain.slash (List.mem_of_getLast? hname)
  have hfilter : [name].filter (!·.isEmpty) = [name] := by
    simp [plain.ne_empty]
  rw [steps, hnames, hends, List.filter_append, hfilter]
  rfl

theorem isAbsolute_of_append {path directory : String} {rest : List Char} (h : directory ≠ "")
    (hpath : path.toList = directory.toList ++ rest) : isAbsolute path = isAbsolute directory := by
  rw [Bool.eq_iff_iff, isAbsolute_iff, isAbsolute_iff, hpath]
  cases hdirectory : directory.toList with
  | nil => exact absurd (String.toList_eq_nil_iff.1 hdirectory) h
  | cons c front => simp

/-- A plain name is one more step on the way to the directory. -/
theorem IsPlain.absolute_join (plain : IsPlain name) (base : List String) (directory : String) :
    absolute base (join directory name) = around base directory ++ [name] := by
  rw [join, plain.not_isAbsolute]
  by_cases hempty : directory = ""
  · subst hempty
    have hsteps : steps name = [name] := by
      rw [steps, plain.names_eq, plain.not_endsWith]
      simp [plain.ne_empty]
    rw [if_pos (.inr rfl), absolute, plain.not_isAbsolute, hsteps]
    simp [around, isAbsolute, names, Text.pieces]
  · have hnonempty : ¬ (false = true ∨ directory.isEmpty = true) := by simpa using hempty
    rw [if_neg hnonempty]
    by_cases hends : directory.endsWith "/" = true
    · obtain ⟨front, hfront⟩ := endsWith_slash_iff.1 hends
      have hpath : (directory ++ name).toList = front ++ '/' :: name.toList := by simp [hfront]
      have hnames : (names directory).filter (!·.isEmpty)
          = (names (String.ofList front)).filter (!·.isEmpty) := by
        rw [names, names, hfront, Text.pieces_append '/' (by simp), List.map_append,
          List.filter_append, String.toList_ofList]
        simp [Text.pieces]
      rw [if_pos hends, absolute, isAbsolute_of_append hempty String.toList_append,
        plain.steps_append hpath, around, hnames]
      split <;> simp
    · have hpath : (directory ++ "/" ++ name).toList = directory.toList ++ '/' :: name.toList := by
        simp
      rw [if_neg hends, absolute, isAbsolute_of_append hempty hpath, plain.steps_append hpath,
        around, String.ofList_toList]
      split <;> simp

end Path

namespace FileTree

/-- The place of a directory in which names are looked up. -/
def directoryAt (tree : FileTree) (directory : String) : Except FileFault (List String) := do
  let place ← tree.locateFrom [] (Path.around tree.working directory)
  match tree.entry? place with
  | none => .error .notFound
  | some (.file _) => .error .notDirectory
  | some .directory => .ok place

theorem entry_of_directoryAt {tree : FileTree} {directory : String} {place : List String}
    (h : tree.directoryAt directory = .ok place) : tree.entry? place = some .directory := by
  rw [directoryAt] at h
  cases hplace : tree.locateFrom [] (Path.around tree.working directory) with
  | error fault =>
    rw [hplace] at h
    cases h
  | ok around =>
    rw [hplace] at h
    dsimp only [bind, Except.bind] at h
    split at h
    · cases h
    · cases h
    · cases h
      assumption

/-- A plain name leads to a place in the directory, wherever the directory is. -/
theorem locate_join {tree : FileTree} {name : String} (plain : Path.IsPlain name)
    (directory : String) : tree.locate (Path.join directory name)
      = (tree.directoryAt directory).map (· ++ [name]) := by
  rw [locate, steps, plain.absolute_join, locateFrom_append, directoryAt]
  cases tree.locateFrom [] (Path.around tree.working directory) with
  | error fault => rfl
  | ok around =>
    change tree.locateFrom around [name] = Except.map _ (match tree.entry? around with
      | none => Except.error FileFault.notFound
      | some (.file _) => .error .notDirectory
      | some .directory => .ok around)
    rw [locateFrom_cons, next, if_neg plain.ne_dot, if_neg plain.ne_dots, locateFrom]
    cases tree.entry? around with
    | none => rfl
    | some entry => cases entry <;> rfl

theorem locate_join_of_directoryAt {tree : FileTree} {name directory : String}
    (plain : Path.IsPlain name) {around : List String}
    (haround : tree.directoryAt directory = .ok around) :
    tree.locate (Path.join directory name) = .ok (around ++ [name])
      ∧ tree.entry? (around ++ [name]).dropLast = some .directory := by
  rw [locate_join plain, haround, List.dropLast_concat]
  exact ⟨rfl, entry_of_directoryAt haround⟩

/-- Different names lead from one directory to different places. -/
theorem locate_join_ne {tree : FileTree} {name other directory : String}
    (plain : Path.IsPlain name) (plain' : Path.IsPlain other) (hne : name ≠ other)
    {place : List String} (h : tree.locate (Path.join directory name) = .ok place) :
    tree.locate (Path.join directory other) ≠ .ok place := by
  intro h'
  rw [locate_join plain] at h
  rw [locate_join plain'] at h'
  cases haround : tree.directoryAt directory with
  | error fault =>
    rw [haround] at h
    cases h
  | ok around =>
    rw [haround] at h h'
    have hsame := h.trans h'.symm
    simp only [Except.map, Except.ok.injEq, List.append_cancel_left_eq, List.cons.injEq,
      and_true] at hsame
    exact hne hsame

end FileTree

/-! ### Names of stored indexes -/

namespace Bytes

theorem hexDigit_injective {m n : Nat} (hm : m < 16) (hn : n < 16) (h : hexDigit m = hexDigit n) :
    m = n := by
  have hall : ∀ m : Fin 16, ∀ n : Fin 16, hexDigit m = hexDigit n → m = n := by decide
  exact congrArg Fin.val (hall ⟨m, hm⟩ ⟨n, hn⟩ h)

theorem not_mem_hex {c : Char} (h : ∀ n < 16, hexDigit n ≠ c) (bytes : Bytes) :
    c ∉ (hex bytes).toList := by
  rw [hex, String.toList_ofList, List.mem_flatMap]
  rintro ⟨b, -, hc⟩
  have hb := b.toNat_lt
  simp only [List.mem_cons, List.not_mem_nil, or_false] at hc
  rcases hc with hhigh | hlow
  · exact h (b.toNat / 16) (by omega) hhigh.symm
  · exact h (b.toNat % 16) (by omega) hlow.symm

theorem hex_injective {a b : Bytes} (h : hex a = hex b) : a = b := by
  have hdigits := String.ofList_injective h
  clear h
  induction a generalizing b with
  | nil =>
    cases b with
    | nil => rfl
    | cons c rest => simp at hdigits
  | cons c rest ih =>
    cases b with
    | nil => simp at hdigits
    | cons d others =>
      have hc := c.toNat_lt
      have hd := d.toNat_lt
      simp only [List.flatMap_cons, List.cons_append, List.nil_append, List.cons.injEq] at hdigits
      obtain ⟨hhigh, hlow, hrest⟩ := hdigits
      have hhigh' := hexDigit_injective (by omega) (by omega) hhigh
      have hlow' := hexDigit_injective (by omega) (by omega) hlow
      have hbyte : c = d := UInt8.toNat_inj.1 (by omega)
      rw [hbyte, ih hrest]

end Bytes

theorem Fingerprint.hex_injective {a b : Fingerprint} (h : a.hex = b.hex) : a = b := by
  have hbytes := Bytes.hex_injective h
  have hsome := congrArg ofBytes? hbytes
  rw [ofBytes?_toBytes, ofBytes?_toBytes] at hsome
  exact Option.some.inj hsome

namespace IndexStore

/-- The name of the file for a project's content. -/
def fileName (key : CacheKey) : String :=
  s!"{key.project.number.toNat}-{key.fingerprint.hex}.nsyt"

/-- The path of the file for a project's content in a directory. -/
def storedAt (directory : String) (key : CacheKey) : String :=
  path directory key.project key.fingerprint

theorem storedAt_eq_join (directory : String) (key : CacheKey) :
    storedAt directory key = Path.join directory (fileName key) := rfl

/-- The number stands in front of the first dash, as it has none. -/
theorem toList_fileName (key : CacheKey) : (fileName key).toList
    = Nat.toDigits 10 key.project.number.toNat
      ++ '-' :: (key.fingerprint.hex.toList ++ ".nsyt".toList) := by
  have hname : fileName key
      = key.project.number.toNat.repr ++ "-" ++ key.fingerprint.hex ++ ".nsyt" := rfl
  rw [hname]
  simp [Nat.toList_repr]

theorem repr_injective {m n : Nat} (h : m.repr = n.repr) : m = n := by
  have hdigits := congrArg String.toList h
  rw [Nat.toList_repr, Nat.toList_repr] at hdigits
  rw [← Nat.ofDigitChars_ten_toDigits (n := m), hdigits, Nat.ofDigitChars_ten_toDigits]

theorem not_mem_toDigits {c : Char} (hc : c.isDigit = false) (n : Nat) :
    c ∉ Nat.toDigits 10 n := by
  intro hmem
  have hdigit := Nat.isDigit_of_mem_toDigits (by decide) (by decide) hmem
  rw [hc] at hdigit
  cases hdigit

theorem isPlain_fileName_append (key : CacheKey) (suffix : String) (h : '/' ∉ suffix.toList) :
    Path.IsPlain (fileName key ++ suffix) := by
  have hdash : '-' ∈ (fileName key ++ suffix).toList := by
    rw [String.toList_append, toList_fileName]
    simp
  have hnumber := not_mem_toDigits (c := '/') (by decide) key.project.number.toNat
  have hhex := Bytes.not_mem_hex (c := '/') (by decide) key.fingerprint.toBytes
  refine ⟨?_, ?_, ?_, ?_⟩
  · simp [toList_fileName, Fingerprint.hex, hnumber, hhex, h]
  all_goals
    intro hname
    rw [hname] at hdash
    revert hdash
    decide

theorem isPlain_fileName (key : CacheKey) : Path.IsPlain (fileName key) := by
  simpa using isPlain_fileName_append key "" (by simp)

theorem fileName_injective {key other : CacheKey} (h : fileName key = fileName other) :
    key = other := by
  have hchars := congrArg String.toList h
  have hrest : '-' ∉ key.fingerprint.hex.toList ++ ".nsyt".toList := by
    have hhex := Bytes.not_mem_hex (c := '-') (by decide) key.fingerprint.toBytes
    simp [Fingerprint.hex, hhex]
  rw [toList_fileName, toList_fileName,
    List.append_cons_inj_of_notMem (not_mem_toDigits (by decide) _) hrest] at hchars
  obtain ⟨hnumber, -, hhex⟩ := hchars
  have hproject : key.project.number.toNat = other.project.number.toNat := by
    apply repr_injective
    rw [Nat.repr_eq_ofList_toDigits, hnumber, Nat.repr_eq_ofList_toDigits]
  have hfingerprint := Fingerprint.hex_injective (String.toList_inj.1 (List.append_cancel_right hhex))
  obtain ⟨⟨number⟩, fingerprint⟩ := key
  obtain ⟨⟨number'⟩, fingerprint'⟩ := other
  simp only [CacheKey.mk.injEq, ProjectId.mk.injEq]
  exact ⟨UInt32.toNat_inj.1 hproject, hfingerprint⟩

/-- The files of different keys stand in different places of a directory. -/
theorem locate_storedAt_ne {tree : FileTree} {directory : String} {key other : CacheKey}
    (hne : key ≠ other) {place : List String}
    (h : tree.locate (storedAt directory key) = .ok place) :
    tree.locate (storedAt directory other) ≠ .ok place := by
  refine FileTree.locate_join_ne (isPlain_fileName key) (isPlain_fileName other) ?_ h
  exact fun hname => hne (fileName_injective hname)

/-- A file is read as before when that of another key was written. -/
theorem read_of_write {tree after : FileTree} {directory : String} {key other : CacheKey}
    (hne : other ≠ key) {content : Bytes}
    (h : tree.write (storedAt directory other) content = .ok after) :
    after.read (storedAt directory key)
      = tree.read (storedAt directory key) := by
  obtain ⟨place, hplace, hentry, -, rfl⟩ := FileTree.write_eq_ok_iff.1 h
  have keeps := FileTree.keeps_put_file hentry content
  cases haround : tree.directoryAt directory with
  | error fault =>
    rw [storedAt_eq_join, FileTree.locate_join (isPlain_fileName other), haround] at hplace
    cases hplace
  | ok around =>
    obtain ⟨hlocate, -⟩ := FileTree.locate_join_of_directoryAt (isPlain_fileName key) haround
    have helsewhere : around ++ [fileName key] ≠ place := by
      rintro rfl
      exact locate_storedAt_ne hne hplace hlocate
    rw [storedAt_eq_join, FileTree.read_of_locate hlocate,
      FileTree.read_of_locate (keeps.locate hlocate), FileTree.entry_put (FileTree.ne_root_of_entry hentry), if_neg helsewhere]

end IndexStore

end SymbolSearch
