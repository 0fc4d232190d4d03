import Mathlib.Data.List.AList
import Mathlib.Data.List.Dedup
import Mathlib.Data.List.Induction
import SymbolSearch.Proofs.Solution.Edits

/-!
# Snapshots of solutions

Whatever sequence of edits a solution has gone through, it is sound, and the next edit does what it
is to do or is refused with reason. This is also so if a snapshot keeps the positions of its
projects in a map, which is made anew after each edit.
-/

namespace SymbolSearch

/-- To replace an item at its position is to put it in its place. -/
theorem puts_set {α κ : Type} {key : α → κ} {item old : α} {items : List α} {i : Nat}
    (hold : items[i]? = some old) (hkey : key old = key item) :
    Puts key item items (items.set i item) := by
  obtain ⟨hlt, rfl⟩ := List.getElem?_eq_some_iff.1 hold
  refine .inl ⟨items.take i, items[i], items.drop (i + 1), ?_, hkey, ?_⟩
  · rw [List.getElem_cons_drop, List.take_append_drop]
  · rw [List.set_eq_take_append_cons_drop, if_pos hlt]

namespace Solution

/-- The solutions that are made at once or by edits. -/
inductive Reached : Solution → Prop
  | empty : Reached empty
  | made {infos : List ProjectInfo} {made : Solution} : ofInfos infos = .ok made → Reached made
  | edited {solution edited : Solution} (edit : Edit) :
    Reached solution → edit.apply solution = .ok edited → Reached edited

variable {solution : Solution}

theorem isSound_empty : empty.IsSound where
  ids_nodup := List.nodup_nil
  valid := by simp [empty]
  references := by simp [empty]

theorem Reached.isSound (reached : solution.Reached) : solution.IsSound := by
  induction reached with
  | empty => exact isSound_empty
  | made h => exact (ofInfos_eq_ok_iff.1 h).2
  | edited edit _ h ih => exact ((apply_eq_ok_iff ih edit).1 h).2

/-- A solution can be made of valid infos with different ids that reference each other only. -/
theorem exists_ofInfos_iff (infos : List ProjectInfo) :
    (∃ made, ofInfos infos = .ok made) ↔ (∀ info ∈ infos, info.validate = .ok ())
      ∧ (infos.map (·.id)).Nodup
      ∧ ∀ info ∈ infos, ∀ reference ∈ info.projectReferences, reference ∈ infos.map (·.id) := by
  let made : Solution := ⟨infos.map .ofInfo⟩
  have hids : made.ids = infos.map (·.id) := by
    rw [ids, List.map_map]
    rfl
  have hsound : (∃ made, ofInfos infos = .ok made) ↔ made.IsSound := by
    simp only [ofInfos_eq_ok_iff]
    constructor
    · rintro ⟨⟨projects⟩, rfl, sound⟩
      exact sound
    · intro sound
      exact ⟨made, rfl, sound⟩
  rw [hsound, isSound_iff, IsClosed, hids, and_left_comm]
  simp [made]

end Solution

/-! ### Positions in a map -/

/-- The positions at which projects stand, by their ids. -/
abbrev PositionMap := AList fun _ : ProjectId => Nat

namespace PositionMap

/-- If an id stands at several positions, it is the last of them that counts. -/
def ofProjects (projects : List Project) : PositionMap :=
  projects.zipIdx.foldl (fun positions (project, i) => positions.insert project.id i) ∅

theorem ofProjects_concat (projects : List Project) (project : Project) :
    ofProjects (projects ++ [project])
      = (ofProjects projects).insert project.id projects.length := by
  simp [ofProjects, List.zipIdx_append]

theorem mem_ofProjects_iff {projects : List Project} {id : ProjectId} :
    id ∈ ofProjects projects ↔ id ∈ projects.map (·.id) := by
  induction projects using List.reverseRecOn with
  | nil => simp [ofProjects]
  | append_singleton projects project ih =>
    rw [ofProjects_concat, AList.mem_insert, ih, List.map_append, List.mem_append, or_comm]
    simp

/-- At its position there is a project with the id. -/
theorem exists_project_of_lookup {projects : List Project} {id : ProjectId} {i : Nat}
    (h : (ofProjects projects).lookup id = some i) :
    ∃ project, projects[i]? = some project ∧ project.id = id := by
  induction projects using List.reverseRecOn with
  | nil => simp [ofProjects] at h
  | append_singleton projects project ih =>
    rw [ofProjects_concat] at h
    by_cases hid : id = project.id
    · subst hid
      rw [AList.lookup_insert] at h
      obtain rfl := Option.some.inj h
      exact ⟨project, by simp, rfl⟩
    · rw [AList.lookup_insert_ne hid] at h
      obtain ⟨other, hother, hid'⟩ := ih h
      have hlt := (List.getElem?_eq_some_iff.1 hother).1
      exact ⟨other, by rw [List.getElem?_append_left hlt, hother], hid'⟩

/-- To compare lengths tells whether an id is repeated. -/
theorem length_ofProjects_iff {projects : List Project} :
    (ofProjects projects).entries.length = projects.length ↔ (projects.map (·.id)).Nodup := by
  let ids := projects.map (·.id)
  have hperm : (ofProjects projects).keys.Perm ids.dedup := by
    rw [List.perm_ext_iff_of_nodup (AList.keys_nodup _) ids.nodup_dedup]
    intro id
    rw [List.mem_dedup]
    exact mem_ofProjects_iff
  have hlength : (ofProjects projects).entries.length = ids.dedup.length := by
    rw [← hperm.length_eq, AList.keys, List.keys, List.length_map]
  have hids : projects.length = ids.length := by simp [ids]
  rw [hlength, hids]
  constructor
  · intro h
    exact List.dedup_eq_self.1 (ids.dedup_sublist.eq_of_length h)
  · intro h
    rw [List.dedup_eq_self.2 h]

end PositionMap

/-- A snapshot with the positions of its projects. -/
structure PositionedSolution where
  projects : List Project
  positions : PositionMap

namespace PositionedSolution

def ofProjects (projects : List Project) : PositionedSolution :=
  ⟨projects, .ofProjects projects⟩

def get? (solution : PositionedSolution) (id : ProjectId) : Option Project :=
  (solution.positions.lookup id).bind (solution.projects[·]?)

def checkReferences (solution : PositionedSolution) (project : Project) :
    Except ProjectError Unit :=
  match project.info.projectReferences.find? (decide <| · ∉ solution.positions) with
  | some reference => .error (.unknownProjectReference project.id reference)
  | none => .ok ()

/-- Only if there are fewer positions than projects, a repeated id is looked for. -/
def checkIds (solution : PositionedSolution) : Except ProjectError Unit :=
  if solution.positions.entries.length = solution.projects.length then .ok ()
  else
    match firstRepeated? [] (solution.projects.map (·.id)) with
    | some id => .error (.duplicateProject id)
    | none => .ok ()

def checkGraph (solution : PositionedSolution) : Except ProjectError Unit := do
  solution.checkIds
  solution.projects.forM solution.checkReferences

def checked (projects : List Project) : Except ProjectError PositionedSolution := do
  (ofProjects projects).checkGraph
  return ofProjects projects

def ofInfos (infos : List ProjectInfo) : Except ProjectError PositionedSolution := do
  infos.forM ProjectInfo.validate
  checked (infos.map .ofInfo)

/-- A project that is there is replaced at its position. -/
def withProject (solution : PositionedSolution) (info : ProjectInfo) :
    Except ProjectError PositionedSolution := do
  info.validate
  let project := Project.ofInfo info
  match solution.positions.lookup info.id with
  | some i => checked (solution.projects.set i project)
  | none => checked (solution.projects ++ [project])

def withoutProject (solution : PositionedSolution) (id : ProjectId) :
    Except ProjectError PositionedSolution :=
  if id ∈ solution.positions then checked (solution.projects.filter (·.id != id))
  else .error (.unknownProject id)

def withDocument (solution : PositionedSolution) (id : ProjectId) (document : Document) :
    Except ProjectError PositionedSolution :=
  match solution.get? id with
  | some project => solution.withProject { project.info with
      documents := Solution.putDocument document project.info.documents }
  | none => .error (.unknownProject id)

def apply (solution : PositionedSolution) : Solution.Edit → Except ProjectError PositionedSolution
  | .withProject info => solution.withProject info
  | .withDocument project document => solution.withDocument project document
  | .withoutProject project => solution.withoutProject project

/-! ### The same answers -/

/-- The snapshot with the same projects. -/
def ofSolution (solution : Solution) : PositionedSolution := ofProjects solution.projects

variable {solution : Solution}

theorem get?_ofSolution (hids : solution.ids.Nodup) (id : ProjectId) :
    (ofSolution solution).get? id = solution.get? id := by
  rw [get?, ofSolution, ofProjects]
  cases hlookup : (PositionMap.ofProjects solution.projects).lookup id with
  | none =>
    have hid : id ∉ solution.ids := by
      rwa [AList.lookup_eq_none, PositionMap.mem_ofProjects_iff] at hlookup
    rw [Solution.get?_eq_none hid]
    rfl
  | some i =>
    obtain ⟨project, hproject, rfl⟩ := PositionMap.exists_project_of_lookup hlookup
    rw [Solution.get?_of_mem hids (List.mem_of_getElem? hproject)]
    exact hproject

theorem mem_positions_iff {id : ProjectId} :
    id ∈ (ofSolution solution).positions ↔ id ∈ solution.ids :=
  PositionMap.mem_ofProjects_iff

theorem checkReferences_ofSolution (solution : Solution) :
    (ofSolution solution).checkReferences = solution.checkReferences := by
  funext project
  have hunknown : (fun id => decide (id ∉ (ofSolution solution).positions))
      = fun id => !solution.contains id := by
    funext id
    simp [mem_positions_iff, Solution.contains]
  let check (unknown : ProjectId → Bool) : Except ProjectError Unit :=
    match project.info.projectReferences.find? unknown with
    | some reference => .error (.unknownProjectReference project.id reference)
    | none => .ok ()
  exact congrArg check hunknown

theorem checkGraph_ofSolution (solution : Solution) :
    (ofSolution solution).checkGraph = solution.checkGraph := by
  have hlength : (ofSolution solution).positions.entries.length = solution.projects.length
      ↔ solution.ids.Nodup := PositionMap.length_ofProjects_iff
  have hrepeated := Checks.firstRepeated?_eq_none_iff [] solution.ids
  have hids : (ofSolution solution).checkIds = match firstRepeated? [] solution.ids with
      | some id => .error (.duplicateProject id)
      | none => .ok () := by
    by_cases hnodup : solution.ids.Nodup
    · have hnone : firstRepeated? [] solution.ids = none := hrepeated.2 ⟨hnodup, by simp⟩
      rw [checkIds, hnone]
      exact if_pos (hlength.2 hnodup)
    · exact if_neg (mt hlength.1 hnodup)
  rw [checkGraph, Solution.checkGraph, hids, checkReferences_ofSolution]
  cases firstRepeated? [] solution.ids with
  | some id => rfl
  | none => rfl

theorem checked_eq (projects : List Project) :
    checked projects = ofSolution <$> Solution.ofProjects projects := by
  rw [checked, Solution.ofProjects]
  change (ofSolution ⟨projects⟩).checkGraph >>= _ = _
  rw [checkGraph_ofSolution]
  cases Solution.checkGraph ⟨projects⟩ with
  | error error => rfl
  | ok _ => rfl

theorem ofInfos_eq (infos : List ProjectInfo) :
    ofInfos infos = ofSolution <$> Solution.ofInfos infos := by
  rw [ofInfos, Solution.ofInfos, map_bind, checked_eq]
  rfl

theorem withProject_ofSolution (hids : solution.ids.Nodup) (info : ProjectInfo) :
    (ofSolution solution).withProject info = ofSolution <$> solution.withProject info := by
  let project := Project.ofInfo info
  have hputs {projects : List Project} (h : Puts (·.id) project solution.projects projects) :
      projects = Solution.putProject project solution.projects := by
    rw [Solution.putProject_eq]
    exact (puts_iff hids).1 h
  rw [withProject, Solution.withProject, Project.mk_eq_ofInfo, map_bind, ← checked_eq]
  cases hlookup : (ofSolution solution).positions.lookup info.id with
  | some i =>
    obtain ⟨old, hold, hid⟩ := PositionMap.exists_project_of_lookup hlookup
    rw [← hputs (puts_set hold hid)]
    rfl
  | none =>
    have hid : info.id ∉ solution.ids := by
      rwa [AList.lookup_eq_none, mem_positions_iff] at hlookup
    have habsent : ∀ other ∈ solution.projects, other.id ≠ project.id := by
      rintro other hother hsame
      change other.id = info.id at hsame
      rw [← hsame] at hid
      exact hid (List.mem_map_of_mem hother)
    rw [← hputs (.inr ⟨habsent, rfl⟩)]
    rfl

theorem withDocument_ofSolution (hids : solution.ids.Nodup) (id : ProjectId) (document : Document) :
    (ofSolution solution).withDocument id document
      = ofSolution <$> solution.withDocument id document := by
  rw [withDocument, Solution.withDocument, get?_ofSolution hids]
  cases solution.get? id with
  | none => rfl
  | some project => exact withProject_ofSolution hids _

theorem withoutProject_ofSolution (id : ProjectId) :
    (ofSolution solution).withoutProject id = ofSolution <$> solution.withoutProject id := by
  have hchecked : checked ((ofSolution solution).projects.filter (·.id != id))
      = ofSolution <$> Solution.ofProjects (solution.projects.filter (·.id != id)) := checked_eq _
  by_cases h : id ∈ solution.ids
  · simp [withoutProject, Solution.withoutProject, mem_positions_iff, Solution.contains, h,
      hchecked]
  · simp [withoutProject, Solution.withoutProject, mem_positions_iff, Solution.contains, h]

/-- Edits of both give the same projects, or fail with the same error. -/
theorem apply_ofSolution (hids : solution.ids.Nodup) (edit : Solution.Edit) :
    (ofSolution solution).apply edit = ofSolution <$> edit.apply solution := by
  cases edit with
  | withProject info => exact withProject_ofSolution hids info
  | withDocument id document => exact withDocument_ofSolution hids id document
  | withoutProject id => exact withoutProject_ofSolution id

end PositionedSolution

namespace Solution

/-- A solution that was reached by any edits is sound, its ids stand for one project each, and
another edit succeeds if and only if what it is to make is sound; so it fails if and only if what it
names is not there, not valid or still needed. The projects that a solution is made of must be such
that they make a sound one. With its positions in a map it answers the same in every respect. -/
theorem edited_exactly {solution : Solution} (reached : solution.Reached) :
    solution.IsSound
      ∧ (∀ id project, solution.get? id = some project
        ↔ project ∈ solution.projects ∧ project.id = id)
      ∧ (∀ id, solution.get? id = none ↔ id ∉ solution.ids)
      ∧ (∀ (edit : Edit) (edited : Solution),
        edit.apply solution = .ok edited ↔ edit.Makes solution edited ∧ edited.IsSound)
      ∧ (∀ edit : Edit, (∃ error, edit.apply solution = .error error) ↔ edit.IsRefused solution)
      ∧ (∀ infos made, ofInfos infos = .ok made
        ↔ made.projects = infos.map .ofInfo ∧ made.IsSound)
      ∧ (∀ infos, (∃ made, ofInfos infos = .ok made)
        ↔ (∀ info ∈ infos, info.validate = .ok ()) ∧ (infos.map (·.id)).Nodup
          ∧ ∀ info ∈ infos, ∀ reference ∈ info.projectReferences, reference ∈ infos.map (·.id))
      ∧ (∀ id, (PositionedSolution.ofSolution solution).get? id = solution.get? id)
      ∧ (∀ edit : Edit, (PositionedSolution.ofSolution solution).apply edit
        = PositionedSolution.ofSolution <$> edit.apply solution)
      ∧ ∀ infos, PositionedSolution.ofInfos infos
        = PositionedSolution.ofSolution <$> ofInfos infos := by
  have sound := reached.isSound
  refine ⟨sound, ?_, ?_, ?_, ?_, ?_, exists_ofInfos_iff, ?_, ?_, PositionedSolution.ofInfos_eq⟩
  · intro id project
    exact get?_eq_some_iff sound.ids_nodup
  · intro id
    exact get?_eq_none_iff
  · intro edit edited
    exact apply_eq_ok_iff sound edit
  · intro edit
    have hok := exists_apply_iff sound edit
    cases hedit : edit.apply solution with
    | ok edited => simpa [hedit] using hok
    | error error => simpa [hedit] using hok
  · intro infos made
    exact ofInfos_eq_ok_iff
  · intro id
    exact PositionedSolution.get?_ofSolution sound.ids_nodup id
  · intro edit
    exact PositionedSolution.apply_ofSolution sound.ids_nodup edit

/-- Of two projects the second references the first, which can therefore be replaced at its place
but not removed. -/
theorem edited_exactly_of_referenced :
    let first : ProjectInfo := ⟨⟨1⟩, "A", "A", "C#", [], [], []⟩
    let second : ProjectInfo := ⟨⟨2⟩, "B", "B", "C#", [], [⟨1⟩], []⟩
    let renamed : ProjectInfo := { first with name := "R" }
    let solution : Solution := ⟨[{ info := first }, { info := second }]⟩
    let edited : Solution := ⟨[{ info := renamed }, { info := second }]⟩
    solution.Reached
      ∧ (∃ error, (Edit.withoutProject ⟨1⟩).apply solution = .error error)
      ∧ (Edit.withProject renamed).apply solution = .ok edited := by
  intro first second renamed solution edited
  have hvalid : first.validate = .ok () ∧ second.validate = .ok () ∧ renamed.validate = .ok () := by
    decide +kernel
  have sound : solution.IsSound := by
    refine isSound_iff.2 ⟨by decide, ?_, ?_⟩
    · simpa [solution] using ⟨hvalid.1, hvalid.2.1⟩
    · simp [IsClosed, solution, ids, Project.id, first, second]
  have sound' : edited.IsSound := by
    refine isSound_iff.2 ⟨by decide, ?_, ?_⟩
    · simpa [edited] using ⟨hvalid.2.2, hvalid.2.1⟩
    · simp [IsClosed, edited, ids, Project.id, renamed, first, second]
  have hmade : ofInfos [first, second] = .ok solution := ofInfos_eq_ok_iff.2 ⟨rfl, sound⟩
  have reached : solution.Reached := .made hmade
  obtain ⟨-, -, -, happly, hrefused, -⟩ := edited_exactly reached
  refine ⟨reached, ?_, ?_⟩
  · rw [hrefused]
    exact .inr ⟨{ info := second }, by simp [solution], by simp [second]⟩
  · rw [happly]
    exact ⟨.inl ⟨[], { info := first }, [{ info := second }], rfl, rfl, rfl⟩, sound'⟩

end Solution

end SymbolSearch
