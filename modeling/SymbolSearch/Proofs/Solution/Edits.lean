import SymbolSearch.Proofs.Checks
import SymbolSearch.Project.Solution

/-!
# Edits of solutions

A solution is sound if its projects have different ids, are valid, and reference each other only. An
edit replaces, adds or removes what it names and nothing else, and it is refused exactly if its
result would not be sound or what it names is not there.
-/

namespace SymbolSearch

/-! ### Replacing in a list -/

section

variable {α κ : Type} (key : α → κ) (item : α)

/-- The item stands in the place of one with its key; if there is none, at the end. -/
def Puts (before after : List α) : Prop :=
  (∃ front old back, before = front ++ old :: back ∧ key old = key item
    ∧ after = front ++ item :: back)
  ∨ (∀ a ∈ before, key a ≠ key item) ∧ after = before ++ [item]

/-- The list is the same without one item, which has the given key. -/
def Removes (gone : κ) (before after : List α) : Prop :=
  ∃ front old back, before = front ++ old :: back ∧ key old = gone ∧ after = front ++ back

variable [DecidableEq κ]

/-- Puts an item in the place of the first one with its key, or at the end. -/
def put : List α → List α
  | [] => [item]
  | other :: rest => if key other = key item then item :: rest else other :: put rest

variable {key item}

theorem put_replaced {front back : List α} {old : α} (hfront : ∀ a ∈ front, key a ≠ key item)
    (hold : key old = key item) :
    put key item (front ++ old :: back) = front ++ item :: back := by
  induction front with
  | nil => simp [put, hold]
  | cons a front ih =>
    rw [List.forall_mem_cons] at hfront
    simp [put, hfront.1, ih hfront.2]

theorem put_appended {items : List α} (h : ∀ a ∈ items, key a ≠ key item) :
    put key item items = items ++ [item] := by
  induction items with
  | nil => rfl
  | cons a items ih =>
    rw [List.forall_mem_cons] at h
    simp [put, h.1, ih h.2]

theorem puts_put (items : List α) : Puts key item items (put key item items) := by
  induction items with
  | nil => exact .inr ⟨by simp, rfl⟩
  | cons a rest ih =>
    by_cases h : key a = key item
    · exact .inl ⟨[], a, rest, rfl, h, by simp [put, h]⟩
    · simp only [put, h, if_false]
      rcases ih with ⟨front, old, back, hrest, hold, hput⟩ | ⟨hnone, hput⟩
      · exact .inl ⟨a :: front, old, back, by simp [hrest], hold, by simp [hput]⟩
      · refine .inr ⟨?_, by simp [hput]⟩
        rw [List.forall_mem_cons]
        exact ⟨h, hnone⟩

omit [DecidableEq κ] in
/-- If the keys are different, what stands around an item has other keys. -/
theorem key_ne_of_nodup {front back : List α} {old : α}
    (h : ((front ++ old :: back).map key).Nodup) :
    (∀ a ∈ front, key a ≠ key old) ∧ ∀ a ∈ back, key a ≠ key old := by
  simp only [List.map_append, List.map_cons, List.nodup_append, List.nodup_cons, List.mem_map,
    List.mem_cons, forall_eq_or_imp] at h
  obtain ⟨-, ⟨hback, -⟩, hfront⟩ := h
  refine ⟨fun a ha => (hfront (key a) ⟨a, ha, rfl⟩).1, fun a ha heq => hback ⟨a, ha, heq⟩⟩

/-- Among different keys there is but one place for an item. -/
theorem puts_iff {before after : List α} (h : (before.map key).Nodup) :
    Puts key item before after ↔ after = put key item before := by
  constructor
  · rintro (⟨front, old, back, rfl, hold, rfl⟩ | ⟨hnone, rfl⟩)
    · have hfront := (key_ne_of_nodup h).1
      rw [hold] at hfront
      rw [put_replaced hfront hold]
    · rw [put_appended hnone]
  · rintro rfl
    exact puts_put before

theorem removes_iff {gone : κ} {before after : List α} (h : (before.map key).Nodup) :
    Removes key gone before after
      ↔ gone ∈ before.map key ∧ after = before.filter (key · != gone) := by
  have hfilter {front back : List α} {old : α} (hnodup : ((front ++ old :: back).map key).Nodup) :
      (front ++ old :: back).filter (key · != key old) = front ++ back := by
    obtain ⟨hfront, hback⟩ := key_ne_of_nodup hnodup
    have hfront' : front.filter (key · != key old) = front := by simpa using hfront
    have hback' : back.filter (key · != key old) = back := by simpa using hback
    simp [hfront', hback']
  constructor
  · rintro ⟨front, old, back, rfl, rfl, rfl⟩
    exact ⟨by simp, (hfilter h).symm⟩
  · rintro ⟨hmem, rfl⟩
    obtain ⟨old, hold, rfl⟩ := List.mem_map.1 hmem
    obtain ⟨front, back, rfl⟩ := List.append_of_mem hold
    exact ⟨front, old, back, rfl, rfl, hfilter h⟩

theorem map_key_put (items : List α) : (put key item items).map key
    = if key item ∈ items.map key then items.map key else items.map key ++ [key item] := by
  have hputs : Puts key item items (put key item items) := puts_put items
  rcases hputs with ⟨front, old, back, rfl, hold, hput⟩ | ⟨hnone, hput⟩
  · simp [hput, hold]
  · have hmem : key item ∉ items.map key := by simpa using hnone
    simp only [hmem, if_false, hput, List.map_append, List.map_cons, List.map_nil]

theorem nodup_map_key_put {items : List α} (h : (items.map key).Nodup) :
    ((put key item items).map key).Nodup := by
  rw [map_key_put]
  split
  · exact h
  · rename_i hmem
    simpa [List.nodup_append] using ⟨h, by simpa using hmem⟩

theorem mem_map_key_put {items : List α} {k : κ} :
    k ∈ (put key item items).map key ↔ k ∈ key item :: items.map key := by
  rw [map_key_put, List.mem_cons]
  split
  · rename_i hmem
    exact ⟨.inr, fun h => h.elim (fun heq => heq ▸ hmem) id⟩
  · rw [List.mem_append, List.mem_singleton, or_comm]

/-- With different keys, nothing of the key is left but the item itself. -/
theorem mem_put_iff {items : List α} (h : (items.map key).Nodup) {a : α} :
    a ∈ put key item items ↔ a = item ∨ a ∈ items ∧ key a ≠ key item := by
  have hputs : Puts key item items (put key item items) := puts_put items
  rcases hputs with ⟨front, old, back, rfl, hold, hput⟩ | ⟨hnone, hput⟩
  · obtain ⟨hfront, hback⟩ := key_ne_of_nodup h
    rw [hput]
    simp only [List.mem_append, List.mem_cons]
    constructor
    · rintro (ha | rfl | ha)
      · exact .inr ⟨.inl ha, hold ▸ hfront a ha⟩
      · exact .inl rfl
      · exact .inr ⟨.inr (.inr ha), hold ▸ hback a ha⟩
    · rintro (rfl | ⟨ha | rfl | ha, hne⟩)
      · exact .inr (.inl rfl)
      · exact .inl ha
      · exact absurd hold hne
      · exact .inr (.inr ha)
  · rw [hput, List.mem_append, List.mem_singleton, or_comm]
    constructor
    · rintro (rfl | ha)
      · exact .inl rfl
      · exact .inr ⟨ha, hnone a ha⟩
    · rintro (rfl | ⟨ha, -⟩)
      · exact .inl rfl
      · exact .inr ha

end

/-! ### Sound solutions -/

/-- The project that is made of an info. -/
def Project.ofInfo (info : ProjectInfo) : Project :=
  let fingerprint := Fingerprint.ofContent info.content
  { info, fingerprint, fingerprint_eq := rfl }

theorem Project.mk_eq_ofInfo (info : ProjectInfo) : { info } = ofInfo info := rfl

@[simp] theorem Project.info_ofInfo (info : ProjectInfo) : (ofInfo info).info = info := rfl

@[simp] theorem Project.id_ofInfo (info : ProjectInfo) : (ofInfo info).id = info.id := rfl

namespace Solution

variable {solution : Solution}

theorem putProject_eq (project : Project) (projects : List Project) :
    putProject project projects = put (·.id) project projects := by
  induction projects with
  | nil => rfl
  | cons other rest ih => simp only [putProject, put, ih]

theorem putDocument_eq (document : Document) (documents : List Document) :
    putDocument document documents = put (·.id) document documents := by
  induction documents with
  | nil => rfl
  | cons other rest ih => simp only [putDocument, put, ih]

/-- All references name projects of the solution. -/
def IsClosed (solution : Solution) : Prop :=
  ∀ project ∈ solution.projects, ∀ reference ∈ project.info.projectReferences,
    reference ∈ solution.ids

/-- The projects are valid and have different ids, and what they reference are other projects. -/
structure IsSound (solution : Solution) : Prop where
  ids_nodup : solution.ids.Nodup
  valid : ∀ project ∈ solution.projects, project.info.validate = .ok ()
  references : ∀ project ∈ solution.projects, ∀ reference ∈ project.info.projectReferences,
    ∃ other ∈ solution.projects, other.id = reference ∧ other.id ≠ project.id

theorem id_not_mem_references {project : Project} (h : project.info.validate = .ok ()) :
    project.id ∉ project.info.projectReferences :=
  (ProjectInfo.validate_eq_ok_iff.1 h).other

/-- That a project does not reference itself is a matter of its own. -/
theorem isSound_iff : solution.IsSound ↔ solution.ids.Nodup
    ∧ (∀ project ∈ solution.projects, project.info.validate = .ok ()) ∧ solution.IsClosed := by
  constructor
  · rintro ⟨hids, hvalid, hreferences⟩
    refine ⟨hids, hvalid, fun project hproject reference hreference => ?_⟩
    obtain ⟨other, hother, rfl, -⟩ := hreferences project hproject reference hreference
    exact List.mem_map_of_mem hother
  · rintro ⟨hids, hvalid, hclosed⟩
    refine ⟨hids, hvalid, fun project hproject reference hreference => ?_⟩
    obtain ⟨other, hother, rfl⟩ := List.mem_map.1 (hclosed project hproject reference hreference)
    refine ⟨other, hother, rfl, fun hself => ?_⟩
    exact id_not_mem_references (hvalid project hproject) (hself ▸ hreference)

theorem checkReferences_eq_ok_iff {project : Project} :
    solution.checkReferences project = .ok ()
      ↔ ∀ reference ∈ project.info.projectReferences, reference ∈ solution.ids := by
  have h : project.info.projectReferences.find? (!solution.contains ·) = none
      ↔ ∀ reference ∈ project.info.projectReferences, reference ∈ solution.ids := by
    simp [List.find?_eq_none, contains]
  rw [checkReferences, ← h]
  cases project.info.projectReferences.find? (!solution.contains ·) with
  | none => simp
  | some reference => simp

theorem checkGraph_eq (solution : Solution) :
    solution.checkGraph = (do
      Checks.rejectRepeated .duplicateProject [] solution.ids
      solution.projects.forM solution.checkReferences) := by
  rw [checkGraph, Checks.rejectRepeated]
  cases firstRepeated? [] solution.ids with
  | none => rfl
  | some id => rfl

theorem checkGraph_eq_ok_iff :
    solution.checkGraph = .ok () ↔ solution.ids.Nodup ∧ solution.IsClosed := by
  simp only [checkGraph_eq, Checks.bind_eq_ok_iff, Checks.rejectRepeated_eq_ok_iff,
    Checks.forM_eq_ok_iff, checkReferences_eq_ok_iff]
  simp [IsClosed]

theorem ofProjects_eq_ok_iff {projects : List Project} {made : Solution} :
    ofProjects projects = .ok made
      ↔ made.projects = projects ∧ made.ids.Nodup ∧ made.IsClosed := by
  have hcheck : ofProjects projects = .ok made
      ↔ checkGraph ⟨projects⟩ = .ok () ∧ Solution.mk projects = made := by
    rw [ofProjects, Checks.bind_eq_ok_iff]
    simp [pure, Except.pure]
  rw [hcheck, checkGraph_eq_ok_iff]
  constructor
  · rintro ⟨hgraph, rfl⟩
    exact ⟨rfl, hgraph⟩
  · rintro ⟨rfl, hgraph⟩
    exact ⟨hgraph, rfl⟩

/-- A solution is made of any projects that make a sound one. -/
theorem ofInfos_eq_ok_iff {infos : List ProjectInfo} {made : Solution} :
    ofInfos infos = .ok made
      ↔ made.projects = infos.map .ofInfo ∧ made.IsSound := by
  rw [ofInfos, Checks.bind_eq_ok_iff, Checks.forM_eq_ok_iff, ofProjects_eq_ok_iff, isSound_iff]
  constructor
  · rintro ⟨hvalid, hprojects, hids, hclosed⟩
    refine ⟨hprojects, hids, ?_, hclosed⟩
    simpa [hprojects] using hvalid
  · rintro ⟨hprojects, hids, hvalid, hclosed⟩
    refine ⟨?_, hprojects, hids, hclosed⟩
    simpa [hprojects] using hvalid

/-! ### What is got -/

theorem exists_get?_of_mem_ids {id : ProjectId} (h : id ∈ solution.ids) :
    ∃ project, solution.get? id = some project := by
  obtain ⟨project, hproject, rfl⟩ := List.mem_map.1 h
  refine Option.isSome_iff_exists.1 (List.find?_isSome.2 ⟨project, hproject, ?_⟩)
  exact beq_self_eq_true _

theorem get?_eq_none {id : ProjectId} (h : id ∉ solution.ids) :
    solution.get? id = none := by
  refine List.find?_eq_none.2 fun project hproject hid => h ?_
  rw [← beq_iff_eq.1 hid]
  exact List.mem_map_of_mem hproject

theorem id_of_get? {id : ProjectId} {project : Project}
    (h : solution.get? id = some project) : project.id = id :=
  beq_iff_eq.1 (List.find?_some (p := fun project : Project => project.id == id) h)

theorem get?_of_mem (hids : solution.ids.Nodup) {project : Project}
    (h : project ∈ solution.projects) : solution.get? project.id = some project := by
  obtain ⟨other, hother⟩ := exists_get?_of_mem_ids (List.mem_map_of_mem (f := (·.id)) h)
  have hsame := List.inj_on_of_nodup_map hids (List.mem_of_find?_eq_some hother) h
    (id_of_get? hother)
  rw [hother, hsame]

theorem get?_eq_some_iff (hids : solution.ids.Nodup) {id : ProjectId} {project : Project} :
    solution.get? id = some project ↔ project ∈ solution.projects ∧ project.id = id := by
  constructor
  · intro h
    exact ⟨List.mem_of_find?_eq_some h, id_of_get? h⟩
  · rintro ⟨hproject, rfl⟩
    exact get?_of_mem hids hproject

theorem get?_eq_none_iff {id : ProjectId} : solution.get? id = none ↔ id ∉ solution.ids := by
  constructor
  · rintro h hid
    obtain ⟨project, hproject⟩ := exists_get?_of_mem_ids hid
    simp [hproject] at h
  · exact get?_eq_none

end Solution

/-! ### Edits -/

namespace Solution

/-- What an edit is to make of a solution. -/
def Edit.Makes (before after : Solution) : Edit → Prop
  | .withProject info => Puts (·.id) (.ofInfo info) before.projects after.projects
  | .withDocument id document => ∃ project ∈ before.projects, project.id = id
      ∧ ∃ documents, Puts (·.id) document project.info.documents documents
        ∧ Puts (·.id) (.ofInfo { project.info with documents }) before.projects after.projects
  | .withoutProject id => Removes (·.id) id before.projects after.projects

/-- Why an edit is refused: its project is not there, is not valid, or references one that is not
there; or the one that it removes is still referenced. -/
def Edit.IsRefused (solution : Solution) : Edit → Prop
  | .withProject info => info.validate ≠ .ok ()
      ∨ ∃ reference ∈ info.projectReferences, reference ∉ info.id :: solution.ids
  | .withDocument id _ => id ∉ solution.ids
  | .withoutProject id => id ∉ solution.ids
      ∨ ∃ project ∈ solution.projects, id ∈ project.info.projectReferences

variable {solution edited : Solution}

theorem withProject_eq_ok_iff {info : ProjectInfo} : solution.withProject info = .ok edited
    ↔ info.validate = .ok () ∧ edited.projects = put (·.id) (.ofInfo info) solution.projects
      ∧ edited.ids.Nodup ∧ edited.IsClosed := by
  rw [withProject, Project.mk_eq_ofInfo, Checks.bind_eq_ok_iff, ofProjects_eq_ok_iff, putProject_eq]

/-- To put a project among sound ones takes a valid project. -/
theorem withProject_eq_ok_iff_isSound (sound : solution.IsSound) {info : ProjectInfo} :
    solution.withProject info = .ok edited
      ↔ edited.projects = put (·.id) (.ofInfo info) solution.projects ∧ edited.IsSound := by
  rw [withProject_eq_ok_iff, isSound_iff]
  constructor
  · rintro ⟨hvalid, hprojects, hids, hclosed⟩
    refine ⟨hprojects, hids, fun project hproject => ?_, hclosed⟩
    rw [hprojects, mem_put_iff sound.ids_nodup] at hproject
    rcases hproject with rfl | ⟨hproject, -⟩
    · exact hvalid
    · exact sound.valid project hproject
  · rintro ⟨hprojects, hids, hvalid, hclosed⟩
    refine ⟨hvalid (.ofInfo info) ?_, hprojects, hids, hclosed⟩
    rw [hprojects, mem_put_iff sound.ids_nodup]
    exact .inl rfl

theorem withDocument_eq_ok_iff (sound : solution.IsSound) {id : ProjectId} {document : Document} :
    solution.withDocument id document = .ok edited ↔ ∃ project ∈ solution.projects,
      project.id = id ∧ solution.withProject { project.info with
        documents := put (·.id) document project.info.documents } = .ok edited := by
  cases hget : solution.get? id with
  | none =>
    have hid := get?_eq_none_iff.1 hget
    simp only [withDocument, hget, reduceCtorEq, false_iff, not_exists, not_and]
    rintro project hproject rfl
    exact absurd (List.mem_map_of_mem hproject) hid
  | some project =>
    have hproject := (get?_eq_some_iff sound.ids_nodup).1 hget
    simp only [withDocument, hget, putDocument_eq]
    constructor
    · intro h
      exact ⟨project, hproject.1, hproject.2, h⟩
    · rintro ⟨other, hother, hid, h⟩
      have hsame := (get?_eq_some_iff sound.ids_nodup).2 ⟨hother, hid⟩
      rw [hget] at hsame
      obtain rfl := Option.some.inj hsame
      exact h

theorem withoutProject_eq_ok_iff {id : ProjectId} : solution.withoutProject id = .ok edited
    ↔ id ∈ solution.ids ∧ edited.projects = solution.projects.filter (·.id != id)
      ∧ edited.ids.Nodup ∧ edited.IsClosed := by
  by_cases h : id ∈ solution.ids
  · simp [withoutProject, contains, h, ofProjects_eq_ok_iff]
  · simp [withoutProject, contains, h]

/-- An edit of a sound solution gives what it is to make, if that is sound. -/
theorem apply_eq_ok_iff (sound : solution.IsSound) (edit : Edit) :
    edit.apply solution = .ok edited ↔ edit.Makes solution edited ∧ edited.IsSound := by
  cases edit with
  | withProject info =>
    rw [Edit.apply, withProject_eq_ok_iff_isSound sound, Edit.Makes, puts_iff sound.ids_nodup]
  | withDocument id document =>
    rw [Edit.apply, withDocument_eq_ok_iff sound, Edit.Makes]
    constructor
    · rintro ⟨project, hproject, hid, h⟩
      rw [withProject_eq_ok_iff_isSound sound] at h
      exact ⟨⟨project, hproject, hid, _, puts_put _, (puts_iff sound.ids_nodup).2 h.1⟩, h.2⟩
    · rintro ⟨⟨project, hproject, hid, documents, hdocuments, h⟩, hsound⟩
      have hvalid := ProjectInfo.validate_eq_ok_iff.1 (sound.valid project hproject)
      rw [puts_iff hvalid.documents] at hdocuments
      rw [puts_iff sound.ids_nodup, hdocuments] at h
      exact ⟨project, hproject, hid, (withProject_eq_ok_iff_isSound sound).2 ⟨h, hsound⟩⟩
  | withoutProject id =>
    rw [Edit.apply, withoutProject_eq_ok_iff, Edit.Makes, removes_iff sound.ids_nodup, isSound_iff]
    constructor
    · rintro ⟨hid, hprojects, hids, hclosed⟩
      refine ⟨⟨hid, hprojects⟩, hids, fun project hproject => ?_, hclosed⟩
      rw [hprojects] at hproject
      exact sound.valid project (List.mem_of_mem_filter hproject)
    · rintro ⟨⟨hid, hprojects⟩, hids, -, hclosed⟩
      exact ⟨hid, hprojects, hids, hclosed⟩

/-! ### Refused edits -/

/-- The solution with a project put into it is sound if the project is valid and its references are
known. -/
theorem exists_withProject_iff (sound : solution.IsSound) (info : ProjectInfo) :
    (∃ edited, solution.withProject info = .ok edited)
      ↔ info.validate = .ok ()
        ∧ ∀ reference ∈ info.projectReferences, reference ∈ info.id :: solution.ids := by
  obtain ⟨hids, -, hclosed⟩ := isSound_iff.1 sound
  let edited : Solution := ⟨put (·.id) (.ofInfo info) solution.projects⟩
  have hmem {id : ProjectId} : id ∈ edited.ids ↔ id ∈ info.id :: solution.ids := by
    rw [ids]
    exact mem_map_key_put
  have hgraph : edited.IsClosed
      ↔ ∀ reference ∈ info.projectReferences, reference ∈ info.id :: solution.ids := by
    constructor
    · intro h reference hreference
      exact hmem.1 (h (.ofInfo info) ((mem_put_iff hids).2 (.inl rfl)) reference hreference)
    · intro h project hproject reference hreference
      rw [hmem]
      rcases (mem_put_iff hids).1 hproject with rfl | ⟨hproject, -⟩
      · exact h reference hreference
      · exact List.mem_cons_of_mem _ (hclosed project hproject reference hreference)
  simp only [withProject_eq_ok_iff]
  constructor
  · rintro ⟨⟨projects⟩, hvalid, rfl, -, hclosed'⟩
    exact ⟨hvalid, hgraph.1 hclosed'⟩
  · rintro ⟨hvalid, hreferences⟩
    exact ⟨edited, hvalid, rfl, nodup_map_key_put hids, hgraph.2 hreferences⟩

/-- A project is removed if nothing references it. -/
theorem exists_withoutProject_iff (sound : solution.IsSound) (id : ProjectId) :
    (∃ edited, solution.withoutProject id = .ok edited)
      ↔ id ∈ solution.ids ∧ ∀ project ∈ solution.projects, id ∉ project.info.projectReferences := by
  obtain ⟨hids, hvalid, hclosed⟩ := isSound_iff.1 sound
  let edited : Solution := ⟨solution.projects.filter (·.id != id)⟩
  have hmem {other : ProjectId} : other ∈ edited.ids ↔ other ∈ solution.ids ∧ other ≠ id := by
    simp only [edited, ids, List.mem_map, List.mem_filter, bne_iff_ne]
    constructor
    · rintro ⟨project, ⟨hproject, hne⟩, rfl⟩
      exact ⟨⟨project, hproject, rfl⟩, hne⟩
    · rintro ⟨⟨project, hproject, rfl⟩, hne⟩
      exact ⟨project, ⟨hproject, hne⟩, rfl⟩
  simp only [withoutProject_eq_ok_iff]
  constructor
  · rintro ⟨⟨projects⟩, hid, rfl, -, hclosed'⟩
    refine ⟨hid, fun project hproject hreference => ?_⟩
    by_cases hself : project.id = id
    · exact id_not_mem_references (hvalid project hproject) (hself ▸ hreference)
    · have hkept : project ∈ edited.projects := by simp [edited, hproject, hself]
      exact (hmem.1 (hclosed' project hkept id hreference)).2 rfl
  · rintro ⟨hid, hreferences⟩
    refine ⟨edited, hid, rfl, ?_, fun project hproject reference hreference => ?_⟩
    · exact hids.sublist ((List.filter_sublist).map _)
    · have hproject' := List.mem_of_mem_filter hproject
      refine hmem.2 ⟨hclosed project hproject' reference hreference, ?_⟩
      rintro rfl
      exact hreferences project hproject' hreference

/-- A document can be put into every project that there is. -/
theorem exists_withDocument_iff (sound : solution.IsSound) (id : ProjectId) (document : Document) :
    (∃ edited, solution.withDocument id document = .ok edited) ↔ id ∈ solution.ids := by
  simp only [withDocument_eq_ok_iff sound]
  constructor
  · rintro ⟨edited, project, hproject, rfl, -⟩
    exact List.mem_map_of_mem hproject
  · intro hid
    obtain ⟨project, hproject, rfl⟩ := List.mem_map.1 hid
    have hvalid := ProjectInfo.validate_eq_ok_iff.1 (sound.valid project hproject)
    have hclosed := (isSound_iff.1 sound).2.2 project hproject
    obtain ⟨edited, h⟩ := (exists_withProject_iff sound { project.info with
      documents := put (·.id) document project.info.documents }).2
      ⟨ProjectInfo.validate_eq_ok_iff.2 { hvalid with
          documents := nodup_map_key_put hvalid.documents },
        fun reference hreference => List.mem_cons_of_mem _ (hclosed reference hreference)⟩
    exact ⟨edited, project, hproject, rfl, h⟩

theorem exists_apply_iff (sound : solution.IsSound) (edit : Edit) :
    (∃ edited, edit.apply solution = .ok edited) ↔ ¬ edit.IsRefused solution := by
  cases edit with
  | withProject info =>
    simp only [Edit.IsRefused, not_or, ne_eq, not_exists, not_and, not_not]
    exact exists_withProject_iff sound info
  | withDocument id document =>
    simp only [Edit.IsRefused, not_not]
    exact exists_withDocument_iff sound id document
  | withoutProject id =>
    simp only [Edit.IsRefused, not_or, not_exists, not_and, not_not]
    exact exists_withoutProject_iff sound id

end Solution

end SymbolSearch
