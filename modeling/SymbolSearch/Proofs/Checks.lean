import Mathlib.Data.List.Nodup
import SymbolSearch.Project.Info

/-!
# Checks

A check gives nothing or says what is wrong. Checks one after another pass if each of them passes;
so what a project has to satisfy can be said apart from the order in which it is looked at. Each of
its lists is checked for repeated items, of which the first is told.
-/

namespace SymbolSearch

namespace Checks

variable {ε α β : Type}

theorem bind_eq_ok_iff {first : Except ε Unit} {second : Unit → Except ε β} {b : β} :
    (first >>= second) = .ok b ↔ first = .ok () ∧ second () = .ok b := by
  cases first with
  | error fault => simp [bind, Except.bind]
  | ok _ => simp [bind, Except.bind]

theorem forM_eq_ok_iff {check : α → Except ε Unit} {items : List α} :
    items.forM check = .ok () ↔ ∀ a ∈ items, check a = .ok () := by
  induction items with
  | nil => simp [pure, Except.pure]
  | cons a items ih =>
    change (check a >>= fun _ => items.forM check) = .ok () ↔ _
    rw [bind_eq_ok_iff, ih, List.forall_mem_cons]

theorem bind_eq_error {first : Except ε Unit} {second : Unit → Except ε β} {fault : ε}
    (h : (first >>= second) = .error fault) : first = .error fault ∨ second () = .error fault := by
  cases first with
  | error other =>
    cases h
    exact .inl rfl
  | ok _ => exact .inr h

/-- The checks of a list fail as one of them does. -/
theorem exists_of_forM_eq_error {check : α → Except ε Unit} {items : List α} {fault : ε}
    (h : items.forM check = .error fault) : ∃ a ∈ items, check a = .error fault := by
  induction items with
  | nil => cases h
  | cons a items ih =>
    change (check a >>= fun _ => items.forM check) = _ at h
    rcases bind_eq_error h with ha | hitems
    · exact ⟨a, List.mem_cons_self, ha⟩
    · obtain ⟨b, hb, hfault⟩ := ih hitems
      exact ⟨b, List.mem_cons_of_mem a hb, hfault⟩

theorem firstRepeated?_eq_none_iff [BEq α] [LawfulBEq α] (seen items : List α) :
    firstRepeated? seen items = none ↔ items.Nodup ∧ ∀ a ∈ items, a ∉ seen := by
  induction items generalizing seen with
  | nil => simp [firstRepeated?]
  | cons a rest ih =>
    by_cases h : a ∈ seen
    · simp [firstRepeated?, h]
    · simp only [firstRepeated?, List.contains_iff_mem, h, if_false, ih, List.nodup_cons,
        List.mem_cons, forall_eq_or_imp, not_or, not_false_eq_true, true_and]
      constructor
      · rintro ⟨hrest, hseen⟩
        exact ⟨⟨fun ha => (hseen a ha).1 rfl, hrest⟩, fun b hb => (hseen b hb).2⟩
      · rintro ⟨⟨ha, hrest⟩, hseen⟩
        exact ⟨hrest, fun b hb => ⟨fun hba => ha (hba ▸ hb), hseen b hb⟩⟩

/-- The item stands in the list for a second time, or was seen before the list; and of the items in
front of it, this is true of none. -/
def FirstRepeated (seen items : List α) (a : α) : Prop :=
  ∃ front back, items = front ++ a :: back ∧ front.Nodup ∧ (∀ b ∈ front, b ∉ seen)
    ∧ (a ∈ front ∨ a ∈ seen)

/-- An item that was seen is repeated where it stands first in the list. -/
theorem firstRepeated_cons_of_mem {seen rest : List α} {a b : α} (hb : b ∈ seen) :
    FirstRepeated seen (b :: rest) a ↔ b = a := by
  constructor
  · rintro ⟨front, back, hitems, -, hfresh, -⟩
    cases front with
    | nil => exact (List.cons.inj hitems).1
    | cons c front =>
      obtain ⟨rfl, -⟩ := List.cons.inj hitems
      exact absurd hb (hfresh b List.mem_cons_self)
  · rintro rfl
    exact ⟨[], rest, rfl, List.nodup_nil, by simp, .inr hb⟩

/-- An item that was not seen is one of those that were for the rest of the list. -/
theorem firstRepeated_cons_of_notMem {seen rest : List α} {a b : α} (hb : b ∉ seen) :
    FirstRepeated seen (b :: rest) a ↔ FirstRepeated (b :: seen) rest a := by
  constructor
  · rintro ⟨front, back, hitems, hnodup, hfresh, hrepeated⟩
    cases front with
    | nil =>
      obtain ⟨rfl, -⟩ := List.cons.inj hitems
      exact absurd (hrepeated.resolve_left List.not_mem_nil) hb
    | cons c front =>
      obtain ⟨rfl, rfl⟩ := List.cons.inj hitems
      obtain ⟨hb', hfront⟩ := List.nodup_cons.1 hnodup
      refine ⟨front, back, rfl, hfront, fun c hc => ?_, ?_⟩
      · rw [List.mem_cons, not_or]
        exact ⟨fun hcb => hb' (hcb ▸ hc), hfresh c (List.mem_cons_of_mem b hc)⟩
      · rw [List.mem_cons] at hrepeated ⊢
        exact or_left_comm.1 (or_assoc.1 hrepeated)
  · rintro ⟨front, back, rfl, hfront, hfresh, hrepeated⟩
    refine ⟨b :: front, back, rfl, List.nodup_cons.2 ⟨fun hb' => ?_, hfront⟩, ?_, ?_⟩
    · exact hfresh b hb' List.mem_cons_self
    · rw [List.forall_mem_cons]
      exact ⟨hb, fun c hc hseen => hfresh c hc (List.mem_cons_of_mem b hseen)⟩
    · rw [List.mem_cons] at hrepeated ⊢
      exact or_assoc.2 (or_left_comm.1 hrepeated)

theorem firstRepeated?_eq_some_iff [BEq α] [LawfulBEq α] {seen items : List α} {a : α} :
    firstRepeated? seen items = some a ↔ FirstRepeated seen items a := by
  induction items generalizing seen with
  | nil => simp [firstRepeated?, FirstRepeated]
  | cons b rest ih =>
    by_cases hb : b ∈ seen
    · rw [firstRepeated_cons_of_mem hb]
      simp [firstRepeated?, hb]
    · rw [firstRepeated_cons_of_notMem hb, ← ih]
      simp [firstRepeated?, hb]

/-- Complains about the first item that is repeated. -/
def rejectRepeated [BEq α] (complaint : α → ε) (seen items : List α) : Except ε Unit :=
  match firstRepeated? seen items with
  | some a => .error (complaint a)
  | none => .ok ()

variable [BEq α] [LawfulBEq α] {complaint : α → ε} {seen items : List α}

theorem rejectRepeated_eq_ok_iff :
    rejectRepeated complaint seen items = .ok () ↔ items.Nodup ∧ ∀ a ∈ items, a ∉ seen := by
  rw [← firstRepeated?_eq_none_iff, rejectRepeated]
  cases firstRepeated? seen items with
  | none => simp
  | some a => simp

theorem rejectRepeated_eq_error_iff {fault : ε} :
    rejectRepeated complaint seen items = .error fault
      ↔ ∃ a, FirstRepeated seen items a ∧ complaint a = fault := by
  simp only [← firstRepeated?_eq_some_iff, rejectRepeated]
  cases firstRepeated? seen items with
  | none => simp
  | some a => simp

end Checks

namespace ProjectInfo

open Checks

/-- What makes a project sound by itself: it has names, and neither its documents nor what it
references are repeated or the project itself. -/
structure IsValid (info : ProjectInfo) : Prop where
  name : Text.isBlank info.name = false
  assemblyName : Text.isBlank info.assemblyName = false
  language : Text.isBlank info.language = false
  documents : (info.documents.map (·.id)).Nodup
  other : info.id ∉ info.projectReferences
  projectReferences : info.projectReferences.Nodup
  metadataReferences : (info.metadataReferences.map (·.name)).Nodup

variable {info : ProjectInfo}

theorem checkName_eq_ok_iff {project : ProjectId} {field value : String} :
    checkName project field value = .ok () ↔ Text.isBlank value = false := by
  by_cases h : Text.isBlank value = true
  · simp [checkName, h]
  · simp [checkName, h]

theorem checkDocuments_eq (project : ProjectId) (documents : List Document) :
    checkDocuments project documents
      = rejectRepeated (.duplicateDocument project) [] (documents.map (·.id)) := by
  rw [checkDocuments, rejectRepeated]
  cases firstRepeated? [] (documents.map (·.id)) with
  | none => rfl
  | some id => rfl

/-- What is said about a reference that was there before. The project itself always was. -/
def referenceError (project reference : ProjectId) : ProjectError :=
  if reference = project then .selfReference project
  else .duplicateProjectReference project reference

theorem checkReferencesFrom_eq (project : ProjectId) (seen references : List ProjectId) :
    checkReferencesFrom project seen references
      = rejectRepeated (referenceError project) (seen ++ [project]) references := by
  induction references generalizing seen with
  | nil => rfl
  | cons reference rest ih =>
    by_cases hself : reference = project
    · simp [checkReferencesFrom, rejectRepeated, firstRepeated?, referenceError, hself]
    · by_cases hseen : reference ∈ seen
      · simp [checkReferencesFrom, rejectRepeated, firstRepeated?, referenceError, hself, hseen]
      · simp only [checkReferencesFrom, hself, hseen, if_false, ih]
        simp [rejectRepeated, firstRepeated?, hself, hseen]

theorem checkReferences_eq (project : ProjectId) (references : List ProjectId) :
    checkReferences project references
      = rejectRepeated (referenceError project) [project] references :=
  checkReferencesFrom_eq project [] references

theorem checkMetadata_eq (project : ProjectId) (references : List MetadataReference) :
    checkMetadata project references
      = rejectRepeated (.duplicateMetadataReference project) [] (references.map (·.name)) := by
  rw [checkMetadata, rejectRepeated]
  cases firstRepeated? [] (references.map (·.name)) with
  | none => rfl
  | some name => rfl

theorem checkDocuments_eq_ok_iff {project : ProjectId} {documents : List Document} :
    checkDocuments project documents = .ok () ↔ (documents.map (·.id)).Nodup := by
  rw [checkDocuments_eq, rejectRepeated_eq_ok_iff]
  simp

theorem checkReferences_eq_ok_iff {project : ProjectId} {references : List ProjectId} :
    checkReferences project references = .ok () ↔ project ∉ references ∧ references.Nodup := by
  rw [checkReferences_eq, rejectRepeated_eq_ok_iff, and_comm]
  simp only [List.mem_singleton, List.forall_mem_ne']

theorem checkMetadata_eq_ok_iff {project : ProjectId} {references : List MetadataReference} :
    checkMetadata project references = .ok () ↔ (references.map (·.name)).Nodup := by
  rw [checkMetadata_eq, rejectRepeated_eq_ok_iff]
  simp

theorem validate_eq_ok_iff : info.validate = .ok () ↔ info.IsValid := by
  simp only [validate, bind_eq_ok_iff, checkName_eq_ok_iff, checkDocuments_eq_ok_iff,
    checkReferences_eq_ok_iff, checkMetadata_eq_ok_iff]
  constructor
  · rintro ⟨hname, hassembly, hlanguage, hdocuments, ⟨hother, hreferences⟩, hmetadata⟩
    exact ⟨hname, hassembly, hlanguage, hdocuments, hother, hreferences, hmetadata⟩
  · rintro ⟨hname, hassembly, hlanguage, hdocuments, hother, hreferences, hmetadata⟩
    exact ⟨hname, hassembly, hlanguage, hdocuments, ⟨hother, hreferences⟩, hmetadata⟩

end ProjectInfo

end SymbolSearch
