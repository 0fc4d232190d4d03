import SymbolSearch.Proofs.Checks

/-!
# Projects put together list by list

A project is made of its names, and its lists are put into it one after another, each in the place
of the one that was there. Only the new list is looked at. Still, what comes of it are exactly the
valid projects, and a list is refused with what would be said about the whole project.
-/

namespace SymbolSearch

open Checks

/-! ### Lists that are put into a project -/

inductive Replacement where
  | withDocuments (documents : List Document)
  | withProjectReferences (references : List ProjectId)
  | withMetadataReferences (references : List MetadataReference)

namespace Replacement

/-- The project with the list in it, whether or not it is valid. -/
def put (info : ProjectInfo) : Replacement → ProjectInfo
  | withDocuments documents => { info with documents }
  | withProjectReferences references => { info with projectReferences := references }
  | withMetadataReferences references => { info with metadataReferences := references }

/-- What is looked at when the list is put into a project: the list alone. -/
def check (project : ProjectId) : Replacement → Except ProjectError Unit
  | withDocuments documents => ProjectInfo.checkDocuments project documents
  | withProjectReferences references => ProjectInfo.checkReferences project references
  | withMetadataReferences references => ProjectInfo.checkMetadata project references

def apply (info : ProjectInfo) : Replacement → Except ProjectError ProjectInfo
  | withDocuments documents => info.withDocuments documents
  | withProjectReferences references => info.withProjectReferences references
  | withMetadataReferences references => info.withMetadataReferences references

/-- Puts the list into the project and looks at all of it. -/
def applyValidated (info : ProjectInfo) (replacement : Replacement) :
    Except ProjectError ProjectInfo := do
  (replacement.put info).validate
  return replacement.put info

/-- What is wrong with the list, told by the first item that may not stand where it does. A project
may not stand among its own references at all, as if it had been there before. -/
def Fault (project : ProjectId) (error : ProjectError) : Replacement → Prop
  | withDocuments documents =>
    ∃ id, FirstRepeated [] (documents.map (·.id)) id ∧ .duplicateDocument project id = error
  | withProjectReferences references => ∃ reference, FirstRepeated [project] references reference
      ∧ ProjectInfo.referenceError project reference = error
  | withMetadataReferences references => ∃ name, FirstRepeated [] (references.map (·.name)) name
      ∧ .duplicateMetadataReference project name = error

variable {info next : ProjectInfo} {project : ProjectId} {error : ProjectError}

theorem apply_eq (info : ProjectInfo) (replacement : Replacement) :
    replacement.apply info = do
      replacement.check info.id
      return replacement.put info := by
  cases replacement with
  | withDocuments documents => rfl
  | withProjectReferences references => rfl
  | withMetadataReferences references => rfl

theorem check_eq_error_iff (replacement : Replacement) :
    replacement.check project = .error error ↔ replacement.Fault project error := by
  cases replacement with
  | withDocuments documents =>
    rw [check, ProjectInfo.checkDocuments_eq, rejectRepeated_eq_error_iff]
    rfl
  | withProjectReferences references =>
    rw [check, ProjectInfo.checkReferences_eq, rejectRepeated_eq_error_iff]
    rfl
  | withMetadataReferences references =>
    rw [check, ProjectInfo.checkMetadata_eq, rejectRepeated_eq_error_iff]
    rfl

/-- With a list in a valid project, all other checks of the project still pass. -/
theorem validate_put (valid : info.validate = .ok ()) (replacement : Replacement) :
    (replacement.put info).validate = replacement.check info.id := by
  simp only [ProjectInfo.validate, bind_eq_ok_iff] at valid
  obtain ⟨hname, hassembly, hlanguage, hdocuments, hreferences, hmetadata⟩ := valid
  cases replacement with
  | withDocuments documents =>
    simp only [put, check, ProjectInfo.validate, hname, hassembly, hlanguage, hreferences,
      hmetadata]
    cases ProjectInfo.checkDocuments info.id documents with
    | error error => rfl
    | ok _ => rfl
  | withProjectReferences references =>
    simp only [put, check, ProjectInfo.validate, hname, hassembly, hlanguage, hdocuments,
      hmetadata]
    cases ProjectInfo.checkReferences info.id references with
    | error error => rfl
    | ok _ => rfl
  | withMetadataReferences references =>
    simp only [put, check, ProjectInfo.validate, hname, hassembly, hlanguage, hdocuments,
      hreferences]
    rfl

/-- To look at the list alone is enough if the project was valid. -/
theorem apply_eq_applyValidated (valid : info.validate = .ok ()) (replacement : Replacement) :
    replacement.apply info = replacement.applyValidated info := by
  rw [apply_eq, applyValidated, validate_put valid]

theorem applyValidated_eq_ok_iff {replacement : Replacement} :
    replacement.applyValidated info = .ok next
      ↔ next = replacement.put info ∧ next.validate = .ok () := by
  rw [applyValidated, bind_eq_ok_iff]
  constructor
  · rintro ⟨hvalid, hnext⟩
    obtain rfl := Except.ok.inj hnext
    exact ⟨rfl, hvalid⟩
  · rintro ⟨rfl, hvalid⟩
    exact ⟨hvalid, rfl⟩

theorem applyValidated_eq_error_iff {replacement : Replacement} :
    replacement.applyValidated info = .error error
      ↔ (replacement.put info).validate = .error error := by
  rw [applyValidated]
  cases (replacement.put info).validate with
  | error other => simp [bind, Except.bind]
  | ok _ => simp [bind, Except.bind, pure, Except.pure]

/-- A list put into a valid project gives a valid one. -/
theorem validate_of_apply (valid : info.validate = .ok ()) {replacement : Replacement}
    (h : replacement.apply info = .ok next) : next.validate = .ok () := by
  rw [apply_eq_applyValidated valid] at h
  exact (applyValidated_eq_ok_iff.1 h).2

/-- Any number of lists can be put into a valid project as if all of it were looked at each time:
they end in the same project, or at the same list with the same error. -/
theorem foldlM_apply (valid : info.validate = .ok ()) (replacements : List Replacement) :
    replacements.foldlM apply info = replacements.foldlM applyValidated info := by
  induction replacements generalizing info with
  | nil => rfl
  | cons replacement rest ih =>
    rw [List.foldlM_cons, List.foldlM_cons, apply_eq_applyValidated valid]
    cases h : replacement.applyValidated info with
    | error error => rfl
    | ok next => exact ih (applyValidated_eq_ok_iff.1 h).2

end Replacement

/-! ### Projects made by replacements -/

namespace ProjectInfo

/-- The projects that are made of names and then of one list after another. -/
inductive Built : ProjectInfo → Prop
  | named {id : ProjectId} {name assemblyName language : String} {info : ProjectInfo} :
    ofNames id name assemblyName language = .ok info → Built info
  | replaced {info next : ProjectInfo} (replacement : Replacement) :
    Built info → replacement.apply info = .ok next → Built next

variable {info : ProjectInfo}

theorem ofNames_eq_ok_iff {id : ProjectId} {name assemblyName language : String} :
    ofNames id name assemblyName language = .ok info
      ↔ info = ⟨id, name, assemblyName, language, [], [], []⟩ ∧ info.validate = .ok () := by
  rw [ofNames, bind_eq_ok_iff]
  constructor
  · rintro ⟨hvalid, hinfo⟩
    obtain rfl := Except.ok.inj hinfo
    exact ⟨rfl, hvalid⟩
  · rintro ⟨rfl, hvalid⟩
    exact ⟨hvalid, rfl⟩

theorem Built.validate_eq_ok (built : info.Built) : info.validate = .ok () := by
  induction built with
  | named h => exact (ofNames_eq_ok_iff.1 h).2
  | replaced replacement _ h ih => exact replacement.validate_of_apply ih h

/-- A list may be put in if the project is valid with it. -/
theorem Built.put (built : info.Built) (replacement : Replacement)
    (valid : (replacement.put info).IsValid) : (replacement.put info).Built := by
  refine .replaced replacement built ?_
  rw [replacement.apply_eq_applyValidated built.validate_eq_ok]
  exact Replacement.applyValidated_eq_ok_iff.2 ⟨rfl, validate_eq_ok_iff.2 valid⟩

/-- Every valid project can be made: of its names first, which are valid without the lists. -/
theorem IsValid.built (valid : info.IsValid) : info.Built := by
  let named : ProjectInfo :=
    { info with documents := [], projectReferences := [], metadataReferences := [] }
  let filed : ProjectInfo := { named with documents := info.documents }
  let linked : ProjectInfo := { filed with projectReferences := info.projectReferences }
  have hnamed : named.IsValid :=
    { valid with
      documents := List.nodup_nil
      other := List.not_mem_nil
      projectReferences := List.nodup_nil
      metadataReferences := List.nodup_nil }
  have hfiled : filed.IsValid := { hnamed with documents := valid.documents }
  have hlinked : linked.IsValid :=
    { hfiled with other := valid.other, projectReferences := valid.projectReferences }
  have start : named.Built := .named (ofNames_eq_ok_iff.2 ⟨rfl, validate_eq_ok_iff.2 hnamed⟩)
  have filing : filed.Built := start.put (.withDocuments info.documents) hfiled
  have linking : linked.Built := filing.put (.withProjectReferences info.projectReferences) hlinked
  exact linking.put (.withMetadataReferences info.metadataReferences) valid

theorem built_iff : info.Built ↔ info.IsValid :=
  ⟨fun built => validate_eq_ok_iff.1 built.validate_eq_ok, IsValid.built⟩

/-- Whatever lists were put into a project after its names, it is valid as a whole. Another list is
taken if and only if the project is valid with it, and that project is what comes of it. Otherwise
it is refused with the error that the project with it would be: the one that tells the first item
of the list that may not stand where it does. So it makes no difference to any number of lists
whether they are looked at alone or the whole project is each time. -/
theorem built_as_validated {info : ProjectInfo} (built : info.Built) :
    info.validate = .ok () ∧ info.IsValid
      ∧ (∀ (replacement : Replacement) (next : ProjectInfo), replacement.apply info = .ok next
        ↔ next = replacement.put info ∧ next.validate = .ok ())
      ∧ (∀ (replacement : Replacement) (error : ProjectError), replacement.apply info = .error error
        ↔ (replacement.put info).validate = .error error)
      ∧ (∀ (replacement : Replacement) (error : ProjectError), replacement.apply info = .error error
        ↔ replacement.Fault info.id error)
      ∧ ∀ replacements : List Replacement, replacements.foldlM Replacement.apply info
        = replacements.foldlM Replacement.applyValidated info := by
  have valid := built.validate_eq_ok
  refine ⟨valid, built_iff.1 built, ?_, ?_, ?_, Replacement.foldlM_apply valid⟩
  · intro replacement next
    rw [replacement.apply_eq_applyValidated valid, Replacement.applyValidated_eq_ok_iff]
  · intro replacement error
    rw [replacement.apply_eq_applyValidated valid, Replacement.applyValidated_eq_error_iff]
  · intro replacement error
    rw [replacement.apply_eq_applyValidated valid, Replacement.applyValidated_eq_error_iff,
      replacement.validate_put valid, replacement.check_eq_error_iff]

/-- Of a reference to the project itself and a repeated one, the one that comes first is told. -/
theorem built_as_validated_of_references :
    let named : ProjectInfo := ⟨⟨1⟩, "A", "A", "C#", [], [], []⟩
    let info : ProjectInfo := { named with projectReferences := [⟨2⟩] }
    let itself : Replacement := .withProjectReferences [⟨3⟩, ⟨1⟩, ⟨3⟩]
    let twice : Replacement := .withProjectReferences [⟨3⟩, ⟨3⟩, ⟨1⟩]
    info.Built
      ∧ itself.apply info = .error (.selfReference ⟨1⟩)
      ∧ (itself.put info).validate = .error (.selfReference ⟨1⟩)
      ∧ twice.apply info = .error (.duplicateProjectReference ⟨1⟩ ⟨3⟩)
      ∧ (twice.put info).validate = .error (.duplicateProjectReference ⟨1⟩ ⟨3⟩) := by
  intro named info itself twice
  have hnamed : ofNames ⟨1⟩ "A" "A" "C#" = .ok named :=
    ofNames_eq_ok_iff.2 ⟨rfl, by decide +kernel⟩
  have built : info.Built := .replaced (.withProjectReferences [⟨2⟩]) (.named hnamed) rfl
  obtain ⟨-, -, -, hvalidate, hfault, -⟩ := built_as_validated built
  have hitself : itself.apply info = .error (.selfReference ⟨1⟩) := by
    rw [hfault]
    exact ⟨⟨1⟩, ⟨[⟨3⟩], [⟨3⟩], rfl, by decide, by decide, .inr (by decide)⟩, rfl⟩
  have htwice : twice.apply info = .error (.duplicateProjectReference ⟨1⟩ ⟨3⟩) := by
    rw [hfault]
    exact ⟨⟨3⟩, ⟨[⟨3⟩], [⟨1⟩], rfl, by decide, by decide, .inl (by decide)⟩, rfl⟩
  exact ⟨built, hitself, (hvalidate _ _).1 hitself, htwice, (hvalidate _ _).1 htwice⟩

end ProjectInfo

end SymbolSearch
