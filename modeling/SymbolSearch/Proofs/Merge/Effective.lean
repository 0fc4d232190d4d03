import Mathlib.Data.List.TakeWhile
import SymbolSearch.Proofs.Forest.Places

/-!
# Effective declarations

The declarations of a project that an index has to know, each with its key, defined on the nested
declarations alone: a declaration counts if it has a name, and in a library only if it and all
around it are visible from outside. Its key is the path of its named containers and itself. The
occurrences that are merged, level by level, are the same declarations in the same order.
-/

namespace SymbolSearch

/-- A declaration with the declarations around it, the outermost first. -/
structure NestedDeclaration where
  around : List Declaration
  declaration : Declaration

mutual

/-- The declaration and all inside it, each before those that it contains. -/
def Declaration.nested (around : List Declaration) : Declaration → List NestedDeclaration
  | ⟨name, kind, accessibility, arity, parameters, range, children⟩ =>
    let declaration : Declaration := ⟨name, kind, accessibility, arity, parameters, range, children⟩
    ⟨around, declaration⟩ :: nestedAll (around ++ [declaration]) children

def nestedAll (around : List Declaration) : List Declaration → List NestedDeclaration
  | [] => []
  | declaration :: rest => declaration.nested around ++ nestedAll around rest

end

def Declaration.segment (declaration : Declaration) : KeySegment :=
  ⟨declaration.kind, Text.trim declaration.name, declaration.arity, declaration.parameters⟩

def Declaration.isNamed (declaration : Declaration) : Bool := Text.trim declaration.name ≠ ""

/-- The path to the last of a chain of declarations; those without a name are left out. -/
def pathOf (chain : List Declaration) : List KeySegment :=
  (chain.filter (·.isNamed)).map (·.segment)

namespace NestedDeclaration

/-- The declaration, after all that is around it. -/
def chain (nested : NestedDeclaration) : List Declaration :=
  nested.around ++ [nested.declaration]

def path (nested : NestedDeclaration) : List KeySegment := pathOf nested.chain

def isEffective (origin : SymbolOrigin) (nested : NestedDeclaration) : Bool :=
  nested.declaration.isNamed
    && (origin == .source || nested.chain.all (·.accessibility.isExternallyVisible))

end NestedDeclaration

/-- An effective declaration. Only what is declared in a document has a location. -/
structure EffectiveDeclaration where
  key : SymbolKey
  accessibility : Accessibility
  location? : Option Location

/-- The names on the way to the symbol of a key. -/
def SymbolKey.names (key : SymbolKey) : List String := key.segments.map (·.name)

def NestedDeclaration.effective (origin : SymbolOrigin) (document : Option DocumentId)
    (nested : NestedDeclaration) : EffectiveDeclaration :=
  ⟨⟨nested.path, origin⟩, nested.declaration.accessibility,
    document.map (⟨·, nested.declaration.range⟩)⟩

/-- The effective ones among declarations and all inside them. -/
def effectiveAll (origin : SymbolOrigin) (document : Option DocumentId)
    (declarations : List Declaration) : List EffectiveDeclaration :=
  ((nestedAll [] declarations).filter (·.isEffective origin)).map (·.effective origin document)

/-- Those of the documents, then those of the libraries. -/
def Project.effective (project : Project) : List EffectiveDeclaration :=
  project.info.documents.flatMap (fun document =>
    effectiveAll .source (some document.id) document.declarations)
  ++ project.info.metadataReferences.flatMap (fun reference =>
    effectiveAll .metadata none reference.declarations)

/-! ### Names -/

theorem Text.trim_eq_empty_iff {text : String} : trim text = "" ↔ isBlank text = true := by
  have htrim : trim text = "" ↔ trimChars text.toList = [] := by
    rw [trim, String.ofList_eq_empty_iff]
  rw [htrim, isBlank, List.all_eq_true]
  simp only [trimChars, dropTrailing, List.reverse_eq_nil_iff, List.dropWhile_eq_nil_iff]
  constructor
  · intro h
    have hhead : text.toList.dropWhile isBlankChar = [] := by
      cases hrest : text.toList.dropWhile isBlankChar with
      | nil => rfl
      | cons c rest =>
        have hc := List.head?_dropWhile_not isBlankChar text.toList
        rw [hrest] at hc h
        simp only [List.head?_cons] at hc
        exact absurd (h c (List.mem_reverse.2 List.mem_cons_self)) (by simp [hc])
    exact List.dropWhile_eq_nil_iff.1 hhead
  · intro h c hc
    exact h c ((List.dropWhile_sublist _).subset (List.mem_reverse.1 hc))

theorem Declaration.isNamed_eq (declaration : Declaration) :
    declaration.isNamed = !Text.isBlank declaration.name := by
  by_cases h : Text.isBlank declaration.name = true
  · simp [isNamed, Text.trim_eq_empty_iff, h]
  · simp [isNamed, Text.trim_eq_empty_iff, h]

/-! ### The same by recursion -/

mutual

/-- The effective declarations inside containers with the given path, all of which are visible. -/
def Declaration.declared (origin : SymbolOrigin) (document : Option DocumentId)
    (path : List KeySegment) : Declaration → List EffectiveDeclaration
  | ⟨name, kind, accessibility, arity, parameters, range, children⟩ =>
    if origin = .metadata ∧ ¬ accessibility.isExternallyVisible then []
    else if Text.isBlank name then declaredAll origin document path children
    else
      let here := path ++ [⟨kind, Text.trim name, arity, parameters⟩]
      ⟨⟨here, origin⟩, accessibility, document.map (⟨·, range⟩)⟩
        :: declaredAll origin document here children

def declaredAll (origin : SymbolOrigin) (document : Option DocumentId)
    (path : List KeySegment) : List Declaration → List EffectiveDeclaration
  | [] => []
  | declaration :: rest =>
    declaration.declared origin document path ++ declaredAll origin document path rest

end

mutual

theorem mem_chain_of_nested (outer : Declaration) (around : List Declaration) :
    ∀ declaration : Declaration, (outer ∈ around ∨ outer = declaration) →
      ∀ nested ∈ declaration.nested around, outer ∈ nested.chain
  | ⟨name, kind, accessibility, arity, parameters, range, children⟩, houter, nested, hnested => by
    have hmem := List.mem_append.2 (houter.imp_right List.mem_singleton.2)
    rcases List.mem_cons.1 hnested with rfl | hnested
    · exact hmem
    · exact mem_chain_of_nestedAll outer _ children hmem nested hnested

theorem mem_chain_of_nestedAll (outer : Declaration) (around : List Declaration) :
    ∀ declarations : List Declaration, outer ∈ around →
      ∀ nested ∈ nestedAll around declarations, outer ∈ nested.chain
  | declaration :: rest, houter, nested, hnested => by
    rcases List.mem_append.1 hnested with hnested | hnested
    · exact mem_chain_of_nested outer around declaration (.inl houter) nested hnested
    · exact mem_chain_of_nestedAll outer around rest houter nested hnested

end

theorem pathOf_append (around : List Declaration) (declaration : Declaration) :
    pathOf (around ++ [declaration])
      = if Text.isBlank declaration.name then pathOf around
        else pathOf around ++ [declaration.segment] := by
  by_cases blank : Text.isBlank declaration.name = true
  · simp [pathOf, declaration.isNamed_eq, blank]
  · simp [pathOf, declaration.isNamed_eq, blank]

theorem NestedDeclaration.isEffective_iff {origin : SymbolOrigin} {nested : NestedDeclaration} :
    nested.isEffective origin = true
      ↔ Text.isBlank nested.declaration.name = false ∧ (origin = .metadata →
        ∀ outer ∈ nested.chain, outer.accessibility.isExternallyVisible = true) := by
  cases origin <;> simp [isEffective, nested.declaration.isNamed_eq]

mutual

theorem map_effective_nested (origin : SymbolOrigin) (document : Option DocumentId)
    (around : List Declaration)
    (visible : origin = .metadata → ∀ outer ∈ around, outer.accessibility.isExternallyVisible) :
    ∀ declaration : Declaration,
      ((declaration.nested around).filter (·.isEffective origin)).map (·.effective origin document)
        = declaration.declared origin document (pathOf around)
  | ⟨name, kind, accessibility, arity, parameters, range, children⟩ => by
    by_cases hidden : origin = .metadata ∧ ¬ accessibility.isExternallyVisible
    · have none : ∀ nested ∈ Declaration.nested around
          ⟨name, kind, accessibility, arity, parameters, range, children⟩,
          ¬ nested.isEffective origin := by
        intro nested hnested heffective
        have hmem := mem_chain_of_nested _ around _ (.inr rfl) nested hnested
        exact hidden.2 ((NestedDeclaration.isEffective_iff.1 heffective).2 hidden.1 _ hmem)
      rw [List.filter_eq_nil_iff.2 none, Declaration.declared, if_pos hidden]
      rfl
    · have visible' : origin = .metadata → ∀ outer ∈ around
          ++ [⟨name, kind, accessibility, arity, parameters, range, children⟩],
          outer.accessibility.isExternallyVisible := by
        intro horigin outer houter
        rcases List.mem_append.1 houter with houter | houter
        · exact visible horigin outer houter
        · obtain rfl := List.mem_singleton.1 houter
          exact Decidable.not_not.1 fun h => hidden ⟨horigin, h⟩
      have inner := map_effective_nestedAll origin document _ visible' children
      rw [pathOf_append] at inner
      rw [Declaration.nested, Declaration.declared, if_neg hidden]
      by_cases blank : Text.isBlank name = true
      · rw [if_pos blank] at inner ⊢
        rw [List.filter_cons_of_neg, inner]
        intro heffective
        rw [(NestedDeclaration.isEffective_iff.1 heffective).1] at blank
        cases blank
      · rw [if_neg blank] at inner ⊢
        have heffective : NestedDeclaration.isEffective origin
            ⟨around, ⟨name, kind, accessibility, arity, parameters, range, children⟩⟩ = true :=
          NestedDeclaration.isEffective_iff.2 ⟨Bool.eq_false_iff.2 blank, visible'⟩
        rw [List.filter_cons_of_pos heffective, List.map_cons, inner]
        simp only [NestedDeclaration.effective, NestedDeclaration.path, NestedDeclaration.chain,
          pathOf_append, if_neg blank]
        rfl

theorem map_effective_nestedAll (origin : SymbolOrigin) (document : Option DocumentId)
    (around : List Declaration)
    (visible : origin = .metadata → ∀ outer ∈ around, outer.accessibility.isExternallyVisible) :
    ∀ declarations : List Declaration,
      ((nestedAll around declarations).filter (·.isEffective origin)).map
          (·.effective origin document)
        = declaredAll origin document (pathOf around) declarations
  | [] => rfl
  | declaration :: rest => by
    rw [nestedAll, List.filter_append, List.map_append,
      map_effective_nested origin document around visible declaration,
      map_effective_nestedAll origin document around visible rest, declaredAll]

end

/-! ### The same as occurrences -/

namespace Occurrence

def key (around : List SymbolKey) (occurrence : Occurrence) : SymbolKey :=
  occurrence.signature.keyIn around occurrence.name

/-- What the symbol of an occurrence is told by it. -/
def own (around : List SymbolKey) (occurrence : Occurrence) : EffectiveDeclaration :=
  ⟨occurrence.key around, occurrence.declaration.accessibility, occurrence.location?⟩

/-- The effective declarations inside an occurrence. -/
def deeper (around : List SymbolKey) (occurrence : Occurrence) : List EffectiveDeclaration :=
  declaredAll occurrence.origin occurrence.document (occurrence.key around).segments
    occurrence.declaration.children

def declared (around : List SymbolKey) (occurrence : Occurrence) : List EffectiveDeclaration :=
  occurrence.own around :: occurrence.deeper around

/-- The effective declarations of a level whose enclosing symbols have these keys. -/
def declaredLevel (around : List SymbolKey) (occurrences : List Occurrence) :
    List EffectiveDeclaration :=
  occurrences.flatMap (declared around)

end Occurrence

section

variable (origin : SymbolOrigin) (document : Option DocumentId) (around : List SymbolKey)
  (container : Option Nat)

mutual

theorem declaredLevel_exposed :
    ∀ declaration : Declaration,
      Occurrence.declaredLevel around
          ((declaration.exposed origin).map (⟨·, origin, container, document⟩))
        = declaration.declared origin document (containerPath around container)
  | ⟨name, kind, accessibility, arity, parameters, range, children⟩ => by
    rw [Declaration.exposed, Declaration.declared]
    split
    · rfl
    · split
      · exact declaredLevel_exposedAll children
      · exact List.append_nil _

theorem declaredLevel_exposedAll :
    ∀ declarations : List Declaration,
      Occurrence.declaredLevel around
          ((exposedAll origin declarations).map (⟨·, origin, container, document⟩))
        = declaredAll origin document (containerPath around container) declarations
  | [] => rfl
  | declaration :: rest => by
    rw [exposedAll, List.map_append, Occurrence.declaredLevel, List.flatMap_append, declaredAll]
    exact congrArg₂ _ (declaredLevel_exposed declaration) (declaredLevel_exposedAll rest)

end

end

/-- What is declared inside an occurrence is the level inside its symbol. -/
theorem Occurrence.declaredLevel_inner {around keys : List SymbolKey} {occurrence : Occurrence}
    {position : Nat} (hkey : keys[position]? = some (occurrence.key around)) :
    declaredLevel keys (occurrence.inner position) = occurrence.deeper around := by
  have h := declaredLevel_exposedAll occurrence.origin occurrence.document keys (some position)
    occurrence.declaration.children
  rw [containerPath, Option.bind_some, hkey] at h
  exact h

/-- The effective declarations of a project are those of the level that is merged. -/
theorem Project.effective_eq (project : Project) :
    project.effective = Occurrence.declaredLevel [] project.occurrences := by
  have level (origin : SymbolOrigin) (document : Option DocumentId)
      (declarations : List Declaration) :
      effectiveAll origin document declarations = Occurrence.declaredLevel []
        ((exposedAll origin declarations).map (⟨·, origin, none, document⟩)) := by
    rw [effectiveAll, map_effective_nestedAll origin document [] (fun _ _ h => by cases h),
      declaredLevel_exposedAll origin document [] none]
    rfl
  rw [effective, occurrences, Occurrence.declaredLevel, List.flatMap_append, List.flatMap_assoc,
    List.flatMap_assoc]
  simp only [level]
  rfl

end SymbolSearch
