import SymbolSearch.Proofs.Wire.RoundTrip
import SymbolSearch.Index.Tree
import SymbolSearch.Project.Solution

/-!
# What a content tells

The content of a project tells everything that its index is built from, and the content of a
solution tells its projects by their ids and fingerprints. Contents are made of parts whose ends are
known, so that equal contents have equal parts.
-/

namespace SymbolSearch

/-- Among byte strings whose length fits into eight bytes, the bytes that are written at the front
tell a part of the value, and where they end. -/
def Tells {α β : Type} (write : α → Bytes) (part : α → β) : Prop :=
  ∀ a b rest rest', (write a ++ rest).length < Bytes.limit 8 →
    write a ++ rest = write b ++ rest' → part a = part b ∧ rest = rest'

section

variable {α β γ δ : Type}

theorem Tells.eq {write : α → Bytes} {part : α → β} (h : Tells write part) {a b : α}
    (hlength : (write a).length < Bytes.limit 8) (hbytes : write a = write b) :
    part a = part b := by
  refine (h a b [] [] ?_ ?_).1
  · rw [List.append_nil]
    exact hlength
  · rw [hbytes]

theorem Tells.comp {write : α → Bytes} {part : α → β} (h : Tells write part) (f : γ → α) :
    Tells (fun c => write (f c)) fun c => part (f c) :=
  fun a b => h (f a) (f b)

theorem Tells.mono {write : α → Bytes} {part : α → β} (h : Tells write part) {less : α → γ}
    (hless : ∀ a b, part a = part b → less a = less b) : Tells write less := by
  intro a b rest rest' hlength hbytes
  obtain ⟨hpart, hrest⟩ := h a b rest rest' hlength hbytes
  exact ⟨hless a b hpart, hrest⟩

theorem Tells.append {first second : α → Bytes} {part : α → β} {other : α → γ}
    (hfirst : Tells first part) (hsecond : Tells second other) :
    Tells (fun a => first a ++ second a) fun a => (part a, other a) := by
  intro a b rest rest' hlength hbytes
  rw [List.append_assoc] at hlength
  rw [List.append_assoc, List.append_assoc] at hbytes
  obtain ⟨hpart, hmiddle⟩ := hfirst a b _ _ hlength hbytes
  rw [List.length_append] at hlength
  obtain ⟨hother, hrest⟩ := hsecond a b rest rest' (by omega) hmiddle
  exact ⟨Prod.ext hpart hother, hrest⟩

/-- Bytes of a fixed length. -/
theorem tells_of_length {write : α → Bytes} {length : Nat}
    (hlength : ∀ a, (write a).length = length) {part : α → β}
    (h : ∀ a b, write a = write b → part a = part b) : Tells write part := by
  intro a b rest rest' _ hbytes
  obtain ⟨hwrite, hrest⟩ := List.append_inj hbytes (by rw [hlength, hlength])
  exact ⟨h a b hwrite, hrest⟩

theorem tells_littleEndian {width : Nat} {number : α → Nat}
    (hnumber : ∀ a, number a < Bytes.limit width) :
    Tells (fun a => Bytes.littleEndian width (number a)) number := by
  apply tells_of_length (fun a => Bytes.length_littleEndian width (number a))
  intro a b h
  rw [← Bytes.value_littleEndian_of_lt (hnumber a), h, Bytes.value_littleEndian_of_lt (hnumber b)]

theorem tells_ofUInt32 : Tells Bytes.ofUInt32 id :=
  (tells_littleEndian Bytes.toNat_lt_limit).mono fun _ _ h => UInt32.toNat_inj.1 h

theorem tells_toBytes : Tells Fingerprint.toBytes id := by
  apply tells_of_length Fingerprint.length_toBytes
  intro a b h
  have ha := Fingerprint.ofBytes?_toBytes a
  rw [h, Fingerprint.ofBytes?_toBytes] at ha
  exact (Option.some.inj ha).symm

/-- A count is told by eight bytes if as many bytes follow. -/
theorem count_eq {n m : Nat} {rest rest' : Bytes} (hn : n ≤ rest.length) (hm : m ≤ rest'.length)
    (hlength : (Bytes.ofLength n ++ rest).length < Bytes.limit 8)
    (hbytes : Bytes.ofLength n ++ rest = Bytes.ofLength m ++ rest') : n = m ∧ rest = rest' := by
  have hlength' := hlength
  rw [hbytes, List.length_append] at hlength'
  rw [List.length_append] at hlength
  have hwidth (k : Nat) : (Bytes.ofLength k).length = 8 := Bytes.length_littleEndian 8 k
  obtain ⟨hcount, hrest⟩ := List.append_inj hbytes (by rw [hwidth, hwidth])
  refine ⟨?_, hrest⟩
  rw [← Bytes.value_littleEndian_of_lt (show n < Bytes.limit 8 by omega),
    ← Bytes.value_littleEndian_of_lt (show m < Bytes.limit 8 by omega)]
  exact congrArg Bytes.value hcount

theorem tells_textPart : Tells Fingerprint.textPart id := by
  intro text other rest rest' hlength hbytes
  simp only [Fingerprint.textPart, List.append_assoc] at hlength hbytes
  obtain ⟨hcount, hrest⟩ := count_eq (by simp) (by simp) hlength hbytes
  obtain ⟨htext, hrest⟩ := List.append_inj hrest hcount
  exact ⟨Bytes.ofString_injective htext, hrest⟩

theorem tells_flatMap {write : α → Bytes} {part : α → β} (h : Tells write part) :
    ∀ (items others : List α) (rest rest' : Bytes), items.length = others.length →
      (items.flatMap write ++ rest).length < Bytes.limit 8 →
      items.flatMap write ++ rest = others.flatMap write ++ rest' →
      items.map part = others.map part ∧ rest = rest'
  | [], [], _, _, _, _, hbytes => ⟨rfl, hbytes⟩
  | a :: items, b :: others, rest, rest', hcount, hlength, hbytes => by
    rw [List.flatMap_cons, List.append_assoc] at hlength
    rw [List.flatMap_cons, List.flatMap_cons, List.append_assoc, List.append_assoc] at hbytes
    obtain ⟨ha, hmiddle⟩ := h a b _ _ hlength hbytes
    rw [List.length_append] at hlength
    obtain ⟨hitems, hrest⟩ := tells_flatMap h items others rest rest' (Nat.succ.inj hcount)
      (by omega) hmiddle
    exact ⟨by rw [List.map_cons, List.map_cons, ha, hitems], hrest⟩

theorem tells_list {write : α → Bytes} {part : α → β} (h : Tells write part)
    (hwrite : ∀ a, write a ≠ []) :
    Tells (fun items : List α => Bytes.ofLength items.length ++ items.flatMap write)
      (List.map part) := by
  intro items others rest rest' hlength hbytes
  simp only [List.append_assoc] at hlength hbytes
  have hitems := Bytes.length_le_flatMap hwrite items
  have hothers := Bytes.length_le_flatMap hwrite others
  obtain ⟨hcount, hmiddle⟩ := count_eq (by rw [List.length_append]; omega)
    (by rw [List.length_append]; omega) hlength hbytes
  rw [List.length_append] at hlength
  exact tells_flatMap h items others rest rest' hcount (by omega) hmiddle

end

/-! ### Declarations -/

namespace ProjectInfo

/-- What is fingerprinted of a declaration itself. -/
def headContent (declaration : Declaration) : Bytes :=
  Fingerprint.textPart declaration.name ++ Bytes.littleEndian 1 declaration.kind.tag
    ++ Bytes.littleEndian 1 declaration.accessibility.tag ++ Bytes.ofUInt32 declaration.arity
    ++ (Bytes.ofLength declaration.parameters.length
      ++ declaration.parameters.flatMap Fingerprint.textPart)
    ++ Bytes.ofUInt32 declaration.range.start ++ Bytes.ofUInt32 declaration.range.stop

theorem declarationContent_eq (declaration : Declaration) :
    declarationContent declaration
      = headContent declaration ++ forestContent declaration.children := by
  obtain ⟨name, kind, accessibility, arity, parameters, range, children⟩ := declaration
  simp [declarationContent, headContent, forestContent]

theorem textPart_ne_nil (text : String) : Fingerprint.textPart text ≠ [] := by
  simp [Fingerprint.textPart, Bytes.ofLength, Bytes.littleEndian]

theorem tells_texts : Tells (fun texts : List String =>
    Bytes.ofLength texts.length ++ texts.flatMap Fingerprint.textPart) fun texts => texts :=
  (tells_list tells_textPart textPart_ne_nil).mono fun a b h => by
    rw [List.map_id, List.map_id] at h
    exact h

/-- The head of a declaration tells all of it but what is inside. -/
theorem tells_headContent :
    Tells headContent fun declaration => { declaration with children := [] } := by
  have hkind (declaration : Declaration) : declaration.kind.tag < Bytes.limit 1 := by
    cases declaration.kind <;> decide
  have haccessibility (declaration : Declaration) :
      declaration.accessibility.tag < Bytes.limit 1 := by
    cases declaration.accessibility <;> decide
  have name := tells_textPart.comp Declaration.name
  have kind := name.append (tells_littleEndian hkind)
  have accessibility := kind.append (tells_littleEndian haccessibility)
  have arity := accessibility.append (tells_ofUInt32.comp Declaration.arity)
  have parameters := arity.append (tells_texts.comp Declaration.parameters)
  have start := parameters.append (tells_ofUInt32.comp (·.range.start))
  have stop := start.append (tells_ofUInt32.comp (·.range.stop))
  have whole : Tells headContent _ := stop
  apply whole.mono
  intro a b h
  simp only [Prod.mk.injEq, id_eq] at h
  obtain ⟨⟨⟨⟨⟨⟨hname, hkind⟩, haccess⟩, harity⟩, hparameters⟩, hstart⟩, hstop⟩ := h
  have hsameKind := SymbolKind.ofTag?_tag a.kind
  have hsameAccess := Accessibility.ofTag?_tag a.accessibility
  rw [hkind, SymbolKind.ofTag?_tag] at hsameKind
  rw [haccess, Accessibility.ofTag?_tag] at hsameAccess
  have hrange : a.range = b.range := by
    cases ha : a.range
    cases hb : b.range
    simp_all
  rw [hname, ← Option.some.inj hsameKind, ← Option.some.inj hsameAccess, harity, hparameters,
    hrange]

theorem declarationContent_ne_nil (declaration : Declaration) :
    declarationContent declaration ≠ [] := by
  rw [declarationContent_eq, headContent]
  simp [textPart_ne_nil]

theorem length_le_declarationsContent (declarations : List Declaration) :
    declarations.length ≤ (declarationsContent declarations).length := by
  induction declarations with
  | nil => exact Nat.le_refl 0
  | cons declaration rest ih =>
    have hpos := List.length_pos_iff.2 (declarationContent_ne_nil declaration)
    rw [declarationsContent, List.length_append, List.length_cons]
    omega

/-- A forest is told by its content if its declarations are, once their number is known. -/
theorem forestContent_cases {as bs : List Declaration} {rest rest' : Bytes}
    (h : as.length = bs.length → (declarationsContent as ++ rest).length < Bytes.limit 8 →
      declarationsContent as ++ rest = declarationsContent bs ++ rest' → as = bs ∧ rest = rest')
    (hlength : (forestContent as ++ rest).length < Bytes.limit 8)
    (hbytes : forestContent as ++ rest = forestContent bs ++ rest') : as = bs ∧ rest = rest' := by
  rw [forestContent, List.append_assoc] at hlength
  rw [forestContent, forestContent, List.append_assoc, List.append_assoc] at hbytes
  have has := length_le_declarationsContent as
  have hbs := length_le_declarationsContent bs
  obtain ⟨hcount, hmiddle⟩ := count_eq (by rw [List.length_append]; omega)
    (by rw [List.length_append]; omega) hlength hbytes
  rw [List.length_append] at hlength
  exact h hcount (by omega) hmiddle

mutual

theorem tells_declarationContent : ∀ (a b : Declaration) (rest rest' : Bytes),
    (declarationContent a ++ rest).length < Bytes.limit 8 →
    declarationContent a ++ rest = declarationContent b ++ rest' → a = b ∧ rest = rest'
  | ⟨name, kind, accessibility, arity, parameters, range, children⟩, b, rest, rest', hlength,
      hbytes => by
    rw [declarationContent_eq, List.append_assoc] at hlength
    rw [declarationContent_eq, declarationContent_eq, List.append_assoc,
      List.append_assoc] at hbytes
    obtain ⟨hhead, hmiddle⟩ := tells_headContent _ _ _ _ hlength hbytes
    rw [List.length_append] at hlength
    obtain ⟨hchildren, hrest⟩ := forestContent_cases
      (tells_declarationsContent children b.children rest rest')
      (Nat.lt_of_le_of_lt (Nat.le_add_left _ _) hlength) hmiddle
    obtain ⟨name', kind', accessibility', arity', parameters', range', children'⟩ := b
    simp only [Declaration.mk.injEq] at hhead ⊢
    simp only at hchildren
    exact ⟨⟨hhead.1, hhead.2.1, hhead.2.2.1, hhead.2.2.2.1, hhead.2.2.2.2.1, hhead.2.2.2.2.2.1,
      hchildren⟩, hrest⟩

theorem tells_declarationsContent : ∀ (as bs : List Declaration) (rest rest' : Bytes),
    as.length = bs.length → (declarationsContent as ++ rest).length < Bytes.limit 8 →
    declarationsContent as ++ rest = declarationsContent bs ++ rest' → as = bs ∧ rest = rest'
  | [], [], _, _, _, _, hbytes => ⟨rfl, hbytes⟩
  | a :: as, b :: bs, rest, rest', hcount, hlength, hbytes => by
    rw [declarationsContent, List.append_assoc] at hlength
    rw [declarationsContent, declarationsContent, List.append_assoc, List.append_assoc] at hbytes
    obtain ⟨ha, hmiddle⟩ := tells_declarationContent a b _ _ hlength hbytes
    rw [List.length_append] at hlength
    obtain ⟨has, hrest⟩ := tells_declarationsContent as bs rest rest' (Nat.succ.inj hcount)
      (by omega) hmiddle
    exact ⟨by rw [ha, has], hrest⟩

end

theorem tells_forestContent : Tells forestContent fun declarations => declarations :=
  fun as bs rest rest' => forestContent_cases (tells_declarationsContent as bs rest rest')

/-- The content of a project tells its documents, but for their names, and its libraries. -/
theorem tells_content : Tells content fun info =>
    (info.documents.map fun document => (document.id.number, document.declarations),
      info.metadataReferences.map fun reference => (reference.name, reference.declarations)) := by
  have document := (tells_ofUInt32.comp (·.id.number : Document → UInt32)).append
    (tells_forestContent.comp Document.declarations)
  have reference := (tells_textPart.comp MetadataReference.name).append
    (tells_forestContent.comp MetadataReference.declarations)
  have documents := tells_list document fun a => by
    simp [Bytes.ofUInt32, Bytes.littleEndian]
  have references := tells_list reference fun a => by simp [textPart_ne_nil]
  have whole := (documents.comp ProjectInfo.documents).append
    (references.comp ProjectInfo.metadataReferences)
  intro a b rest rest'
  have h := whole a b rest rest'
  simp only [← List.append_assoc] at h
  exact h

end ProjectInfo

/-! ### Projects and solutions -/

/-- Projects of the same content have the same symbol tree. -/
theorem Project.symbolForest_eq_of_content_eq {a b : Project}
    (hlength : a.info.content.length < Bytes.limit 8) (h : a.info.content = b.info.content) :
    a.symbolForest = b.symbolForest := by
  have told (project : Project) : project.occurrences
      = (project.info.documents.map fun document =>
          (document.id.number, document.declarations)).flatMap (fun (number, declarations) =>
            (exposedAll .source declarations).map (⟨·, .source, none, some ⟨number⟩⟩))
        ++ (project.info.metadataReferences.map fun reference =>
          (reference.name, reference.declarations)).flatMap fun (_, declarations) =>
            (exposedAll .metadata declarations).map (⟨·, .metadata, none, none⟩) := by
    rw [occurrences, List.flatMap_map, List.flatMap_map]
  obtain ⟨hdocuments, hreferences⟩ := Prod.mk.inj (ProjectInfo.tells_content.eq hlength h)
  rw [symbolForest, symbolForest, told a, told b, hdocuments, hreferences]

/-- The content of a solution tells the ids, the names and the fingerprints of its projects. -/
theorem Solution.tells_projects : Tells content fun solution =>
    solution.projects.map fun project => (project.id, project.info.name, project.fingerprint) := by
  have id := (tells_ofUInt32.comp (·.id.number : Project → UInt32)).append
    (tells_textPart.comp (·.info.name))
  have project := id.append (tells_toBytes.comp Project.fingerprint)
  have projects := tells_list project fun a => by simp [Bytes.ofUInt32, Bytes.littleEndian]
  have whole := (projects.comp Solution.projects).mono fun a b h => by
    have hparts := congrArg
      (List.map fun part => ((⟨part.1.1⟩ : ProjectId), part.1.2, part.2)) h
    rw [List.map_map, List.map_map] at hparts
    exact hparts
  exact whole

theorem Solution.tells_content : Tells content fun solution =>
    solution.projects.map fun project => (project.id, project.fingerprint) :=
  tells_projects.mono fun a b h => by
    have hparts := congrArg (List.map fun part => (part.1, part.2.2)) h
    rw [List.map_map, List.map_map] at hparts
    exact hparts

end SymbolSearch
