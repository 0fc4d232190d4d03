import SymbolSearch.Index.Resolve
import SymbolSearch.Project.Sample
import SymbolSearch.Proofs.Cached

/-!
# What fingerprints identify

The content of a project is the same byte string for the same documents and libraries only, whatever
the project and its documents are called and refer to; and nothing else is indexed. So a fingerprint
stands for an index, and a handle with a fingerprint for a symbol.
-/

namespace SymbolSearch

namespace ProjectInfo

/-- The documents of a project without their names. -/
def sources (info : ProjectInfo) : List (DocumentId × List Declaration) :=
  info.documents.map fun document => (document.id, document.declarations)

def libraries (info : ProjectInfo) : List (String × List Declaration) :=
  info.metadataReferences.map fun reference => (reference.name, reference.declarations)

theorem content_of_parts (info : ProjectInfo) : info.content
    = Bytes.ofLength info.sources.length
      ++ info.sources.flatMap (fun (id, declarations) =>
        Bytes.ofUInt32 id.number ++ forestContent declarations)
      ++ Bytes.ofLength info.libraries.length
      ++ info.libraries.flatMap (fun (name, declarations) =>
        Fingerprint.textPart name ++ forestContent declarations) := by
  rw [sources, libraries, List.flatMap_map, List.flatMap_map, List.length_map, List.length_map]
  rfl

/-- A hasher takes fewer than `2 ^ 64` bytes. Up to there, contents are equal exactly if the
documents and the libraries are. -/
theorem content_eq_iff {a b : ProjectInfo} (hlength : a.content.length < Bytes.limit 8) :
    a.content = b.content ↔ a.sources = b.sources ∧ a.libraries = b.libraries := by
  constructor
  · intro h
    obtain ⟨hdocuments, hlibraries⟩ := Prod.mk.inj (tells_content.eq hlength h)
    have hsources := congrArg (List.map fun part => ((⟨part.1⟩ : DocumentId), part.2)) hdocuments
    rw [List.map_map, List.map_map] at hsources
    exact ⟨hsources, hlibraries⟩
  · rintro ⟨hsources, hlibraries⟩
    rw [content_of_parts, content_of_parts, hsources, hlibraries]

end ProjectInfo

/-- What a solution lists of its projects. -/
def Solution.listing (solution : Solution) : List (ProjectId × String × Fingerprint) :=
  solution.projects.map fun project => (project.id, project.info.name, project.fingerprint)

theorem Solution.content_eq_iff {a b : Solution} (hlength : a.content.length < Bytes.limit 8) :
    a.content = b.content ↔ a.listing = b.listing := by
  have parts (solution : Solution) : solution.content
      = Bytes.ofLength solution.listing.length
        ++ solution.listing.flatMap fun (id, name, fingerprint) =>
          Bytes.ofUInt32 id.number ++ Fingerprint.textPart name ++ fingerprint.toBytes := by
    rw [listing, List.flatMap_map, List.length_map]
    rfl
  constructor
  · exact tells_projects.eq hlength
  · intro h
    rw [parts a, parts b, h]

/-- Symbols of built indexes that compare equal are the same symbol of the same index. -/
theorem LiveSymbol.eq_of_beq {hashed : Set Bytes} (free : CollisionFree hashed) {x y : LiveSymbol}
    {a b : Project} (ha : a.IsHashed hashed) (hb : b.IsHashed hashed)
    (hx : x.index = .build a) (hy : y.index = .build b) (h : (x == y) = true) : x = y := by
  obtain ⟨project, index, handle⟩ := x
  obtain ⟨project', index', handle'⟩ := y
  simp only at hx hy
  subst hx hy
  have hequal : ((project == project') && (handle == handle')
      && (a.fingerprint == b.fingerprint)) = true := h
  simp only [Bool.and_eq_true, beq_iff_eq] at hequal
  obtain ⟨⟨rfl, rfl⟩, hfingerprint⟩ := hequal
  rw [SymbolIndex.build_eq_of_fingerprint_eq free ha hb hfingerprint]

/-- Equal contents come from the same documents and libraries, and give the same index. Equal
contents of solutions come from the same projects by id, name and fingerprint, in the same order. So
as far as contents have different fingerprints, a fingerprint stands for an index, and symbols that
compare equal agree in all that is known of them. -/
theorem fingerprint_identifies :
    (∀ a b : Project, a.info.content.length < Bytes.limit 8 →
      (a.info.content = b.info.content
        ↔ a.info.sources = b.info.sources ∧ a.info.libraries = b.info.libraries)
      ∧ (a.info.content = b.info.content → SymbolIndex.build a = SymbolIndex.build b))
    ∧ (∀ a b : Solution, a.content.length < Bytes.limit 8 →
      (a.content = b.content ↔ a.listing = b.listing))
    ∧ ∀ hashed : Set Bytes, CollisionFree hashed → ∀ a b : Project, a.IsHashed hashed →
      b.IsHashed hashed →
      (a.fingerprint = b.fingerprint → SymbolIndex.build a = SymbolIndex.build b)
      ∧ ∀ x y : LiveSymbol, x.index = .build a → y.index = .build b → (x == y) = true →
        x.key = y.key ∧ x.info? = y.info? := by
  refine ⟨fun a b hlength => ?_, fun a b hlength => ?_, fun hashed free a b ha hb => ?_⟩
  · exact ⟨ProjectInfo.content_eq_iff hlength, SymbolIndex.build_eq_of_content_eq hlength⟩
  · exact Solution.content_eq_iff hlength
  · refine ⟨SymbolIndex.build_eq_of_fingerprint_eq free ha hb, fun x y hx hy h => ?_⟩
    rw [LiveSymbol.eq_of_beq free ha hb hx hy h]
    exact ⟨rfl, rfl⟩

/-- Two projects that differ in all but a class inside a namespace, and one in which the class
stands beside the namespace. -/
theorem fingerprint_identifies_nested :
    let project (id : ProjectId) (name : String) (declarations : List Declaration) : Project :=
      { info := ⟨id, name, name, "C#", [⟨⟨1⟩, name ++ ".cs", declarations⟩], [], []⟩ }
    let outer := Declaration.ofName .namespaceDecl "N"
    let inner := Declaration.ofName .classDecl "C"
    let a := project ⟨1⟩ "A" [outer.withChildren [inner]]
    let b := project ⟨2⟩ "B" [outer.withChildren [inner]]
    let c := project ⟨1⟩ "A" [outer, inner]
    let hashed : Set Bytes := {a.info.content, c.info.content}
    let x : LiveSymbol := ⟨⟨1⟩, .build a, 1⟩
    let y : LiveSymbol := ⟨⟨1⟩, .build b, 1⟩
    (a.info.content.length < Bytes.limit 8 ∧ a.info.content = b.info.content
      ∧ a.info.content ≠ c.info.content)
    ∧ ((⟨[a]⟩ : Solution).content.length < Bytes.limit 8
      ∧ (⟨[a]⟩ : Solution).content ≠ (⟨[b]⟩ : Solution).content)
    ∧ (CollisionFree hashed ∧ a.IsHashed hashed ∧ b.IsHashed hashed
      ∧ a.fingerprint = b.fingerprint ∧ (x == y) = true)
    ∧ SymbolIndex.build a = SymbolIndex.build b
    ∧ x.key = y.key ∧ x.info? = y.info? ∧ x.info?.map (·.kind) = some .classDecl := by
  intro project outer inner a b c hashed x y
  obtain ⟨hprojects, hsolutions, hidentifies⟩ := fingerprint_identifies
  have hsame : a.info.content = b.info.content := by decide +kernel
  have hfirst : (Fingerprint.ofContent a.info.content).bytes[0]
      ≠ (Fingerprint.ofContent c.info.content).bytes[0] := by decide +kernel
  have hlengths : a.info.content.length < Bytes.limit 8 ∧ c.info.content.length < Bytes.limit 8
      ∧ (⟨[a]⟩ : Solution).content.length < Bytes.limit 8 := by decide +kernel
  have free : CollisionFree hashed := .pair hlengths.1 hlengths.2.1 hfirst
  have ha : a.IsHashed hashed := .inl rfl
  have hb : b.IsHashed hashed := .inl hsame.symm
  have hfingerprint : a.fingerprint = b.fingerprint := by
    rw [a.fingerprint_eq, b.fingerprint_eq, hsame]
  have hequal : (x == y) = true := by
    change ((_ == _) && (_ == _) && (a.fingerprint == b.fingerprint)) = true
    rw [hfingerprint]
    simp [x, y]
  have hbuild := (hprojects a b hlengths.1).2 hsame
  obtain ⟨-, hsymbols⟩ := hidentifies hashed free a b ha hb
  obtain ⟨hkey, hinfo⟩ := hsymbols x y rfl rfl hequal
  refine ⟨⟨hlengths.1, hsame, fun h => hfirst (by rw [h])⟩, ⟨hlengths.2.2, fun h => ?_⟩,
    ⟨free, ha, hb, hfingerprint, hequal⟩, hbuild, hkey, hinfo, by decide +kernel⟩
  -- The listings differ in the ids of the projects.
  have hlisting := (hsolutions _ _ hlengths.2.2).1 h
  simp [Solution.listing, a, b, project, Project.id] at hlisting

end SymbolSearch
