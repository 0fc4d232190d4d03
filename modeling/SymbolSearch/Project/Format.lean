import SymbolSearch.Project.Solution
import SymbolSearch.Json.Reader

/-!
# Solution files

Solutions as JSON texts. Members that a value has a default for may be left out, and members of
other names are ignored. Objects and arrays that are read nest at most 127 deep.
-/

namespace SymbolSearch

/-- The value of an optional member. -/
def Json.orElse {α : Type} (default : α) (read : Json → Option α) : Option Json → Option α
  | none => some default
  | some value => read value

namespace SolutionFormat

/-- How deep arrays and objects may nest in a solution file. -/
def maxDepth : Nat := 127

/-- An array one level down, `depth` being the number of levels that are left. -/
def readList {α : Type} (read : Nat → Json → Option α) : Nat → Json → Option (List α)
  | 0, _ => none
  | depth + 1, value => do (← value.array?).mapM (read depth)

def readObject {α : Type} (names : List String) (read : Nat → List (Option Json) → Option α) :
    Nat → Json → Option α
  | 0, _ => none
  | depth + 1, value => do read depth (← value.fields? names)

/-- A name may also stand as the only member of an object, which takes one level. -/
def readVariant {α : Type} (ofName? : String → Option α) (depth : Nat) (value : Json) : Option α :=
  match value, depth with
  | .object _, 0 => none
  | value, _ => value.variant?.bind ofName?

def readRange (depth : Nat) (value : Json) : Option TextRange := do
  match ← readList (fun _ => Json.word?) depth value with
  | [start, stop] => TextRange.ofBounds? start stop
  | _ => none

def declarationFields : List String :=
  ["name", "kind", "accessibility", "arity", "parameters", "range", "children"]

def readDeclaration : Nat → Json → Option Declaration
  | 0, _ => none
  | 1, value => do
    match ← value.fields? declarationFields with
    | [some name, some kind, accessibility, arity, none, none, none] =>
      return ⟨← name.string?, ← readVariant SymbolKind.ofName? 0 kind,
        ← Json.orElse .publicAccess (readVariant Accessibility.ofName? 0) accessibility,
        ← Json.orElse 0 Json.word? arity, [], default, []⟩
    | _ => none
  | depth + 2, value => do
    match ← value.fields? declarationFields with
    | [some name, some kind, accessibility, arity, parameters, range, children] =>
      return ⟨← name.string?, ← readVariant SymbolKind.ofName? (depth + 1) kind,
        ← Json.orElse .publicAccess (readVariant Accessibility.ofName? (depth + 1)) accessibility,
        ← Json.orElse 0 Json.word? arity,
        ← Json.orElse [] (readList (fun _ => Json.string?) (depth + 1)) parameters,
        ← Json.orElse default (readRange (depth + 1)) range,
        ← Json.orElse [] (fun value => do (← value.array?).mapM (readDeclaration depth)) children⟩
    | _ => none

def readDeclarations (depth : Nat) : Option Json → Option (List Declaration) :=
  Json.orElse [] (readList readDeclaration depth)

def readId (value : Json) : Option ProjectId := ProjectId.mk <$> value.word?

def readDocument : Nat → Json → Option Document :=
  readObject ["id", "name", "declarations"] fun depth values => do
    match values with
    | [some id, some name, declarations] =>
      return ⟨⟨← id.word?⟩, ← name.string?, ← readDeclarations depth declarations⟩
    | _ => none

def readMetadata : Nat → Json → Option MetadataReference :=
  readObject ["name", "declarations"] fun depth values => do
    match values with
    | [some name, declarations] =>
      return ⟨← name.string?, ← readDeclarations depth declarations⟩
    | _ => none

def readProject : Nat → Json → Option ProjectInfo :=
  readObject ["id", "name", "assembly_name", "language", "documents", "project_references",
      "metadata_references"] fun depth values => do
    match values with
    | [some id, some name, some assemblyName, some language, documents, references, metadata] =>
      return ⟨⟨← id.word?⟩, ← name.string?, ← assemblyName.string?, ← language.string?,
        ← Json.orElse [] (readList readDocument depth) documents,
        ← Json.orElse [] (readList (fun _ => readId) depth) references,
        ← Json.orElse [] (readList readMetadata depth) metadata⟩
    | _ => none

def readProjects : Nat → Json → Option (List ProjectInfo) :=
  readObject ["projects"] fun depth values =>
    match values with
    | [projects] => Json.orElse [] (readList readProject depth) projects
    | _ => none

/-- The projects that a solution file describes. -/
def parse (text : String) : Option (List ProjectInfo) := do
  readProjects maxDepth (← Json.parse text)

open Json (word strings)

mutual

def declarationJson : Declaration → Json
  | ⟨name, kind, accessibility, arity, parameters, range, children⟩ =>
    .object [("name", .string name), ("kind", .string kind.name),
      ("accessibility", .string accessibility.name), ("arity", word arity),
      ("parameters", strings parameters), ("range", .array [word range.start, word range.stop]),
      ("children", .array (declarationsJson children))]

def declarationsJson : List Declaration → List Json
  | [] => []
  | declaration :: rest => declarationJson declaration :: declarationsJson rest

end

def documentJson (document : Document) : Json :=
  .object [("id", word document.id.number), ("name", .string document.name),
    ("declarations", .array (declarationsJson document.declarations))]

def metadataJson (reference : MetadataReference) : Json :=
  .object [("name", .string reference.name),
    ("declarations", .array (declarationsJson reference.declarations))]

def projectJson (info : ProjectInfo) : Json :=
  .object [("id", word info.id.number), ("name", .string info.name),
    ("assembly_name", .string info.assemblyName), ("language", .string info.language),
    ("documents", .array (info.documents.map documentJson)),
    ("project_references", .array (info.projectReferences.map fun id => word id.number)),
    ("metadata_references", .array (info.metadataReferences.map metadataJson))]

def solutionJson (solution : Solution) : Json :=
  .object [("projects", .array (solution.projects.map fun project => projectJson project.info))]

end SolutionFormat

end SymbolSearch
