import SymbolSearch.Project.Declaration
import SymbolSearch.Fingerprint
import SymbolSearch.Text.Blank

/-!
# Projects

What a project consists of, which projects are sound, and the fingerprint of a project's content: of
everything that is searched, but not of its own name.
-/

namespace SymbolSearch

inductive ProjectError where
  | emptyField (project : ProjectId) (field : String)
  | duplicateDocument (project : ProjectId) (document : DocumentId)
  | selfReference (project : ProjectId)
  | duplicateProjectReference (project reference : ProjectId)
  | duplicateMetadataReference (project : ProjectId) (name : String)
  | duplicateProject (project : ProjectId)
  | unknownProjectReference (project reference : ProjectId)
  | unknownProject (project : ProjectId)
  deriving DecidableEq, Repr

def ProjectError.message : ProjectError → String
  | emptyField project field => s!"project {project.display} has an empty {field}"
  | duplicateDocument project document =>
    s!"project {project.display} contains {document.display} more than once"
  | selfReference project => s!"project {project.display} references itself"
  | duplicateProjectReference project reference =>
    s!"project {project.display} references {reference.display} more than once"
  | duplicateMetadataReference project name =>
    "project " ++ project.display ++ " references metadata `" ++ name ++ "` more than once"
  | duplicateProject project => s!"solution contains {project.display} more than once"
  | unknownProjectReference project reference =>
    s!"project {project.display} references {reference.display}, which is not part of the solution"
  | unknownProject project => s!"{project.display} is not part of the solution"

structure ProjectInfo where
  id : ProjectId
  name : String
  assemblyName : String
  language : String
  documents : List Document
  projectReferences : List ProjectId
  metadataReferences : List MetadataReference
  deriving Repr

/-- The first element that stands a second time in a list. -/
def firstRepeated? {α : Type} [BEq α] : List α → List α → Option α
  | _, [] => none
  | seen, a :: rest => if seen.contains a then some a else firstRepeated? (a :: seen) rest

namespace ProjectInfo

def checkName (project : ProjectId) (field value : String) : Except ProjectError Unit :=
  if Text.isBlank value then .error (.emptyField project field) else .ok ()

def checkDocuments (project : ProjectId) (documents : List Document) : Except ProjectError Unit :=
  match firstRepeated? [] (documents.map (·.id)) with
  | some id => .error (.duplicateDocument project id)
  | none => .ok ()

/-- The references in order: none may name the project itself or one that was named before. -/
def checkReferencesFrom (project : ProjectId) (seen : List ProjectId) :
    List ProjectId → Except ProjectError Unit
  | [] => .ok ()
  | reference :: rest =>
    if reference = project then .error (.selfReference project)
    else if reference ∈ seen then .error (.duplicateProjectReference project reference)
    else checkReferencesFrom project (reference :: seen) rest

def checkReferences (project : ProjectId) (references : List ProjectId) :
    Except ProjectError Unit :=
  checkReferencesFrom project [] references

def checkMetadata (project : ProjectId) (references : List MetadataReference) :
    Except ProjectError Unit :=
  match firstRepeated? [] (references.map (·.name)) with
  | some name => .error (.duplicateMetadataReference project name)
  | none => .ok ()

def validate (info : ProjectInfo) : Except ProjectError Unit := do
  checkName info.id "name" info.name
  checkName info.id "assembly name" info.assemblyName
  checkName info.id "language" info.language
  checkDocuments info.id info.documents
  checkReferences info.id info.projectReferences
  checkMetadata info.id info.metadataReferences

/-- A project without documents and references. -/
def ofNames (id : ProjectId) (name assemblyName language : String) :
    Except ProjectError ProjectInfo := do
  let info : ProjectInfo := ⟨id, name, assemblyName, language, [], [], []⟩
  info.validate
  return info

def withDocuments (info : ProjectInfo) (documents : List Document) :
    Except ProjectError ProjectInfo := do
  checkDocuments info.id documents
  return { info with documents }

def withProjectReferences (info : ProjectInfo) (references : List ProjectId) :
    Except ProjectError ProjectInfo := do
  checkReferences info.id references
  return { info with projectReferences := references }

def withMetadataReferences (info : ProjectInfo) (references : List MetadataReference) :
    Except ProjectError ProjectInfo := do
  checkMetadata info.id references
  return { info with metadataReferences := references }

mutual

/-- What is fingerprinted of a declaration. -/
def declarationContent : Declaration → Bytes
  | ⟨name, kind, accessibility, arity, parameters, range, children⟩ =>
    Fingerprint.textPart name ++ Bytes.littleEndian 1 kind.tag
      ++ Bytes.littleEndian 1 accessibility.tag ++ Bytes.ofUInt32 arity
      ++ Bytes.ofLength parameters.length ++ parameters.flatMap Fingerprint.textPart
      ++ Bytes.ofUInt32 range.start ++ Bytes.ofUInt32 range.stop
      ++ Bytes.ofLength children.length ++ declarationsContent children

def declarationsContent : List Declaration → Bytes
  | [] => []
  | declaration :: rest => declarationContent declaration ++ declarationsContent rest

end

def forestContent (declarations : List Declaration) : Bytes :=
  Bytes.ofLength declarations.length ++ declarationsContent declarations

/-- The documents with their ids and the libraries with their names, but no name of a document. -/
def content (info : ProjectInfo) : Bytes :=
  Bytes.ofLength info.documents.length
    ++ info.documents.flatMap (fun document =>
      Bytes.ofUInt32 document.id.number ++ forestContent document.declarations)
    ++ Bytes.ofLength info.metadataReferences.length
    ++ info.metadataReferences.flatMap (fun reference =>
      Fingerprint.textPart reference.name ++ forestContent reference.declarations)

end ProjectInfo

/-- A project of a solution, with the fingerprint of its content. -/
structure Project where
  info : ProjectInfo
  fingerprint : Fingerprint := .ofContent info.content
  fingerprint_eq : fingerprint = .ofContent info.content := by rfl

namespace Project

def id (project : Project) : ProjectId := project.info.id

end Project

end SymbolSearch
