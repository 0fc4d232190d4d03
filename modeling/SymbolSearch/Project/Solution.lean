import SymbolSearch.Project.Info

/-!
# Solutions

A solution is a snapshot of projects that reference each other. Editing a solution gives a new one;
an edit whose result would not be sound is refused.
-/

namespace SymbolSearch

structure Solution where
  projects : List Project

namespace Solution

def empty : Solution := ⟨[]⟩

def ids (solution : Solution) : List ProjectId := solution.projects.map (·.id)

def get? (solution : Solution) (id : ProjectId) : Option Project :=
  solution.projects.find? (·.id == id)

def contains (solution : Solution) (id : ProjectId) : Bool := solution.ids.contains id

/-- Every reference of a project names a project of the solution. -/
def checkReferences (solution : Solution) (project : Project) : Except ProjectError Unit :=
  match project.info.projectReferences.find? (!solution.contains ·) with
  | some reference => .error (.unknownProjectReference project.id reference)
  | none => .ok ()

def checkGraph (solution : Solution) : Except ProjectError Unit := do
  match firstRepeated? [] solution.ids with
  | some id => .error (.duplicateProject id)
  | none => solution.projects.forM solution.checkReferences

/-- The solution with these projects, if its graph is sound. -/
def ofProjects (projects : List Project) : Except ProjectError Solution := do
  let solution : Solution := ⟨projects⟩
  solution.checkGraph
  return solution

def ofInfos (infos : List ProjectInfo) : Except ProjectError Solution := do
  infos.forM ProjectInfo.validate
  ofProjects (infos.map fun info => { info })

/-- Puts a project in the place of the one with its id, or at the end. -/
def putProject (project : Project) : List Project → List Project
  | [] => [project]
  | other :: rest =>
    if other.id = project.id then project :: rest else other :: putProject project rest

def withProject (solution : Solution) (info : ProjectInfo) : Except ProjectError Solution := do
  info.validate
  ofProjects (putProject { info } solution.projects)

def withoutProject (solution : Solution) (id : ProjectId) : Except ProjectError Solution :=
  if solution.contains id then ofProjects (solution.projects.filter (·.id != id))
  else .error (.unknownProject id)

/-- Puts a document in the place of the one with its id, or at the end. -/
def putDocument (document : Document) : List Document → List Document
  | [] => [document]
  | other :: rest =>
    if other.id = document.id then document :: rest else other :: putDocument document rest

def withDocument (solution : Solution) (id : ProjectId) (document : Document) :
    Except ProjectError Solution :=
  match solution.get? id with
  | some project =>
    solution.withProject
      { project.info with documents := putDocument document project.info.documents }
  | none => .error (.unknownProject id)

inductive Edit where
  | withProject (info : ProjectInfo)
  | withDocument (project : ProjectId) (document : Document)
  | withoutProject (project : ProjectId)

def Edit.apply (solution : Solution) : Edit → Except ProjectError Solution
  | withProject info => solution.withProject info
  | withDocument project document => solution.withDocument project document
  | withoutProject project => solution.withoutProject project

/-- The project that an edit replaces, adds or removes. All others are carried over as they are. -/
def Edit.target : Edit → ProjectId
  | withProject info => info.id
  | withDocument project _ => project
  | withoutProject project => project

/-- The projects of an edited solution that it has in common with the solution before the edit. -/
def Edit.carriedOver (edit : Edit) (edited : Solution) : List ProjectId :=
  edited.ids.filter (· != edit.target)

/-- The number of projects, then the id, name and content fingerprint of each. -/
def content (solution : Solution) : Bytes :=
  Bytes.ofLength solution.projects.length
    ++ solution.projects.flatMap fun project =>
      Bytes.ofUInt32 project.id.number ++ Fingerprint.textPart project.info.name
        ++ project.fingerprint.toBytes

/-- Names the snapshot: two solutions with the same checksum are searched with the same result. -/
def checksum (solution : Solution) : Fingerprint := .ofContent solution.content

end Solution

end SymbolSearch
