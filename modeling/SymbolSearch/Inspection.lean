import SymbolSearch.Index.Resolve
import SymbolSearch.Project.Solution
import SymbolSearch.Json.Value
import SymbolSearch.Wire.Message

/-!
# Inspection

Locations, keys, symbols, indexes and messages as JSON values, for programs that show them or compare
them.
-/

namespace SymbolSearch

open Json (nat word strings ofOption)

def Location.toJson (location : Location) : Json :=
  .object [("document", word location.document.number),
    ("range", .array [word location.range.start, word location.range.stop])]

def KeySegment.toJson (segment : KeySegment) : Json :=
  .object [("kind", .string segment.kind.name), ("name", .string segment.name),
    ("arity", word segment.arity), ("parameters", strings segment.parameters)]

def SymbolKey.toJson (key : SymbolKey) : Json :=
  .object [("segments", .array (key.segments.map KeySegment.toJson)),
    ("origin", .string key.origin.name)]

def Solution.overview (solution : Solution) : List (String × Json) :=
  [("ids", .array (solution.ids.map fun id => word id.number)),
    ("len", nat solution.projects.length), ("empty", .bool solution.projects.isEmpty),
    ("checksum", .string solution.checksum.hex),
    ("fingerprints", strings (solution.projects.map (·.fingerprint.hex)))]

def Project.overview (project : Project) : Json :=
  let info := project.info
  .object [("name", .string info.name), ("assembly_name", .string info.assemblyName),
    ("language", .string info.language),
    ("documents", .array (info.documents.map fun document =>
      .array [word document.id.number, .string document.name, nat document.declarations.length])),
    ("project_references", .array (info.projectReferences.map fun id => word id.number)),
    ("metadata_references", nat info.metadataReferences.length),
    ("fingerprint", .string project.fingerprint.hex)]

namespace SymbolIndex

def handles (index : SymbolIndex) : List Nat := List.range index.symbolCount

/-- What an index knows of the symbol with a handle by itself. -/
def fields (index : SymbolIndex) (handle : Nat) (info : SymbolInfo) : List (String × Json) :=
  [("key", ofOption (fun key : SymbolKey => .string key.display) (index.key? handle)),
    ("name", ofOption .string (index.name? handle)), ("kind", .string info.kind.name),
    ("accessibility", .string info.accessibility.name), ("origin", .string info.origin.name),
    ("arity", word info.arity), ("parameters", strings info.parameters),
    ("locations", .array (info.locations.map Location.toJson))]

def symbolJson (index : SymbolIndex) (handle : Nat) : Json :=
  ofOption (fun info : SymbolInfo => .object (index.fields handle info
    ++ [("parent", ofOption nat info.parent), ("node", nat info.node)])) (index.info? handle)

def nodeJson (node : IndexNode) : Json :=
  .array [.string node.name, ofOption nat node.parent, .array (node.children.map nat),
    .array (node.symbols.map nat)]

def toJson (index : SymbolIndex) : Json :=
  .object [("fingerprint", .string index.fingerprint.hex), ("node_count", nat index.nodeCount),
    ("symbol_count", nat index.symbolCount),
    ("nodes", .array (index.table.nodes.toList.map nodeJson)),
    ("symbols", .array (index.handles.map index.symbolJson))]

end SymbolIndex

def LiveSymbol.toJson (symbol : LiveSymbol) : Json :=
  .object ([("project", word symbol.project.number), ("handle", nat symbol.handle)]
    ++ ((symbol.index.info? symbol.handle).map (symbol.index.fields symbol.handle)).getD [])

def NameQuery.toJson : NameQuery → Json
  | exact text => .object [("exact", .string text)]
  | ignoreCase text => .object [("ignore_case", .string text)]
  | fuzzy text => .object [("fuzzy", .string text)]

def Descriptor.toJson (descriptor : Descriptor) : Json :=
  .object [("project", word descriptor.project.number), ("key", descriptor.key.toJson)]

def Message.toJson : Message → Json
  | find request =>
    .object [("type", .string "find"), ("checksum", .string request.checksum.hex),
      ("project", ofOption (fun id : ProjectId => word id.number) request.project),
      ("query", request.query.toJson), ("filter", nat request.filter.bits),
      ("scope", .string request.scope.name)]
  | declarations symbols =>
    .object [("type", .string "declarations"), ("symbols", .array (symbols.map Descriptor.toJson))]
  | error text => .object [("type", .string "error"), ("message", .string text)]

end SymbolSearch
