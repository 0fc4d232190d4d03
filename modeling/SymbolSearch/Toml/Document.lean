import SymbolSearch.Toml.Reader

/-!
# TOML documents

A document is a table. The assignments before the first header belong to it, and those after a
header to the table that the header names.
-/

namespace SymbolSearch.Toml

structure Section where
  double : Bool
  path : List String
  key : String
  assignments : List Assignment

/-- The assignments before the first header, and the sections of the headers. -/
def sections : List Line → List Assignment × List Section
  | [] => ([], [])
  | line :: rest =>
    let (assignments, found) := sections rest
    match line with
    | .assignment a => (a :: assignments, found)
    | .header double path key => ([], ⟨double, path, key, assignments⟩ :: found)

/-- Adds the table of a section. It may stand only once, but may be implied before. -/
def Section.addTo (part : Section) (entries : Entries) : Option Entries := do
  let fill (inner : Entries) := (insertAll .header inner part.assignments).map (table .header)
  match part.double, entries.lookup part.key with
  | false, none => return entries ++ [(part.key, ← fill [])]
  | false, some (.table .implied inner) =>
    return Entries.remove entries part.key ++ [(part.key, ← fill inner)]
  | true, none => return entries ++ [(part.key, tables [← fill []])]
  | true, some (.tables items) =>
    return Entries.replace entries part.key (tables (items ++ [← fill []]))
  | _, _ => none

def addSection (root : Entries) (part : Section) : Option Entries :=
  extend .implied (fun _ entries => part.addTo entries) part.path .header root

/-- The table that a text denotes. A byte order mark at its start is skipped. -/
def parse (text : String) : Option Toml := do
  let cs :=
    match text.toList with
    | '\uFEFF' :: rest => rest
    | cs => cs
  let (assignments, parts) := sections (← lines (cs.length + 1) cs)
  let root ← parts.foldlM addSection (← insertAll .header [] assignments)
  return table .header root

end SymbolSearch.Toml
