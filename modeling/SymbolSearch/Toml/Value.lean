/-!
# TOML values

Values and tables of a TOML text. Tables grow while the text is read, and how a table came about
decides in which ways it may still grow. Entries stand in the order in which they became complete.
-/

namespace SymbolSearch

/-- A table is defined by its own header or between braces, implied by the header of a table inside
it, or made by a dotted key. A table between braces is complete. -/
inductive TableOrigin where
  | header
  | implied
  | dotted
  | braces
  deriving DecidableEq, Repr

/-- `moment` is a date or a time. `tables` are the tables of headers in double brackets. -/
inductive Toml where
  | string (text : String)
  | integer (value : Int)
  | float (value : Float)
  | boolean (value : Bool)
  | moment
  | array (items : List Toml)
  | table (origin : TableOrigin) (entries : List (String × Toml))
  | tables (items : List Toml)
  deriving Inhabited

namespace Toml

abbrev Entries := List (String × Toml)

def Entries.replace (entries : Entries) (key : String) (value : Toml) : Entries :=
  entries.map fun entry => if entry.1 = key then (key, value) else entry

def Entries.remove (entries : Entries) (key : String) : Entries := entries.filter (·.1 != key)

/-- Whether keys lead through a table: a header leads through any but a complete one, and a dotted
key only through tables that no header defines. -/
def TableOrigin.admits (creates : TableOrigin) : TableOrigin → Bool
  | .header => creates != .dotted
  | .implied | .dotted => true
  | .braces => false

/-- Changes the table to which a path leads. Tables on the way that are not there yet are created
with the origin `creates`; several tables of one name are represented by the last. -/
def extend (creates : TableOrigin) (change : TableOrigin → Entries → Option Entries) :
    List String → TableOrigin → Entries → Option Entries
  | [], origin, entries => change origin entries
  | key :: path, _, entries =>
    match entries.lookup key with
    | none => do
      let inner ← extend creates change path creates []
      return entries ++ [(key, table creates inner)]
    | some (table origin inner) =>
      if TableOrigin.admits creates origin then do
        let inner ← extend creates change path origin inner
        return Entries.replace entries key (table origin inner)
      else none
    | some (tables items) =>
      match items.getLast? with
      | some (table origin inner) => do
        let inner ← extend creates change path origin inner
        return Entries.replace entries key (tables (items.dropLast ++ [table origin inner]))
      | _ => none
    | some _ => none

/-- Adds an entry at a dotted key to a table. The last part of the key must be new, and the parts
before it must name a table of dotted keys. -/
def insertAt (origin : TableOrigin) (entries : Entries) (path : List String) (key : String)
    (value : Toml) : Option Entries :=
  let add (origin : TableOrigin) (entries : Entries) : Option Entries :=
    if (origin == .dotted) == path.isEmpty ∨ (entries.lookup key).isSome then none
    else some (entries ++ [(key, value)])
  extend .dotted add path origin entries

/-- A line that gives a value to a dotted key. -/
structure Assignment where
  path : List String
  key : String
  value : Toml

def insertAll (origin : TableOrigin) (entries : Entries) (assignments : List Assignment) :
    Option Entries :=
  assignments.foldlM (fun entries a => insertAt origin entries a.path a.key a.value) entries

end Toml

end SymbolSearch
