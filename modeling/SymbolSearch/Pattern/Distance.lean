/-!
# Edit distance

The number of insertions, deletions, replacements and swaps of neighbours that turn one text into
another, where characters may also be inserted between two swapped ones.
-/

namespace SymbolSearch.Pattern

/-- The entry for the text so far against the first `j` characters of the other text. `rows` holds
the rows of the shorter beginnings of the text, the longest first; `before` are the characters of
those beginnings and `seen` the characters of the other text before this one, the nearest first. -/
def distanceEntry (rows : List (Array Nat)) (before seen : List Char) (a b : Char) (j left : Nat) :
    Nat :=
  let above := rows.headD #[]
  let replaced := (above[j - 1]?.getD 0) + if a = b then 0 else 1
  let simple := min (min (left + 1) ((above[j]?.getD 0) + 1)) replaced
  match before.idxOf? b, seen.idxOf? a with
  | some k, some l =>
    match rows[k + 1]? with
    | some row => min simple ((row[j - 2 - l]?.getD 0) + k + 1 + l)
    | none => simple
  | _, _ => simple

def distanceRow (rows : List (Array Nat)) (before : List Char) (a : Char) :
    List Char → List Char → Array Nat → Array Nat
  | _, [], row => row
  | seen, b :: rest, row =>
    let entry := distanceEntry rows before seen a b row.size (row.back?.getD 0)
    distanceRow rows before a (b :: seen) rest (row.push entry)

def distanceRows (other : List Char) :
    List Char → List Char → List (Array Nat) → List (Array Nat)
  | _, [], rows => rows
  | before, a :: rest, rows =>
    let row := distanceRow rows before a [] other #[rows.length]
    distanceRows other (a :: before) rest (row :: rows)

/-- The unrestricted Damerau–Levenshtein distance. -/
def editDistance (text other : List Char) : Nat :=
  let firstRow := Array.range (other.length + 1)
  ((distanceRows other [] text [firstRow]).headD #[]).back?.getD 0

end SymbolSearch.Pattern
