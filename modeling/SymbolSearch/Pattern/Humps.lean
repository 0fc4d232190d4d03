import SymbolSearch.Bytes

/-!
# Humps

A name such as `getHTTPResponse` consists of words. A hump reaches from the start of a word to the
start of the next. A pattern abbreviates a name when it is a sequence of beginnings of humps, taken
from left to right; an abbreviation is worth more when its humps are neighbours and stand early.
-/

namespace SymbolSearch.Pattern

def isUpper (b : UInt8) : Bool := 65 ≤ b && b ≤ 90

def isLower (b : UInt8) : Bool := 97 ≤ b && b ≤ 122

def isDigit (b : UInt8) : Bool := 48 ≤ b && b ≤ 57

def isLetter (b : UInt8) : Bool := isUpper b || isLower b

/-- The small letter of an ASCII capital; every other byte is left alone. -/
def fold (b : UInt8) : UInt8 := if isUpper b then b + 32 else b

def foldBytes (bytes : Bytes) : Bytes := bytes.map fold

/-- The bytes of `_`, `-`, the space, both slashes, `.`, `:` and the brackets. -/
def separators : Bytes := [95, 45, 32, 47, 92, 46, 58, 60, 62, 40, 41, 91, 93]

def isSeparator (b : UInt8) : Bool := separators.contains b

/-- A word starts at `b`, which stands between `previous` and `next?`. -/
def isBoundary (previous b : UInt8) (next? : Option UInt8) : Bool :=
  isSeparator previous
    || (isLower previous && isUpper b)
    || (isUpper previous && isUpper b && (next?.map isLower).getD false)
    || (isLetter previous && isDigit b)
    || (isDigit previous && isLetter b)

/-- The starts of words at index `i` and later, where `previous?` is the byte before. -/
def wordStartsFrom (i : Nat) (previous? : Option UInt8) : Bytes → List Nat
  | [] => []
  | b :: rest =>
    let starts := !isSeparator b &&
      match previous? with
      | none => true
      | some previous => isBoundary previous b rest.head?
    let later := wordStartsFrom (i + 1) (some b) rest
    if starts then i :: later else later

def wordStarts (name : Bytes) : List Nat := wordStartsFrom 0 none name

/-- The pieces of a name between the given starts; the last reaches to the end. -/
def humpsAt (name : Bytes) : List Nat → List Bytes
  | [] => []
  | [start] => [name.drop start]
  | start :: next :: starts => (name.take next).drop start :: humpsAt name (next :: starts)

def commonPrefix : Bytes → Bytes → Nat
  | a :: as, b :: bs => if a = b then commonPrefix as bs + 1 else 0
  | _, _ => 0

/-- The greater of two values, where an absent value is below all others. -/
def best : Option Int → Option Int → Option Int
  | none, b => b
  | a, none => a
  | some a, some b => some (max a b)

def bestOf (values : List (Option Int)) : Option Int := values.foldl best none

def perCharacter : Int := 10

def neighbourBonus : Int := 5

def skippedHump : Int := 3

def leadingHump : Int := 8

/-- What it is worth to take the first `k` characters of the pattern from one hump, where `later`
holds the worth of the remaining pattern after 1, 2, … characters, at the hump that follows. -/
def takeFrom (later : List (Option Int)) (most : Nat) : Option Int :=
  bestOf ((later.take most).zipIdx.map fun (worth, k) => worth.map (· + perCharacter * (k + 1)))

/-- The worth of using each hump for the next characters of `pattern`. Row `k` of `later` is for the
pattern without its first `k + 1` characters, with one entry for every hump to go on from. -/
def gains (humps : List Bytes) (pattern : Bytes) (later : List (List (Option Int))) :
    List (Option Int) :=
  humps.zipIdx.map fun (hump, j) =>
    takeFrom (later.map fun row => row[j + 1]?.getD none) (commonPrefix hump pattern)

/-- The best choice among humps, each skipped hump costing `skip`, the first of all earning `bonus`. -/
def choose (skip bonus : Int) (gains : List (Option Int)) : Option Int :=
  bestOf (gains.zipIdx.map fun (gain, skipped) =>
    gain.map fun worth => worth - skip * skipped + if skipped = 0 then bonus else 0)

/-- The best choices when the first hump that may be used is the first, the second, and so on. -/
def chooseEach (skip bonus : Int) : List (Option Int) → List (Option Int)
  | [] => [none]
  | gain :: gains => choose skip bonus (gain :: gains) :: chooseEach skip bonus gains

/-- One row for every ending of the pattern, the longest first: its worth from each hump on, when
characters before it have already been taken from a hump. -/
def worthRows (humps : List Bytes) : Bytes → List (List (Option Int))
  | [] => [List.replicate (humps.length + 1) (some 0)]
  | b :: rest =>
    let later := worthRows humps rest
    chooseEach skippedHump neighbourBonus (gains humps (b :: rest) later) :: later

/-- The worth of the best abbreviation of humps by the pattern. -/
def abbreviation (humps : List Bytes) (pattern : Bytes) : Option Int :=
  match pattern with
  | [] => some 0
  | _ :: rest => choose leadingHump 0 (gains humps pattern (worthRows humps rest))

/-- An abbreviation needs a name of at least two words; longer names are worth less. Both the
pattern and the name are given in small letters, the starts are those of the name as written. -/
def camelCase (pattern name : Bytes) (starts : List Nat) : Option Int :=
  if starts.length < 2 then none
  else (abbreviation (humpsAt name starts) pattern).map (· - name.length)

end SymbolSearch.Pattern
