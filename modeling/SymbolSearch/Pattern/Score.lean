import SymbolSearch.Pattern.Humps
import SymbolSearch.Pattern.Distance
import SymbolSearch.Text.Blank

/-!
# Scores

How well a name fits a pattern. A fit is of one of five kinds, and of two fits the one of the better
kind ranks higher, whatever their scores are.
-/

namespace SymbolSearch

inductive MatchKind where
  | exact
  | initial
  | substring
  | camelCase
  | editDistance
  deriving DecidableEq, Repr

def MatchKind.rank : MatchKind → Nat
  | exact => 5
  | initial => 4
  | substring => 3
  | camelCase => 2
  | editDistance => 1

structure MatchScore where
  kind : MatchKind
  score : Int
  deriving DecidableEq, Repr

/-- By kind, then by score. -/
def MatchScore.order (a b : MatchScore) : Ordering :=
  (compare a.kind.rank b.kind.rank).then (compare a.score b.score)

/-- A pattern that is not blank, without its outer blanks. -/
structure Pattern where
  text : String
  deriving DecidableEq, Repr

namespace Pattern

def ofText? (text : String) : Option Pattern :=
  if Text.isBlank text then none else some ⟨Text.trim text⟩

def bytes (pattern : Pattern) : Bytes := Bytes.ofString pattern.text

def folded (pattern : Pattern) : Bytes := foldBytes pattern.bytes

/-- The number of positions at which a name has the pattern's very letters. -/
def caseBonus (pattern name : Bytes) : Nat := (pattern.zip name).countP fun (p, c) => p == c

/-- How many edits are forgiven for a pattern of so many bytes. -/
def editThreshold (length : Nat) : Option Nat :=
  if length < 3 then none else if length < 6 then some 1 else some 2

def supportsEditDistance (pattern : Pattern) : Bool :=
  (editThreshold pattern.bytes.length).isSome && pattern.bytes.all isLetter

/-- The score of a name that does not have the pattern as its beginning: the pattern may stand at
the start of a later word, or abbreviate the humps of the name. -/
def scoreInside (pattern name : Bytes) : Option MatchScore :=
  let folded := foldBytes pattern
  let foldedName := foldBytes name
  let starts := wordStarts name
  match starts.tail.find? fun start => folded.isPrefixOf (foldedName.drop start) with
  | some start =>
    some ⟨.substring, 1000000 - name.length - start + caseBonus pattern (name.drop start)⟩
  | none => (camelCase folded foldedName starts).map (⟨.camelCase, ·⟩)

def scoreBytes (pattern name : Bytes) : Option MatchScore :=
  if name.length < pattern.length then none
  else if (foldBytes pattern).isPrefixOf (foldBytes name) then
    if name.length = pattern.length then some ⟨.exact, caseBonus pattern name⟩
    else some ⟨.initial, 1000000 - name.length + caseBonus pattern name⟩
  else scoreInside pattern name

def score (pattern : Pattern) (name : String) : Option MatchScore :=
  scoreBytes pattern.bytes (Bytes.ofString name)

/-- The score of a name that is a few edits away from the pattern. -/
def scoreEdits (pattern : Pattern) (name : String) : Option MatchScore :=
  if !pattern.supportsEditDistance then none
  else do
    let length := pattern.bytes.length
    let threshold ← editThreshold length
    if name.utf8ByteSize > length + threshold ∨ length > name.utf8ByteSize + threshold then none
    else
      let distance := editDistance pattern.text.toLower.toList name.toLower.toList
      if distance = 0 ∨ distance > threshold then none else some ⟨.editDistance, -distance⟩

end Pattern

/-- The fit of a name to the text of a pattern, with edits as the last resort. -/
def patternMatch (text name : String) : Option MatchScore := do
  let pattern ← Pattern.ofText? text
  pattern.score name <|> pattern.scoreEdits name

end SymbolSearch
