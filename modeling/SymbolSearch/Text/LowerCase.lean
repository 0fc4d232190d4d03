import SymbolSearch.Text.CaseTable

/-!
# Lower case

The lowercase form of a text. Every character has a lowercase form of its own, except that a capital
sigma at the end of a word becomes the final small sigma.
-/

namespace SymbolSearch.Text

def capitalSigma : Char := Char.ofNat 0x3A3

def smallSigma : Char := Char.ofNat 0x3C3

def finalSigma : Char := Char.ofNat 0x3C2

/-- The lowercase form of a character on its own: capital I with a dot keeps its dot as a mark. -/
def lowerChar (c : Char) : List Char :=
  if c.toNat < 0x80 then [c.toLower]
  else if c.toNat = 0x130 then ['i', Char.ofNat 0x307]
  else if c = capitalSigma then [smallSigma]
  else [((caseRuns.findSome? (·.lower? c.toNat)).map Char.ofNat).getD c]

/-- The first character that counts for the case of a word is a cased one. -/
def meetsCased (cs : List Char) : Bool :=
  ((cs.dropWhile isCaseIgnorable).head?.map isCased).getD false

/-- `before` holds the characters already passed, the nearest first. -/
def lowerFrom (before : List Char) : List Char → List Char
  | [] => []
  | c :: rest =>
    let lower :=
      if c = capitalSigma ∧ meetsCased before ∧ ¬ meetsCased rest then [finalSigma]
      else lowerChar c
    lower ++ lowerFrom (c :: before) rest

def lowercase (text : String) : String := String.ofList (lowerFrom [] text.toList)

end SymbolSearch.Text
