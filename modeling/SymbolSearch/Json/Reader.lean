import SymbolSearch.Json.Value

/-!
# Reading JSON

A value is read from the front of a text. Every value takes at least one character, so the number
of characters bounds the depth of the reading.
-/

namespace SymbolSearch.Json

abbrev Rest := List Char

def isBlankChar (c : Char) : Bool := c == ' ' || c == '\n' || c == '\t' || c == '\r'

def skipBlanks (cs : Rest) : Rest := cs.dropWhile isBlankChar

def hexValue? (c : Char) : Option Nat :=
  if '0' ≤ c ∧ c ≤ '9' then some (c.toNat - 48)
  else if 'a' ≤ c ∧ c ≤ 'f' then some (c.toNat - 87)
  else if 'A' ≤ c ∧ c ≤ 'F' then some (c.toNat - 55)
  else none

def escaped? : Char → Option Nat
  | '"' => some 0x22
  | '\\' => some 0x5C
  | '/' => some 0x2F
  | 'b' => some 8
  | 'f' => some 12
  | 'n' => some 10
  | 'r' => some 13
  | 't' => some 9
  | _ => none

/-- The codes of a string up to its closing quote; an escape by number may give half a pair. -/
def codes : Rest → Option (List Nat × Rest)
  | [] => none
  | '"' :: rest => some ([], rest)
  | '\\' :: 'u' :: a :: b :: c :: d :: rest => do
    let digits ← [a, b, c, d].mapM hexValue?
    let (more, rest) ← codes rest
    return (digits.foldl (16 * · + ·) 0 :: more, rest)
  | '\\' :: c :: rest => do
    let code ← escaped? c
    let (more, rest) ← codes rest
    return (code :: more, rest)
  | c :: rest => do
    if c.toNat < 0x20 ∨ c = '\\' then none
    else
      let (more, rest) ← codes rest
      return (c.toNat :: more, rest)

/-- The characters of the codes, each high half being followed by its low half. -/
def joinPairs : List Nat → Option (List Char)
  | [] => some []
  | high :: rest =>
    if 0xD800 ≤ high ∧ high < 0xDC00 then
      match rest with
      | low :: rest =>
        if 0xDC00 ≤ low ∧ low < 0xE000 then
          (Char.ofNat (0x10000 + (high - 0xD800) * 0x400 + (low - 0xDC00)) :: ·) <$> joinPairs rest
        else none
      | [] => none
    else if 0xDC00 ≤ high ∧ high < 0xE000 then none
    else (Char.ofNat high :: ·) <$> joinPairs rest

/-- A string after its opening quote; the text is absent if half a pair stands alone in it. -/
def stringBody (cs : Rest) : Option (Option String × Rest) := do
  let (codes, rest) ← codes cs
  return ((joinPairs codes).map String.ofList, rest)

def isDigit (c : Char) : Bool := '0' ≤ c && c ≤ '9'

def decimalValue (digits : List Char) : Nat :=
  digits.foldl (fun n c => 10 * n + (c.toNat - 48)) 0

/-- One digit or more. -/
def digits1 (cs : Rest) : Option (List Char × Rest) :=
  let digits := cs.takeWhile isDigit
  if digits.isEmpty then none else some (digits, cs.dropWhile isDigit)

def fraction : Rest → Option (List Char × Rest)
  | '.' :: rest => do
    let (digits, rest) ← digits1 rest
    return ('.' :: digits, rest)
  | cs => some ([], cs)

def exponent : Rest → Option (List Char × Rest)
  | c :: rest =>
    if c = 'e' ∨ c = 'E' then
      let (sign, rest) :=
        match rest with
        | '+' :: rest => (['+'], rest)
        | '-' :: rest => (['-'], rest)
        | rest => ([], rest)
      do
        let (digits, rest) ← digits1 rest
        return (c :: sign ++ digits, rest)
    else some ([], c :: rest)
  | [] => some ([], [])

/-- A number without its sign. More than one digit may not start with a zero. -/
def magnitude (negative : Bool) (cs : Rest) : Option (Json × Rest) := do
  let (digits, rest) ← digits1 cs
  if digits.length > 1 ∧ digits.head? = some '0' then none
  else
    let (fraction, rest) ← fraction rest
    let (exponent, rest) ← exponent rest
    let value := decimalValue digits
    if fraction.isEmpty ∧ exponent.isEmpty ∧ ¬ (negative ∧ value = 0) then
      return (integer (if negative then -value else value), rest)
    else
      let sign := if negative then ['-'] else []
      return (decimal (String.ofList (sign ++ digits ++ fraction ++ exponent)), rest)

def number : Rest → Option (Json × Rest)
  | '-' :: rest => magnitude true rest
  | cs => magnitude false cs

/-- An object with the members, or an unusable value if a name could not be read. -/
def objectOf (members : List (Option String × Json)) : Json :=
  match members.mapM fun (name?, value) => name?.map (·, value) with
  | some members => object members
  | none => unusable

mutual

def value : Nat → Rest → Option (Json × Rest)
  | 0, _ => none
  | fuel + 1, cs =>
    match skipBlanks cs with
    | 'n' :: 'u' :: 'l' :: 'l' :: rest => some (null, rest)
    | 't' :: 'r' :: 'u' :: 'e' :: rest => some (bool true, rest)
    | 'f' :: 'a' :: 'l' :: 's' :: 'e' :: rest => some (bool false, rest)
    | '"' :: rest => do
      let (text?, rest) ← stringBody rest
      return ((text?.map string).getD unusable, rest)
    | '[' :: rest =>
      match skipBlanks rest with
      | ']' :: rest => some (array [], rest)
      | rest => do
        let (items, rest) ← items fuel rest
        return (array items, rest)
    | '{' :: rest =>
      match skipBlanks rest with
      | '}' :: rest => some (object [], rest)
      | rest => do
        let (members, rest) ← members fuel rest
        return (objectOf members, rest)
    | rest => number rest

/-- The elements of an array up to its closing bracket. -/
def items : Nat → Rest → Option (List Json × Rest)
  | 0, _ => none
  | fuel + 1, cs => do
    let (item, rest) ← value fuel cs
    match skipBlanks rest with
    | ']' :: rest => return ([item], rest)
    | ',' :: rest =>
      let (more, rest) ← items fuel rest
      return (item :: more, rest)
    | _ => none

/-- The members of an object up to its closing bracket. -/
def members : Nat → Rest → Option (List (Option String × Json) × Rest)
  | 0, _ => none
  | fuel + 1, cs =>
    match skipBlanks cs with
    | '"' :: rest => do
      let (name?, rest) ← stringBody rest
      match skipBlanks rest with
      | ':' :: rest =>
        let (item, rest) ← value fuel rest
        match skipBlanks rest with
        | '}' :: rest => return ([(name?, item)], rest)
        | ',' :: rest =>
          let (more, rest) ← members fuel rest
          return ((name?, item) :: more, rest)
        | _ => none
      | _ => none
    | _ => none

end

/-- The value that the whole text denotes. -/
def parse (text : String) : Option Json := do
  let cs := text.toList
  let (result, rest) ← value (cs.length + 1) cs
  if (skipBlanks rest).isEmpty then some result else none

end SymbolSearch.Json
