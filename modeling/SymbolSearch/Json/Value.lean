/-!
# JSON values

Values keep the members of an object in the order in which they are written, repeated names
included. Texts are written compactly or with one member or element to a line.
-/

namespace SymbolSearch

/-- `decimal` is a number written with a fraction, an exponent or as minus zero. `unusable` stands
for a string in which half a surrogate pair is escaped, and for an object with such a name: it is
well formed, but there is no text to read it as. -/
inductive Json where
  | null
  | bool (value : Bool)
  | integer (value : Int)
  | decimal (literal : String)
  | string (text : String)
  | array (items : List Json)
  | object (members : List (String × Json))
  | unusable
  deriving Repr, Inhabited

namespace Json

def nat (n : Nat) : Json := integer n

def word (n : UInt32) : Json := integer n.toNat

def strings (texts : List String) : Json := array (texts.map string)

def ofOption {α : Type} (f : α → Json) : Option α → Json
  | some a => f a
  | none => null

def hexDigit (n : Nat) : Char := if n < 10 then Char.ofNat (48 + n) else Char.ofNat (87 + n)

def escapedChar (c : Char) : List Char :=
  if c = '"' then ['\\', '"']
  else if c = '\\' then ['\\', '\\']
  else if c = '\n' then ['\\', 'n']
  else if c = '\r' then ['\\', 'r']
  else if c = '\t' then ['\\', 't']
  else if c.toNat = 8 then ['\\', 'b']
  else if c.toNat = 12 then ['\\', 'f']
  else if c.toNat < 32 then ['\\', 'u', '0', '0', hexDigit (c.toNat / 16), hexDigit (c.toNat % 16)]
  else [c]

def quoted (text : String) : String :=
  String.ofList ('"' :: text.toList.flatMap escapedChar ++ ['"'])

/-- The parts between brackets, each on a line of its own unless the text is compact. -/
def enclose (opening closing : String) (indent? : Option Nat) (parts : List String) : String :=
  match parts, indent? with
  | [], _ => opening ++ closing
  | parts, none => opening ++ ",".intercalate parts ++ closing
  | parts, some indent =>
    let line := "\n" ++ String.ofList (List.replicate (2 * indent) ' ')
    opening ++ ",".intercalate (parts.map (line ++ "  " ++ ·)) ++ line ++ closing

mutual

/-- `indent?` is the depth of the lines, or absent for a compact text. -/
def write (indent? : Option Nat) : Json → String
  | null | unusable => "null"
  | bool true => "true"
  | bool false => "false"
  | integer n => toString n
  | decimal literal => literal
  | string text => quoted text
  | array items => enclose "[" "]" indent? (writeItems (indent?.map (· + 1)) items)
  | object members => enclose "\x7b" "\x7d" indent? (writeMembers (indent?.map (· + 1)) members)

def writeItems (indent? : Option Nat) : List Json → List String
  | [] => []
  | item :: items => write indent? item :: writeItems indent? items

def writeMembers (indent? : Option Nat) : List (String × Json) → List String
  | [] => []
  | (name, value) :: members =>
    let colon := if indent?.isSome then ": " else ":"
    (quoted name ++ colon ++ write indent? value) :: writeMembers indent? members

end

def compact (value : Json) : String := write none value

def pretty (value : Json) : String := write (some 0) value

/-- The values of the named members, in the order of `names`. An object may have other members but
none of these twice; an array holds their values in order and may end early. -/
def fields? (names : List String) : Json → Option (List (Option Json))
  | object members =>
    let count name := members.countP (·.1 == name)
    if names.any fun name => count name > 1 then none
    else some (names.map fun name => members.lookup name)
  | array items =>
    if items.length > names.length then none
    else some (items.map some ++ List.replicate (names.length - items.length) none)
  | _ => none

def member? (value : Json) (name : String) : Option Json :=
  match value with
  | object members => members.lookup name
  | _ => none

def string? : Json → Option String
  | string text => some text
  | _ => none

def bool? : Json → Option Bool
  | bool value => some value
  | _ => none

def nat? : Json → Option Nat
  | integer n => if 0 ≤ n then some n.toNat else none
  | _ => none

/-- A whole number below `2 ^ 32`. -/
def word? (value : Json) : Option UInt32 := do
  let n ← value.nat?
  if n < UInt32.size then some (UInt32.ofNat n) else none

def array? : Json → Option (List Json)
  | array items => some items
  | _ => none

def strings? (value : Json) : Option (List String) := do (← value.array?).mapM string?

/-- A name that stands for itself, or is the only member of an object, with the value null. -/
def variant? : Json → Option String
  | string name => some name
  | object [(name, null)] => some name
  | _ => none

end Json

end SymbolSearch
