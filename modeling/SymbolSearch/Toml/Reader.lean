import SymbolSearch.Toml.Value

/-!
# Reading TOML

The parts of a TOML text, each read from the front of the characters that are left. Every part takes
at least one character, so the number of characters bounds the reading of parts within parts.
-/

namespace SymbolSearch.Toml

abbrev Rest := List Char

def isBlank (c : Char) : Bool := c = ' ' || c = '\t'

def skipBlanks (cs : Rest) : Rest := cs.dropWhile isBlank

/-- A character that may stand in comments and strings. -/
def isPrintable (c : Char) : Bool := c = '\t' || 0x20 ≤ c.toNat && c.toNat != 0x7F

def newline? : Rest → Option Rest
  | '\n' :: rest => some rest
  | '\r' :: '\n' :: rest => some rest
  | _ => none

def skipComment : Rest → Rest
  | '#' :: rest => rest.dropWhile isPrintable
  | cs => cs

/-- What follows a line of which only blanks and a comment are left. -/
def lineEnd? (cs : Rest) : Option Rest :=
  match skipComment (skipBlanks cs) with
  | [] => some []
  | cs => newline? cs

/-- Skips blanks, line ends and comments, the last of which has to be followed by a line end. -/
def skipFiller (inComment : Bool) : Rest → Option Rest
  | [] => if inComment then none else some []
  | '\n' :: rest => skipFiller false rest
  | '\r' :: '\n' :: rest => skipFiller false rest
  | c :: rest =>
    if inComment then if isPrintable c then skipFiller true rest else none
    else if isBlank c then skipFiller false rest
    else if c = '#' then skipFiller true rest
    else some (c :: rest)

/-! ## Strings -/

def hexValue? (c : Char) : Option Nat :=
  if '0' ≤ c ∧ c ≤ '9' then some (c.toNat - 48)
  else if 'a' ≤ c ∧ c ≤ 'f' then some (c.toNat - 87)
  else if 'A' ≤ c ∧ c ≤ 'F' then some (c.toNat - 55)
  else none

def escaped? : Char → Option Char
  | 'b' => some (Char.ofNat 8)
  | 't' => some '\t'
  | 'n' => some '\n'
  | 'f' => some (Char.ofNat 12)
  | 'r' => some '\r'
  | '"' => some '"'
  | '\\' => some '\\'
  | _ => none

def charOfCode? (code : Nat) : Option Char :=
  if code.isValidChar then some (Char.ofNat code) else none

/-- Where the reading of a string stands: after a backslash, before `left` hexadecimal digits of an
escape, or in the blank lines that a backslash at the end of a line swallows. -/
inductive Place where
  | text
  | escape
  | digits (left code : Nat)
  | swallowing
  deriving DecidableEq

/-- The end of a string: the quotes before its closing quotes, and what follows them. -/
def closing? (quote : Char) (multi : Bool) (cs : Rest) : Option (List Char × Rest) :=
  let count := (cs.takeWhile (· = quote)).length
  let size := if multi then 3 else 1
  let inner := if multi then min (count - size) 2 else 0
  if count < size then none else some (List.replicate inner quote, cs.drop (inner + size))

def push (c : Char) : Option (List Char × Rest) → Option (List Char × Rest) :=
  Option.map fun (text, rest) => (c :: text, rest)

/-- A string after its opening quotes. Only double quotes allow for escapes, and only strings in
triple quotes for line ends. -/
def body (quote : Char) (multi : Bool) : Place → Rest → Option (List Char × Rest)
  | _, [] => none
  | .escape, c :: rest =>
    if c = 'u' then body quote multi (.digits 4 0) rest
    else if c = 'U' then body quote multi (.digits 8 0) rest
    else do push (← escaped? c) (body quote multi .text rest)
  | .digits left code, c :: rest => do
    let code := 16 * code + (← hexValue? c)
    if 1 < left then body quote multi (.digits (left - 1) code) rest
    else push (← charOfCode? code) (body quote multi .text rest)
  | place, c :: rest =>
    if multi ∧ c = '\r' ∧ rest.head? = some '\n' then body quote multi place rest
    else if place = .swallowing ∧ (isBlank c ∨ c = '\n') then body quote multi place rest
    else
      match closing? quote multi (c :: rest) with
      | some ending => some ending
      | none =>
        if quote = '"' ∧ c = '\\' then
          let swallows := multi ∧ (newline? (skipBlanks rest)).isSome
          body quote multi (if swallows then .swallowing else .escape) rest
        else if (multi ∧ c = '\n') ∨ isPrintable c then push c (body quote multi .text rest)
        else none

def string? (cs : Rest) : Option (String × Rest) :=
  let read (quote : Char) (multi : Bool) (rest : Rest) :=
    (body quote multi .text rest).map fun (text, rest) => (String.ofList text, rest)
  match cs with
  | '"' :: '"' :: '"' :: rest => read '"' true ((newline? rest).getD rest)
  | '\'' :: '\'' :: '\'' :: rest => read '\'' true ((newline? rest).getD rest)
  | '"' :: rest => read '"' false rest
  | '\'' :: rest => read '\'' false rest
  | _ => none

/-! ## Keys -/

def isBareKeyChar (c : Char) : Bool := c.isAlphanum || c = '-' || c = '_'

def keyPart (cs : Rest) : Option (String × Rest) :=
  match cs with
  | '"' :: rest => (body '"' false .text rest).map fun (text, rest) => (String.ofList text, rest)
  | '\'' :: rest => (body '\'' false .text rest).map fun (text, rest) => (String.ofList text, rest)
  | cs =>
    let name := cs.takeWhile isBareKeyChar
    if name.isEmpty then none else some (String.ofList name, cs.dropWhile isBareKeyChar)

/-- A key of at most `limit` parts: the parts before the last, and the last. -/
def keyUpTo : (limit : Nat) → Rest → Option ((List String × String) × Rest)
  | 0, _ => none
  | limit + 1, cs => do
    let (part, rest) ← keyPart (skipBlanks cs)
    match skipBlanks rest with
    | '.' :: rest =>
      let ((path, key), rest) ← keyUpTo limit rest
      return ((part :: path, key), rest)
    | rest => return (([], part), rest)

def key (cs : Rest) : Option ((List String × String) × Rest) := keyUpTo 80 cs

/-! ## Numbers, dates and times -/

def isDigit (c : Char) : Bool := '0' ≤ c && c ≤ '9'

/-- Digits between which single underscores may stand. -/
def digits (isDigit : Char → Bool) : Rest → List Char × Rest
  | [] => ([], [])
  | c :: rest =>
    let continues := c = '_' ∧ (rest.head?.map isDigit).getD false
    if isDigit c then
      let (more, rest) := digits isDigit rest
      (c :: more, rest)
    else if continues then digits isDigit rest
    else ([], c :: rest)

def digits1 (isDigit : Char → Bool) (cs : Rest) : Option (List Char × Rest) :=
  match cs with
  | [] => none
  | c :: _ => if isDigit c then some (digits isDigit cs) else none

def valueOf (base : Nat) (digits : List Char) : Nat :=
  digits.foldl (fun n c => base * n + (hexValue? c).getD 0) 0

/-- A whole number without its sign; one that starts with a zero is zero. -/
def whole : Rest → Option (List Char × Rest)
  | '0' :: rest => some (['0'], rest)
  | cs => digits1 isDigit cs

def fraction? : Rest → Option (List Char × Rest)
  | '.' :: rest => digits1 isDigit rest
  | _ => none

def sign : Rest → Bool × Rest
  | '+' :: rest => (false, rest)
  | '-' :: rest => (true, rest)
  | cs => (false, cs)

def exponent? : Rest → Option (Int × Rest)
  | c :: rest =>
    if c = 'e' ∨ c = 'E' then do
      let (negative, rest) := sign rest
      let (digits, rest) ← digits1 isDigit rest
      let n : Int := valueOf 10 digits
      return (if negative then -n else n, rest)
    else none
  | [] => none

/-- The nearest floating point number. Of greater numbers than there are, only negative ones count
as infinite, and positive ones are refused. -/
def float? (negative : Bool) (digits : List Char) (exponent : Int) : Option Toml :=
  let mantissa := valueOf 10 digits
  let size := (toString mantissa).length + exponent
  let magnitude : Float :=
    if mantissa = 0 ∨ size < -330 then 0
    else if 310 < size then 1 / 0
    else Float.ofScientific mantissa (exponent < 0) exponent.natAbs
  if negative then some (float (-magnitude))
  else if magnitude.isInf then none
  else some (float magnitude)

def integer? (value : Int) : Option Toml :=
  if Int64.minValue.toInt ≤ value ∧ value ≤ Int64.maxValue.toInt then some (integer value)
  else none

def ofBase? (base : Nat) (isDigit : Char → Bool) (cs : Rest) : Option (Toml × Rest) := do
  let (digits, rest) ← digits1 isDigit cs
  return (← integer? (valueOf base digits), rest)

def special? (negative : Bool) : Rest → Option (Toml × Rest)
  | 'i' :: 'n' :: 'f' :: rest => some (float (if negative then -1 / 0 else 1 / 0), rest)
  | 'n' :: 'a' :: 'n' :: rest => some (float (0 / 0), rest)
  | _ => none

def decimal (negative : Bool) (cs : Rest) : Option (Toml × Rest) := do
  let (whole, rest) ← whole cs
  let fraction := fraction? rest
  let rest := (fraction.map (·.2)).getD rest
  let decimals := (fraction.map (·.1)).getD []
  let exponent := exponent? rest
  let rest := (exponent.map (·.2)).getD rest
  if fraction.isNone ∧ exponent.isNone then
    let value : Int := valueOf 10 whole
    return (← integer? (if negative then -value else value), rest)
  else
    let exponent := (exponent.map (·.1)).getD 0 - decimals.length
    return (← float? negative (whole ++ decimals) exponent, rest)

def number (cs : Rest) : Option (Toml × Rest) :=
  match cs with
  | '0' :: 'x' :: rest => ofBase? 16 (fun c => (hexValue? c).isSome) rest
  | '0' :: 'o' :: rest => ofBase? 8 (fun c => '0' ≤ c && c ≤ '7') rest
  | '0' :: 'b' :: rest => ofBase? 2 (fun c => c = '0' || c = '1') rest
  | cs =>
    let (negative, rest) := sign cs
    (special? negative rest).or (decimal negative rest)

/-- A number of exactly `count` digits from `low` to `high`. -/
def field (count low high : Nat) (cs : Rest) : Option (Nat × Rest) :=
  let digits := cs.take count
  let n := valueOf 10 digits
  if digits.length = count ∧ digits.all isDigit ∧ low ≤ n ∧ n ≤ high then some (n, cs.drop count)
  else none

def after (mark : Char) : Rest → Option Rest
  | c :: rest => if c = mark then some rest else none
  | [] => none

def daysIn (year month : Nat) : Nat :=
  if month = 2 then if year % 4 = 0 ∧ (year % 100 ≠ 0 ∨ year % 400 = 0) then 29 else 28
  else if month = 4 ∨ month = 6 ∨ month = 9 ∨ month = 11 then 30
  else 31

def skipDate (cs : Rest) : Option Rest := do
  let (year, rest) ← field 4 0 9999 cs
  let (month, rest) ← field 2 1 12 (← after '-' rest)
  let (_, rest) ← field 2 1 (daysIn year month) (← after '-' rest)
  return rest

def skipTime (cs : Rest) : Option Rest := do
  let (_, rest) ← field 2 0 23 cs
  let (_, rest) ← field 2 0 59 (← after ':' rest)
  let (_, rest) ← field 2 0 60 (← after ':' rest)
  return ((fraction? rest).map (·.2)).getD rest

def skipOffset : Rest → Option Rest
  | c :: rest =>
    if c = 'Z' ∨ c = 'z' then some rest
    else if c = '+' ∨ c = '-' then do
      let (_, rest) ← field 2 0 23 rest
      let (_, rest) ← field 2 0 59 (← after ':' rest)
      return rest
    else none
  | [] => none

def skipTimeAfterDate : Rest → Option Rest
  | c :: rest =>
    if c = 'T' ∨ c = 't' ∨ c = ' ' then do
      let rest ← skipTime rest
      return (skipOffset rest).getD rest
    else none
  | [] => none

def moment? (cs : Rest) : Option (Toml × Rest) :=
  match skipDate cs with
  | some rest => some (moment, (skipTimeAfterDate rest).getD rest)
  | none => (skipTime cs).map (moment, ·)

/-! ## Values -/

def scalar (cs : Rest) : Option (Toml × Rest) :=
  match cs with
  | 't' :: 'r' :: 'u' :: 'e' :: rest => some (boolean true, rest)
  | 'f' :: 'a' :: 'l' :: 's' :: 'e' :: rest => some (boolean false, rest)
  | cs =>
    match string? cs with
    | some (text, rest) => some (string text, rest)
    | none => (moment? cs).or (number cs)

mutual

/-- A value in which arrays and tables nest at most `depth` deep. -/
def value : (fuel depth : Nat) → Rest → Option (Toml × Rest)
  | 0, _, _ => none
  | _ + 1, 0, cs => scalar cs
  | fuel + 1, depth + 1, cs =>
    match cs with
    | '[' :: rest => do
      let (items, rest) ← items fuel depth rest
      return (array items, rest)
    | '{' :: rest => do
      let (assignments, rest) ←
        match skipBlanks rest with
        | '}' :: rest => some ([], rest)
        | rest => assignments fuel depth rest
      return (table .braces (← insertAll .braces [] assignments), rest)
    | cs => scalar cs

/-- The elements of an array up to its closing bracket. -/
def items : (fuel depth : Nat) → Rest → Option (List Toml × Rest)
  | 0, _, _ => none
  | fuel + 1, depth, cs => do
    match ← skipFiller false cs with
    | ']' :: rest => return ([], rest)
    | rest =>
      let (item, rest) ← value fuel depth rest
      match ← skipFiller false rest with
      | ']' :: rest => return ([item], rest)
      | ',' :: rest =>
        let (more, rest) ← items fuel depth rest
        return (item :: more, rest)
      | _ => none

/-- The assignments between braces up to the closing one. -/
def assignments : (fuel depth : Nat) → Rest → Option (List Assignment × Rest)
  | 0, _, _ => none
  | fuel + 1, depth, cs => do
    let ((path, key), rest) ← key cs
    let (value, rest) ← value fuel depth (skipBlanks (← after '=' rest))
    match skipBlanks rest with
    | '}' :: rest => return ([⟨path, key, value⟩], rest)
    | ',' :: rest =>
      let (more, rest) ← assignments fuel depth rest
      return (⟨path, key, value⟩ :: more, rest)
    | _ => none

end

/-! ## Lines -/

/-- `header` names a table, and one of several of this name if its brackets are double. -/
inductive Line where
  | assignment (assignment : Assignment)
  | header (double : Bool) (path : List String) (key : String)

def maxNesting : Nat := 79

def line (cs : Rest) : Option (Line × Rest) :=
  match cs with
  | '[' :: '[' :: rest => do
    let ((path, key), rest) ← key rest
    return (.header true path key, ← after ']' (← after ']' rest))
  | '[' :: rest => do
    let ((path, key), rest) ← key rest
    return (.header false path key, ← after ']' rest)
  | cs => do
    let ((path, key), rest) ← key cs
    let rest := skipBlanks (← after '=' rest)
    let (value, rest) ← value (rest.length + 1) maxNesting rest
    return (.assignment ⟨path, key, value⟩, rest)

/-- The lines of a text that are neither blank nor comments. -/
def lines : (fuel : Nat) → Rest → Option (List Line)
  | 0, _ => none
  | fuel + 1, cs =>
    match skipBlanks cs with
    | [] => some []
    | cs =>
      match lineEnd? cs with
      | some rest => lines fuel rest
      | none => do
        let (line, rest) ← line cs
        return line :: (← lines fuel (← lineEnd? rest))

end SymbolSearch.Toml
