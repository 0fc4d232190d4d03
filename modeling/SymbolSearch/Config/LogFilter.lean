import SymbolSearch.Config.Settings
import SymbolSearch.Event
import SymbolSearch.Text.Blank

/-!
# Log filters

A filter is a list of directives, each of which sets the least level at which events are logged: of
components whose names start with its target, or of all. Of several directives for an event the one
with the longest target decides.
-/

namespace SymbolSearch

/-- Without a level nothing is logged. -/
structure Directive where
  target : Option String
  level : Option Level
  deriving DecidableEq, Repr

abbrev LogFilter := List Directive

namespace Directive

def levelName (level : Option Level) : String := (level.map Level.name).getD "off"

def display (directive : Directive) : String :=
  match directive.target with
  | some target => s!"{target}={levelName directive.level}"
  | none => levelName directive.level

def isDigits (text : String) : Bool := !text.isEmpty && text.toList.all Char.isDigit

/-- A level by its number; a plus sign may stand in front. -/
def levelOfNumber? (text : String) : Option (Option Level) := do
  let digits := if text.startsWith "+" then String.ofList (text.toList.drop 1) else text
  if isDigits digits then
    match ← digits.toNat? with
    | 0 => some none
    | n => (Level.all.reverse[n - 1]?).map some
  else none

/-- A level by its name or number. -/
def level? (text : String) : Option (Option Level) :=
  let name := text.toLower
  if name = "off" then some none
  else ((Level.all.find? (·.name == name)).map some).or (levelOfNumber? text)

def mayStart (c : Char) : Bool :=
  c.isAlphanum || c = '-' || c = ':' || c = '_' || c = '[' || 128 ≤ c.toNat

/-- The level that follows a target; left out, it is the lowest. -/
def levelAfter? (text : String) : Option (Option Level) :=
  if text.isEmpty then some (some .trace) else level? text

/-- A level, a target, or a target and its level. Blanks may stand around it, but they belong to the
target, and a level is not recognised among them. -/
def parse? (text : String) : Option Directive :=
  let bare := Text.trim text
  if ¬ (bare.toList.head?.map mayStart).getD false then none
  else
    match text.splitOn "=" with
    | [_] =>
      match level? text with
      | some level => some ⟨none, level⟩
      | none => some ⟨some text, some .trace⟩
    | target :: rest =>
      if text.toList.head? = bare.toList.head? then
        (levelAfter? ("=".intercalate rest)).map fun level => ⟨some target, level⟩
      else none
    | [] => none

def covers (directive : Directive) (component : String) : Bool :=
  match directive.target with
  | some target => component.startsWith target
  | none => true

def weight (directive : Directive) : Nat :=
  match directive.target with
  | some target => target.utf8ByteSize + 1
  | none => 0

def admits (directive : Directive) (level : Level) : Bool :=
  match directive.level with
  | some least => least.rank ≤ level.rank
  | none => false

end Directive

namespace LogFilter

def ofLevel (level : Level) : LogFilter := [⟨none, some level⟩]

/-- A directive takes the place of an earlier one for the same target. -/
def add (filter : LogFilter) (directive : Directive) : LogFilter :=
  filter.filter (·.target != directive.target) ++ [directive]

/-- Directives separated by commas. -/
def parse? (text : String) : Option LogFilter := do
  let directives ← ((text.splitOn ",").filter (!·.isEmpty)).mapM Directive.parse?
  return directives.foldl add []

/-- The level of a configuration as directives; the names of levels are read leniently. -/
def directivesOf (level : String) : String :=
  let trimmed := Text.trim level
  let name := trimmed.toLower
  if trimmed.isEmpty then "info"
  else if name = "warning" then "warn"
  else if (Level.all.map Level.name).contains name then name
  else trimmed

def ofConfigured (level : String) : LogFilter :=
  (parse? (directivesOf level)).getD (ofLevel .info)

/-- The filter for a configured level and the directives of the environment, which come later. If
they do not make sense together, those of the environment stand alone, and then the level. -/
def effective (level : String) (environment? : Option String) : LogFilter :=
  match (environment?.map Text.trim).filter (!·.isEmpty) with
  | some environment =>
    ((parse? (directivesOf level ++ "," ++ environment)).or (parse? environment)).getD
      (ofConfigured level)
  | none => ofConfigured level

def display (filter : LogFilter) : String := ",".intercalate (filter.map Directive.display)

/-- The texts between the commas of the written filter, in order. -/
def texts (filter : LogFilter) : List String := (filter.display.splitOn ",").mergeSort (· ≤ ·)

def heaviest (directives : List Directive) : Option Directive :=
  directives.foldl (fun best d =>
    match best with
    | some b => if b.weight < d.weight then some d else some b
    | none => some d) none

def admits (filter : LogFilter) (event : Event) : Bool :=
  match heaviest (filter.filter (·.covers event.component)) with
  | some directive => directive.admits event.level
  | none => false

end LogFilter

end SymbolSearch
