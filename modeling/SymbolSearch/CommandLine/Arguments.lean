import SymbolSearch.Index.Query
import SymbolSearch.Symbol.Key

/-!
# Arguments

The commands that can be given on the command line. Options may stand anywhere among the other
arguments of a command, each of them at most once, and nothing after `--` is an option.
-/

namespace SymbolSearch

structure SearchFlags where
  project : Option ProjectId := none
  filter : SymbolFilter := .all
  metadata : Bool := false
  remote : Bool := false
  json : Bool := false

inductive Command where
  | search (solution : String) (query : NameQuery) (flags : SearchFlags)
  | index (solution : String) (json : Bool)

def Command.solution : Command → String
  | search solution _ _ => solution
  | index solution _ => solution

/-- What is asked for: the version of the program, or a command with the configuration to use. -/
inductive Request where
  | version
  | run (config : Option String) (command : Command)

namespace Arguments

/-- The options and the other arguments, in order. A switch is an option without a value. -/
structure Given where
  values : List (String × String)
  switches : List String
  others : List String

/-- A single dash is no option, but an argument like any other. -/
def isOption (argument : String) : Bool := argument.startsWith "-" && argument != "-"

/-- The name of an option, and the value that is attached to it by an equals sign. -/
def attached (argument : String) : String × Option String :=
  match argument.splitOn "=" with
  | name :: value :: more => (name, some ("=".intercalate (value :: more)))
  | _ => (argument, none)

def addValue (name value : String) (given : Given) : Option Given :=
  if (given.values.lookup name).isSome then none
  else some { given with values := (name, value) :: given.values }

def addSwitch (name : String) (given : Given) : Option Given :=
  if given.switches.contains name then none
  else some { given with switches := name :: given.switches }

/-- Tells options from other arguments. Only options with the given names are known. -/
def collect (valued switches : List String) : List String → Option Given
  | [] => some ⟨[], [], []⟩
  | argument :: rest =>
    if argument = "--" then some ⟨[], [], rest⟩
    else if ¬ isOption argument then do
      let given ← collect valued switches rest
      return { given with others := argument :: given.others }
    else
      let (name, value?) := attached argument
      if valued.contains name then
        match value?, rest with
        | some value, rest => do addValue name value (← collect valued switches rest)
        | none, value :: rest =>
          if isOption value then none
          else do addValue name value (← collect valued switches rest)
        | none, [] => none
      else if switches.contains name ∧ value?.isNone then do
        addSwitch name (← collect valued switches rest)
      else none

/-- A whole number below `2 ^ 32`, possibly with a sign. -/
def word? (text : String) : Option UInt32 := do
  let (negative, digits) :=
    match text.toList with
    | '+' :: rest => (false, rest)
    | '-' :: rest => (true, rest)
    | rest => (false, rest)
  if digits.isEmpty ∨ ¬ digits.all Char.isDigit then none
  else
    let n := digits.foldl (fun n c => 10 * n + (c.toNat - 48)) 0
    if n < UInt32.size ∧ ¬ (negative ∧ n ≠ 0) then some (UInt32.ofNat n) else none

/-- The value of an option, read if it is given. -/
def Given.read {α : Type} (given : Given) (name : String) (read : String → Option α) :
    Option (Option α) :=
  match given.values.lookup name with
  | some text => (read text).map some
  | none => some none

def path? (text : String) : Option String := if text.isEmpty then none else some text

def Given.flags? (given : Given) : Option SearchFlags := do
  let project ← given.read "--project" word?
  let filter ← given.read "--filter" fun text => (SymbolFilter.parse text).toOption
  return { project := project.map ProjectId.mk, filter := filter.getD .all,
           metadata := given.switches.contains "--metadata",
           remote := given.switches.contains "--remote",
           json := given.switches.contains "--json" }

def searchValues : List String := ["--config", "--project", "--filter"]

def searchSwitches : List String := ["--metadata", "--remote", "--json"]

/-- The command that the arguments after its name give, and the configuration to use. -/
def command? (name : String) (rest : List String) : Option (Option String × Command) := do
  match name with
  | "find" =>
    let given ← collect searchValues ("--ignore-case" :: searchSwitches) rest
    let [solution, text] := given.others | none
    let query :=
      if given.switches.contains "--ignore-case" then NameQuery.ignoreCase text else .exact text
    return (← given.read "--config" path?, .search (← path? solution) query (← given.flags?))
  | "pattern" =>
    let given ← collect searchValues searchSwitches rest
    let [solution, text] := given.others | none
    return (← given.read "--config" path?,
      .search (← path? solution) (.fuzzy text) (← given.flags?))
  | "index" =>
    let given ← collect ["--config"] ["--json"] rest
    let [solution] := given.others | none
    return (← given.read "--config" path?,
      .index (← path? solution) (given.switches.contains "--json"))
  | _ => none

/-- The request of arguments that follow a choice of configuration. One that stands after the
command takes the place of it. -/
def parseWith (config : Option String) : List String → Option Request
  | [] => none
  | name :: rest => do
    if name = "--version" ∨ name.startsWith "-V" then return .version
    let (own, command) ← command? name rest
    return .run (own.or config) command

/-- What the arguments ask for, if they make sense. -/
def parse : List String → Option Request
  | "--config" :: path :: rest => do
    if isOption path then none
    parseWith (some (← path? path)) rest
  | argument :: rest => do
    match attached argument with
    | ("--config", some path) => parseWith (some (← path? path)) rest
    | _ => parseWith none (argument :: rest)
  | [] => none

end Arguments

end SymbolSearch
