import SymbolSearch.Config.Settings
import SymbolSearch.Decimal
import SymbolSearch.Text.Quoted
import SymbolSearch.Toml.Document

/-!
# Configuration files

Settings as TOML texts. What is not set has its default, and what is not a setting is refused. A
group of settings may also be an array with their values in order.
-/

namespace SymbolSearch

inductive ConfigFault where
  | malformed
  | unknownField (name : String) (known : List String)
  | invalidType (found : Toml) (expected : String)
  | negativeCount (found : Int)

namespace ConfigFault

/-- The names of which one is expected. -/
def alternatives : List String → String
  | [] => "there are no fields"
  | [name] => "expected `" ++ name ++ "`"
  | [first, second] => "expected `" ++ first ++ "` or `" ++ second ++ "`"
  | names => "expected one of " ++ ", ".intercalate (names.map fun name => "`" ++ name ++ "`")

def describe : Toml → String
  | .string text => "string " ++ Text.quoted text
  | .integer value => "integer `" ++ toString value ++ "`"
  | .float value => "floating point `" ++ Decimal.ofFloat value ++ "`"
  | .boolean value => "boolean `" ++ toString value ++ "`"
  | .array _ | .tables _ => "sequence"
  | .moment | .table _ _ => "map"

/-- What is wrong with a well-formed text; for others there is no more to say. -/
def detail? : ConfigFault → Option String
  | malformed => none
  | unknownField name known => some ("unknown field `" ++ name ++ "`, " ++ alternatives known)
  | invalidType found expected => some s!"invalid type: {describe found}, expected {expected}"
  | negativeCount found => some ("invalid value: integer `" ++ toString found ++ "`, expected usize")

end ConfigFault

namespace SettingsFormat

abbrev Read := Except ConfigFault

def readBool : Toml → Read Bool
  | .boolean value => .ok value
  | found => .error (.invalidType found "a boolean")

def readText : Toml → Read String
  | .string text => .ok text
  | found => .error (.invalidType found "a string")

def readPath : Toml → Read (Option String)
  | .string text => .ok (some text)
  | found => .error (.invalidType found "path string")

def readCount : Toml → Read Nat
  | .integer value => if value < 0 then .error (.negativeCount value) else .ok value.toNat
  | found => .error (.invalidType found "usize")

/-- A setting of a group, and how it is changed to what is read. -/
structure Field (σ : Type) where
  name : String
  set : Toml → σ → Read σ

variable {σ α : Type}

def field (name : String) (read : Toml → Read α) (put : α → σ → σ) : Field σ :=
  ⟨name, fun value group => do return put (← read value) group⟩

/-- The name under which a date is asked for what it consists of. -/
def momentField : String := "$__toml_private_datetime"

def setNamed (fields : List (Field σ)) (group : σ) (name : String) (value : Toml) : Read σ :=
  match fields.find? (·.name == name) with
  | some field => field.set value group
  | none => throw (.unknownField name (fields.map (·.name)))

/-- Elements of an array that are too many are not looked at. -/
def readGroup (label : String) (fields : List (Field σ)) (default : σ) (value : Toml) : Read σ :=
  let inOrder (items : List Toml) :=
    (fields.zip items).foldlM (fun group (field, item) => field.set item group) default
  match value with
  | .table _ entries =>
    entries.foldlM (fun group (name, item) => setNamed fields group name item) default
  | .moment => setNamed fields default momentField value
  | .array items => inOrder items
  | .tables items => inOrder items
  | found => .error (.invalidType found label)

def readRemote : Toml → Read RemoteSettings :=
  readGroup "struct RemoteConfig"
    [field "enabled" readBool fun enabled group => { group with enabled }] {}

def readCache : Toml → Read CacheSettings :=
  readGroup "struct IndexCacheConfig"
    [field "capacity" readCount fun capacity group => { group with capacity },
      field "persist_dir" readPath fun directory group => { group with directory }] {}

def readPattern : Toml → Read PatternSettings :=
  readGroup "struct FuzzyConfig"
    [field "edit_distance_fallback" readBool fun editFallback group =>
      { group with editFallback }] {}

def readSearch : Toml → Read SearchSettings :=
  readGroup "struct SearchConfig"
    [field "remote" readRemote fun remote group => { group with remote },
      field "index_cache" readCache fun cache group => { group with cache },
      field "fuzzy" readPattern fun pattern group => { group with pattern }] {}

def readLog : Toml → Read LogSettings :=
  readGroup "struct LoggingConfig"
    [field "level" readText fun level group => { group with level },
      field "json" readBool fun json group => { group with json },
      field "stderr" readBool fun stderr group => { group with stderr },
      field "file" readPath fun file group => { group with file }] {}

def readSettings : Toml → Read Settings :=
  readGroup "struct NovaConfig"
    [field "search" readSearch fun search group => { group with search },
      field "logging" readLog fun log group => { group with log }] {}

/-- The settings that a configuration file describes. -/
def parse (text : String) : Except ConfigFault Settings :=
  match Toml.parse text with
  | some document => readSettings document
  | none => .error .malformed

end SettingsFormat

end SymbolSearch
