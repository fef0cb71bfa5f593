import Tardis.Config.Error
import Tardis.Json.Parse

/-! The configuration library `do_init` builds with (the `config` crate, not under
src/): its values, the path expressions keys parse into, how a value is set at a
path, and how a builder folds its sources into one tree. -/

namespace Tardis.Config

open Tardis.Json (insertField lookup_insertField)

/-- Modelled from the spec: `config::Value` by its kind. The integer kinds are one,
and a float is kept as the number serde_json writes for it. -/
inductive ConfigValue where
  | nil
  | boolean (b : Bool)
  | integer (i : Int)
  | float (n : Tardis.Json.Number)
  | string (s : String)
  | array (items : List ConfigValue)
  | table (entries : List (String × ConfigValue))

/-- `config::Map<String, Value>`, in the order of its entries. -/
abbrev ConfigMap := List (String × ConfigValue)

/-- The entries of a table; a value of another kind has none. -/
def ConfigValue.entries : ConfigValue → ConfigMap
  | .table entries => entries
  | _ => []

/-- `config::path::Expression`, for paths of identifiers. -/
inductive Expression where
  | identifier (id : String)
  | child (parent : Expression) (key : String)

/-- The identifiers of an expression, from the root. -/
def Expression.path : Expression → List String
  | .identifier id => [id]
  | .child parent key => parent.path ++ [key]

/-- `Expression::get`. -/
def Expression.get : Expression → ConfigValue → Option ConfigValue
  | .identifier id, .table entries => entries.lookup id
  | .identifier _, _ => none
  | .child parent key, root =>
    match parent.get root with
    | some (.table entries) => entries.lookup key
    | _ => none

/-- `Expression::get_mut_forcibly`, with the update then made through the reference
it returns: the value at the path is replaced by `update` of it, where a missing
entry on the way is first `Nil` and a value on the way that is no table is first an
empty table. `none` when the root is no table. -/
def Expression.modifyForcibly : Expression → (ConfigValue → ConfigValue) → ConfigValue → Option ConfigValue
  | .identifier id, update, .table entries =>
    some (.table (insertField entries id (update ((entries.lookup id).getD .nil))))
  | .identifier _, _, _ => none
  | .child parent key, update, root =>
    parent.modifyForcibly
      (fun value => .table (insertField value.entries key (update ((value.entries.lookup key).getD .nil)))) root

mutual
/-- `Expression::Identifier(id).set(root, value)`. The root becomes a table if it
is none. A table value is merged key by key into what the root holds at `id`, an
empty table where nothing is; any other value replaces what is at `id`. -/
def setIdent (id : String) : ConfigValue → ConfigValue → ConfigValue
  | .table incoming, root =>
    .table (insertField root.entries id (mergeEntries incoming ((root.entries.lookup id).getD (.table []))))
  | value, root => .table (insertField root.entries id value)

/-- The deep merge of `setIdent`: each entry of the incoming table set into the
target, in order. -/
def mergeEntries : List (String × ConfigValue) → ConfigValue → ConfigValue
  | [], target => target
  | (key, value) :: rest, target => mergeEntries rest (setIdent key value target)
end

/-- `Expression::set`: at a child, the parent is reached forcibly and the key set
in it. Nothing changes when the root is no table. -/
def Expression.set : Expression → ConfigValue → ConfigValue → ConfigValue
  | .identifier id, value, root => setIdent id value root
  | .child parent key, value, root => (parent.modifyForcibly (setIdent key value) root).getD root

/-! ## Keys -/

/-- The characters of an identifier in config-rs's path grammar: ASCII letters and
digits, space, `_` and `-`. -/
def identChar (c : Char) : Bool := c.isAlphanum || c == ' ' || c == '_' || c == '-'

/-- The parts of a text between its dots, `part` holding the current one reversed. -/
def splitDots (part : List Char) : List Char → List (List Char)
  | [] => [part.reverse]
  | c :: rest => if c = '.' then part.reverse :: splitDots [] rest else splitDots (c :: part) rest

/-- `Expression::from_str` for keys of identifiers between dots, and `none` for any
other key. A subscript `[n]` is not modelled: a key holding one is `none`. -/
def parseExpression (key : String) : Option Expression :=
  match (splitDots [] key.data).map String.mk with
  | first :: rest =>
    if (first :: rest).all fun part => !part.isEmpty && part.data.all identChar then
      some (rest.foldl .child (.identifier first))
    else none
  | [] => none

/-- The expression `set_value` sets a key at: the path it parses into, or the key
as one identifier. -/
def keyExpression (key : String) : Expression := (parseExpression key).getD (.identifier key)

/-- `set_value` of config-rs's sources. -/
def setValue (cache : ConfigValue) (key : String) (value : ConfigValue) : ConfigValue :=
  (keyExpression key).set value cache

/-- `Source::collect_to`: each entry of what the source collected, set in order. -/
def collectTo (props : ConfigMap) (cache : ConfigValue) : ConfigValue :=
  props.foldl (fun cache entry => setValue cache entry.1 entry.2) cache

/-- `ConfigBuilder::build` from `cache`: each source's map set in turn; the first
source that fails to collect ends the build with its error. -/
def buildFrom (cache : ConfigValue) : List (Except ConfigError ConfigMap) → Except ConfigError ConfigValue
  | [] => .ok cache
  | .ok props :: rest => buildFrom (collectTo props cache) rest
  | .error error :: _ => .error error

/-- `ConfigBuilder::build`, from an empty table, for what the sources collect in the
order they were added. -/
def build (sources : List (Except ConfigError ConfigMap)) : Except ConfigError ConfigValue :=
  buildFrom (.table []) sources

/-! ## The environment source -/

/-- `str::to_lowercase`, for the ASCII letters. -/
def lowercase (s : String) : String := ⟨s.data.map Char.toLower⟩

/-- `Environment::with_prefix("TARDIS")`, one variable: its name lowercased must
start with `tardis_`, and the rest is its key. -/
def environmentKey (name : String) : Option String :=
  let lower := (lowercase name).data
  if lower.take 7 = "tardis_".data then some (String.mk (lower.drop 7)) else none

/-- `Environment::collect` for the variables in the order the process lists them:
each value a string under its key, a later variable of the same key replacing an
earlier one. -/
def collectEnvironment (vars : List (String × String)) : ConfigMap :=
  vars.foldl (fun props var =>
    match environmentKey var.1 with
    | some key => insertField props key (.string var.2)
    | none => props) []

end Tardis.Config
