import RestForge.KeyedList

/-!
# Query parameters

* `Query`: parameters by name, in the order of the names.
* `GetParams`: the parameters of a read that the server knows by name, over any others.
* `ParamSetting`: one call that sets a parameter; `GetParams.ofSettings` applies calls in order.
* `GetParams.query`: the parameters as they are sent. A named parameter wins over another one of the
  same name.
-/

set_option autoImplicit false

namespace RestForge.Rest

abbrev Query := List (String × String)

namespace Query

def insert (key value : String) (q : Query) : Query := KeyedList.insert key value q

def get? (q : Query) (key : String) : Option String := KeyedList.get? q key

def ofList (params : List (String × String)) : Query := KeyedList.ofList params

/-- Adds parameters one after another. -/
def insertAll (params : List (String × String)) (q : Query) : Query :=
  params.foldl (fun q p => insert p.1 p.2 q) q

end Query

structure GetParams where
  vdom : Option String
  filter : Option String
  /-- Fields to be returned. -/
  format : List String
  /-- Index of the first entry. -/
  start : Option Nat
  /-- Greatest number of entries. -/
  count : Option Nat
  withMeta : Option Bool
  datasource : Option Bool
  extra : Query
  deriving Repr, DecidableEq

/-! ## Setting parameters -/

inductive ParamSetting where
  | vdom (value : String)
  | filter (value : String)
  /-- Adds one field. -/
  | format (field : String)
  | start (value : Nat)
  | count (value : Nat)
  | withMeta (value : Bool)
  | datasource (value : Bool)
  | extra (key value : String)
  | withExtra (params : List (String × String))
  deriving Repr, DecidableEq

namespace GetParams

def empty : GetParams := ⟨none, none, [], none, none, none, none, []⟩

def set (p : GetParams) : ParamSetting → GetParams
  | .vdom value => { p with vdom := some value }
  | .filter value => { p with filter := some value }
  | .format field => { p with format := p.format ++ [field] }
  | .start value => { p with start := some value }
  | .count value => { p with count := some value }
  | .withMeta value => { p with withMeta := some value }
  | .datasource value => { p with datasource := some value }
  | .extra key value => { p with extra := p.extra.insert key value }
  | .withExtra params => { p with extra := p.extra.insertAll params }

def ofSettings (settings : List ParamSetting) : GetParams := settings.foldl set empty

/-! ## Text of parameters -/

def boolText : Bool → String
  | true => "true"
  | false => "false"

/-- The fields asked for; without any there is no such parameter. -/
def formatText? (p : GetParams) : Option String :=
  if p.format.isEmpty then none else some (String.intercalate "|" p.format)

/-- The named parameters that have a value. -/
def named (p : GetParams) : List (String × String) :=
  [("vdom", p.vdom), ("filter", p.filter), ("format", p.formatText?), ("start", p.start.map Nat.repr),
    ("count", p.count.map Nat.repr), ("with_meta", p.withMeta.map boolText),
    ("datasource", p.datasource.map boolText)].filterMap fun param =>
      param.2.map fun value => (param.1, value)

def query (p : GetParams) : Query := p.extra.insertAll p.named

end GetParams

end RestForge.Rest
