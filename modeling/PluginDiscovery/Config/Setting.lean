import PluginDiscovery.Config.Failure
import PluginDiscovery.NameMap
import PluginDiscovery.Toml.Value

/-!
# Settings

A setting is a value together with where it comes from. Layers of settings are merged one over the
other: tables are merged key by key, and any other value of the later layer takes the place of what
was there. A merged table counts as coming from the later layer.

The keys of a table are kept in increasing order, which is the order in which they are read. Within
a document two keys are reserved: a table may wrap a value, and then stands for it, but it may not
say where it comes from. The document itself is no such table.
-/

namespace PluginDiscovery.Config

/-- A value that holds no other values. -/
inductive Scalar where
  /-- A text. -/
  | text (value : String)
  /-- A truth value. -/
  | flag (value : Bool)
  /-- A whole number with a sign. -/
  | signed (value : Int)
  /-- A whole number without a sign. -/
  | unsigned (value : Nat)
  /-- Any other number. -/
  | real (value : Double)
deriving DecidableEq, Repr

/-- The scalar in a few words. -/
def Scalar.found : Scalar → Found
  | text value => .text value
  | flag value => .flag value
  | signed value => .signed value
  | unsigned value => .unsigned value
  | real value => .real value

/-- A value and where it comes from. -/
inductive Setting where
  /-- A single value. -/
  | scalar (origin : Origin) (value : Scalar)
  /-- A list of values. -/
  | list (origin : Origin) (items : List Setting)
  /-- Values under keys, in increasing order of the keys. -/
  | table (origin : Origin) (entries : List (String × Setting))
deriving Repr

namespace Setting

/-- Where a setting comes from. -/
def origin : Setting → Origin
  | scalar origin _ => origin
  | list origin _ => origin
  | table origin _ => origin

/-- The setting in a few words. -/
def found : Setting → Found
  | scalar _ value => value.found
  | list _ _ => .sequence
  | table _ _ => .map

mutual

/-- Merges a later setting over an earlier one. -/
def merge (earlier : Setting) : Setting → Setting
  | .table origin later =>
    match earlier with
    | .table _ entries => .table origin (mergeEntries entries later)
    | _ => .table origin later
  | later => later

/-- Merges later entries over earlier ones. -/
def mergeEntries (entries : List (String × Setting)) :
    List (String × Setting) → List (String × Setting)
  | [] => entries
  | (key, later) :: rest =>
    let merged :=
      match Entries.find? key entries with
      | some earlier => merge earlier later
      | none => later
    mergeEntries (Entries.insert key merged entries) rest

end

/-- The key under which a table holds the value that it stands for. -/
def wrappedKey : String := "___figment_value_value"

/-- The key by which a value would say itself where it comes from. -/
def identityKey : String := "___figment_value_id"

/-- The setting of a table within a document. A table that wraps a value stands for that value, its
other entries do not count; none may say where it comes from. -/
def unwrap? (origin : Origin) (entries : List (String × Setting)) : Option Setting :=
  if (Entries.find? identityKey entries).isSome then none
  else some ((Entries.find? wrappedKey entries).getD (.table origin entries))

mutual

/-- The setting of a TOML value. A date or a time is a table with one private key. -/
def ofToml? (origin : Origin) : Toml.Value → Option Setting
  | .text value => some (.scalar origin (.text value))
  | .integer value => some (.scalar origin (.signed value))
  | .real value => some (.scalar origin (.real value))
  | .flag value => some (.scalar origin (.flag value))
  | .moment value =>
    some (.table origin [("$__toml_private_datetime", .scalar origin (.text value))])
  | .list items => do return .list origin (← itemsOfToml? origin items)
  | .table entries => do unwrap? origin (← entriesOfToml? origin entries)

/-- The settings of a list of TOML values. -/
def itemsOfToml? (origin : Origin) : List Toml.Value → Option (List Setting)
  | [] => some []
  | item :: rest => do return (← ofToml? origin item) :: (← itemsOfToml? origin rest)

/-- The settings of the keys of a TOML table, in increasing order of the keys. -/
def entriesOfToml? (origin : Origin) : List (String × Toml.Value) → Option (List (String × Setting))
  | [] => some []
  | (key, value) :: rest => do
    return Entries.insert key (← ofToml? origin value) (← entriesOfToml? origin rest)

end

/-- A setting below a path of keys. -/
def nest (origin : Origin) (path : List String) (setting : Setting) : Setting :=
  path.foldr (fun key inner => .table origin [(key, inner)]) setting

end Setting

end PluginDiscovery.Config
