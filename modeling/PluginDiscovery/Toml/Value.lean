import PluginDiscovery.Number.Double

/-!
# Values of TOML

The values that a document holds, and how its tables come about. A table can be opened by a header,
it can be implied by the header of a table inside it, and it can be built by dotted keys. How it
came about decides what may still be added: a table is opened by a header once at most, and dotted
keys only add to tables that dotted keys have built. A list of tables grows by one with each of its
headers, and what follows belongs to the last one.
-/

namespace PluginDiscovery.Toml

/-- A value. -/
inductive Value where
  /-- A text. -/
  | text (value : String)
  /-- A whole number. -/
  | integer (value : Int)
  /-- Any other number. -/
  | real (value : Double)
  /-- A truth value. -/
  | flag (value : Bool)
  /-- A date or a time, as it is written. -/
  | moment (value : String)
  /-- A list. -/
  | list (items : List Value)
  /-- Values under keys. -/
  | table (entries : List (String × Value))
deriving Repr

/-- How a table came about. -/
inductive TableOrigin where
  /-- By its own header. -/
  | header
  /-- By the header of a table inside it. -/
  | implied
  /-- By dotted keys. -/
  | dotted
deriving DecidableEq, Repr

/-- What a key of an unfinished table stands for. -/
inductive Node where
  /-- A finished value. -/
  | value (value : Value)
  /-- A table that may still grow. -/
  | table (origin : TableOrigin) (entries : List (String × Node))
  /-- A list of tables that may still grow; all but the last are finished. -/
  | tables (finished : List Value) (last : List (String × Node))

/-- The keys of an unfinished table, in the order in which they were added. -/
abbrev Entries := List (String × Node)

mutual

/-- What a node stands for, once it is finished. -/
def Node.finish : Node → Value
  | .value value => value
  | .table _ entries => .table (finishEntries entries)
  | .tables finished last => .list (finished ++ [.table (finishEntries last)])

/-- What the entries of a table stand for. -/
def finishEntries : List (String × Node) → List (String × Value)
  | [] => []
  | (key, node) :: rest => (key, node.finish) :: finishEntries rest

end

namespace Entries

/-- Changes the node under a key, or adds one, unless the change is refused. -/
def alter (key : String) (change : Option Node → Option Node) : Entries → Option Entries
  | [] => (change none).map fun node => [(key, node)]
  | (name, node) :: rest =>
    if name = key then (change (some node)).map fun node => (name, node) :: rest
    else (alter key change rest).map fun rest => (name, node) :: rest

/-- Goes down a path of tables, making those that are missing, and changes the table at its end.
The origin given is that of the table at hand. -/
def descend (made : TableOrigin) (change : TableOrigin → Entries → Option Entries) :
    TableOrigin → List String → Entries → Option Entries
  | origin, [], entries => change origin entries
  | _, key :: path, entries =>
    alter key
      (fun
        | none => (descend made change made path []).map (.table made)
        | some (.value _) => none
        | some (.tables finished last) =>
          (descend made change .header path last).map (.tables finished)
        | some (.table origin inner) =>
          if made = .dotted && origin = .header then none
          else (descend made change origin path inner).map (.table origin))
      entries

/-- Adds a value under a dotted key, given as the path before its last part and that part. -/
def add (path : List String) (key : String) (value : Value) : Entries → Option Entries :=
  descend .dotted
    (fun origin entries =>
      if (origin == .dotted) == path.isEmpty then none
      else alter key (fun | none => some (.value value) | some _ => none) entries)
    .header path

/-- Opens a table by its header. -/
def openTable (path : List String) (key : String) : Entries → Option Entries :=
  descend .implied
    (fun _ => alter key fun
      | none => some (.table .header [])
      | some (.table .implied entries) => some (.table .header entries)
      | some _ => none)
    .header path

/-- Opens the next table of a list by its header. -/
def openNext (path : List String) (key : String) : Entries → Option Entries :=
  descend .implied
    (fun _ => alter key fun
      | none => some (.tables [] [])
      | some (.tables finished last) =>
        some (.tables (finished ++ [.table (finishEntries last)]) [])
      | some _ => none)
    .header path

/-- Adds a value under a dotted key to the table that was opened last. -/
def addTo (opened : List String) (path : List String) (key : String) (value : Value) :
    Entries → Option Entries :=
  descend .implied (fun _ => add path key value) .header opened

end Entries

end PluginDiscovery.Toml
