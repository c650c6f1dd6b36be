import LintCore.Toml.Basic

/-!
Tables while a document is read. A table can be written in several places, and what may still be
added to it depends on how it came about: through a header, through dotted keys, or on the way to
some other table. No key gets two values, and no table gets two headers.
-/

set_option autoImplicit false
set_option relaxedAutoImplicit false

namespace LintCore.Toml

/-- How a table came about. -/
inductive Origin where
  /-- By a header of its own. -/
  | header
  /-- On the way to the table of a longer header. -/
  | passage
  /-- By a dotted key. -/
  | dotted
deriving DecidableEq

inductive Node where
  /-- A finished value, to which nothing can be added. -/
  | value (leaf : Toml)
  | table (origin : Origin) (entries : List (String × Node))
  /-- The tables of an array of tables. -/
  | tables (items : List (List (String × Node)))

abbrev Entries := List (String × Node)

namespace Node

def get? (key : String) : Entries → Option Node
  | [] => none
  | (name, node) :: rest => if name = key then some node else get? key rest

/-- The entries with another node under a key that they have; the key keeps its place. -/
def replace (key : String) (node : Node) : Entries → Entries
  | [] => []
  | (name, old) :: rest =>
    if name = key then (name, node) :: rest else (name, old) :: replace key node rest

def erase (key : String) (entries : Entries) : Entries :=
  entries.filter fun (name, _) ↦ name ≠ key

mutual

/-- The value of a node, once the document has been read. -/
def toValue : Node → Toml
  | .value leaf => leaf
  | .table _ entries => .table (toValues entries)
  | .tables items => .array (toTables items)

def toValues : Entries → List (String × Toml)
  | [] => []
  | (name, node) :: rest => (name, toValue node) :: toValues rest

def toTables : List Entries → List Toml
  | [] => []
  | entries :: rest => .table (toValues entries) :: toTables rest

end

/-- Changes the table at the end of a path, and makes the tables on the way there if they are
missing. A path of dotted keys may go through tables that have no header of their own, a path of a
header through any table, and both through the last table of an array. `change` is told how the
table came about. -/
def modifyAt {α : Type} (dottedPath : Bool) (change : Origin → Entries → Option (α × Entries)) :
    (path : List String) → Origin → Entries → Option (α × Entries)
  | [], origin, entries => change origin entries
  | key :: path, _, entries =>
    match get? key entries with
    | none => do
      let origin := if dottedPath then .dotted else .passage
      let (result, inner) ← modifyAt dottedPath change path origin []
      return (result, entries ++ [(key, .table origin inner)])
    | some (.value _) => none
    | some (.table origin inner) =>
      if dottedPath && origin == .header then none else do
        let (result, inner) ← modifyAt dottedPath change path origin inner
        return (result, replace key (.table origin inner) entries)
    | some (.tables items) => do
      let last ← items.getLast?
      let (result, last) ← modifyAt dottedPath change path .header last
      return (result, replace key (.tables (items.dropLast ++ [last])) entries)

/-- Adds an entry to a table. A dotted key adds to a table of dotted keys only, and a plain key not
to one. -/
def insertNew (plainKey : Bool) (key : String) (value : Toml) (origin : Origin)
    (entries : Entries) : Option (Unit × Entries) :=
  if (origin == .dotted) == plainKey then none
  else if (get? key entries).isSome then none
  else some ((), entries ++ [(key, .value value)])

/-- Adds the value of a key, which may be dotted, to a table. -/
def assign (path : List String) (key : String) (value : Toml) (entries : Entries) :
    Option Entries :=
  (modifyAt true (insertNew path.isEmpty key value) path .header entries).map Prod.snd

end Node

/-! ### Documents -/

/-- A document that is being read: all of it up to the last header, and the table of that header. -/
structure Draft where
  root : Entries := []
  /-- The path of the last header, and its key. There is none before the first header. -/
  header : Option (List String × String) := none
  /-- Whether the last header began an item of an array of tables. -/
  isItem : Bool := false
  current : Entries := []

namespace Draft

/-- Puts the current table where its header says. -/
def close (draft : Draft) : Option Entries :=
  match draft.header with
  | none => some draft.current
  | some (path, key) =>
    let put : Origin → Entries → Option (Unit × Entries) := fun _ entries ↦
      match Node.get? key entries with
      | none =>
        if draft.isItem then some ((), entries ++ [(key, .tables [draft.current])])
        else some ((), entries ++ [(key, .table .header draft.current)])
      | some (.tables items) =>
        if draft.isItem then
          some ((), Node.replace key (.tables (items ++ [draft.current])) entries)
        else none
      | some _ => none
    (Node.modifyAt false put path .header draft.root).map Prod.snd

/-- Begins the table of a header. A table that was only passed through so far is taken up again, and
moves behind the tables before it. -/
def openTable (draft : Draft) (path : List String) (key : String) : Option Draft := do
  let root ← draft.close
  let take : Origin → Entries → Option (Entries × Entries) := fun _ entries ↦
    match Node.get? key entries with
    | none => some ([], entries)
    | some (.table .passage inner) => some (inner, Node.erase key entries)
    | some _ => none
  let (current, root) ← Node.modifyAt false take path .header root
  return { root, header := some (path, key), isItem := false, current }

/-- Begins an item of an array of tables. -/
def openItem (draft : Draft) (path : List String) (key : String) : Option Draft := do
  let root ← draft.close
  let reserve : Origin → Entries → Option (Unit × Entries) := fun _ entries ↦
    match Node.get? key entries with
    | none => some ((), entries ++ [(key, .tables [])])
    | some (.tables _) => some ((), entries)
    | some _ => none
  let ((), root) ← Node.modifyAt false reserve path .header root
  return { root, header := some (path, key), isItem := true }

/-- Adds the value of a key, which may be dotted, to the current table. -/
def assign (draft : Draft) (path : List String) (key : String) (value : Toml) : Option Draft := do
  let current ← Node.assign path key value draft.current
  return { draft with current }

/-- The finished document. -/
def finish (draft : Draft) : Option Toml :=
  draft.close.map fun entries ↦ .table (Node.toValues entries)

end Draft

end LintCore.Toml
