import WidgetDsl.Value

/-!
The tables of a TOML document while it is read: which exist, which may not be opened again and which
may not be added to.
-/

namespace WidgetDsl.Toml

abbrev KeyPath := List String

/-- Applies a change to the table at the end of a path, making tables that are missing on the way.
With `throughLists` a list on the way stands for its last table. -/
def changeAt (throughLists : Bool) (change : Entries Value → Option (Entries Value)) :
    KeyPath → Entries Value → Option (Entries Value)
  | [], table => change table
  | key :: rest, table =>
    match table.get? key with
    | none =>
      (changeAt throughLists change rest []).map fun inner => table.insert key (.table inner)
    | some (.table inner) =>
      (changeAt throughLists change rest inner).map fun inner => table.insert key (.table inner)
    | some (.list items) =>
      match throughLists, items.getLast? with
      | true, some (.table inner) =>
        (changeAt throughLists change rest inner).map fun inner =>
          table.insert key (.list (items.dropLast ++ [.table inner]))
      | _, _ => none
    | some _ => none

def addFresh (key : String) (value : Value) (table : Entries Value) : Option (Entries Value) :=
  if table.contains key then none else some (table.insert key value)

def appendTable (key : String) (table : Entries Value) : Option (Entries Value) :=
  match table.get? key with
  | none => some (table.insert key (.list [.table []]))
  | some (.list items) => some (table.insert key (.list (items ++ [.table []])))
  | some _ => none

structure Draft where
  root : Entries Value
  /-- Tables that have been opened by a header and cannot be again. -/
  opened : List KeyPath
  /-- Values written in one piece, below which nothing can be added. -/
  frozen : List KeyPath
  /-- Tables made by dotted keys, to be counted as opened from the next header on. -/
  pending : List KeyPath
  header : KeyPath

namespace Draft

def empty : Draft := ⟨[], [], [], [], []⟩

def isFrozen (draft : Draft) (path : KeyPath) : Bool :=
  draft.frozen.any (·.isPrefixOf path)

def isOpened (draft : Draft) (path : KeyPath) : Bool :=
  draft.opened.contains path

def settle (draft : Draft) : Draft :=
  { draft with opened := draft.opened ++ draft.pending, pending := [] }

def openTable (draft : Draft) (path : KeyPath) : Option Draft :=
  let draft := draft.settle
  if draft.isOpened path || draft.isFrozen path then none
  else
    (changeAt true some path draft.root).map fun root =>
      { draft with root, opened := path :: draft.opened, header := path }

/-- Opens a new table at the end of a list of tables. What was known of the tables below the last
one does not hold for it. -/
def openElement (draft : Draft) (path : KeyPath) : Option Draft :=
  let draft := draft.settle
  if draft.isFrozen path then none
  else
    match path.getLast? with
    | none => none
    | some key =>
      (changeAt true (appendTable key) path.dropLast draft.root).map fun root =>
        { draft with
          root
          opened := path :: draft.opened.filter (!path.isPrefixOf ·)
          frozen := draft.frozen.filter (!path.isPrefixOf ·)
          header := path }

def passedTables (header key : KeyPath) : List KeyPath :=
  (List.range (key.length - 1)).map fun n => header ++ key.take (n + 1)

def isCompound : Value → Bool
  | .list _ => true
  | .table _ => true
  | _ => false

def addValue (draft : Draft) (key : KeyPath) (value : Value) : Option Draft :=
  let passed := passedTables draft.header key
  let parent := draft.header ++ key.dropLast
  if passed.any draft.isOpened || draft.isFrozen parent then none
  else
    match key.getLast? with
    | none => none
    | some last =>
      (changeAt true (addFresh last value) parent draft.root).map fun root =>
        { draft with
          root
          pending := draft.pending ++ passed
          frozen :=
            if isCompound value then (draft.header ++ key) :: draft.frozen else draft.frozen }

end Draft

/-- Adds a value under a key of a table that is written in one piece; values before it that are so
written themselves cannot be added to. -/
def addInline (frozen : List KeyPath) (table : Entries Value) (key : KeyPath) (value : Value) :
    Option (Entries Value) :=
  if frozen.any (·.isPrefixOf key) then none
  else
    match key.getLast? with
    | none => none
    | some last => changeAt false (addFresh last value) key.dropLast table

end WidgetDsl.Toml
