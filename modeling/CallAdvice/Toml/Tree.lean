import CallAdvice.Toml.Value

/-! Tables while a document is being read. A table can come about in three ways, and its origin
decides how it may be added to later:

* by its own header, and then it may not get another one;
* as the parent in a header, and then it may still get its own;
* as a part of a dotted key, and then further dotted keys may add to it, but no header.

An array of tables grows by one table with each of its headers, and later lines add to the last. -/
set_option autoImplicit false

namespace CallAdvice.Toml

/-- How a table came about. -/
inductive Origin where
  | header
  /-- As a parent in a header. -/
  | parent
  /-- As a part of a dotted key. -/
  | dotted
  deriving DecidableEq

/-- What stands under a key. -/
inductive Node where
  | value (v : Value)
  /-- A table that may still grow. -/
  | table (origin : Origin) (entries : List (String × Node))
  | tables (items : List (List (String × Node)))

/-- Keys and what stands under them. -/
abbrev Entries := List (String × Node)

namespace Entries

/-- Replaces what stands under a key, or adds the key at the end. -/
def put (es : Entries) (key : String) (n : Node) : Entries :=
  match es with
  | [] => [(key, n)]
  | e :: es => if e.1 = key then (key, n) :: es else e :: put es key n

/-- Removes a key. -/
def erase (es : Entries) (key : String) : Entries := es.filter fun e => e.1 ≠ key

/-- Adds a value under a new key. -/
def addValue (es : Entries) (key : String) (v : Value) : Option Entries :=
  match es.lookup key with
  | some _ => none
  | none => some (es.put key (.value v))

/-- Changes the last one of a list of tables. -/
def changeLast (f : Entries → Option Entries) (items : List Entries) : Option (List Entries) :=
  match items.getLast? with
  | some last => (f last).map fun last => items.dropLast ++ [last]
  | none => none

/-- Changes the table that a header's path leads to, adding the tables on the way that are not there
yet. -/
def changeAt (f : Entries → Option Entries) : List String → Entries → Option Entries
  | [], es => f es
  | key :: path, es =>
    match es.lookup key with
    | none => (changeAt f path []).map fun sub => es.put key (.table .parent sub)
    | some (.value _) => none
    | some (.table origin sub) =>
      (changeAt f path sub).map fun sub => es.put key (.table origin sub)
    | some (.tables items) =>
      (changeLast (changeAt f path) items).map fun items => es.put key (.tables items)

/-- Opens the table of a header: a new one, or one that was only a parent so far. Either way its key
is then the last. -/
def openTable (key : String) (es : Entries) : Option Entries :=
  match es.lookup key with
  | none => some (es.put key (.table .header []))
  | some (.table .parent sub) => some ((es.erase key).put key (.table .header sub))
  | some _ => none

/-- Opens a further table in an array of tables. -/
def openItem (key : String) (es : Entries) : Option Entries :=
  match es.lookup key with
  | none => some (es.put key (.tables [[]]))
  | some (.tables items) => some (es.put key (.tables (items ++ [[]])))
  | some _ => none

/-- Sets a value at the end of the further parts of a dotted key; `origin` is that of the table at
hand. Only a table that came about by dotted keys takes the value itself. -/
def setDotted (v : Value) (last : String) : List String → Origin → Entries → Option Entries
  | [], .dotted, es => es.addValue last v
  | [], _, _ => none
  | key :: path, _, es =>
    match es.lookup key with
    | none => (setDotted v last path .dotted []).map fun sub => es.put key (.table .dotted sub)
    | some (.value _) => none
    | some (.table .header _) => none
    | some (.table origin sub) =>
      (setDotted v last path origin sub).map fun sub => es.put key (.table origin sub)
    | some (.tables items) =>
      (changeLast (setDotted v last path .header) items).map fun items => es.put key (.tables items)

/-- Sets a value under a key of several parts, all but the last in `path`. -/
def setValue (path : List String) (last : String) (v : Value) (es : Entries) : Option Entries :=
  match path with
  | [] => es.addValue last v
  | _ => es.setDotted v last path .header

end Entries

mutual

/-- The value of what stands under a key. -/
def Node.finish : Node → Value
  | .value v => v
  | .table _ entries => .table (finishEntries entries)
  | .tables items => .array (finishItems items)

/-- The values under all keys. -/
def finishEntries : List (String × Node) → Table
  | [] => []
  | (key, n) :: es => (key, n.finish) :: finishEntries es

/-- The values of an array of tables. -/
def finishItems : List (List (String × Node)) → List Value
  | [] => []
  | es :: items => .table (finishEntries es) :: finishItems items

end

end CallAdvice.Toml
