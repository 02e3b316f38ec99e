import Matchmaker.Json.Value

/-!
# TOML: tables

A document fills a tree of tables line by line.  A table comes into being in one of three ways: by a
header of its own, because the header of a table inside it was met first, or because a key with
points named it.  A key with points may go through tables that have no header of their own, but it
may put a value only into one that came into being by such a key; a header may open a table once, and
only one that does not stem from a key.

A list of tables grows by one with each of its headers, and paths through it lead into the last.

`Node.toValue` forgets where tables come from.
-/

namespace Matchmaker.Toml

/-- how a table came into being -/
inductive Origin where
  | header
  /-- by the header of a table inside it -/
  | passing
  /-- by a key with points -/
  | key
  deriving DecidableEq, Repr

inductive Node where
  | leaf (v : Json.Value)
  | table (origin : Origin) (entries : List (String × Node))
  /-- a list of tables, in the order of their headers -/
  | tables (items : List (List (String × Node)))

abbrev Entries := List (String × Node)

/-- replaces the entry of a key, or adds one at the end -/
def replace (key : String) (node : Node) : Entries → Entries
  | [] => [(key, node)]
  | (k, n) :: es => if k == key then (key, node) :: es else (k, n) :: replace key node es

/-- changes the last table of a list -/
def changeLast? (f : Entries → Option Entries) (items : List Entries) : Option (List Entries) :=
  match items.getLast? with
  | some es => (f es).map fun es => items.dropLast ++ [es]
  | none => none

/-- puts a value under a key whose parts before the last are `path`; `open_` says whether the table
reached so far takes values -/
def assign? (key : String) (v : Json.Value) : (path : List String) → (open_ : Bool) → Entries →
    Option Entries
  | [], open_, es =>
    if open_ && (es.lookup key).isNone then some (es ++ [(key, .leaf v)]) else none
  | k :: path, _, es =>
    match es.lookup k with
    | none => (assign? key v path true []).map fun inner => es ++ [(k, .table .key inner)]
    | some (.table origin inner) =>
      if origin == .header then none
      else (assign? key v path (origin == .key) inner).map fun inner =>
        replace k (.table origin inner) es
    | some (.tables items) =>
      (changeLast? (assign? key v path false) items).map fun items => replace k (.tables items) es
    | some (.leaf _) => none

/-- changes the table at a path, with all tables on the way made if they are missing -/
def within? (f : Entries → Option Entries) : List String → Entries → Option Entries
  | [], es => f es
  | k :: path, es =>
    match es.lookup k with
    | none => (within? f path []).map fun inner => es ++ [(k, .table .passing inner)]
    | some (.table origin inner) =>
      (within? f path inner).map fun inner => replace k (.table origin inner) es
    | some (.tables items) =>
      (changeLast? (within? f path) items).map fun items => replace k (.tables items) es
    | some (.leaf _) => none

/-- the header of a table: it is new, or has only been passed through -/
def openTable? (key : String) (es : Entries) : Option Entries :=
  match es.lookup key with
  | none => some (es ++ [(key, .table .header [])])
  | some (.table .passing inner) => some (replace key (.table .header inner) es)
  | some _ => none

/-- the header of a further table of a list -/
def openItem? (key : String) (es : Entries) : Option Entries :=
  match es.lookup key with
  | none => some (es ++ [(key, .tables [[]])])
  | some (.tables items) => some (replace key (.tables (items ++ [[]])) es)
  | some _ => none

mutual
def Node.toValue : Node → Json.Value
  | .leaf v => v
  | .table _ es => .object (entriesToMembers es)
  | .tables items => .array (itemsToValues items)

def entriesToMembers : List (String × Node) → List (String × Json.Value)
  | [] => []
  | (k, n) :: es => (k, n.toValue) :: entriesToMembers es

def itemsToValues : List (List (String × Node)) → List Json.Value
  | [] => []
  | es :: items => .object (entriesToMembers es) :: itemsToValues items
end

end Matchmaker.Toml
