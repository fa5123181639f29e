import PatternLint.Toml.Value

/-!
This module contains tables while they are being written. They know how they came about, because
that decides what may be added to them later: a table with a header of its own or in braces is
complete, a table that a longer header mentions may still get its header, and a table that comes
from a dotted key may get more dotted keys.
-/

namespace PatternLint.Toml

inductive Origin where
  | header
  | mention
  | dotted
  deriving DecidableEq, Repr

inductive Node where
  | value (v : Value)
  | table (origin : Origin) (entries : List (String × Node))
  | rows (tables : List (List (String × Node)))
  deriving Inhabited

abbrev Entries :=
  List (String × Node)

namespace Node

mutual

def toValue : Node → Value
  | value v => v
  | table _ entries => .table (entriesToValues entries)
  | rows tables => .array (rowsToValues tables)

def entriesToValues : Entries → List (String × Value)
  | [] => []
  | (key, node) :: entries => (key, node.toValue) :: entriesToValues entries

def rowsToValues : List Entries → List Value
  | [] => []
  | entries :: tables => .table (entriesToValues entries) :: rowsToValues tables

end

end Node

namespace Entries

def find? (entries : Entries) (key : String) : Option Node :=
  (List.find? (fun entry => entry.1 == key) entries).map Prod.snd

def put (key : String) (node : Node) : Entries → Entries
  | [] => [(key, node)]
  | entry :: entries =>
    if entry.1 == key then (key, node) :: entries else entry :: put key node entries

def erase (key : String) (entries : Entries) : Entries :=
  entries.filter fun entry => entry.1 != key

def change (origin : Origin) (f : Origin → Entries → Option Entries) :
    (keys : List String) → Origin → Entries → Option Entries
  | [], here, entries => f here entries
  | key :: keys, _, entries =>
    match entries.find? key with
    | none =>
      (change origin f keys origin []).map fun below => put key (.table origin below) entries
    | some (.value _) => none
    | some (.table there below) =>
      -- a dotted key does not lead into tables with a header of their own
      if origin = .dotted ∧ there = .header then
        none
      else
        (change origin f keys there below).map fun below => put key (.table there below) entries
    -- of the tables with one header, the last one is meant
    | some (.rows tables) =>
      match tables.reverse with
      | [] => none
      | last :: before =>
        (change origin f keys .header last).map fun last =>
          put key (.rows (before.reverse ++ [last])) entries

def assign (keys : List String) (key : String) (v : Value) (entries : Entries) : Option Entries :=
  change .dotted
    (fun origin entries =>
      -- only dotted keys add to a table that one of them has made
      if (keys.isEmpty ∨ origin = .dotted) ∧ (entries.find? key).isNone then
        some (entries ++ [(key, .value v)])
      else
        none)
    keys .header entries

def ofAssignments (assignments : List (List String × String × Value)) : Option Entries :=
  assignments.foldlM (fun entries (keys, key, v) => entries.assign keys key v) []

def openTable (keys : List String) (key : String) (entries : Entries) : Option Entries :=
  change .mention
    (fun _ entries =>
      match entries.find? key with
      | none => some (entries ++ [(key, .table .header [])])
      -- it keeps what headers of tables below it have put there
      | some (.table .mention below) => some (entries.erase key ++ [(key, .table .header below)])
      | some _ => none)
    keys .header entries

def openRow (keys : List String) (key : String) (entries : Entries) : Option Entries :=
  change .mention
    (fun _ entries =>
      match entries.find? key with
      | none => some (entries ++ [(key, .rows [[]])])
      | some (.rows tables) => some (entries.put key (.rows (tables ++ [[]])))
      | some _ => none)
    keys .header entries

end Entries

end PatternLint.Toml
