/-!
# TOML documents

The values of a TOML document, and how headers and keys build up its tables.  A table may be
announced by a header only once; a table that only came about as a part of a longer header may
still get a header of its own, and one that came about by dotted keys takes more dotted keys.
-/

namespace SourceSearch

/-- How a table came about. -/
inductive TableOrigin where
  /-- By a header of its own. -/
  | header
  /-- As the beginning of a longer header. -/
  | implied
  /-- As the beginning of a dotted key. -/
  | dotted
  deriving DecidableEq

/-- A TOML value or table. -/
inductive Toml where
  /-- A text. -/
  | text (value : String)
  /-- A whole number. -/
  | integer (value : Int)
  /-- A number with a fraction or an exponent, or a special one. -/
  | float
  /-- A truth value. -/
  | boolean (value : Bool)
  /-- A date, a time, or both. -/
  | moment
  /-- A list of values. -/
  | array (items : List Toml)
  /-- A table within a line; `dotted` tells one that came about by a dotted key. -/
  | inline (dotted : Bool) (entries : List (String × Toml))
  /-- A table. -/
  | table (origin : TableOrigin) (entries : List (String × Toml))
  /-- The tables of one name, in the order of their headers. -/
  | tables (items : List Toml)
  deriving Inhabited

namespace Toml

/-- The entries of a table. -/
abbrev Entries := List (String × Toml)

/-- Give a key a value, in place of the one it has. -/
def put (key : String) (value : Toml) : Entries → Entries
  | [] => [(key, value)]
  | entry :: rest => if entry.1 = key then (key, value) :: rest else entry :: put key value rest

/-- Change the table that `path` leads to, as `change` says; tables on the way that are not there
yet come about.  `byKey` tells a path in front of a dotted key from one in front of a header. -/
def descend (byKey : Bool) (change : TableOrigin → Entries → Option Entries) :
    (path : List String) → TableOrigin → Entries → Option Entries
  | [], origin, entries => change origin entries
  | key :: path, _, entries =>
      match entries.lookup key with
      | none => do
          let origin := if byKey then .dotted else .implied
          let inner ← descend byKey change path origin []
          return put key (.table origin inner) entries
      | some (table origin inner) =>
          if byKey && origin = .header then none
          else do
            let inner ← descend byKey change path origin inner
            return put key (.table origin inner) entries
      | some (tables items) =>
          match items.getLast? with
          | some (table origin inner) => do
              let inner ← descend byKey change path origin inner
              return put key (.tables (items.dropLast ++ [.table origin inner])) entries
          | _ => none
      | some _ => none

/-- Add a value under a dotted key: only tables that came about by dotted keys can be extended. -/
def addValue (path : List String) (key : String) (value : Toml) (origin : TableOrigin)
    (entries : Entries) : Option Entries :=
  descend true (fun origin inner =>
    if !path.isEmpty && origin ≠ .dotted then none
    else if (inner.lookup key).isSome then none
    else some (put key value inner)) path origin entries

/-- Change a table within a line as `addValue` does. -/
def addInline (value : Toml) (key : String) : (path : List String) → Entries → Option Entries
  | [], entries =>
      if (entries.lookup key).isSome then none else some (put key value entries)
  | first :: path, entries =>
      match entries.lookup first with
      | none => do
          let inner ← addInline value key path []
          return put first (.inline true inner) entries
      | some (inline dotted inner) =>
          if dotted then do
            let inner ← addInline value key path inner
            return put first (.inline true inner) entries
          else none
      | some _ => none

/-- A document in the making: the tables before the current header, and the current table. -/
structure Draft where
  /-- The document without the current table. -/
  document : Entries
  /-- The header of the current table; empty before the first header. -/
  path : List String
  /-- The current table is one of several of its name. -/
  repeated : Bool
  /-- The entries of the current table. -/
  current : Entries

namespace Draft

/-- The document before its first line. -/
def start : Draft := ⟨[], [], false, []⟩

/-- Put the current table at its place. -/
def finish (draft : Draft) : Option Entries :=
  match draft.path.getLast? with
  | none => some draft.current
  | some key =>
      let current : Toml := .table .header draft.current
      descend false (fun _ entries =>
        match draft.repeated, entries.lookup key with
        | true, none => some (put key (.tables [current]) entries)
        | true, some (tables items) => some (put key (.tables (items ++ [current])) entries)
        | false, none => some (put key current entries)
        | _, _ => none) draft.path.dropLast .header draft.document

/-- Add a value under a dotted key to the current table. -/
def addValue (draft : Draft) (path : List String) (key : String) (value : Toml) :
    Option Draft := do
  let current ← Toml.addValue path key value .header draft.current
  return { draft with current }

/-- The table that a header takes up: an implied one with what it holds already. -/
def takeUp (path : List String) (key : String) (document : Entries) :
    Option (Entries × Entries) := do
  let present := (find path document).lookup key
  let held ← match present with
    | none => some []
    | some (table .implied inner) => some inner
    | some _ => none
  let document ← descend false (fun _ entries => some (entries.filter (·.1 ≠ key)))
    path .header document
  return (document, held)
where
  /-- The entries of the table that a path leads to. -/
  find : List String → Entries → Entries
    | [], entries => entries
    | first :: path, entries =>
        match entries.lookup first with
        | some (table _ inner) => find path inner
        | some (tables items) =>
            match items.getLast? with
            | some (table _ inner) => find path inner
            | _ => []
        | _ => []

/-- Begin the table of a header. -/
def openTable (draft : Draft) (path : List String) : Option Draft := do
  let document ← draft.finish
  let key ← path.getLast?
  let (document, current) ← takeUp path.dropLast key document
  return ⟨document, path, false, current⟩

/-- Begin one of the tables of a header that may be repeated. -/
def openRepeated (draft : Draft) (path : List String) : Option Draft := do
  let document ← draft.finish
  let key ← path.getLast?
  let document ← descend false (fun _ entries =>
    match entries.lookup key with
    | none => some entries
    | some (tables _) => some entries
    | some _ => none) path.dropLast .header document
  return ⟨document, path, true, []⟩

end Draft
end Toml
end SourceSearch
