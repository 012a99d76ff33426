import ReverseProxy.Json.Value

/-!
# Tables under construction

A TOML document builds a tree of tables. A table that was made on the way to another one may still
be declared, once. A table made by a dotted key may only be extended by further dotted keys below
the same header. Values that are written in one piece are never extended.
-/

namespace ReverseProxy.Toml

inductive TableState where
  /-- Made on the way to another table. -/
  | implied
  /-- Made by a dotted key below the header of this number. -/
  | dotted (header : Nat)
  | declared
  deriving DecidableEq, Repr

inductive Item where
  | value (value : Json)
  | table (state : TableState) (entries : List (String × Item))
  /-- A list of tables, the last of which is being filled. -/
  | tables (filled : List (List (String × Item))) (last : List (String × Item))

abbrev Entries := List (String × Item)

namespace Entries

def set (entries : Entries) (key : String) (item : Item) : Entries :=
  if (entries.lookup key).isSome then
    entries.map fun entry => if entry.1 = key then (key, item) else entry
  else entries ++ [(key, item)]

/-- Changes the table at the end of a path. Tables on the way are made where they are missing, and
of a list of tables the last one is entered. -/
def update (change : Entries → Option Entries) : List String → Entries → Option Entries
  | [], entries => change entries
  | key :: path, entries =>
      match entries.lookup key with
      | none => (update change path []).map fun below => set entries key (.table .implied below)
      | some (.table state below) =>
          (update change path below).map fun below => set entries key (.table state below)
      | some (.tables filled last) =>
          (update change path last).map fun last => set entries key (.tables filled last)
      | some (.value _) => none

def declare (key : String) (entries : Entries) : Option Entries :=
  match entries.lookup key with
  | none => some (set entries key (.table .declared []))
  | some (.table .implied below) => some (set entries key (.table .declared below))
  | _ => none

def declareNext (key : String) (entries : Entries) : Option Entries :=
  match entries.lookup key with
  | none => some (set entries key (.tables [] []))
  | some (.tables filled last) => some (set entries key (.tables (filled ++ [last]) []))
  | _ => none

/-- A value under a key that is not in use, below the header of a number. -/
def assign (header : Nat) (value : Json) :
    (path : List String) → (key : String) → Entries → Option Entries
  | [], key, entries =>
      if (entries.lookup key).isSome then none else some (entries ++ [(key, .value value)])
  | step :: path, key, entries =>
      match entries.lookup step with
      | none => (assign header value path key []).map fun below =>
          set entries step (.table (.dotted header) below)
      | some (.table state below) =>
          if state = .implied ∨ state = .dotted header then
            (assign header value path key below).map fun below =>
              set entries step (.table (.dotted header) below)
          else none
      | _ => none

end Entries

mutual

def Item.toJson : Item → Json
  | .value value => value
  | .table _ entries => .object (fieldsOf entries)
  | .tables filled last => .array (tablesOf filled ++ [.object (fieldsOf last)])

def fieldsOf : List (String × Item) → List (String × Json)
  | [] => []
  | (key, item) :: entries => (key, item.toJson) :: fieldsOf entries

def tablesOf : List (List (String × Item)) → List Json
  | [] => []
  | entries :: tables => .object (fieldsOf entries) :: tablesOf tables

end

end ReverseProxy.Toml
