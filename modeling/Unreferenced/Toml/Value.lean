/-!
# Values of TOML text

The values that a TOML document consists of. A table remembers how it came to be, since
that decides what may still be added to it: a table with a header of its own and a table
in braces are complete, one that only stands on the way to a header can still get a header
itself, and one that stands on the way to a dotted key can be added to by further dotted
keys alone.

Numbers and moments are kept as kinds without their values, which nothing asks for.
-/

namespace Unreferenced.Toml

/-- How a table came to be. -/
inductive Origin where
  /-- By its own header, or as the document. -/
  | header
  /-- On the way to a header. -/
  | implied
  /-- On the way to a dotted key. -/
  | dotted
  /-- In braces. -/
  | braces
deriving DecidableEq, Inhabited, Repr

/-- Whether dotted keys can add to the table. -/
def Origin.isOpen : Origin → Bool
  | .implied => true
  | .dotted => true
  | _ => false

/-- A value. -/
inductive Value where
  /-- A string. -/
  | string (text : String)
  /-- A truth value. -/
  | boolean (value : Bool)
  /-- An integer or a float. -/
  | number
  /-- A date, a time of day, or both. -/
  | moment
  /-- An array. -/
  | array (items : List Value)
  /-- A table. -/
  | table (origin : Origin) (members : List (String × Value))
  /-- The tables of one repeated header. -/
  | tables (elements : List Value)
deriving Inhabited

/-- The keys and values of a table. -/
abbrev Members := List (String × Value)

namespace Members

/-- The members with the value of a key replaced. -/
def replace (members : Members) (key : String) (value : Value) : Members :=
  members.map fun member => if member.1 = key then (key, value) else member

/-- The members with a new key, unless there is one. -/
def add (members : Members) (key : String) (value : Value) : Option Members :=
  if (members.lookup key).isSome then none else some (members ++ [(key, value)])

/-- Changes the table at a path. Missing tables on the way come to be by `way`, which also
decides what may be passed through; of repeated tables the last is meant. The change is
told how the table came to be. -/
def change (way : Origin) (edit : Origin → Members → Option Members) :
    List String → Origin → Members → Option Members
  | [], origin, members => edit origin members
  | key :: path, _, members =>
    match members.lookup key with
    | none => do
      let inner ← change way edit path way []
      some (members ++ [(key, .table way inner)])
    | some (.table origin inner) =>
      if origin = .braces || (way = .dotted && !origin.isOpen) then none
      else do
        let inner ← change way edit path origin inner
        some (replace members key (.table origin inner))
    | some (.tables elements) =>
      match elements.getLast? with
      | some (.table origin inner) => do
        let inner ← change way edit path origin inner
        some (replace members key (.tables (elements.dropLast ++ [.table origin inner])))
      | _ => none
    | some _ => none

/-- Adds the value of a dotted key. The table that gets it has to come from dotted keys
itself when there are keys on the way. -/
def addDotted (members : Members) (path : List String) (key : String) (value : Value) :
    Option Members :=
  change .dotted
    (fun origin inner =>
      if path.isEmpty || origin = .dotted then inner.add key value else none)
    path .header members

/-- Opens the table of a header. -/
def openTable (members : Members) (path : List String) (key : String) : Option Members :=
  change .implied
    (fun _ inner =>
      match inner.lookup key with
      | none => inner.add key (.table .header [])
      | some (.table .implied own) => some (inner.replace key (.table .header own))
      | some _ => none)
    path .header members

/-- Opens one more table of a repeated header. -/
def openElement (members : Members) (path : List String) (key : String) : Option Members :=
  change .implied
    (fun _ inner =>
      match inner.lookup key with
      | none => inner.add key (.tables [.table .header []])
      | some (.tables elements) =>
        some (inner.replace key (.tables (elements ++ [.table .header []])))
      | some _ => none)
    path .header members

end Members

end Unreferenced.Toml
