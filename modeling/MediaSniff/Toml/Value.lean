/-
# MediaSniff.Toml.Value — tables of settings

Settings are written in TOML. A table is put together from what its document says in
several places, and how a table came to be decides what may still be added to it: a
table written out in one place is closed, one that is only implied by a header further
below may still get a header of its own, and dotted keys add only to tables that dotted
keys have made.
-/
set_option autoImplicit false

namespace MediaSniff

/-- How a table came to be. -/
inductive Toml.Origin where
  /-- Written out in one place. -/
  | inline
  /-- Opened by a header of its own. -/
  | header
  /-- Implied by a header further below. -/
  | implied
  /-- Made by a dotted key. -/
  | dotted
  deriving DecidableEq, Repr, Inhabited

/-- A value. Fractions, truth values and dates are left out, since no setting is one. -/
inductive Toml where
  | text (s : String)
  | integer (n : Int)
  | array (elements : List Toml)
  /-- An array whose tables headers have opened: the one opened last, and those opened
  before it, the latest first. -/
  | tables (last : List (String × Toml)) (earlier : List (List (String × Toml)))
  | table (origin : Toml.Origin) (entries : List (String × Toml))
  deriving Repr

namespace Toml

/-- What a table holds. -/
abbrev Entries := List (String × Toml)

namespace Entries

/-- The value of a key. -/
def get? (entries : Entries) (key : String) : Option Toml :=
  (entries.find? fun e => e.1 == key).map (·.2)

/-- Give a key that is there another value. -/
def replace (entries : Entries) (key : String) (v : Toml) : Entries :=
  entries.map fun e => if e.1 == key then (key, v) else e

/-- Add a key that is not there yet. -/
def add? (key : String) (v : Toml) (entries : Entries) : Option Entries :=
  if (entries.get? key).isSome then none else some (entries ++ [(key, v)])

/-- Change the table that a path leads to. Tables that are missing on the way are made,
and of an array of tables the last one is entered. -/
def alter? (mayEnter : Origin → Bool) (made : Origin) (change? : Entries → Option Entries) :
    (path : List String) → Entries → Option Entries
  | [], entries => change? entries
  | key :: path, entries =>
      match entries.get? key with
      | none =>
          (alter? mayEnter made change? path []).map fun inner =>
            entries ++ [(key, .table made inner)]
      | some (.table origin inner) =>
          if mayEnter origin then
            (alter? mayEnter made change? path inner).map fun inner =>
              entries.replace key (.table origin inner)
          else none
      | some (.tables last earlier) =>
          (alter? mayEnter made change? path last).map fun last =>
            entries.replace key (.tables last earlier)
      | some _ => none

/-- Add a value under a dotted key. -/
def addDotted? (path : List String) (key : String) (v : Toml) : Entries → Option Entries :=
  alter? (· == .dotted) .dotted (add? key v) path

/-- Change a table that headers can reach. -/
def alterOpen? (path : List String) (change? : Entries → Option Entries) :
    Entries → Option Entries :=
  alter? (· != .inline) .implied change? path

/-- Open a table by a header. -/
def openTable? (path : List String) (key : String) : Entries → Option Entries :=
  alterOpen? path fun entries =>
    match entries.get? key with
    | none => some (entries ++ [(key, .table .header [])])
    | some (.table .implied inner) => some (entries.replace key (.table .header inner))
    | some _ => none

/-- Open one more table of an array of tables by a header. -/
def openElement? (path : List String) (key : String) : Entries → Option Entries :=
  alterOpen? path fun entries =>
    match entries.get? key with
    | none => some (entries ++ [(key, .tables [] [])])
    | some (.tables last earlier) => some (entries.replace key (.tables [] (last :: earlier)))
    | some _ => none

end Entries

end Toml

end MediaSniff
