/-
  ChangeLedger.Toml.Datum — the data of a TOML document.

  A table remembers how it came about, because that decides which later
  definitions may still add to it.
-/

namespace ChangeLedger.Toml

/-- How a table came about. -/
inductive Origin where
  /-- It was written in braces and is complete. -/
  | inline
  /-- It has a header of its own. -/
  | header
  /-- A header below it implies it. -/
  | implied
  /-- A dotted key implies it. -/
  | dotted
  deriving DecidableEq

/-- A datum of a TOML document. -/
inductive Datum where
  /-- A string. -/
  | str (s : String)
  /-- A 64-bit integer. -/
  | int (n : Int)
  /-- A float, as it is written. -/
  | float (text : String)
  /-- A truth value. -/
  | bool (b : Bool)
  /-- A date, a time or both, as they are written. -/
  | dateTime (text : String)
  /-- An array in brackets. -/
  | array (items : List Datum)
  /-- A table. -/
  | table (origin : Origin) (entries : List (String × Datum))
  /-- An array of tables with headers, by the entries of each. -/
  | tables (elements : List (List (String × Datum)))

/-- The entries of a table, in the order of their definition. -/
abbrev Entries := List (String × Datum)

namespace Entries

/-- The datum of a key. -/
def get? (es : Entries) (key : String) : Option Datum := (es.find? fun e => e.1 = key).map (·.2)

/-- Sets the datum of a key, in its place if it has one. -/
def set (es : Entries) (key : String) (d : Datum) : Entries :=
  if (es.get? key).isSome then es.map fun e => if e.1 = key then (key, d) else e
  else es ++ [(key, d)]

/-! ## Going down a path -/

/-- Changes the entries of the table that a path leads to.  Missing tables on
    the way are implied.  A dotted path does not lead into a table that has a
    header or braces of its own, and no path into a complete table; a path
    into an array of tables goes on in its last element. -/
def descend (dotted : Bool) (change : Origin → Entries → Option Entries) :
    List String → Origin → Entries → Option Entries
  | [], origin, es => change origin es
  | key :: path, _, es =>
    match es.get? key with
    | none =>
      let origin := if dotted then .dotted else .implied
      (descend dotted change path origin []).map fun sub => es.set key (.table origin sub)
    | some (.table origin sub) =>
      if origin = .inline || (dotted && origin = .header) then none
      else (descend dotted change path origin sub).map fun sub => es.set key (.table origin sub)
    | some (.tables elements) =>
      -- a header below an array of tables belongs to the element begun last
      match elements.getLast? with
      | none => none
      | some last =>
        (descend dotted change path .header last).map fun last =>
          es.set key (.tables (elements.dropLast ++ [last]))
    | some _ => none

/-- Adds a key that is not there yet. -/
def addNew (key : String) (d : Datum) (es : Entries) : Option Entries :=
  if (es.get? key).isSome then none else some (es.set key d)

/-- Enters a datum under a dotted key, seen from a table.  Apart from the last
    name, the key must lead to a table that dotted keys made. -/
def define (key : List String) (d : Datum) (origin : Origin) (es : Entries) : Option Entries :=
  match key.getLast? with
  | none => none
  | some last =>
    descend true
      (fun reached es =>
        if key.length = 1 || reached = .dotted then es.addNew last d else none)
      key.dropLast origin es

/-- Opens the table of a header. -/
def openTable (path : List String) (root : Entries) : Option Entries :=
  match path.getLast? with
  | none => none
  | some last =>
    descend false
      (fun _ es =>
        match es.get? last with
        | none => some (es.set last (.table .header []))
        | some (.table .implied sub) => some (es.set last (.table .header sub))
        | some _ => none)
      path.dropLast .header root

/-- Adds an element to the array of tables of a header. -/
def openElement (path : List String) (root : Entries) : Option Entries :=
  match path.getLast? with
  | none => none
  | some last =>
    descend false
      (fun _ es =>
        match es.get? last with
        | none => some (es.set last (.tables [[]]))
        | some (.tables elements) => some (es.set last (.tables (elements ++ [[]])))
        | some _ => none)
      path.dropLast .header root

end Entries

end ChangeLedger.Toml
