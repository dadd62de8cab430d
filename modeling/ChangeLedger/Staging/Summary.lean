/-
  ChangeLedger.Staging.Summary — a record as readers see it.

  A summary lists the values before and after and the references gained and
  lost, by property name.  Where several keys share a name, the greatest key
  decides.
-/
import ChangeLedger.Staging.Record

namespace ChangeLedger

/-- The changes of one object by property name. -/
structure Summary where
  /-- The values before the transaction. -/
  before : SortedMap String Value
  /-- The values after the transaction. -/
  after : SortedMap String Value
  /-- The references gained. -/
  added : SortedMap String (SortedSet ObjectId)
  /-- The references lost. -/
  removed : SortedMap String (SortedSet ObjectId)

/-- A point-in-time copy of what readers see of a record. -/
structure Snapshot where
  /-- The identity of the object. -/
  id : ObjectId
  /-- The uuid of the object. -/
  uuid : String
  /-- What happened to the object. -/
  verb : ChangeVerb
  /-- The tick of the first touch. -/
  firstTouch : Nat
  /-- Whether the inner hook has still to see the record. -/
  dirty : Bool
  /-- The token registered for the object. -/
  callback : Option String
  /-- The changes. -/
  summary : Summary

/-- Enters values under the names of their keys, in key order; keys without
    a value enter nothing. -/
def enterByName {β : Type} (entries : List (PropertyKey × Option β)) (m : SortedMap String β) :
    SortedMap String β :=
  entries.foldl (fun m e => match e.2 with
    | some v => m.insert e.1.name v
    | none => m) m

namespace Record

variable {κ : Type}

/-- The changes of a record by property name. -/
def summary (r : Record κ) : Summary where
  before :=
    enterByName (r.modified.entries.map fun e => (e.1, e.2.previous))
      (enterByName (r.removed.entries.map fun e => (e.1, some e.2)) ∅)
  after :=
    enterByName (r.modified.entries.map fun e => (e.1, e.2.new))
      (enterByName (r.created.entries.map fun e => (e.1, some e.2)) ∅)
  added := enterByName (r.addedRefs.entries.map fun e => (e.1, some e.2)) ∅
  removed := enterByName (r.removedRefs.entries.map fun e => (e.1, some e.2)) ∅

/-- A copy of what readers see of a record. -/
def snapshot (r : Record κ) : Snapshot where
  id := r.id
  uuid := r.uuid
  verb := r.verb
  firstTouch := r.firstTouch
  dirty := r.dirty
  callback := r.callback
  summary := r.summary

end Record

end ChangeLedger
