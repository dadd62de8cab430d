/-
  ChangeLedger.Staging.Record — the staged changes of one object.

  A record collects what a transaction does to one object: a verb, the net
  difference of each written property, the references gained and lost, and
  the audit entries that are still to be written.  A record is dirty from a
  write until the inner hook of the object has seen it.
-/
import ChangeLedger.Audit.Line
import ChangeLedger.Graph.Edge
import ChangeLedger.Staging.RefTable
import ChangeLedger.Staging.Verb
import ChangeLedger.Text.Quoted

namespace ChangeLedger

/-! ## Parts of a record -/

/-- The net difference of one property. -/
structure PropertyDiff where
  /-- The value before the first write; none if there was none. -/
  previous : Option Value
  /-- The value after the last write; none if the property was removed. -/
  new : Option Value

/-- The structural aspects of a node that changed. -/
structure AspectFlags where
  /-- The owner changed. -/
  owner : Bool := false
  /-- The access grants changed. -/
  security : Bool := false
  /-- The location changed. -/
  location : Bool := false
  deriving DecidableEq

namespace AspectFlags

/-- Whether any aspect changed. -/
def any (f : AspectFlags) : Bool := f.owner || f.security || f.location

/-- Flags one more aspect. -/
def set (f : AspectFlags) : Aspect → AspectFlags
  | .owner => { f with owner := true }
  | .security => { f with security := true }
  | .location => { f with location := true }

@[simp] theorem set_set (f : AspectFlags) (aspect : Aspect) :
    (f.set aspect).set aspect = f.set aspect := by
  cases aspect <;> rfl

end AspectFlags

/-- An audit entry that waits to be written, and who caused it. -/
structure AuditPush where
  /-- Who acted, if anybody is known. -/
  user : Option Principal
  /-- What happened. -/
  entry : AuditEntry

/-! ## Records -/

/-- The staged changes of one object. -/
structure Record (κ : Type) where
  /-- The object as it was first touched. -/
  object : Tracked κ
  /-- What happened to the object. -/
  verb : ChangeVerb
  /-- The tick of the first touch, which is less than 2^64 (see
      `Staging.nextTick`). -/
  firstTouch : Nat
  /-- Whether the inner hook has still to see the record. -/
  dirty : Bool := true
  /-- The token registered for the object. -/
  callback : Option String := none
  /-- The net difference of every written property. -/
  modified : SortedMap PropertyKey PropertyDiff := ∅
  /-- The written properties that had no value before, with their values. -/
  created : SortedMap PropertyKey Value := ∅
  /-- The written properties that lost their value, with that value. -/
  removed : SortedMap PropertyKey Value := ∅
  /-- The references gained. -/
  addedRefs : RefTable := ∅
  /-- The references lost. -/
  removedRefs : RefTable := ∅
  /-- The structural aspects that changed. -/
  structural : AspectFlags := {}
  /-- The audit entries to be written, oldest first. -/
  pushes : List AuditPush := []

namespace Record

variable {κ : Type}

/-- The identity of the object. -/
def id (r : Record κ) : ObjectId := r.object.id

/-- The uuid of the object when it was first touched. -/
def uuid (r : Record κ) : String := r.object.uuid

/-- Whether the object was deleted. -/
def isDeleted (r : Record κ) : Bool := r.verb.isDeletion

/-- The record of an object that is touched for the first time. -/
def opened (object : Tracked κ) (tick : Nat) (verb : ChangeVerb) : Record κ where
  object := object
  verb := verb
  firstTouch := tick

/-! ## Writes -/

/-- Marks a write: the inner hook has to run again. -/
def touch (r : Record κ) : Record κ := { r with verb := r.verb.afterWrite, dirty := true }

/-- Records the creation of the object. -/
def create (r : Record κ) : Record κ := { r with verb := r.verb.afterCreate, dirty := true }

/-- Records the deletion of the object. -/
def delete (r : Record κ) (passive : Bool) : Record κ :=
  { r with verb := r.verb.afterDelete passive, dirty := true }

/-- Records a change by propagation alone. -/
def propagate (r : Record κ) : Record κ := { r with dirty := true }

/-- Records a property write.  Writes to one key merge: the first previous
    value and the last new value stand. -/
def modify (r : Record κ) (key : PropertyKey) (previous new : Option Value) : Record κ :=
  let r := r.touch
  -- an earlier write knows better what was there before
  let first := match r.modified.get? key with
    | some diff => diff.previous
    | none => previous
  { r with
    modified := r.modified.insert key ⟨first, new⟩
    created := match first, new with
      | none, some v => (r.created.erase key).insert key v
      | _, _ => r.created.erase key
    removed := match first, new with
      | some v, none => (r.removed.erase key).insert key v
      | _, _ => r.removed.erase key }

/-- Records a gained reference; it cancels a loss of the same reference. -/
def addRef (r : Record κ) (key : PropertyKey) (other : ObjectId) : Record κ :=
  let r := r.touch
  -- a reference that comes back was never lost
  let cancelled := r.removedRefs.take key other
  if r.removedRefs.has key other then { r with removedRefs := cancelled }
  else { r with removedRefs := cancelled, addedRefs := r.addedRefs.put key other }

/-- Records a lost reference; it cancels a gain of the same reference. -/
def removeRef (r : Record κ) (key : PropertyKey) (other : ObjectId) : Record κ :=
  let r := r.touch
  -- a reference that goes again was never gained
  let cancelled := r.addedRefs.take key other
  if r.addedRefs.has key other then { r with addedRefs := cancelled }
  else { r with addedRefs := cancelled, removedRefs := r.removedRefs.put key other }

/-- Flags the change of a structural aspect. -/
def flagAspect (r : Record κ) (aspect : Aspect) : Record κ :=
  let r := r.touch
  { r with structural := r.structural.set aspect }

/-- Attaches a token to the object. -/
def setCallback (r : Record κ) (token : String) : Record κ := { r with callback := some token }

/-- Notes that the inner hook has seen the record. -/
def clearDirty (r : Record κ) : Record κ := { r with dirty := false }

/-- Adds an audit entry. -/
def push (r : Record κ) (user : Option Principal) (entry : AuditEntry) : Record κ :=
  { r with pushes := r.pushes ++ [⟨user, entry⟩] }

/-- Drops the audit entries, once they have been taken for writing. -/
def dropPushes (r : Record κ) : Record κ := { r with pushes := [] }

/-! ## Audit texts -/

/-- What is to be appended to the log of the object. -/
def objectLog (r : Record κ) : String :=
  String.join (r.pushes.map fun p => (p.entry.objectLine p.user).text)

/-- Adds the line of one audit entry to the texts of the users. -/
def addUserLine (r : Record κ) (logs : SortedMap String String) (p : AuditPush) :
    SortedMap String String :=
  match p.user with
  | none => logs
  | some user =>
    logs.insert user.id (logs.getD user.id "" ++ (p.entry.userLine r.uuid).text)

/-- What is to be appended to the log of each user who acted. -/
def userLogs (r : Record κ) : SortedMap String String := r.pushes.foldl r.addUserLine ∅

/-! ## Diagnostics -/

/-- The text of a record in diagnostic texts. -/
def diagnostic (r : Record κ) : String :=
  "ChangeRecord \x7b id: " ++ r.id.diagnostic ++ ", uuid: " ++ Quoted.quote r.uuid ++
    ", verb: " ++ r.verb.diagnostic ++ ", first_touch: " ++ toString r.firstTouch ++
    ", dirty: " ++ (if r.dirty then "true" else "false") ++
    ", modified: " ++ toString r.modified.size ++
    ", added_refs: " ++ toString r.addedRefs.size ++
    ", removed_refs: " ++ toString r.removedRefs.size ++ ", .. \x7d"

end Record

end ChangeLedger
