/-
  ChangeLedger.Staging.Area — the staged changes of one transaction.

  The staging area holds one record for each object that the transaction
  touched, in the order of their first touch.  Beside the records it keeps the
  identities reached by propagation, the synchronization keys of the written
  properties, and the deferred actions.

  Main results:
    * `Staging.find?_touch` — a touch reaches its own record and no other.
-/
import ChangeLedger.Graph.Schema
import ChangeLedger.Settings.Options
import ChangeLedger.Staging.Summary
import ChangeLedger.Transaction.Counters

namespace ChangeLedger

variable {κ π : Type}

/-! ## Lists of records -/

/-- The record of an object. -/
def findRecord (id : ObjectId) (rs : List (Record κ)) : Option (Record κ) :=
  rs.find? fun r => r.id = id

/-- Changes the record of an object where it stands. -/
def updateRecord (id : ObjectId) (f : Record κ → Record κ) (rs : List (Record κ)) :
    List (Record κ) :=
  rs.map fun r => if r.id = id then f r else r

/-! ## The staging area -/

/-- The staged changes of one transaction.  Objects have handles in `κ`, and
    deferred actions are values of `π`. -/
structure Staging (κ π : Type) where
  /-- How the ledger audits and commits. -/
  options : Options
  /-- The described types of edges. -/
  schema : Schema
  /-- The records, in the order of their first touch. -/
  records : List (Record κ) := []
  /-- The identities that were marked as reached by propagation. -/
  propagated : SortedSet ObjectId := ∅
  /-- The synchronization keys of the properties written so far. -/
  syncKeys : SortedSet String := ∅
  /-- The deferred actions that have still to run, oldest first. -/
  pending : List (String × π) := []
  /-- The keys under which actions were deferred. -/
  claimedKeys : SortedSet String := ∅
  /-- Whether the change logs of this transaction are written at all. -/
  logEnabled : Bool := true
  /-- The tick of the next first touch.  Fewer than 2^64 records are ever opened,
      so that ticks are numbers without a bound here. -/
  nextTick : Nat := 0
  /-- What was counted so far. -/
  counters : Counters := {}

namespace Staging

/-- The empty staging area of a new transaction. -/
def new (options : Options) (schema : Schema) : Staging κ π where
  options := options
  schema := schema

/-! ## Reading -/

/-- Number of records. -/
def size (s : Staging κ π) : Nat := s.records.length

/-- Whether nothing was touched. -/
def isEmpty (s : Staging κ π) : Bool := s.records.isEmpty

/-- The record of an object, if it was touched. -/
def find? (s : Staging κ π) (id : ObjectId) : Option (Record κ) := findRecord id s.records

/-- Whether an object was touched. -/
def contains (s : Staging κ π) (id : ObjectId) : Bool := (s.find? id).isSome

/-- The touched identities, in the order of their first touch. -/
def ids (s : Staging κ π) : List ObjectId := s.records.map Record.id

/-- Whether an object was marked as reached by propagation. -/
def isPropagated (s : Staging κ π) (id : ObjectId) : Bool := s.propagated.contains id

/-- Whether an object was deleted. -/
def isDeleted (s : Staging κ π) (id : ObjectId) : Bool := (s.find? id).any Record.isDeleted

/-- Whether a property with this name was written on an object.  Structural
    aspects are no properties. -/
def isModified (s : Staging κ π) (id : ObjectId) (name : String) : Bool :=
  (s.find? id).any fun r => r.modified.keys.any fun k => k.name = name

/-- The keys of all written properties. -/
def modifiedKeys (s : Staging κ π) : SortedSet PropertyKey :=
  s.records.foldl (fun ks r => r.modified.keys.foldl SortedSet.insert ks) ∅

/-- The changes of an object by property name, if it was touched. -/
def summary? (s : Staging κ π) (id : ObjectId) : Option Summary := (s.find? id).map Record.summary

/-- Copies of all records, in the order of their first touch. -/
def snapshots (s : Staging κ π) : List Snapshot := s.records.map Record.snapshot

/-- The text of the staging area in diagnostic texts. -/
def diagnostic (s : Staging κ π) : String :=
  "ModificationQueue \x7b records: " ++ toString s.size ++
    ", already_propagated: " ++ toString s.propagated.size ++
    ", synchronization_keys: \x7b" ++
    String.intercalate ", " (s.syncKeys.toList.map Quoted.quote) ++
    "\x7d, post_processes: " ++ toString s.pending.length ++
    ", change_log_enabled: " ++ Options.flag s.logEnabled ++ ", .. \x7d"

/-! ## Writing -/

/-- Counts activity, if the options ask for it. -/
def count (s : Staging κ π) (f : Counters → Counters) : Staging κ π :=
  if s.options.countsActivity then { s with counters := f s.counters } else s

/-- Changes the record of a touched object. -/
def update (s : Staging κ π) (id : ObjectId) (f : Record κ → Record κ) : Staging κ π :=
  { s with records := updateRecord id f s.records }

/-- Changes the record of an object.  An object that was not touched before
    first gets a record with the verb `initial` and the next tick. -/
def touch (s : Staging κ π) (object : Tracked κ) (initial : ChangeVerb)
    (f : Record κ → Record κ) : Staging κ π :=
  if s.contains object.id then s.update object.id f
  else
    { s with
      records := s.records ++ [f (Record.opened object s.nextTick initial)]
      nextTick := s.nextTick + 1 }.count Counters.recordCreated

/-- Drops everything that was staged.  The ticks go on, and so does the
    choice to write no change logs. -/
def clear (s : Staging κ π) : Staging κ π :=
  { s with records := [], propagated := ∅, syncKeys := ∅, pending := [], claimedKeys := ∅ }

/-! ## Lookups -/

theorem id_of_findRecord {id : ObjectId} {rs : List (Record κ)} {r : Record κ}
    (h : findRecord id rs = some r) : r.id = id := by
  have hp := List.find?_some h
  exact of_decide_eq_true hp

theorem findRecord_updateRecord {f : Record κ → Record κ} (hf : ∀ r, (f r).id = r.id)
    (id q : ObjectId) (rs : List (Record κ)) :
    findRecord q (updateRecord id f rs) =
      if q = id then (findRecord q rs).map f else findRecord q rs := by
  induction rs with
  | nil => simp [findRecord, updateRecord]
  | cons r rest ih =>
    simp only [findRecord, updateRecord, List.map_cons, List.find?_cons] at ih ⊢
    by_cases hr : r.id = id
    · by_cases hq : q = id
      · subst hq; simp [hr, hf]
      · have : ¬ id = q := fun h => hq h.symm
        simp [hr, hf, hq, this, ih]
    · by_cases hq : r.id = q
      · subst hq; simp [hr]
      · simp [hr, hq, ih]

@[simp] theorem records_count (s : Staging κ π) (f : Counters → Counters) :
    (s.count f).records = s.records := by
  unfold count; split <;> rfl

/-- Counting changes nothing but the counters. -/
theorem count_eq (s : Staging κ π) (f : Counters → Counters) :
    s.count f = { s with counters := (s.count f).counters } := by
  unfold count
  split <;> rfl

/-- A touch changes the record of its object, which it opens if need be, and
    leaves every other record as it was. -/
theorem find?_touch (s : Staging κ π) (object : Tracked κ) (initial : ChangeVerb)
    {f : Record κ → Record κ} (hf : ∀ r, (f r).id = r.id) (q : ObjectId) :
    (s.touch object initial f).find? q =
      if q = object.id then
        some (f ((s.find? q).getD (Record.opened object s.nextTick initial)))
      else s.find? q := by
  unfold touch
  by_cases hc : s.contains object.id = true
  · rw [if_pos hc]
    simp only [update, find?, findRecord_updateRecord hf]
    by_cases hq : q = object.id
    · subst hq
      obtain ⟨r, hr⟩ := Option.isSome_iff_exists.mp hc
      simp only [find?] at hr
      simp [hr]
    · simp [hq]
  · rw [if_neg hc]
    have hnone : findRecord object.id s.records = none := by
      simpa [contains, find?] using hc
    simp only [find?, records_count, findRecord, List.find?_append]
    by_cases hq : q = object.id
    · subst hq
      simp only [findRecord] at hnone
      have hid : (f (Record.opened object s.nextTick initial)).id = object.id := hf _
      rw [hnone]
      simp [hid]
    · have hne : ¬ (f (Record.opened object s.nextTick initial)).id = q := by
        rw [hf]; exact fun h => hq h.symm
      simp [hq, hne]

end Staging

end ChangeLedger
