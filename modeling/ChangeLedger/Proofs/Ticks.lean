/-
  ChangeLedger.Proofs.Ticks — the tick of a record is written once and not read.

  A record is opened with a tick, and its place among the records follows from
  it.  No change of a record looks at the tick: to move the tick before a
  change or after it makes no difference.

  Main results:
    * `Record.withTick_applyAll` — changes and another tick.
    * `RecordTable.stamps_touch` — the objects and the ticks after a touch.
    * `RecordTable.find?_untimed_touch` — a touch, but for ticks.
-/
import ChangeLedger.Proofs.Touches

namespace ChangeLedger

variable {κ : Type}

namespace Record

/-! ## Records with another tick -/

/-- The record as if it had been opened at another tick. -/
def withTick (r : Record κ) (tick : Nat) : Record κ := { r with firstTouch := tick }

theorem withTick_apply (r : Record κ) (tick : Nat) (c : RecordChange) :
    (r.apply c).withTick tick = (r.withTick tick).apply c := by
  cases c with
  | changeRef event key other =>
    show (r.changeRef event key other).withTick tick = (r.withTick tick).changeRef event key other
    rw [changeRef_eq, changeRef_eq]
    rfl
  | _ => rfl

/-- At which tick a record was opened makes no difference to its changes. -/
theorem withTick_applyAll (r : Record κ) (tick : Nat) (cs : List RecordChange) :
    (r.applyAll cs).withTick tick = (r.withTick tick).applyAll cs := by
  induction cs generalizing r with
  | nil => rfl
  | cons c rest ih =>
    calc (r.applyAll (c :: rest)).withTick tick
        = ((r.apply c).applyAll rest).withTick tick := rfl
      _ = ((r.apply c).withTick tick).applyAll rest := ih (r.apply c)
      _ = ((r.withTick tick).apply c).applyAll rest := by rw [withTick_apply]

/-- What of a record never changes: its object, and its tick. -/
def stamp (r : Record κ) : Tracked κ × Nat := (r.object, r.firstTouch)

/-- Changes of a record keep its object and its tick. -/
theorem stamp_applyAll (r : Record κ) (cs : List RecordChange) :
    (r.applyAll cs).stamp = r.stamp := by
  unfold stamp
  rw [object_applyAll, firstTouch_applyAll]

/-- All of a record but its tick. -/
def untimed (r : Record κ) : Record κ := r.withTick 0

theorem untimed_applyAll (r : Record κ) (cs : List RecordChange) :
    (r.applyAll cs).untimed = r.untimed.applyAll cs := withTick_applyAll r 0 cs

end Record

namespace RecordTable

/-! ## Tables of records -/

/-- The stamps of the records, in the order of their first touch. -/
def stamps (b : RecordTable κ) : List (Tracked κ × Nat) := b.records.map Record.stamp

/-- Changing a record where it stands moves no stamp. -/
theorem stamps_updateRecord {f : Record κ → Record κ} (hf : ∀ r, (f r).stamp = r.stamp)
    (id : ObjectId) (rs : List (Record κ)) :
    (updateRecord id f rs).map Record.stamp = rs.map Record.stamp := by
  unfold updateRecord
  rw [List.map_map]
  refine List.map_congr_left fun r _ => ?_
  show (if r.id = id then f r else r).stamp = r.stamp
  split
  · exact hf r
  · rfl

/-- A touch adds the stamp of the record that it opens at the end, and changes
    no stamp. -/
theorem stamps_touch (b : RecordTable κ) (x : Touch κ) :
    (b.touch x).stamps =
      b.stamps ++ if b.contains x.object.id then [] else [(x.object, b.nextTick)] := by
  unfold touch contains
  split
  · rw [List.append_nil]
    exact stamps_updateRecord (fun r => Record.stamp_applyAll r x.changes) _ _
  · show (b.records ++ [x.opened b.nextTick]).map Record.stamp = _
    rw [List.map_append]
    have hstamp : (x.opened b.nextTick).stamp = (x.object, b.nextTick) :=
      Record.stamp_applyAll _ x.changes
    exact congrArg (b.stamps ++ [·]) hstamp

/-- The touched identities, in the order of their first touch. -/
def ids (b : RecordTable κ) : List ObjectId := b.records.map Record.id

theorem ids_eq_stamps (b : RecordTable κ) : b.ids = b.stamps.map fun e => e.1.id := by
  unfold ids stamps
  rw [List.map_map]
  rfl

/-- A touch adds the identity of its object at the end, unless it is there. -/
theorem ids_touch (b : RecordTable κ) (x : Touch κ) :
    (b.touch x).ids = b.ids ++ if b.contains x.object.id then [] else [x.object.id] := by
  rw [ids_eq_stamps, stamps_touch, List.map_append, ← ids_eq_stamps]
  split <;> rfl

/-- A tick is used up if the touch opens a record. -/
theorem nextTick_touch (b : RecordTable κ) (x : Touch κ) :
    (b.touch x).nextTick = b.nextTick + if b.contains x.object.id then 0 else 1 := by
  unfold touch contains
  split <;> rfl

/-- But for ticks, what a touch does to a look-up depends on nothing but that
    look-up. -/
theorem find?_untimed_touch (b : RecordTable κ) (x : Touch κ) (q : ObjectId) :
    ((b.touch x).find? q).map Record.untimed =
      if q = x.object.id then
        some ((((b.find? q).map Record.untimed).getD
          (Record.opened x.object 0 x.initial)).applyAll x.changes)
      else (b.find? q).map Record.untimed := by
  rw [find?_touch]
  split
  · rw [Option.map_some, Record.untimed_applyAll]
    cases b.find? q <;> rfl
  · rfl

end RecordTable

end ChangeLedger
