/-
  ChangeLedger.Proofs.Replay — a record is what the touches of its object make of it.

  What a record says of its object depends on the touches of that object
  alone: the first one opens the record, and the changes of all of them are
  made in order.  So the record of an object can be replayed from a history,
  apart from its tick, from its dirty flag and from the audit entries, which
  the end of an inner hook and the drain change too.

  Main results:
    * `RecordTable.find?_touchAll` — what touches make of every look-up.
    * `RecordTable.content_touchAll` — what they make of what a record says.
    * `keptAlong_replayed` — every record says what its history replays.
-/
import ChangeLedger.Proofs.History

namespace ChangeLedger

variable {κ π : Type}

/-! ## What a record says of its object -/

namespace Record

/-- The record apart from its tick, its dirty flag and its audit entries. -/
def content (r : Record κ) : Record κ := { r with firstTouch := 0, dirty := false, pushes := [] }

theorem content_apply (r : Record κ) (c : RecordChange) :
    (r.apply c).content = (r.content.apply c).content := by
  cases c with
  | changeRef event key other =>
    show (r.changeRef event key other).content = (r.content.changeRef event key other).content
    rw [changeRef_eq, changeRef_eq]
    rfl
  | _ => rfl

theorem content_applyAll (r : Record κ) (cs : List RecordChange) :
    (r.applyAll cs).content = (r.content.applyAll cs).content := by
  induction cs generalizing r with
  | nil => rfl
  | cons c rest ih =>
    show ((r.apply c).applyAll rest).content = ((r.content.apply c).applyAll rest).content
    rw [ih, content_apply, ← ih]

/-- Records that say the same still do after the same changes. -/
theorem content_applyAll_congr {r r' : Record κ} (h : r.content = r'.content)
    (cs : List RecordChange) : (r.applyAll cs).content = (r'.applyAll cs).content := by
  rw [content_applyAll, h, ← content_applyAll]

theorem applyAll_append (r : Record κ) (cs more : List RecordChange) :
    r.applyAll (cs ++ more) = (r.applyAll cs).applyAll more := List.foldl_append

end Record

/-! ## Replaying touches -/

/-- Whether the touch is one of this object. -/
def Touch.concerns (id : ObjectId) (x : Touch κ) : Bool := x.object.id = id

/-- The changes that touches make to the record of an object, in order. -/
def changesTo (id : ObjectId) (xs : List (Touch κ)) : List RecordChange :=
  (xs.filter (Touch.concerns id)).flatMap Touch.changes

/-- The record that touches make of an object without a record: the first one
    opens it.  Its tick is left open. -/
def replay (id : ObjectId) (xs : List (Touch κ)) : Option (Record κ) :=
  (xs.find? (Touch.concerns id)).map fun x =>
    (Record.opened x.object 0 x.initial).applyAll (changesTo id xs)

theorem changesTo_append (id : ObjectId) (xs ys : List (Touch κ)) :
    changesTo id (xs ++ ys) = changesTo id xs ++ changesTo id ys := by
  unfold changesTo
  rw [List.filter_append, List.flatMap_append]

theorem changesTo_cons (id : ObjectId) (x : Touch κ) (xs : List (Touch κ)) :
    changesTo id (x :: xs) = (if x.concerns id then x.changes else []) ++ changesTo id xs := by
  unfold changesTo
  rw [List.filter_cons]
  split
  · rw [List.flatMap_cons]
  · rw [List.nil_append]

theorem changesTo_singleton (id : ObjectId) (object : Tracked κ) (initial : ChangeVerb)
    (changes : List RecordChange) :
    changesTo id [⟨object, initial, changes⟩] = if object.id = id then changes else [] := by
  have hconcerns : (⟨object, initial, changes⟩ : Touch κ).concerns id = decide (object.id = id) :=
    rfl
  rw [changesTo_cons, hconcerns]
  by_cases hid : object.id = id
  · rw [if_pos (decide_eq_true hid), if_pos hid]
    exact List.append_nil _
  · rw [if_neg (ne_true_of_eq_false (decide_eq_false hid)), if_neg hid]
    rfl

/-- Touches that do not concern an object do not change its record. -/
theorem changesTo_of_find?_eq_none {id : ObjectId} {xs : List (Touch κ)}
    (h : xs.find? (Touch.concerns id) = none) : changesTo id xs = [] := by
  unfold changesTo
  rw [List.filter_eq_nil_iff.mpr (List.find?_eq_none.mp h), List.flatMap_nil]

/-- More touches change the record further, or open it. -/
theorem replay_append (id : ObjectId) (xs ys : List (Touch κ)) :
    replay id (xs ++ ys) =
      match replay id xs with
      | some r => some (r.applyAll (changesTo id ys))
      | none => replay id ys := by
  unfold replay
  rw [List.find?_append, changesTo_append]
  cases hx : xs.find? (Touch.concerns id) with
  | some x =>
    rw [Option.some_or, Option.map_some, Option.map_some, Record.applyAll_append]
  | none =>
    rw [Option.none_or, changesTo_of_find?_eq_none hx, List.nil_append, Option.map_none]

namespace RecordTable

/-- Touches leave the record of every other object as it was. -/
theorem find?_touchAll_of_none (b : RecordTable κ) {xs : List (Touch κ)} {id : ObjectId}
    (hx : xs.find? (Touch.concerns id) = none) : (b.touchAll xs).find? id = b.find? id := by
  induction xs generalizing b with
  | nil => rfl
  | cons x rest ih =>
    rw [List.find?_cons] at hx
    cases hconcerns : x.concerns id with
    | true => rw [hconcerns] at hx; cases hx
    | false =>
      rw [hconcerns] at hx
      have hid : ¬ id = x.object.id := fun heq => of_decide_eq_false hconcerns heq.symm
      rw [touchAll_cons, ih (b.touch x) hx, find?_touch, if_neg hid]

/-- The first touch of an object opens its record if there is none, and all
    changes of its touches are made to it. -/
theorem find?_touchAll (b : RecordTable κ) {xs : List (Touch κ)} {id : ObjectId} {x : Touch κ}
    (hx : xs.find? (Touch.concerns id) = some x) :
    ∃ tick, (b.touchAll xs).find? id =
      some (((b.find? id).getD (Record.opened x.object tick x.initial)).applyAll
        (changesTo id xs)) := by
  -- A record that is there is changed, whatever touches it first.
  have hkept : ∀ (xs : List (Touch κ)) (b : RecordTable κ) (r : Record κ),
      b.find? id = some r → (b.touchAll xs).find? id = some (r.applyAll (changesTo id xs)) := by
    intro xs
    induction xs with
    | nil => exact fun b r hr => hr
    | cons y rest ih =>
      intro b r hr
      rw [touchAll_cons, changesTo_cons]
      cases hconcerns : y.concerns id with
      | true =>
        have hid : id = y.object.id := (of_decide_eq_true hconcerns).symm
        rw [if_pos rfl, Record.applyAll_append]
        refine ih (b.touch y) _ ?_
        rw [find?_touch, if_pos hid, hr]
        rfl
      | false =>
        have hid : ¬ id = y.object.id := fun heq => of_decide_eq_false hconcerns heq.symm
        rw [if_neg Bool.false_ne_true, List.nil_append]
        exact ih (b.touch y) r (by rw [find?_touch, if_neg hid, hr])
  cases hr : b.find? id with
  | some r => exact ⟨b.nextTick, hkept xs b r hr⟩
  | none =>
    obtain ⟨hconcerns, before, after, rfl, hbefore⟩ := List.find?_eq_some_iff_append.mp hx
    have hnone : before.find? (Touch.concerns id) = none :=
      List.find?_eq_none.mpr fun y hy => by simpa using hbefore y hy
    have hid : id = x.object.id := (of_decide_eq_true hconcerns).symm
    refine ⟨(b.touchAll before).nextTick, ?_⟩
    rw [touchAll_append, changesTo_append, changesTo_of_find?_eq_none hnone, List.nil_append,
      changesTo_cons, if_pos hconcerns, Record.applyAll_append]
    refine hkept after _ _ ?_
    rw [find?_touch, if_pos hid, find?_touchAll_of_none b hnone, hr]

/-- What touches make of every record: those of its own object change it, or
    open it if there was none. -/
theorem content_touchAll (b : RecordTable κ) (xs : List (Touch κ)) (id : ObjectId) :
    ((b.touchAll xs).find? id).map Record.content =
      match b.find? id with
      | some r => some (r.applyAll (changesTo id xs)).content
      | none => (replay id xs).map Record.content := by
  unfold replay
  cases hx : xs.find? (Touch.concerns id) with
  | none =>
    rw [find?_touchAll_of_none b hx, changesTo_of_find?_eq_none hx]
    cases b.find? id <;> rfl
  | some x =>
    obtain ⟨tick, hfind⟩ := b.find?_touchAll hx
    rw [hfind]
    cases b.find? id with
    | some r => rfl
    | none =>
      -- The record is opened now, and its tick is no part of what it says.
      have hopened : (Record.opened x.object tick x.initial).content
          = (Record.opened x.object 0 x.initial).content := rfl
      exact congrArg some (Record.content_applyAll_congr hopened _)

end RecordTable

/-! ## Replaying a history -/

/-- The touches of a history, in order. -/
def touchesIn (past : List (Recorded κ π)) : List (Touch κ) := past.flatMap fun p => p.2.touches p.1

theorem touchesIn_append (past later : List (Recorded κ π)) :
    touchesIn (past ++ later) = touchesIn past ++ touchesIn later := List.flatMap_append

/-- Every record says what its history replays, and there are no others. -/
def Staging.Replayed (s : Staging κ π) (past : List (Recorded κ π)) : Prop :=
  ∀ id, (s.find? id).map Record.content = (replay id (touchesIn past)).map Record.content

namespace Staging.Replayed

variable {s s' : Staging κ π} {past : List (Recorded κ π)}

/-- The first touch of the object opened its record, and all the changes since
    then have been made to it. -/
theorem content_eq (hs : s.Replayed past) {id : ObjectId} {r : Record κ}
    (hr : s.find? id = some r) :
    ∃ x, (touchesIn past).find? (Touch.concerns id) = some x ∧
      r.content = ((Record.opened x.object 0 x.initial).applyAll
        (changesTo id (touchesIn past))).content := by
  have hid := hs id
  unfold replay at hid
  rw [hr] at hid
  cases hx : (touchesIn past).find? (Touch.concerns id) with
  | none =>
    rw [hx] at hid
    cases hid
  | some x =>
    rw [hx] at hid
    exact ⟨x, rfl, Option.some.inj hid⟩

/-- Records may change where they stand, as long as they say the same. -/
theorem map (hs : s.Replayed past) {f : Record κ → Record κ} (hid : ∀ r, (f r).id = r.id)
    (hf : ∀ r, (f r).content = r.content) :
    Staging.Replayed { s with records := s.records.map f } past := by
  intro id
  rw [← hs id]
  show (findRecord id (s.records.map f)).map Record.content
    = (findRecord id s.records).map Record.content
  unfold findRecord
  rw [List.find?_map, Option.map_map, show Record.content ∘ f = Record.content from funext hf,
    show (fun r : Record κ => decide (r.id = id)) ∘ f = fun r => decide (r.id = id) from
      funext fun r => by rw [Function.comp_apply, hid]]

theorem after (hs : s.Replayed past) (m : Mutation κ π) :
    (s.after m).Replayed (s.historyAfter m past) := by
  intro id
  show ((s.after m).table.find? id).map Record.content = _
  rw [table_after]
  unfold historyAfter
  cases m.isClear with
  | true => rfl
  | false =>
    rw [if_neg Bool.false_ne_true, if_neg Bool.false_ne_true, RecordTable.content_touchAll,
      touchesIn_append, replay_append, show s.table.find? id = s.find? id from rfl]
    have hid := hs id
    unfold touchesIn at hid ⊢
    rw [List.flatMap_singleton]
    -- Either the history has touched the object or this recording is the first.
    cases hr : s.find? id with
    | some r =>
      rw [hr] at hid
      cases hr' : replay id (past.flatMap fun p => p.2.touches p.1) with
      | some r' =>
        rw [hr'] at hid
        exact congrArg some (Record.content_applyAll_congr (Option.some.inj hid) _)
      | none =>
        rw [hr'] at hid
        cases hid
    | none =>
      rw [hr] at hid
      cases hr' : replay id (past.flatMap fun p => p.2.touches p.1) with
      | some r' =>
        rw [hr'] at hid
        cases hid
      | none => rfl

end Staging.Replayed

/-- Every record says what its history replays, whatever happens. -/
theorem keptAlong_replayed :
    KeptAlong fun (s : Staging κ π) (past : List (Recorded κ π)) => s.Replayed past where
  recorded m hs := hs.after m
  cleaned id hs := by
    refine hs.map (fun r => ?_) (fun r => ?_)
    · split <;> rfl
    · split <;> rfl
  counted {s past} f hs := by
    intro id
    show ((s.count f).table.find? id).map Record.content = _
    rw [Staging.table_count]
    exact hs id
  taken hs := hs
  drained hs := hs.map (fun _ => rfl) fun _ => rfl

theorem replayed_new (options : Options) (schema : Schema) :
    (Staging.new options schema : Staging κ π).Replayed [] := fun _ => rfl

end ChangeLedger
