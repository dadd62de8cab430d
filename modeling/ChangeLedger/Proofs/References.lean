/-
  ChangeLedger.Proofs.References — the references of a record, counted.

  A record lists the references that it gained and those that it lost, and an
  edge event that takes one back strikes it from the other list.  So a record
  says of each reference one of three things: it was gained, it was lost, or
  nothing.  These are the values one, minus one and zero of a count that gains
  raise and losses lower, but not beyond one and minus one.

  Main results:
    * `References.standing_after` — one edge event moves one count.
    * `Staging.standing_after` — which counts a recording moves, and how far.
    * `Transaction.references_follow_counts` — at every moment the lists of
      every record are what the counts of the history say.
-/
import ChangeLedger.Proofs.DrainExactness
import ChangeLedger.Proofs.History

namespace ChangeLedger

variable {κ π σ : Type}

/-! ## The count of a reference -/

/-- A reference that a record may show: the record, the property, and the
    object that the property refers to. -/
structure RefSlot where
  /-- The identity that the record belongs to. -/
  owner : ObjectId
  /-- The property. -/
  key : PropertyKey
  /-- The identity referred to. -/
  other : ObjectId
  deriving DecidableEq

/-- A reference is gained or lost. -/
structure RefChange where
  /-- The edge event that causes it. -/
  event : EdgeEvent
  /-- The reference. -/
  slot : RefSlot

/-- A count after an edge event: it stays between minus one and one. -/
def EdgeEvent.count (event : EdgeEvent) (c : Int) : Int :=
  match event with
  | .created => min 1 (c + 1)
  | .deleted => max (-1) (c - 1)

/-- A loss is a gain with the sign reversed. -/
theorem EdgeEvent.count_deleted (c : Int) : deleted.count c = -created.count (-c) := by
  show max (-1) (c - 1) = -min 1 (-c + 1)
  omega

/-- The count of a reference after some changes, from `start` on. -/
def RefSlot.countFrom (slot : RefSlot) (start : Int) (changes : List RefChange) : Int :=
  changes.foldl (fun c change => if change.slot = slot then change.event.count c else c) start

theorem RefSlot.countFrom_append (slot : RefSlot) (start : Int) (changes more : List RefChange) :
    slot.countFrom start (changes ++ more) = slot.countFrom (slot.countFrom start changes) more :=
  List.foldl_append

/-- Changes of other references do not count. -/
theorem RefSlot.countFrom_of_ne (slot : RefSlot) (start : Int) {changes : List RefChange}
    (h : ∀ change ∈ changes, change.slot ≠ slot) : slot.countFrom start changes = start := by
  induction changes with
  | nil => rfl
  | cons change rest ih =>
    show slot.countFrom (if change.slot = slot then _ else start) rest = start
    rw [if_neg (h change List.mem_cons_self)]
    exact ih fun change' hmem => h change' (List.mem_cons_of_mem _ hmem)

/-! ## The two lists of a record -/

/-- The references that a record gained, and those that it lost. -/
structure References where
  /-- The references gained. -/
  gained : RefTable
  /-- The references lost. -/
  lost : RefTable

namespace References

/-- No reference at all. -/
def none : References := ⟨∅, ∅⟩

/-- The references after an edge event. -/
def after (refs : References) (event : EdgeEvent) (key : PropertyKey) (other : ObjectId) :
    References :=
  ⟨(Record.refsAfter event key other refs.gained refs.lost).1,
    (Record.refsAfter event key other refs.gained refs.lost).2⟩

/-- What is said of a reference: one if it was gained, minus one if it was
    lost. -/
def standing (refs : References) (key : PropertyKey) (other : ObjectId) : Int :=
  if refs.gained.has key other then 1 else if refs.lost.has key other then -1 else 0

/-- No reference was both gained and lost, and no key is listed without
    references. -/
structure Proper (refs : References) : Prop where
  disjoint : ∀ key other, refs.gained.has key other = true → refs.lost.has key other = false
  gained : refs.gained.NoEmptySet
  lost : refs.lost.NoEmptySet

/-- With nothing gained and nothing lost, all is proper. -/
theorem proper_none : none.Proper :=
  ⟨fun _ _ h => (nomatch h), RefTable.noEmptySet_empty, RefTable.noEmptySet_empty⟩

variable {refs refs' : References}

/-- A reference is listed as gained if its count is one. -/
theorem gained_iff (refs : References) (key : PropertyKey) (other : ObjectId) :
    refs.gained.has key other = true ↔ refs.standing key other = 1 := by
  unfold standing
  cases refs.gained.has key other <;> cases refs.lost.has key other <;> decide

/-- It is listed as lost if its count is minus one. -/
theorem Proper.lost_iff (h : refs.Proper) (key : PropertyKey) (other : ObjectId) :
    refs.lost.has key other = true ↔ refs.standing key other = -1 := by
  have hdisjoint := h.disjoint key other
  unfold standing
  revert hdisjoint
  cases refs.gained.has key other <;> cases refs.lost.has key other <;> decide

/-- The lists exchanged. -/
def swapped (refs : References) : References := ⟨refs.lost, refs.gained⟩

theorem Proper.swapped (h : refs.Proper) : refs.swapped.Proper := by
  refine ⟨fun key other hlost => ?_, h.lost, h.gained⟩
  cases hgained : refs.gained.has key other with
  | false => exact hgained
  | true =>
    have hnot := h.disjoint key other hgained
    rw [show refs.lost.has key other = true from hlost] at hnot
    cases hnot

/-- Exchanging the lists reverses the sign. -/
theorem Proper.standing_swapped (h : refs.Proper) (key : PropertyKey) (other : ObjectId) :
    refs.swapped.standing key other = -refs.standing key other := by
  have hdisjoint := h.disjoint key other
  unfold standing References.swapped
  dsimp only
  revert hdisjoint
  cases refs.gained.has key other <;> cases refs.lost.has key other <;> decide

/-- A loss is a gain with the lists exchanged. -/
theorem after_deleted (refs : References) (key : PropertyKey) (other : ObjectId) :
    refs.after .deleted key other = (refs.swapped.after .created key other).swapped := rfl

/-- A creation adds its reference to the gained ones, unless it was lost. -/
theorem gained_after_created (refs : References) (key q : PropertyKey) (other o : ObjectId) :
    (refs.after .created key other).gained.has q o =
      (decide (q = key ∧ o = other ∧ refs.lost.has key other = false) || refs.gained.has q o) := by
  show (if refs.lost.has key other then refs.gained else refs.gained.put key other).has q o = _
  cases refs.lost.has key other with
  | true => simp
  | false =>
    rw [if_neg Bool.false_ne_true, RefTable.has_put]
    simp

/-- A creation takes its reference from the lost ones. -/
theorem lost_after_created (refs : References) (key q : PropertyKey) (other o : ObjectId) :
    (refs.after .created key other).lost.has q o =
      (!decide (q = key ∧ o = other) && refs.lost.has q o) := RefTable.has_take ..

theorem Proper.after_created (h : refs.Proper) (key : PropertyKey) (other : ObjectId) :
    (refs.after .created key other).Proper := by
  refine ⟨fun q o hg => ?_, ?_, RefTable.noEmptySet_take h.lost key other⟩
  · rw [lost_after_created]
    rw [gained_after_created, Bool.or_eq_true, decide_eq_true_eq] at hg
    cases hg with
    | inl hnew => simp [hnew]
    | inr hold => simp [h.disjoint q o hold]
  · show RefTable.NoEmptySet (if refs.lost.has key other then _ else _)
    split
    · exact h.gained
    · exact RefTable.noEmptySet_put h.gained key other

/-- An edge event keeps the lists proper. -/
theorem Proper.after (h : refs.Proper) (event : EdgeEvent) (key : PropertyKey) (other : ObjectId) :
    (refs.after event key other).Proper := by
  cases event with
  | created => exact h.after_created key other
  | deleted => exact (h.swapped.after_created key other).swapped

/-- A creation moves the count of its own reference, and no other. -/
theorem Proper.standing_after_created (h : refs.Proper) (key q : PropertyKey)
    (other o : ObjectId) :
    (refs.after .created key other).standing q o =
      if q = key ∧ o = other then EdgeEvent.created.count (refs.standing q o)
      else refs.standing q o := by
  unfold standing
  rw [gained_after_created, lost_after_created]
  by_cases hqo : q = key ∧ o = other
  · have hgains : (q = key ∧ o = other ∧ refs.lost.has key other = false) ↔
        refs.lost.has q o = false := by
      rw [hqo.1, hqo.2]
      exact ⟨fun h => h.2.2, fun h => ⟨rfl, rfl, h⟩⟩
    -- The reference was gained, or lost, or neither; it was not both.
    have hcases : ∀ gained lost : Bool, (gained = true → lost = false) →
        (if (decide (lost = false) || gained) = true then (1 : Int)
          else if (!true && lost) = true then -1 else 0) =
        EdgeEvent.created.count (if gained = true then 1 else if lost = true then -1 else 0) := by
      decide
    rw [decide_eq_decide.mpr hgains, decide_eq_true hqo, if_pos hqo]
    exact hcases _ _ (h.disjoint q o)
  · have hne : ¬ (q = key ∧ o = other ∧ refs.lost.has key other = false) :=
      fun hall => hqo ⟨hall.1, hall.2.1⟩
    rw [decide_eq_false hne, decide_eq_false hqo, if_neg hqo]
    rfl

/-- An edge event moves the count of its own reference, and no other. -/
theorem Proper.standing_after (h : refs.Proper) (event : EdgeEvent) (key q : PropertyKey)
    (other o : ObjectId) :
    (refs.after event key other).standing q o =
      if q = key ∧ o = other then event.count (refs.standing q o) else refs.standing q o := by
  cases event with
  | created => exact h.standing_after_created key q other o
  | deleted =>
    rw [after_deleted, (h.swapped.after_created key other).standing_swapped,
      h.swapped.standing_after_created, h.standing_swapped]
    split
    · exact (EdgeEvent.count_deleted _).symm
    · omega

/-- Proper lists that say the same of every reference are the same. -/
theorem Proper.ext_standing (h : refs.Proper) (h' : refs'.Proper)
    (hsame : ∀ key other, refs.standing key other = refs'.standing key other) : refs = refs' := by
  have hgained : refs.gained = refs'.gained := by
    refine RefTable.ext_has h.gained h'.gained fun key other => Bool.eq_iff_iff.mpr ?_
    rw [gained_iff, gained_iff, hsame]
  have hlost : refs.lost = refs'.lost := by
    refine RefTable.ext_has h.lost h'.lost fun key other => Bool.eq_iff_iff.mpr ?_
    rw [h.lost_iff, h'.lost_iff, hsame]
  cases refs
  cases refs'
  exact congrArg₂ References.mk hgained hlost

end References

/-! ## Records and touches -/

/-- The references that a record gained and lost. -/
def Record.references (r : Record κ) : References := ⟨r.addedRefs, r.removedRefs⟩

/-- The change of a reference of the record of `id`, if it is one. -/
def RecordChange.refChange? (id : ObjectId) : RecordChange → Option RefChange
  | .changeRef event key other => some ⟨event, ⟨id, key, other⟩⟩
  | _ => none

/-- The references that a touch gains and loses. -/
def Touch.refChanges (x : Touch κ) : List RefChange :=
  x.changes.filterMap (RecordChange.refChange? x.object.id)

/-- A change of a record moves its references if it is a change of one. -/
theorem Record.references_apply (r : Record κ) (c : RecordChange) :
    (r.apply c).references =
      match c.refChange? r.id with
      | some change => r.references.after change.event change.slot.key change.slot.other
      | none => r.references := by
  cases c with
  | changeRef event key other =>
    show (r.changeRef event key other).references = _
    rw [Record.changeRef_eq]
    rfl
  | _ => rfl

theorem RecordChange.slot_owner {c : RecordChange} {id : ObjectId} {change : RefChange}
    (h : c.refChange? id = some change) : change.slot.owner = id := by
  cases c with
  | changeRef event key other =>
    rw [← Option.some.inj h]
  | _ => cases h

/-- A touch moves references of its own object only. -/
theorem Touch.slot_owner (x : Touch κ) {change : RefChange} (h : change ∈ x.refChanges) :
    change.slot.owner = x.object.id := by
  obtain ⟨c, -, hc⟩ := List.mem_filterMap.mp h
  exact RecordChange.slot_owner hc

/-- Changes of a record move each of its counts as far as they say. -/
theorem Record.references_applyAll (r : Record κ) (cs : List RecordChange)
    (h : r.references.Proper) :
    (r.applyAll cs).references.Proper ∧ ∀ key other,
      (r.applyAll cs).references.standing key other =
        (RefSlot.mk r.id key other).countFrom (r.references.standing key other)
          (cs.filterMap (RecordChange.refChange? r.id)) := by
  induction cs generalizing r with
  | nil => exact ⟨h, fun _ _ => rfl⟩
  | cons c rest ih =>
    have hid : (r.apply c).id = r.id := congrArg Tracked.id (Record.object_apply r c)
    have hrefs := Record.references_apply r c
    cases hc : c.refChange? r.id with
    | none =>
      rw [hc] at hrefs
      dsimp only at hrefs
      have hrest := ih (r.apply c) (by rw [hrefs]; exact h)
      rw [hid, hrefs] at hrest
      rw [List.filterMap_cons_none hc]
      exact hrest
    | some change =>
      rw [hc] at hrefs
      dsimp only at hrefs
      have hproper := h.after change.event change.slot.key change.slot.other
      have hrest := ih (r.apply c) (by rw [hrefs]; exact hproper)
      rw [hid, hrefs] at hrest
      rw [List.filterMap_cons_some hc]
      refine ⟨hrest.1, fun key other => (hrest.2 key other).trans ?_⟩
      rw [h.standing_after]
      -- The slot is named by its owner too, but that is this record.
      have hslot : (key = change.slot.key ∧ other = change.slot.other) ↔
          change.slot = ⟨r.id, key, other⟩ := by
        have howner := RecordChange.slot_owner hc
        obtain ⟨event, owner, key', other'⟩ := change
        simp_all [eq_comm]
      exact congrArg (RefSlot.countFrom _ · _) (if_congr hslot rfl rfl)

/-! ## The references of every object -/

namespace RecordTable

/-- The references of an object; one without a record has none. -/
def referencesOf (b : RecordTable κ) (id : ObjectId) : References :=
  ((b.find? id).map Record.references).getD .none

/-- What the record of its owner says of a reference. -/
def standing (b : RecordTable κ) (slot : RefSlot) : Int :=
  (b.referencesOf slot.owner).standing slot.key slot.other

/-- A touch moves each count as far as it says. -/
theorem references_touch (b : RecordTable κ) (x : Touch κ)
    (h : ∀ id, (b.referencesOf id).Proper) :
    (∀ id, ((b.touch x).referencesOf id).Proper) ∧
      ∀ slot, (b.touch x).standing slot = slot.countFrom (b.standing slot) x.refChanges := by
  -- The record before the touch shows what was said of its object already: one
  -- that is opened has no references.
  have htouched : ∀ id, id = x.object.id → ∃ r : Record κ, r.id = id ∧
      r.references = b.referencesOf id ∧
      (b.touch x).referencesOf id = (r.applyAll x.changes).references := by
    intro id hid
    refine ⟨(b.find? id).getD (Record.opened x.object b.nextTick x.initial), ?_, ?_, ?_⟩
    · cases hf : b.find? id with
      | none => exact hid.symm
      | some r => exact Staging.id_of_findRecord hf
    · unfold referencesOf
      cases b.find? id <;> rfl
    · unfold referencesOf
      rw [find?_touch, if_pos hid]
      rfl
  have hother : ∀ id, id ≠ x.object.id → (b.touch x).referencesOf id = b.referencesOf id := by
    intro id hid
    unfold referencesOf
    rw [find?_touch, if_neg hid]
  constructor
  · intro id
    by_cases hid : id = x.object.id
    · obtain ⟨r, -, hr, hafter⟩ := htouched id hid
      rw [hafter]
      exact (r.references_applyAll x.changes (by rw [hr]; exact h id)).1
    · rw [hother id hid]
      exact h id
  · intro slot
    unfold standing
    by_cases hid : slot.owner = x.object.id
    · obtain ⟨r, hrid, hr, hafter⟩ := htouched slot.owner hid
      have hall := (r.references_applyAll x.changes (by rw [hr]; exact h slot.owner)).2
      rw [hafter, hall, hr, hrid, Touch.refChanges, ← hid]
    · rw [hother slot.owner hid, RefSlot.countFrom_of_ne]
      intro change hmem heq
      exact hid (heq ▸ x.slot_owner hmem)

/-- Several touches move the count of a reference in turn. -/
theorem references_touchAll (b : RecordTable κ) (xs : List (Touch κ))
    (h : ∀ id, (b.referencesOf id).Proper) :
    (∀ id, ((b.touchAll xs).referencesOf id).Proper) ∧
      ∀ slot, (b.touchAll xs).standing slot =
        slot.countFrom (b.standing slot) (xs.flatMap Touch.refChanges) := by
  induction xs generalizing b with
  | nil => exact ⟨h, fun _ => rfl⟩
  | cons x rest ih =>
    obtain ⟨hproper, hstanding⟩ := references_touch b x h
    obtain ⟨hproper', hstanding'⟩ := ih (b.touch x) hproper
    refine ⟨hproper', fun slot => ?_⟩
    rw [touchAll_cons, hstanding', hstanding, List.flatMap_cons, RefSlot.countFrom_append]

end RecordTable

/-! ## Edge events -/

/-- The references that an edge shows up as: that of the source to the target,
    and that of the target to the source.  Both ends have to be in reach and
    described, and the type must not be a well-known one. -/
def Schema.trackedRefs (schema : Schema) (edge : Edge κ) : List RefSlot :=
  match edge.type?, edge.source?, edge.target? with
  | some type, some source, some target =>
    match type.aspect?, schema.describe? type with
    | none, some ⟨some d, some d'⟩ =>
      [⟨source.id, d.key, target.id⟩, ⟨target.id, d'.key, source.id⟩]
    | _, _ => []
  | _, _, _ => []

/-- The references that a recording in a staging area gains and loses. -/
def Mutation.refChanges (s : Staging κ π) : Mutation κ π → List RefChange
  | .createEdge _ edge => (s.schema.trackedRefs edge).map (RefChange.mk .created)
  | .deleteEdge _ edge _ => (s.schema.trackedRefs edge).map (RefChange.mk .deleted)
  | _ => []

/-- The references gained and lost by a history, in order. -/
def refChangesOf (past : List (Recorded κ π)) : List RefChange :=
  past.flatMap fun a => a.2.refChanges a.1

namespace Staging

theorem refChanges_endTouches (event : EdgeEvent) (tracked : Bool) (d : EndDescription)
    (node other : Tracked κ) :
    (endTouches event tracked d node other).flatMap Touch.refChanges =
      if tracked then [⟨event, ⟨node.id, d.key, other.id⟩⟩] else [] := by
  unfold endTouches
  dsimp only
  cases tracked <;> rfl

theorem refChanges_foldTouches (s : Staging κ π) (event : EdgeEvent) (edge : Edge κ)
    {source target : Tracked κ} (hs : edge.source? = some source)
    (ht : edge.target? = some target) :
    (s.foldTouches event edge.type? source target).flatMap Touch.refChanges =
      (s.schema.trackedRefs edge).map (RefChange.mk event) := by
  unfold foldTouches Schema.trackedRefs
  rw [hs, ht]
  cases edge.type? with
  | none => rfl
  | some type =>
    dsimp only
    cases type.aspect? with
    | some aspect => rfl
    | none =>
      dsimp only
      cases s.schema.describe? type with
      | none => rfl
      | some d =>
        obtain ⟨source?, target?⟩ := d
        dsimp only
        rw [List.flatMap_append]
        -- With an end undescribed, the other one is written but not tracked.
        cases source? <;> cases target? <;> simp only [refChanges_endTouches] <;> rfl

/-- Of what follows an edge event, only the folding moves references. -/
theorem refChanges_followTouches (s : Staging κ π) (event : EdgeEvent)
    (user : Option Principal) (edge : Edge κ) :
    (s.followTouches event user edge).flatMap Touch.refChanges =
      (s.schema.trackedRefs edge).map (RefChange.mk event) := by
  unfold followTouches
  cases hs : edge.source? with
  | none =>
    unfold Schema.trackedRefs
    rw [hs]
    cases edge.type? <;> rfl
  | some source =>
    cases ht : edge.target? with
    | none =>
      unfold Schema.trackedRefs
      rw [hs, ht]
      cases edge.type? <;> rfl
    | some target =>
      dsimp only
      rw [List.flatMap_append, refChanges_foldTouches s event edge hs ht]
      -- Audit entries are no references.
      cases s.options.anyAudit <;> exact List.append_nil _

theorem refChanges_auditChanges (s : Staging κ π) (user : Option Principal) (entry : AuditEntry)
    (id : ObjectId) : (s.auditChanges user entry).filterMap (RecordChange.refChange? id) = [] := by
  unfold auditChanges
  split <;> rfl

/-- The references that a recording changes are those that its touches change. -/
theorem refChanges_touches (s : Staging κ π) (m : Mutation κ π) :
    (m.touches s).flatMap Touch.refChanges = m.refChanges s := by
  cases m with
  | create user object =>
    show List.filterMap _ (_ :: s.auditChanges user _) ++ [] = []
    rw [List.filterMap_cons_none rfl, refChanges_auditChanges]
    rfl
  | modify user object key previous new =>
    show List.filterMap _ (s.auditChanges user _ ++ [_]) ++ [] = []
    rw [List.filterMap_append, refChanges_auditChanges]
    rfl
  | delete user object passive =>
    show List.filterMap _ (_ :: s.auditChanges user _) ++ [] = []
    rw [List.filterMap_cons_none rfl, refChanges_auditChanges]
    rfl
  | createEdge user edge => exact refChanges_followTouches s .created user edge
  | deleteEdge user edge passive => exact refChanges_followTouches s .deleted user edge
  | propagate object =>
    show List.flatMap Touch.refChanges (if s.propagated.contains object.id ||
      s.contains object.id then [] else [⟨object, .propagated, [.propagate]⟩]) = []
    split <;> rfl
  | _ => rfl

/-- The references of an object. -/
def referencesOf (s : Staging κ π) (id : ObjectId) : References := s.table.referencesOf id

/-- What the record of its owner says of a reference. -/
def standing (s : Staging κ π) (slot : RefSlot) : Int :=
  (s.referencesOf slot.owner).standing slot.key slot.other

/-- The references of every object are proper. -/
def RefsProper (s : Staging κ π) : Prop := ∀ id, (s.referencesOf id).Proper

/-- A recording moves the counts of the references that it gains and loses,
    and no other, unless it drops them all. -/
theorem standing_after {s : Staging κ π} (hs : s.RefsProper) (m : Mutation κ π) :
    (s.after m).RefsProper ∧ ∀ slot, (s.after m).standing slot =
      if m.isClear then 0 else slot.countFrom (s.standing slot) (m.refChanges s) := by
  unfold RefsProper standing referencesOf
  rw [table_after]
  cases m.isClear with
  | true => exact ⟨fun _ => References.proper_none, fun _ => rfl⟩
  | false =>
    have h := RecordTable.references_touchAll s.table (m.touches s) hs
    rw [refChanges_touches] at h
    exact h

/-- The references of every object are proper, and the counts of a history
    say which they are. -/
def Counted (s : Staging κ π) (past : List (Recorded κ π)) : Prop :=
  s.RefsProper ∧ ∀ slot, s.standing slot = slot.countFrom 0 (refChangesOf past)

/-- Records may change where they stand, as long as their identities and their
    references stay. -/
theorem referencesOf_map (s : Staging κ π) {f : Record κ → Record κ} (hid : ∀ r, (f r).id = r.id)
    (hrefs : ∀ r, (f r).references = r.references) (id : ObjectId) :
    Staging.referencesOf { s with records := s.records.map f } id = s.referencesOf id := by
  show ((findRecord id (s.records.map f)).map Record.references).getD .none = _
  unfold findRecord
  rw [List.find?_map, Option.map_map, show Record.references ∘ f = Record.references from
    funext hrefs, show (fun r : Record κ => decide (r.id = id)) ∘ f = fun r => decide (r.id = id)
    from funext fun r => by rw [Function.comp_apply, hid]]
  rfl

/-- The counts depend on nothing but the references of each object. -/
theorem Counted.of_referencesOf {s s' : Staging κ π} {past : List (Recorded κ π)}
    (hs : s.Counted past) (h : ∀ id, s'.referencesOf id = s.referencesOf id) :
    s'.Counted past := by
  constructor
  · intro id
    rw [h]
    exact hs.1 id
  · intro slot
    unfold standing
    rw [h]
    exact hs.2 slot

end Staging

/-- Every recording keeps the counts in step with the history. -/
theorem keptAlong_counted :
    KeptAlong fun (s : Staging κ π) (past : List (Recorded κ π)) => s.Counted past where
  recorded {s past} m hs := by
    obtain ⟨hproper, hstanding⟩ := Staging.standing_after hs.1 m
    refine ⟨hproper, fun slot => (hstanding slot).trans ?_⟩
    unfold Staging.historyAfter
    cases m.isClear with
    | true => rfl
    | false =>
      show slot.countFrom (s.standing slot) _ = slot.countFrom 0 (refChangesOf (past ++ [(s, m)]))
      unfold refChangesOf
      rw [List.flatMap_append, RefSlot.countFrom_append, hs.2, List.flatMap_singleton]
      rfl
  cleaned {s past} id hs := by
    refine hs.of_referencesOf fun q => s.referencesOf_map (fun r => ?_) (fun r => ?_) q
    · split <;> rfl
    · split <;> rfl
  counted f hs := by
    refine hs.of_referencesOf fun q => ?_
    unfold Staging.referencesOf
    rw [Staging.table_count]
  taken hs := hs
  drained {s past} hs :=
    hs.of_referencesOf fun q =>
      s.referencesOf_map (f := Record.dropPushes) (fun _ => rfl) (fun _ => rfl) q

theorem counted_new (options : Options) (schema : Schema) :
    (Staging.new options schema : Staging κ π).Counted [] :=
  ⟨fun _ => References.proper_none, fun _ => rfl⟩

namespace Transaction

/-- At every moment of every reachable ledger, between any two recordings,
    also those of one inner hook: an identity is among the references that a
    record gained under a key exactly if the count of the history is one, and
    among those that it lost exactly if the count is minus one.  No identity is
    among both, and no key is listed without references. -/
theorem references_follow_counts (h : Hooks κ π σ) (script : InnerScript κ π σ)
    (plan : InnerPlan κ π σ) (depth : Nat) (sink : Sink σ) (options : Options) (schema : Schema)
    (world : σ) (moves : List (Move κ π σ)) (s : Staging κ π) (past : List (Recorded κ π))
    (hm : (reached (h.nested script plan sink depth) sink options schema world moves).Moment
      s past) :
    ∀ r ∈ s.records, ∀ key,
      (∀ other,
        (r.addedRefs.has key other = true ↔
          (RefSlot.mk r.id key other).countFrom 0 (refChangesOf past) = 1) ∧
        (r.removedRefs.has key other = true ↔
          (RefSlot.mk r.id key other).countFrom 0 (refChangesOf past) = -1) ∧
        ¬ (r.addedRefs.has key other = true ∧ r.removedRefs.has key other = true)) ∧
      (∀ refs, r.addedRefs.get? key = some refs → refs.isEmpty = false) ∧
      (∀ refs, r.removedRefs.get? key = some refs → refs.isEmpty = false) := by
  have hboth : KeptAlong fun (s : Staging κ π) past => s.Ordered ∧ s.Counted past :=
    keptAlong_ordered.and keptAlong_counted
  obtain ⟨hordered, hproper, hstanding⟩ := hboth.atMoments h script plan depth sink
    ⟨ordered_new options schema, counted_new options schema⟩ world moves hm
  intro r hr key
  -- The record is the one that the counts are about.
  have hrefs : s.referencesOf r.id = r.references := by
    unfold Staging.referencesOf RecordTable.referencesOf
    rw [show s.table.find? r.id = some r from hordered.find?_of_mem hr]
    rfl
  have hp : r.references.Proper := hrefs ▸ hproper r.id
  have hcount : ∀ other, r.references.standing key other
      = (RefSlot.mk r.id key other).countFrom 0 (refChangesOf past) := by
    intro other
    rw [← hstanding, ← hrefs]
    rfl
  refine ⟨fun other => ⟨?_, ?_, ?_⟩, hp.gained key, hp.lost key⟩
  · rw [← hcount]
    exact r.references.gained_iff key other
  · rw [← hcount]
    exact hp.lost_iff key other
  · rintro ⟨hgained, hlost⟩
    have hnot := hp.disjoint key other hgained
    rw [show r.references.lost.has key other = true from hlost] at hnot
    cases hnot

/-- Two nodes. -/
def ada : Tracked Unit := ⟨⟨.node, 1⟩, "n-1", ()⟩

@[inherit_doc ada]
def bob : Tracked Unit := ⟨⟨.node, 2⟩, "n-2", ()⟩

/-- An edge that says that one node knows another. -/
def acquaintance (number : Nat) (source target : Tracked Unit) : Edge Unit :=
  ⟨⟨⟨.edge, number⟩, "r-3", ()⟩, some ⟨"KNOWS"⟩, some source, some target⟩

/-- Both nodes see who they know and who knows them under these keys. -/
def acquaintanceSchema (source target : String) : Schema :=
  Schema.empty.register ⟨"KNOWS"⟩
    ⟨some ⟨.plain source, .collection⟩, some ⟨.plain target, .collection⟩⟩

/-- The inner hook of a node gets to know another node and forgets it again. -/
def briefScript : InnerScript Unit Unit MemoryLog := fun object _ t =>
  ⟨if object.id = ada.id then [.createEdge none (acquaintance 3 ada bob),
      .deleteEdge none (acquaintance 3 ada bob) false] else [],
    t.errors, t.world, .ok ()⟩

/-- Between the two recordings of the hook, the reference is among those that
    were gained. -/
theorem references_follow_counts_between :
    let t := reached (idleHooks.nested briefScript idlePlan MemoryLog.sink 0) MemoryLog.sink
      {} (acquaintanceSchema "friends" "friends") ∅ [.record (.create none ada), .settle none]
    ∃ s past, t.Moment s past ∧ ∃ r ∈ s.records, r.id = ada.id ∧
      r.addedRefs.has (.plain "friends") bob.id = true := by
  intro t
  let before : Staging Unit Unit :=
    (Staging.new {} (acquaintanceSchema "friends" "friends")).create none ada
  let first : Mutation Unit Unit := .createEdge none (acquaintance 3 ada bob)
  let second : Mutation Unit Unit := .deleteEdge none (acquaintance 3 ada bob) false
  have hevents : t.events = t.events.take 1 ++
      .inner before ada ⟨none, .create, none⟩ ([first] ++ [second]) true :: t.events.drop 2 := rfl
  have hm : t.Moment (before.afterAll [first])
      (before.historyAfterAll [first] (historyOf (t.events.take 1))) := .during hevents rfl
  have hcount := references_follow_counts idleHooks briefScript idlePlan 0 MemoryLog.sink {}
    (acquaintanceSchema "friends" "friends") ∅ [.record (.create none ada), .settle none] _ _ hm
  obtain ⟨r, hr, hid⟩ : ∃ r ∈ (before.afterAll [first]).records, r.id = ada.id :=
    ⟨_, List.mem_cons_self, rfl⟩
  refine ⟨_, _, hm, r, hr, hid, ((hcount r hr (.plain "friends")).1 bob.id).1.mpr ?_⟩
  rw [hid]
  rfl

end Transaction

end ChangeLedger
