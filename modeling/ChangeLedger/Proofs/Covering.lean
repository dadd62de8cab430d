/-
  ChangeLedger.Proofs.Covering — how far an audited run differs in any case.

  However long two runs of the same recordings get, the audited one covers the
  other: each of its records says what the record of the other run says, up to
  the verb of an end node that only propagation reaches in the other run; and
  records that only the audited run has belong to end nodes of edge events and
  say nothing.

  Main results:
    * `Covers.after` — a recording keeps covering.
    * `Covers.answer` — where the answers differ.
-/
import ChangeLedger.Proofs.Alike

namespace ChangeLedger

variable {κ π : Type}

/-! ## Records that say the same -/

namespace Record

/-- The two records say the same about changes: dirty flag, token, property
    differences, references and structural aspects. -/
def SameContent (r r' : Record κ) : Prop :=
  ∃ object verb firstTouch pushes, r' = { r with object, verb, firstTouch, pushes }

/-- The record says nothing, apart from audit entries. -/
def IsBare (r : Record κ) : Prop := r.dropPushes = opened r.object r.firstTouch .modify

/-- A change of both records keeps their content the same. -/
theorem SameContent.apply {r r' : Record κ} (h : r.SameContent r') (c : RecordChange) :
    (r.apply c).SameContent (r'.apply c) := by
  obtain ⟨object, verb, firstTouch, pushes, rfl⟩ := h
  cases c with
  | changeRef event key other =>
    refine ⟨object, verb.afterWrite, firstTouch, pushes, ?_⟩
    show changeRef { r with object, verb, firstTouch, pushes } event key other
      = { r.changeRef event key other with object, verb := verb.afterWrite, firstTouch, pushes }
    rw [changeRef_eq, changeRef_eq]
    rfl
  | _ => exact ⟨_, _, _, _, rfl⟩

theorem SameContent.applyAll {r r' : Record κ} (h : r.SameContent r') (cs : List RecordChange) :
    (r.applyAll cs).SameContent (r'.applyAll cs) := by
  induction cs generalizing r r' with
  | nil => exact h
  | cons c rest ih => exact ih (h.apply c)

theorem SameContent.of_dropPushes {r r' : Record κ}
    (h : r.dropPushes.SameContent r'.dropPushes) : r.SameContent r' := by
  obtain ⟨object, verb, firstTouch, pushes, heq⟩ := h
  refine ⟨object, verb, firstTouch, r'.pushes, ?_⟩
  have hparts : r' = { r'.dropPushes with pushes := r'.pushes } := rfl
  rw [hparts, heq]
  rfl

/-- A bare record says what a new one says. -/
theorem IsBare.sameContent_opened {r : Record κ} (hr : r.IsBare) (object : Tracked κ)
    (tick : Nat) (verb : ChangeVerb) : r.SameContent (opened object tick verb) := by
  have hparts : r = { opened r.object r.firstTouch .modify with pushes := r.pushes } := by
    rw [← hr]
    rfl
  refine ⟨object, verb, tick, [], ?_⟩
  rw [hparts]
  rfl

end Record

/-- The verb after a change of a record. -/
def RecordChange.verbAfter (v : ChangeVerb) : RecordChange → ChangeVerb
  | create => v.afterCreate
  | delete passive => v.afterDelete passive
  | modify .. | changeRef .. | flagAspect _ => v.afterWrite
  | propagate | setCallback _ | push .. => v

/-- The verb after a change depends on the verb before it and on the change. -/
theorem Record.verb_apply (r : Record κ) (c : RecordChange) :
    (r.apply c).verb = c.verbAfter r.verb := by
  cases c with
  | changeRef event key other =>
    show (r.changeRef event key other).verb = _
    rw [changeRef_eq]
    rfl
  | _ => rfl

/-- The verbs agree, or an object that only propagation reached in the second
    run is modified in the first. -/
def VerbsAgree (excused : Prop) (v v' : ChangeVerb) : Prop :=
  v = v' ∨ excused ∧ v = .modify ∧ v' = .propagated

/-- Changes of both records keep the verbs in agreement. -/
theorem VerbsAgree.applyAll {excused : Prop} {r r' : Record κ}
    (h : VerbsAgree excused r.verb r'.verb) (cs : List RecordChange) :
    VerbsAgree excused (r.applyAll cs).verb (r'.applyAll cs).verb := by
  induction cs generalizing r r' with
  | nil => exact h
  | cons c rest ih =>
    refine ih ?_
    rw [Record.verb_apply, Record.verb_apply]
    cases h with
    | inl heq => rw [heq]; exact .inl rfl
    | inr hexcused =>
      obtain ⟨he, hv, hv'⟩ := hexcused
      rw [hv, hv']
      cases c with
      | delete passive => exact .inl rfl
      | propagate => exact .inr ⟨he, rfl, rfl⟩
      | setCallback token => exact .inr ⟨he, rfl, rfl⟩
      | push user entry => exact .inr ⟨he, rfl, rfl⟩
      | _ => exact .inl rfl

/-- The first records say all that the second ones say; where they say more,
    it is only that some of these objects have bare records. -/
structure RecordTable.Covers (extra : List ObjectId) (b b' : RecordTable κ) : Prop where
  tracked : ∀ id r', b'.find? id = some r' → ∃ r, b.find? id = some r ∧ r.SameContent r' ∧
    VerbsAgree (id ∈ extra) r.verb r'.verb
  bare : ∀ id r, b.find? id = some r → b'.find? id = none → id ∈ extra ∧ r.IsBare

/-- Opening a record by this touch comes to the same as touching a bare one. -/
def Touch.IsPlain (x : Touch κ) : Prop :=
  x.initial = .modify ∨ x.initial = .create ∧ ∃ rest, x.changes = .create :: rest

namespace RecordTable.Covers

variable {extra : List ObjectId} {b b' : RecordTable κ}

/-- More objects may be set apart. -/
theorem mono (h : Covers extra b b') {extra' : List ObjectId} (he : ∀ id ∈ extra, id ∈ extra') :
    Covers extra' b b' where
  tracked id r' hr' := by
    obtain ⟨r, hr, hcontent, hverbs⟩ := h.tracked id r' hr'
    refine ⟨r, hr, hcontent, ?_⟩
    cases hverbs with
    | inl heq => exact .inl heq
    | inr hexcused => exact .inr ⟨he id hexcused.1, hexcused.2⟩
  bare id r hr hnone :=
    have ⟨hid, hbare⟩ := h.bare id r hr hnone
    ⟨he id hid, hbare⟩

theorem contains (h : Covers extra b b') {id : ObjectId} (hc : b'.contains id = true) :
    b.contains id = true := by
  obtain ⟨r', hr'⟩ := Option.isSome_iff_exists.mp hc
  obtain ⟨r, hr, -⟩ := h.tracked id r' hr'
  exact Option.isSome_iff_exists.mpr ⟨r, hr⟩

/-- A touch of a bare record leaves what the touch of no record leaves. -/
theorem opened_of_bare {x : Touch κ} (hx : x.IsPlain) {r : Record κ} (hr : r.IsBare)
    (tick : Nat) (excused : Prop) :
    (r.applyAll x.changes).SameContent (x.opened tick) ∧
      VerbsAgree excused (r.applyAll x.changes).verb (x.opened tick).verb := by
  refine ⟨(hr.sameContent_opened x.object tick x.initial).applyAll x.changes, ?_⟩
  have hverb : r.verb = .modify := congrArg Record.verb hr
  cases hx with
  | inl hmodify =>
    have hsame : VerbsAgree excused r.verb (Record.opened x.object tick x.initial).verb := by
      rw [hverb]
      exact .inl hmodify.symm
    exact hsame.applyAll x.changes
  | inr hcreate =>
    -- Creating a modified object and a new one both leave it created.
    obtain ⟨hinitial, rest, hchanges⟩ := hcreate
    have hsame : VerbsAgree excused r.create.verb
        (Record.opened x.object tick .create).create.verb := by
      show VerbsAgree excused r.verb.afterCreate _
      rw [hverb]
      exact .inl rfl
    unfold Touch.opened
    rw [hchanges, hinitial]
    exact hsame.applyAll rest

/-- The same touch on both sides. -/
theorem touch (h : Covers extra b b') {x : Touch κ}
    (hx : x.IsPlain ∨ b.contains x.object.id = false) : Covers extra (b.touch x) (b'.touch x) where
  tracked id r' hr' := by
    rw [find?_touch] at hr' ⊢
    by_cases hid : id = x.object.id
    · rw [if_pos hid] at hr' ⊢
      refine ⟨_, rfl, ?_⟩
      rw [← Option.some.inj hr']
      cases hf' : b'.find? id with
      | some r₀' =>
        -- Both sides have the record, and change it in the same way.
        obtain ⟨r₀, hf, hcontent, hverbs⟩ := h.tracked id r₀' hf'
        rw [hf]
        exact ⟨hcontent.applyAll x.changes, hverbs.applyAll x.changes⟩
      | none =>
        cases hf : b.find? id with
        | none =>
          have hcontent : (Record.opened x.object b.nextTick x.initial).SameContent
              (Record.opened x.object b'.nextTick x.initial) := ⟨_, _, b'.nextTick, _, rfl⟩
          have hverbs : VerbsAgree (id ∈ extra) (Record.opened x.object b.nextTick x.initial).verb
              (Record.opened x.object b'.nextTick x.initial).verb := .inl rfl
          exact ⟨hcontent.applyAll x.changes, hverbs.applyAll x.changes⟩
        | some r₀ =>
          -- Only the first side has the record, a bare one.
          have hplain : x.IsPlain := by
            refine hx.resolve_right fun hnone => ?_
            unfold RecordTable.contains at hnone
            rw [← hid, hf] at hnone
            cases hnone
          exact opened_of_bare hplain (h.bare id r₀ hf hf').2 b'.nextTick _
    · rw [if_neg hid] at hr' ⊢
      exact h.tracked id r' hr'
  bare id r hr hnone := by
    rw [find?_touch] at hr hnone
    by_cases hid : id = x.object.id
    · rw [if_pos hid] at hnone
      cases hnone
    · rw [if_neg hid] at hr hnone
      exact h.bare id r hr hnone

/-- A bare touch on the first side only. -/
theorem touch_bare (h : Covers extra b b') {object : Tracked κ}
    (ho : b.contains object.id = true ∨ object.id ∈ extra) :
    Covers extra (b.touch (Touch.bare object)) b' := by
  cases hc : b.contains object.id with
  | true =>
    rw [RecordTable.touch_bare b object hc]
    exact h
  | false =>
    -- A bare record is opened, and the second side has none, for it is covered.
    have hnone : b.find? object.id = none := Option.not_isSome_iff_eq_none.mp
      (Bool.eq_false_iff.mp hc)
    have hmem : object.id ∈ extra := ho.resolve_left (by rw [hc]; exact Bool.false_ne_true)
    constructor
    · intro id r' hr'
      rw [find?_touch]
      by_cases hid : id = object.id
      · obtain ⟨r, hr, -⟩ := h.tracked id r' hr'
        rw [hid, hnone] at hr
        cases hr
      · rw [if_neg (show ¬ id = (Touch.bare object).object.id from hid)]
        exact h.tracked id r' hr'
    · intro id r hr hnone'
      rw [find?_touch] at hr
      by_cases hid : id = object.id
      · rw [if_pos (show id = (Touch.bare object).object.id from hid), hid, hnone] at hr
        rw [← Option.some.inj hr, hid]
        exact ⟨hmem, rfl⟩
      · rw [if_neg (show ¬ id = (Touch.bare object).object.id from hid)] at hr
        exact h.bare id r hr hnone'

/-- A touch on the second side only, of an object that propagation reaches. -/
theorem touch_propagated (h : Covers extra b b') {object : Tracked κ}
    (hc : b.contains object.id = true) (hc' : b'.contains object.id = false) :
    Covers extra b (b'.touch ⟨object, .propagated, [.propagate]⟩) where
  tracked id r' hr' := by
    rw [find?_touch] at hr'
    by_cases hid : id = object.id
    · subst hid
      obtain ⟨r, hr⟩ := Option.isSome_iff_exists.mp hc
      have hnone : b'.find? object.id = none := Option.not_isSome_iff_eq_none.mp
        (Bool.eq_false_iff.mp hc')
      -- The record of the first side is bare: it says modified where the new
      -- one of the second side says propagated.
      obtain ⟨hmem, hbare⟩ := h.bare object.id r hr hnone
      rw [if_pos rfl, hnone] at hr'
      rw [← Option.some.inj hr']
      exact ⟨r, hr, hbare.sameContent_opened object b'.nextTick .propagated,
        .inr ⟨hmem, congrArg Record.verb hbare, rfl⟩⟩
    · rw [if_neg hid] at hr'
      exact h.tracked id r' hr'
  bare id r hr hnone := by
    rw [find?_touch] at hnone
    by_cases hid : id = object.id
    · rw [if_pos (show id = (⟨object, .propagated, [.propagate]⟩ : Touch κ).object.id from hid)]
        at hnone
      cases hnone
    · rw [if_neg (show ¬ id = (⟨object, .propagated, [.propagate]⟩ : Touch κ).object.id from hid)]
        at hnone
      exact h.bare id r hr hnone

/-- **A run.** Plain touches of both sides keep the covering. -/
theorem touchAll (h : Covers extra b b') {xs : List (Touch κ)} (hxs : ∀ x ∈ xs, x.IsPlain) :
    Covers extra (b.touchAll xs) (b'.touchAll xs) := by
  induction xs generalizing b b' with
  | nil => exact h
  | cons x rest ih =>
    have hx := hxs x List.mem_cons_self
    exact ih (h.touch (.inl hx)) fun x' hx' => hxs x' (List.mem_cons_of_mem _ hx')

theorem touchAll_bare (h : Covers extra b b') {objects : List (Tracked κ)}
    (ho : ∀ o ∈ objects, b.contains o.id = true ∨ o.id ∈ extra) :
    Covers extra (b.touchAll (objects.map Touch.bare)) b' := by
  induction objects generalizing b with
  | nil => exact h
  | cons o rest ih =>
    refine ih (h.touch_bare (ho o List.mem_cons_self)) fun o' ho' => ?_
    cases ho o' (List.mem_cons_of_mem _ ho') with
    | inl hc =>
      refine .inl ?_
      rw [contains_touch, hc, Bool.or_true]
    | inr hmem => exact .inr hmem

end RecordTable.Covers

namespace Staging

variable {s s' : Staging κ π} {extra : List ObjectId}

/-- No touch that follows an edge event creates, deletes or marks an object. -/
theorem isPlain_followTouches {event : EdgeEvent} {user : Option Principal} {edge : Edge κ}
    {x : Touch κ} (hx : x ∈ s.followTouches event user edge) : x.IsPlain := by
  obtain ⟨source, target, -, -, htells⟩ := tellsOfEdge_followTouches hx
  exact .inl htells.initial_eq

/-- Unless it marks an object, a recording opens modified records only, apart
    from those that it creates. -/
theorem isPlain_touches {m : Mutation κ π} (hm : ∀ object, m ≠ .propagate object)
    {x : Touch κ} (hx : x ∈ m.touches s) : x.IsPlain := by
  cases m with
  | create user object => rw [List.mem_singleton.mp hx]; exact .inr ⟨rfl, _, rfl⟩
  | createEdge user edge =>
    cases List.mem_cons.mp hx with
    | inl heq => rw [heq]; exact .inr ⟨rfl, _, rfl⟩
    | inr hrest => exact isPlain_followTouches hrest
  | deleteEdge user edge passive =>
    cases List.mem_cons.mp hx with
    | inl heq => rw [heq]; exact .inl rfl
    | inr hrest => exact isPlain_followTouches hrest
  | propagate object => exact absurd rfl (hm object)
  | modify user object key previous new => rw [List.mem_singleton.mp hx]; exact .inl rfl
  | delete user object passive => rw [List.mem_singleton.mp hx]; exact .inl rfl
  | flagAspect aspect object => rw [List.mem_singleton.mp hx]; exact .inl rfl
  | setCallback object token => rw [List.mem_singleton.mp hx]; exact .inl rfl
  | _ => cases hx

/-- The first staging area is as the second beside the records, and its
    records cover those of the second. -/
structure Covers (extra : List ObjectId) (s s' : Staging κ π) : Prop where
  frame : s.frame = s'.frame
  table : s.table.silent.Covers extra s'.table.silent

namespace Covers

theorem contains (h : s.Covers extra s') {id : ObjectId} (hc : s'.contains id = true) :
    s.contains id = true := by
  rw [contains_table, ← RecordTable.contains_silent] at hc ⊢
  exact h.table.contains hc

/-- The touches of a mark on either side. -/
theorem table_propagate (h : s.Covers extra s') (object : Tracked κ) :
    (s.table.silent.touchAll (Mutation.touches s.hushed (.propagate object))).Covers extra
      (s'.table.silent.touchAll (Mutation.touches s'.hushed (.propagate object))) := by
  show (s.table.silent.touchAll (if s.propagated.contains object.id || s.contains object.id
      then [] else [⟨object, .propagated, [.propagate]⟩])).Covers extra
    (s'.table.silent.touchAll (if s'.propagated.contains object.id || s'.contains object.id
      then [] else [⟨object, .propagated, [.propagate]⟩]))
  rw [propagated_of_frame h.frame]
  cases s'.propagated.contains object.id with
  | true => exact h.table
  | false =>
    -- Three cases: both sides have a record, only the first has, neither has.
    cases hc' : s'.contains object.id with
    | true =>
      rw [h.contains hc']
      exact h.table
    | false =>
      have hquiet : s'.table.silent.contains object.id = false := by
        rw [RecordTable.contains_silent]
        exact hc'
      cases hc : s.contains object.id with
      | true =>
        have hloud : s.table.silent.contains object.id = true := by
          rw [RecordTable.contains_silent]
          exact hc
        exact h.table.touch_propagated hloud hquiet
      | false =>
        have hloud : s.table.silent.contains object.id = false := by
          rw [RecordTable.contains_silent]
          exact hc
        exact h.table.touch (.inr hloud)

/-- An audited recording keeps covering one that is not audited; what it adds
    are the ends of its edge event. -/
theorem after (h : s.Covers extra s') (ho : s.options.anyAudit = true)
    (ho' : s'.options.anyAudit = false) (m : Mutation κ π) :
    (s.after m).Covers (extra ++ m.ends.map fun o => o.id) (s'.after m) := by
  refine ⟨frame_after h.frame m, ?_⟩
  have htable : (s.table.silent.touchAll (m.touches s.hushed)).Covers extra
      (s'.table.silent.touchAll (m.touches s'.hushed)) := by
    by_cases hm : ∃ object, m = .propagate object
    · obtain ⟨object, rfl⟩ := hm
      exact h.table_propagate object
    · rw [touches_hushed h.frame m fun object heq => absurd ⟨object, heq⟩ hm]
      exact h.table.touchAll fun x hx => isPlain_touches (fun object heq => hm ⟨object, heq⟩) hx
  rw [silent_table_after, silent_table_after, ho, ho', if_pos rfl, if_neg Bool.false_ne_true,
    RecordTable.touchAll_nil]
  split
  next => exact ⟨fun _ _ hnone => (nomatch hnone), fun _ _ hnone => (nomatch hnone)⟩
  next =>
    refine (htable.mono fun id hid => List.mem_append_left _ hid).touchAll_bare fun o hmem => ?_
    cases Mutation.mem_ends_of_mem_audited hmem s.hushed with
    | inl hend =>
      exact .inr (List.mem_append_right _ (List.mem_map.mpr ⟨o, hend, rfl⟩))
    | inr htouched =>
      obtain ⟨x, hx, hxo⟩ := htouched
      refine .inl ?_
      rw [RecordTable.contains_touchAll, Bool.or_eq_true]
      exact .inr (List.any_eq_true.mpr ⟨x, hx, decide_eq_true (by rw [hxo])⟩)

/-- The answers agree, except that marking an object may have found it marked
    by a bare record. -/
theorem answer (h : s.Covers extra s') (m : Mutation κ π) :
    (s.perform m).1 = (s'.perform m).1 ∨
      ∃ object, m = .propagate object ∧ object.id ∈ extra ∧
        (s.perform m).1 = some false ∧ (s'.perform m).1 = some true := by
  by_cases hm : ∃ object, m = .propagate object ∧ s.contains object.id ≠ s'.contains object.id
  · -- Only the first side has a record, which is a bare one.
    obtain ⟨object, rfl, hne⟩ := hm
    have hc' : s'.contains object.id = false := by
      cases hc' : s'.contains object.id with
      | false => rfl
      | true => rw [h.contains hc', hc'] at hne; exact absurd rfl hne
    have hc : s.contains object.id = true := by
      cases hc : s.contains object.id with
      | true => rfl
      | false => rw [hc, hc'] at hne; exact absurd rfl hne
    rw [answer_propagate, answer_propagate, propagated_of_frame h.frame, hc, hc']
    cases s'.propagated.contains object.id with
    | true => exact .inl rfl
    | false =>
      refine .inr ⟨object, rfl, ?_, rfl, rfl⟩
      obtain ⟨r, hr⟩ := Option.isSome_iff_exists.mp hc
      refine (h.table.bare object.id r.dropPushes ?_ ?_).1
      · rw [RecordTable.find?_silent]
        exact congrArg (Option.map Record.dropPushes) hr
      · rw [RecordTable.find?_silent]
        exact congrArg (Option.map Record.dropPushes)
          (Option.not_isSome_iff_eq_none.mp (Bool.eq_false_iff.mp hc'))
  · refine .inl (answer_congr h.frame m fun object heq => ?_)
    by_cases hsame : s.contains object.id = s'.contains object.id
    · exact hsame
    · exact absurd ⟨object, heq, hsame⟩ hm

/-- **A run.** Several recordings keep the covering, with the ends of all their
    edge events set apart. -/
theorem afterAll (h : s.Covers extra s') (ho : s.options.anyAudit = true)
    (ho' : s'.options.anyAudit = false) (ms : List (Mutation κ π)) :
    (s.afterAll ms).Covers (extra ++ (ms.flatMap Mutation.ends).map fun o => o.id)
      (s'.afterAll ms) := by
  induction ms generalizing s s' extra with
  | nil =>
    rw [List.flatMap_nil, List.map_nil, List.append_nil]
    exact h
  | cons m rest ih =>
    have hrest := ih (h.after ho ho' m) (by rw [options_after, ho]) (by rw [options_after, ho'])
    rw [List.append_assoc, ← List.map_append, ← List.flatMap_cons] at hrest
    exact hrest

end Covers

end Staging

end ChangeLedger
