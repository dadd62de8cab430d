/-
  ChangeLedger.Proofs.Alike — runs that audit alike stay alike.

  Two staging areas are alike if they differ at most in options, counters and
  audit entries.  Runs of the same recordings that are both audited, or both
  not, stay alike.  If only one is audited, it adds entries to the records of
  the end nodes of edge events, and opens these records if need be: the runs
  stay alike exactly as long as the other one has these records anyway.

  Main results:
    * `runsAlike_of_anyAudit_eq` — both audited, or both not.
    * `runsAlike_iff_endsTracked` — only one audited.
-/
import ChangeLedger.Proofs.Silence

namespace ChangeLedger

variable {κ π : Type}

/-! ## Staging areas that stage the same -/

/-- The two stage the same: they differ at most in options, counters and audit
    entries. -/
structure Staging.Alike (s s' : Staging κ π) : Prop where
  frame : s.frame = s'.frame
  table : s.table.silent = s'.table.silent

namespace Staging

variable {s s' : Staging κ π}

theorem contains_table (s : Staging κ π) (id : ObjectId) :
    s.contains id = s.table.contains id := rfl

/-- Without auditing, what follows an edge event is read off the
    descriptions. -/
theorem followTouches_hushed (h : s.frame = s'.frame) (event : EdgeEvent)
    (user : Option Principal) (edge : Edge κ) :
    s.hushed.followTouches event user edge = s'.hushed.followTouches event user edge := by
  have hschema : s.hushed.schema = s'.hushed.schema := schema_of_frame h
  unfold followTouches foldTouches
  rw [hschema]
  rfl

/-- Without auditing, the touches of a recording depend only on what is beside
    the records, and, if it marks an object, on whether that has a record. -/
theorem touches_hushed (h : s.frame = s'.frame) (m : Mutation κ π)
    (hc : ∀ object, m = .propagate object → s.contains object.id = s'.contains object.id) :
    m.touches s.hushed = m.touches s'.hushed := by
  cases m with
  | createEdge user edge => exact congrArg (_ :: ·) (followTouches_hushed h .created user edge)
  | deleteEdge user edge passive =>
    exact congrArg (_ :: ·) (followTouches_hushed h .deleted user edge)
  | propagate object =>
    show (if s.propagated.contains object.id || s.contains object.id then _ else _)
      = if s'.propagated.contains object.id || s'.contains object.id then _ else _
    rw [propagated_of_frame h, hc object rfl]
  | _ => rfl

/-- A mark is accepted for an object that is neither marked nor has a record. -/
theorem answer_propagate (s : Staging κ π) (object : Tracked κ) :
    (s.perform (.propagate object)).1 =
      some (!(s.propagated.contains object.id || s.contains object.id)) := by
  show some (s.propagate object).1 = _
  unfold propagate
  dsimp only
  rw [show Staging.contains { s with propagated := s.propagated.insert object.id } object.id
    = s.contains object.id from rfl]
  cases s.propagated.contains object.id <;> cases s.contains object.id <;> rfl

/-- An action is accepted under a key that nobody has claimed. -/
theorem answer_defer (s : Staging κ π) (key : String) (action : π) :
    (s.perform (.defer key action)).1 = some (!s.claimedKeys.contains key) := by
  show some (s.defer key action).1 = _
  unfold defer
  cases s.claimedKeys.contains key <;> rfl

/-- The answer of a recording depends on as little. -/
theorem answer_congr (h : s.frame = s'.frame) (m : Mutation κ π)
    (hc : ∀ object, m = .propagate object → s.contains object.id = s'.contains object.id) :
    (s.perform m).1 = (s'.perform m).1 := by
  cases m with
  | propagate object =>
    rw [answer_propagate, answer_propagate, propagated_of_frame h, hc object rfl]
  | defer key action => rw [answer_defer, answer_defer, claimedKeys_of_frame h]
  | _ => rfl

namespace Alike

/-- Staging areas that are alike have records of the same objects. -/
theorem contains (h : s.Alike s') (id : ObjectId) : s.contains id = s'.contains id := by
  rw [contains_table, contains_table, ← RecordTable.contains_silent, h.table,
    RecordTable.contains_silent]

/-- They answer every recording alike. -/
theorem answer (h : s.Alike s') (m : Mutation κ π) : (s.perform m).1 = (s'.perform m).1 :=
  answer_congr h.frame m fun object _ => h.contains object.id

theorem nextTick (h : s.Alike s') : s.nextTick = s'.nextTick := by
  have ht : s.table.silent.nextTick = s'.table.silent.nextTick :=
    congrArg RecordTable.nextTick h.table
  exact ht

/-- If both are audited, or both are not, a recording keeps them alike. -/
theorem after (h : s.Alike s') (ho : s.options.anyAudit = s'.options.anyAudit)
    (m : Mutation κ π) : (s.after m).Alike (s'.after m) where
  frame := frame_after h.frame m
  table := by
    rw [silent_table_after, silent_table_after, h.nextTick, h.table, ho,
      touches_hushed h.frame m fun object _ => h.contains object.id]

/-- If one is audited, a recording keeps them alike exactly if it leaves the
    ends of its edge event with records anyway. -/
theorem after_iff (h : s.Alike s') (ho : s.options.anyAudit = true)
    (ho' : s'.options.anyAudit = false) (m : Mutation κ π) :
    (s.after m).Alike (s'.after m) ↔ ∀ o ∈ m.ends, (s'.after m).contains o.id = true := by
  have htouches := touches_hushed h.frame m fun object _ => h.contains object.id
  constructor
  · -- The audited side has the record, and so has the other if they are alike.
    intro halike o hmem
    rw [← halike.contains, contains_table, ← RecordTable.contains_silent, silent_table_after,
      Mutation.not_isClear_of_mem_ends hmem, if_neg Bool.false_ne_true, ho, if_pos rfl,
      RecordTable.contains_touchAll, Bool.or_eq_true]
    have hbare : Touch.bare o ∈ m.audited.map Touch.bare :=
      List.mem_map.mpr ⟨o, Mutation.mem_audited_of_mem_ends hmem, rfl⟩
    exact .inr (List.any_eq_true.mpr ⟨_, hbare, decide_eq_true rfl⟩)
  · intro hends
    refine ⟨frame_after h.frame m, ?_⟩
    rw [silent_table_after, silent_table_after, ho, ho', h.nextTick, h.table, htouches, if_pos rfl,
      if_neg Bool.false_ne_true, RecordTable.touchAll_nil]
    split
    next => rfl
    next hclear =>
      -- Bare touches of objects that have records change nothing.
      refine RecordTable.touchAll_bare _ _ fun o ho => ?_
      cases Mutation.mem_ends_of_mem_audited ho s'.hushed with
      | inl hmem =>
        have hc := hends o hmem
        rw [contains_table, ← RecordTable.contains_silent, silent_table_after, if_neg hclear, ho',
          if_neg Bool.false_ne_true, RecordTable.touchAll_nil] at hc
        exact hc
      | inr htouched =>
        obtain ⟨x, hx, hxo⟩ := htouched
        rw [RecordTable.contains_touchAll, Bool.or_eq_true]
        refine .inr (List.any_eq_true.mpr ⟨x, hx, decide_eq_true ?_⟩)
        rw [hxo]

end Alike

/-! ## Runs that stay alike -/

/-- The runs of these recordings give the same answers and stage the same
    after every part of them. -/
structure RunsAlike (s s' : Staging κ π) (ms : List (Mutation κ π)) : Prop where
  answers : s.answers ms = s'.answers ms
  alike : ∀ n, (s.afterAll (ms.take n)).Alike (s'.afterAll (ms.take n))

/-- Each edge event in the run leaves its end nodes with records. -/
def EndsTracked (s : Staging κ π) : List (Mutation κ π) → Prop
  | [] => True
  | m :: ms => (∀ o ∈ m.ends, (s.after m).contains o.id = true) ∧ (s.after m).EndsTracked ms

theorem RunsAlike.cons_iff (h : s.Alike s') (m : Mutation κ π) (ms : List (Mutation κ π)) :
    s.RunsAlike s' (m :: ms) ↔
      (s.after m).Alike (s'.after m) ∧ (s.after m).RunsAlike (s'.after m) ms := by
  constructor
  · intro hruns
    refine ⟨hruns.alike 1, (List.cons_eq_cons.mp hruns.answers).2, fun n => ?_⟩
    exact hruns.alike (n + 1)
  · rintro ⟨hafter, hrest⟩
    refine ⟨List.cons_eq_cons.mpr ⟨h.answer m, hrest.answers⟩, fun n => ?_⟩
    cases n with
    | zero => exact h
    | succ n => exact hrest.alike n

/-- Runs that are both audited, or both not, stay alike. -/
theorem runsAlike_of_anyAudit_eq (h : s.Alike s') (ho : s.options.anyAudit = s'.options.anyAudit)
    (ms : List (Mutation κ π)) : s.RunsAlike s' ms := by
  induction ms generalizing s s' with
  | nil =>
    refine ⟨rfl, fun n => ?_⟩
    rw [List.take_nil]
    exact h
  | cons m rest ih =>
    refine (RunsAlike.cons_iff h m rest).mpr ⟨h.after ho m, ih (h.after ho m) ?_⟩
    rw [options_after, options_after, ho]

/-- An audited run stays like one that is not exactly as long as every edge
    event leaves its end nodes with records anyway. -/
theorem runsAlike_iff_endsTracked (h : s.Alike s') (ho : s.options.anyAudit = true)
    (ho' : s'.options.anyAudit = false) (ms : List (Mutation κ π)) :
    s.RunsAlike s' ms ↔ s'.EndsTracked ms := by
  induction ms generalizing s s' with
  | nil => exact ⟨fun _ => trivial, fun _ => ⟨rfl, fun n => by rw [List.take_nil]; exact h⟩⟩
  | cons m rest ih =>
    rw [RunsAlike.cons_iff h]
    -- Once they are no longer alike, nothing is claimed about the rest.
    have hkeep : ∀ halike : (s.after m).Alike (s'.after m),
        (s.after m).RunsAlike (s'.after m) rest ↔ (s'.after m).EndsTracked rest :=
      fun halike => ih halike (by rw [options_after, ho]) (by rw [options_after, ho'])
    constructor
    · rintro ⟨halike, hruns⟩
      exact ⟨(h.after_iff ho ho' m).mp halike, (hkeep halike).mp hruns⟩
    · rintro ⟨hends, hrest⟩
      have halike := (h.after_iff ho ho' m).mpr hends
      exact ⟨halike, (hkeep halike).mpr hrest⟩

end Staging

end ChangeLedger
