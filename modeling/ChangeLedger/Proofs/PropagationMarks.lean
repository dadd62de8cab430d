/-
  ChangeLedger.Proofs.PropagationMarks — the marks of propagation agree with the records.

  The marks and the records are kept apart, and a mark stays even if the object
  turns out to be touched already.  Still every marked identity has a record,
  and every record that only propagation brought about is marked: a record that
  has the verb of propagation was opened by a mark, and whatever drops the
  marks drops the records with them.

  So whether a mark opens a record is decided by the records alone, and that
  happens at most once for each identity until everything staged is dropped.

  Main results:
    * `Staging.marks_propagate` — what one mark does.
    * `keptAlong_marked`, `keptAlong_markedOnce` — the marks of a history.
    * `Transaction.marks_agree_with_records` — marks and records at every
      moment.
-/
import ChangeLedger.Proofs.VerbHistory

namespace ChangeLedger

variable {κ π σ : Type}

namespace Staging

/-! ## One mark -/

/-- A mark of the object gives this answer and leads from `s` to `s'`.  The
    answer is whether the object had no record.  If so it has one now, at the
    end of the records, and else no record changes.  The object is marked
    afterwards, and nothing else has happened to any other identity. -/
structure Marks (s : Staging κ π) (object : Tracked κ) (fresh : Bool) (s' : Staging κ π) :
    Prop where
  answer : fresh = true ↔ s.contains object.id = false
  opened : fresh = true → ∃ r, s'.records = s.records ++ [r] ∧ r.object = object ∧
    r.dirty = true ∧ r.verb = .propagated ∧ r.firstTouch = s.nextTick ∧
    s'.nextTick = s.nextTick + 1
  unchanged : fresh = false → s'.records = s.records ∧ s'.nextTick = s.nextTick
  marked : s'.isPropagated object.id = true
  others : ∀ id, id ≠ object.id → s'.find? id = s.find? id ∧ s'.isPropagated id = s.isPropagated id

/-- The answer of a mark, whatever the marks are. -/
theorem propagate_answer (s : Staging κ π) (object : Tracked κ) :
    (s.propagate object).1 = (!s.isPropagated object.id && !s.contains object.id) := by
  unfold propagate isPropagated contains find?
  dsimp only
  cases s.propagated.contains object.id <;>
    cases (findRecord object.id s.records).isSome <;> rfl

/-- Where every mark has a record, the records decide on the answer. -/
theorem propagate_answer_iff {s : Staging κ π} (hs : s.MarksRecorded) (object : Tracked κ) :
    (s.propagate object).1 = true ↔ s.contains object.id = false := by
  rw [propagate_answer, Bool.and_eq_true, Bool.not_eq_true', Bool.not_eq_true']
  refine ⟨And.right, fun hc => ⟨?_, hc⟩⟩
  cases hp : s.isPropagated object.id with
  | false => rfl
  | true => rw [hs object.id hp] at hc; exact hc

/-- What a mark does to the records follows from its answer. -/
theorem table_propagate (s : Staging κ π) (object : Tracked κ) :
    (s.propagate object).2.table =
      if (s.propagate object).1 then s.table.touch ⟨object, .propagated, [.propagate]⟩
      else s.table := by
  have htable : (s.propagate object).2.table
      = s.table.touchAll (Mutation.touches s (.propagate object)) :=
    s.table_after_touches (m := .propagate object) rfl
  rw [htable, propagate_answer, Mutation.touches]
  unfold isPropagated
  cases s.propagated.contains object.id <;> cases s.contains object.id <;> rfl

theorem isPropagated_propagate (s : Staging κ π) (object : Tracked κ) (id : ObjectId) :
    (s.propagate object).2.isPropagated id = true ↔ id = object.id ∨ s.isPropagated id = true := by
  have hmarks : (s.after (.propagate object)).isPropagated id = true ↔
      id ∈ marks (.propagate object : Mutation κ π) ∨ s.isPropagated id = true :=
    isPropagated_after_iff rfl
  rw [marks, List.mem_singleton] at hmarks
  exact hmarks

/-- Where every mark has a record, a mark does as it should. -/
theorem marks_propagate {s : Staging κ π} (hs : s.MarksRecorded) (object : Tracked κ) :
    s.Marks object (s.propagate object).1 (s.propagate object).2 := by
  have hanswer := propagate_answer_iff hs object
  have htable := s.table_propagate object
  refine ⟨hanswer, fun hfresh => ?_, fun hstale => ?_, ?_, fun id hid => ⟨?_, ?_⟩⟩
  · -- The record is the one that the touch opens.
    have hnew : ¬ (s.table.find? object.id).isSome = true := by
      rw [show (s.table.find? object.id).isSome = s.contains object.id from rfl, hanswer.mp hfresh]
      exact Bool.false_ne_true
    rw [if_pos hfresh] at htable
    unfold RecordTable.touch at htable
    rw [if_neg hnew] at htable
    exact ⟨_, congrArg RecordTable.records htable, rfl, rfl, rfl, rfl,
      congrArg RecordTable.nextTick htable⟩
  · rw [hstale, if_neg Bool.false_ne_true] at htable
    exact ⟨congrArg RecordTable.records htable, congrArg RecordTable.nextTick htable⟩
  · exact (s.isPropagated_propagate object object.id).mpr (.inl rfl)
  · show (s.propagate object).2.table.find? id = s.table.find? id
    rw [htable]
    split
    · rw [RecordTable.find?_touch, if_neg hid]
    · rfl
  · rw [Bool.eq_iff_iff, isPropagated_propagate, or_iff_right hid]

/-! ## The marks of a history -/

/-- The marked identities are those that the history marks. -/
def Marked (s : Staging κ π) (past : List (Recorded κ π)) : Prop :=
  ∀ id, s.isPropagated id = true ↔ ∃ p ∈ past, id ∈ marks p.2

theorem Marked.after {s : Staging κ π} {past : List (Recorded κ π)} (hs : s.Marked past)
    (m : Mutation κ π) : (s.after m).Marked (s.historyAfter m past) := by
  intro id
  unfold historyAfter
  cases hm : m.isClear with
  | true =>
    cases m with
    | clear =>
      -- Neither a mark nor a recording is left.
      have hnone : s.clear.isPropagated id = false := SortedSet.contains_empty id
      show s.clear.isPropagated id = true ↔ _
      rw [hnone, if_pos rfl]
      simp
    | _ => cases hm
  | false =>
    rw [if_neg Bool.false_ne_true, isPropagated_after_iff hm, hs id, or_comm]
    simp only [List.mem_append, List.mem_singleton, or_and_right, exists_or, exists_eq_left]

end Staging

/-- Every recording keeps the marks those of the history. -/
theorem keptAlong_marked :
    KeptAlong fun (s : Staging κ π) (past : List (Recorded κ π)) => s.Marked past where
  recorded m hs := hs.after m
  cleaned _ hs := hs
  counted {s past} f hs := by
    unfold Staging.Marked Staging.isPropagated
    rw [Staging.propagated_count]
    exact hs
  taken hs := hs
  drained hs := hs

theorem marked_new (options : Options) (schema : Schema) :
    (Staging.new options schema : Staging κ π).Marked [] := by
  intro id
  have hnone : (Staging.new options schema : Staging κ π).isPropagated id = false :=
    SortedSet.contains_empty id
  rw [hnone]
  simp

/-- An object that counts as propagated was opened by a mark. -/
theorem openedByMark_of_verbIn {past : List (Recorded κ π)} {id : ObjectId}
    (h : verbIn past id = .propagated) : openedByMark past id = true := by
  unfold verbIn at h
  split at h
  next passive _ => cases passive <;> cases h
  next =>
    split at h
    next => cases h
    next =>
      split at h
      next hopened => exact (Bool.and_eq_true_iff.mp hopened).1
      next => cases h

/-- A mark that opened an object is in the history. -/
theorem exists_mark_of_openedByMark {past : List (Recorded κ π)} {id : ObjectId}
    (h : openedByMark past id = true) : ∃ p ∈ past, id ∈ Staging.marks p.2 := by
  unfold openedByMark at h
  rw [Option.any_eq_true] at h
  obtain ⟨⟨before, m⟩, hfound, hmark⟩ := h
  refine ⟨(before, m), List.mem_of_find?_eq_some hfound, ?_⟩
  have hreaches := List.find?_some hfound
  cases m with
  | propagate object =>
    have hid : (Mutation.propagate object).reaches before id = (decide (object.id = id) || false) :=
      rfl
    rw [hid, Bool.or_false, decide_eq_true_iff] at hreaches
    exact List.mem_singleton.mpr hreaches.symm
  | _ => cases hmark

/-! ## Marks that open a record -/

/-- Whether the recording is a mark of the identity that opens a record. -/
def Mutation.opensByMark (s : Staging κ π) (id : ObjectId) : Mutation κ π → Bool
  | .propagate object => object.id = id && (s.propagate object).1
  | _ => false

namespace Staging

/-- Of the marks of an identity in the history, at most one has opened a record,
    and that record is still there. -/
def MarkedOnce (s : Staging κ π) (past : List (Recorded κ π)) : Prop :=
  ∀ id, past.countP (fun p => p.2.opensByMark p.1 id) ≤ if s.contains id then 1 else 0

/-- A mark opens a record only where there was none. -/
theorem contains_of_opensByMark {s : Staging κ π} {id : ObjectId} {m : Mutation κ π}
    (h : m.opensByMark s id = true) : s.contains id = false ∧ (s.after m).contains id = true := by
  cases m with
  | propagate object =>
    obtain ⟨hid, hfresh⟩ := Bool.and_eq_true_iff.mp h
    rw [decide_eq_true_iff] at hid
    subst hid
    have hanswer := s.propagate_answer object
    rw [hfresh, eq_comm, Bool.and_eq_true, Bool.not_eq_true', Bool.not_eq_true'] at hanswer
    refine ⟨hanswer.2, ?_⟩
    show (s.propagate object).2.table.contains object.id = true
    rw [table_propagate, if_pos hfresh, RecordTable.contains_touch, decide_eq_true rfl,
      Bool.true_or]
  | _ => cases h

theorem MarkedOnce.after {s : Staging κ π} {past : List (Recorded κ π)} (hs : s.MarkedOnce past)
    (m : Mutation κ π) : (s.after m).MarkedOnce (s.historyAfter m past) := by
  intro id
  unfold historyAfter
  cases hm : m.isClear with
  | true =>
    rw [if_pos rfl, List.countP_nil]
    exact Nat.zero_le _
  | false =>
    rw [if_neg Bool.false_ne_true, List.countP_append, List.countP_singleton]
    have hpast := hs id
    cases hopens : m.opensByMark s id with
    | true =>
      -- There was no record, so that no mark before this one opened it.
      obtain ⟨hnew, hthere⟩ := contains_of_opensByMark hopens
      rw [hnew, if_neg Bool.false_ne_true] at hpast
      rw [hthere]
      exact Nat.succ_le_succ hpast
    | false =>
      rw [if_neg Bool.false_ne_true, Nat.add_zero]
      cases hc : s.contains id with
      | true =>
        rw [contains_after_of_contains hm hc, if_pos rfl]
        rw [hc, if_pos rfl] at hpast
        exact hpast
      | false =>
        rw [hc, if_neg Bool.false_ne_true] at hpast
        exact Nat.le_trans hpast (Nat.zero_le _)

/-- Only the objects of the records matter. -/
theorem MarkedOnce.congr {s s' : Staging κ π} {past : List (Recorded κ π)} (hs : s.MarkedOnce past)
    (hstamps : s'.table.stamps = s.table.stamps) : s'.MarkedOnce past := by
  intro id
  have hc : s'.contains id = s.contains id := by
    rw [contains_table, contains_table, RecordTable.contains_eq_any, RecordTable.contains_eq_any,
      RecordTable.objects_eq_stamps, RecordTable.objects_eq_stamps, hstamps]
  rw [hc]
  exact hs id

end Staging

/-- Every recording keeps it so that marks open no record twice. -/
theorem keptAlong_markedOnce :
    KeptAlong fun (s : Staging κ π) (past : List (Recorded κ π)) => s.MarkedOnce past where
  recorded m hs := hs.after m
  cleaned id hs := hs.congr (Staging.stamps_clearDirty _ id)
  counted f hs := hs.congr (by rw [Staging.table_count])
  taken hs := hs.congr rfl
  drained hs := hs.congr (Staging.stamps_dropPushes _)

theorem markedOnce_new (options : Options) (schema : Schema) :
    (Staging.new options schema : Staging κ π).MarkedOnce [] := fun _ => Nat.zero_le _

/-! ## Marks and records -/

/-- Every marked identity has a record, and every record with the verb of
    propagation is marked. -/
structure Staging.MarksAgree (s : Staging κ π) : Prop where
  recorded : s.MarksRecorded
  marked : ∀ r ∈ s.records, r.verb = .propagated → s.isPropagated r.id = true

namespace Transaction

/-- **The marks of propagation agree with the records.**  At every moment of
    every reachable ledger, also between two recordings of one inner hook, every
    marked identity has a record, and every record with the verb of propagation
    is marked; of the marks of an identity since everything staged was last
    dropped, at most one was answered with yes; and a mark of any object is
    answered with yes exactly if the object has no record, which it then gets. -/
theorem marks_agree_with_records (h : Hooks κ π σ) (script : InnerScript κ π σ)
    (plan : InnerPlan κ π σ) (depth : Nat) (sink : Sink σ) (options : Options) (schema : Schema)
    (world : σ) (moves : List (Move κ π σ)) :
    let t := reached (h.nested script plan sink depth) sink options schema world moves
    ∀ s past, t.Moment s past →
      s.MarksAgree ∧ (∀ id, past.countP (fun p => p.2.opensByMark p.1 id) ≤ 1) ∧
      ∀ object, s.Marks object (s.propagate object).1 (s.propagate object).2 := by
  intro t s past hm
  have hordered : s.Ordered := keptAlong_ordered.atMoments h script plan depth sink
    (ordered_new options schema) world moves hm
  have htraced : s.Traced past := keptAlong_traced.atMoments h script plan depth sink
    (traced_new options schema) world moves hm
  have hmarked : s.Marked past := keptAlong_marked.atMoments h script plan depth sink
    (marked_new options schema) world moves hm
  have honce : s.MarkedOnce past := keptAlong_markedOnce.atMoments h script plan depth sink
    (markedOnce_new options schema) world moves hm
  have hrecorded : s.MarksRecorded := htraced.firstTouches.marks
  refine ⟨⟨hrecorded, fun r hr hverb => ?_⟩, fun id => ?_,
    fun object => Staging.marks_propagate hrecorded object⟩
  · -- The verb is read off the history, and so are the marks.
    rw [htraced.verb_eq (hordered.find?_of_mem hr)] at hverb
    exact (hmarked r.id).mpr (exists_mark_of_openedByMark (openedByMark_of_verbIn hverb))
  · have hid := honce id
    split at hid <;> omega

/-- A node that was created is marked, and another one is marked twice.  Only
    the first mark of the other node has opened a record, and it opens no more. -/
theorem marks_agree_with_records_twice :
    let t := reached (idleHooks.nested idleScript idlePlan MemoryLog.sink 0) MemoryLog.sink {} ∅ ∅
      [.record (.create none ada), .record (.propagate ada), .record (.propagate bob),
        .record (.propagate bob)]
    let past := historyOf t.events
    let carol : Tracked Unit := ⟨⟨.node, 4⟩, "n-4", ()⟩
    t.staging.MarksAgree ∧ past.countP (fun p => p.2.opensByMark p.1 bob.id) = 1 ∧
      t.staging.Marks bob false (t.staging.propagate bob).2 ∧
      t.staging.Marks carol true (t.staging.propagate carol).2 := by
  intro t past carol
  obtain ⟨hagree, honce, hmarks⟩ := marks_agree_with_records idleHooks idleScript idlePlan 0
    MemoryLog.sink {} ∅ ∅ [.record (.create none ada), .record (.propagate ada),
      .record (.propagate bob), .record (.propagate bob)] t.staging past .now
  have hleast : 1 ≤ past.countP fun p => p.2.opensByMark p.1 bob.id := by decide
  exact ⟨hagree, Nat.le_antisymm (honce bob.id) hleast, hmarks bob, hmarks carol⟩

end Transaction

end ChangeLedger
