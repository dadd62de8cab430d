/-
  ChangeLedger.Proofs.Reordering — operations on disjoint objects commute.

  An operation touches the records of its own objects: one object, or an edge
  and its end nodes.  What it does to them does not depend on other records,
  so two operations without a common object can change places.  What is left
  of their order are the ticks of the records that they open.

  Main results:
    * `RecordTable.touchAll_comm` — touches of disjoint objects commute.
    * `Staging.after_comm` — so do operations on disjoint objects.
    * `Staging.reordered_runs_agree` — runs that are the same up to swaps of
      such operations give the same answers and stage the same.
-/
import ChangeLedger.Proofs.AuditTransparency
import ChangeLedger.Proofs.Openings
import ChangeLedger.Proofs.Ticks
import Mathlib.Data.List.Perm.Basic
import Mathlib.Logic.Relation

namespace ChangeLedger

variable {κ π : Type}

/-! ## Records -/

namespace RecordTable

/-- The tables hold the same records but for their ticks, and perhaps in
    another order. -/
structure SameButOrder (b b' : RecordTable κ) : Prop where
  nextTick : b.nextTick = b'.nextTick
  ids : b.ids.Perm b'.ids
  records : ∀ id, (b.find? id).map Record.untimed = (b'.find? id).map Record.untimed

namespace SameButOrder

variable {b b' b'' : RecordTable κ}

theorem refl (b : RecordTable κ) : b.SameButOrder b := ⟨rfl, List.Perm.refl _, fun _ => rfl⟩

theorem trans (h : b.SameButOrder b') (h' : b'.SameButOrder b'') : b.SameButOrder b'' :=
  ⟨h.nextTick.trans h'.nextTick, h.ids.trans h'.ids,
    fun id => (h.records id).trans (h'.records id)⟩

/-- The order of the records does not decide which objects have one. -/
theorem contains (h : b.SameButOrder b') (id : ObjectId) : b.contains id = b'.contains id := by
  have hr := congrArg Option.isSome (h.records id)
  rw [Option.isSome_map, Option.isSome_map] at hr
  exact hr

/-- **A step.** A touch of both sides keeps the records the same but for their
    order. -/
theorem touch (h : b.SameButOrder b') (x : Touch κ) : (b.touch x).SameButOrder (b'.touch x) where
  nextTick := by rw [nextTick_touch, nextTick_touch, h.nextTick, h.contains]
  ids := by
    rw [ids_touch, ids_touch, h.contains]
    exact h.ids.append_right _
  records q := by rw [find?_untimed_touch, find?_untimed_touch, h.records q]

/-- **A run.** So do several touches. -/
theorem touchAll (h : b.SameButOrder b') (xs : List (Touch κ)) :
    (b.touchAll xs).SameButOrder (b'.touchAll xs) := by
  induction xs generalizing b b' with
  | nil => exact h
  | cons x rest ih => exact ih (h.touch x)

end SameButOrder

/-- Two touches of different objects commute. -/
theorem touch_comm (b : RecordTable κ) {x y : Touch κ} (h : x.object.id ≠ y.object.id) :
    ((b.touch x).touch y).SameButOrder ((b.touch y).touch x) := by
  -- Neither touch decides whether the other opens a record.
  have hx : (b.touch y).contains x.object.id = b.contains x.object.id := by
    rw [contains_touch, decide_eq_false h, Bool.false_or]
  have hy : (b.touch x).contains y.object.id = b.contains y.object.id := by
    rw [contains_touch, decide_eq_false (Ne.symm h), Bool.false_or]
  refine ⟨?_, ?_, fun q => ?_⟩
  · simp only [nextTick_touch, hx, hy]
    omega
  · simp only [ids_touch, hx, hy, List.append_assoc]
    exact List.perm_append_comm.append_left b.ids
  · simp only [find?_untimed_touch]
    by_cases hqx : q = x.object.id
    · have hqy : ¬ q = y.object.id := fun hqy => h (hqx.symm.trans hqy)
      simp only [if_pos hqx, if_neg hqy]
    · simp only [if_neg hqx]

/-- A touch of an object that others do not touch may come after them. -/
theorem touchAll_touch_comm (b : RecordTable κ) (x : Touch κ) (ys : List (Touch κ))
    (h : ∀ y ∈ ys, x.object.id ≠ y.object.id) :
    ((b.touch x).touchAll ys).SameButOrder ((b.touchAll ys).touch x) := by
  induction ys generalizing b with
  | nil => exact .refl _
  | cons y rest ih =>
    have hswap := b.touch_comm (h y List.mem_cons_self)
    exact (hswap.touchAll rest).trans (ih (b.touch y) fun z hz => h z (List.mem_cons_of_mem y hz))

/-- Touches of disjoint objects commute. -/
theorem touchAll_comm (b : RecordTable κ) (xs ys : List (Touch κ))
    (h : ∀ x ∈ xs, ∀ y ∈ ys, x.object.id ≠ y.object.id) :
    ((b.touchAll xs).touchAll ys).SameButOrder ((b.touchAll ys).touchAll xs) := by
  induction xs generalizing b with
  | nil => exact .refl _
  | cons x rest ih =>
    have hrest := ih (b.touch x) fun z hz => h z (List.mem_cons_of_mem x hz)
    exact hrest.trans ((b.touchAll_touch_comm x ys (h x List.mem_cons_self)).touchAll rest)

end RecordTable

/-! ## The objects of an operation -/

/-- The edge and its end nodes, as far as they can be resolved. -/
def Edge.objects (edge : Edge κ) : List (Tracked κ) :=
  edge.object :: (edge.source?.toList ++ edge.target?.toList)

namespace Mutation

/-- The objects that a recording is about.  Some are about none. -/
def objects : Mutation κ π → List (Tracked κ)
  | .create _ object | .modify _ object .. | .delete _ object _ | .propagate object
  | .flagAspect _ object | .setCallback object _ => [object]
  | .createEdge _ edge | .deleteEdge _ edge _ => edge.objects
  | .defer .. | .disableLog | .describeEdges .. | .clear => []

/-- The identities that a recording is about. -/
def identities (m : Mutation κ π) : List ObjectId := m.objects.map Tracked.id

/-- Whether the recording is an operation, which is about objects. -/
def isOperation (m : Mutation κ π) : Bool := !m.objects.isEmpty

/-- Both are operations, and no object is common to them. -/
def Apart (m m' : Mutation κ π) : Prop :=
  m.isOperation = true ∧ m'.isOperation = true ∧ ∀ id ∈ m.identities, id ∉ m'.identities

instance (m m' : Mutation κ π) : Decidable (m.Apart m') :=
  inferInstanceAs (Decidable (_ ∧ _ ∧ ∀ id ∈ m.identities, id ∉ m'.identities))

theorem Apart.symm {m m' : Mutation κ π} (h : m.Apart m') : m'.Apart m :=
  ⟨h.2.1, h.1, fun id hid' hid => h.2.2 id hid hid'⟩

theorem not_isClear_of_isOperation {m : Mutation κ π} (h : m.isOperation = true) :
    m.isClear = false := by
  cases m with
  | clear => cases h
  | _ => rfl

end Mutation

namespace Staging

/-! ## What an operation touches -/

/-- What follows an edge event touches the edge and its ends. -/
theorem object_mem_followTouches {s : Staging κ π} {event : EdgeEvent} {user : Option Principal}
    {edge : Edge κ} {x : Touch κ} (h : x ∈ s.followTouches event user edge) :
    x.object ∈ edge.objects := by
  obtain ⟨source, target, hs, ht, htells⟩ := tellsOfEdge_followTouches h
  unfold Edge.objects
  rw [hs, ht]
  exact htells.object_mem

/-- A recording touches no other objects than those that it is about. -/
theorem object_mem_touches {s : Staging κ π} {m : Mutation κ π} {x : Touch κ}
    (h : x ∈ m.touches s) : x.object ∈ m.objects := by
  cases m with
  | createEdge user edge =>
    cases List.mem_cons.mp h with
    | inl hedge => rw [hedge]; exact List.mem_cons_self
    | inr hfollow => exact object_mem_followTouches hfollow
  | deleteEdge user edge passive =>
    cases List.mem_cons.mp h with
    | inl hedge => rw [hedge]; exact List.mem_cons_self
    | inr hfollow => exact object_mem_followTouches hfollow
  | propagate object =>
    simp only [Mutation.touches] at h
    split at h
    · cases h
    · rw [List.mem_singleton.mp h]; exact List.mem_singleton_self _
  | create user object | modify user object key previous new | delete user object passive
  | flagAspect aspect object | setCallback object token =>
    rw [List.mem_singleton.mp h]; exact List.mem_singleton_self _
  | defer | disableLog | describeEdges | clear => cases h

/-! ## Beside the records -/

/-- The synchronization keys that an edge event writes to the end nodes. -/
def edgeSyncs (s : Staging κ π) (edge : Edge κ) : List String :=
  if edge.source?.isSome && edge.target?.isSome then
    (s.foldKeys edge.type?).filterMap PropertyKey.sync
  else []

/-- The synchronization keys that an operation writes. -/
def writtenSyncs (s : Staging κ π) : Mutation κ π → List String
  | .modify _ _ key .. => key.sync.toList
  | .createEdge _ edge | .deleteEdge _ edge _ => s.edgeSyncs edge
  | _ => []

/-- The identities that an operation marks. -/
def marks : Mutation κ π → List ObjectId
  | .propagate object => [object.id]
  | _ => []

theorem noteSync_eq (s : Staging κ π) (key : PropertyKey) :
    s.noteSync key = { s with syncKeys := key.sync.toList.foldl SortedSet.insert s.syncKeys } := by
  unfold noteSync
  cases key.sync <;> rfl

/-- Noting several keys adds their synchronization keys, and changes nothing
    else. -/
theorem foldl_noteSync (keys : List PropertyKey) (s : Staging κ π) :
    keys.foldl noteSync s =
      { s with
        syncKeys := (keys.filterMap PropertyKey.sync).foldl SortedSet.insert s.syncKeys } := by
  induction keys generalizing s with
  | nil => rfl
  | cons key rest ih =>
    rw [List.foldl_cons, ih, noteSync_eq, List.filterMap_cons]
    cases key.sync <;> rfl

theorem frame_followEdge_eq {s s' : Staging κ π} (h : s'.frame = s.frame) (event : EdgeEvent)
    (user : Option Principal) (edge : Edge κ) :
    (s'.followEdge event user edge).frame =
      { s.frame with syncKeys := (s.edgeSyncs edge).foldl SortedSet.insert s.syncKeys } := by
  rw [frame_followEdge, h, foldKeys_congr h]
  unfold edgeSyncs
  split
  · exact foldl_noteSync _ _
  · rfl

/-- Beside the records, an operation adds marks and synchronization keys. -/
theorem frame_after_operation (s : Staging κ π) {m : Mutation κ π} (hm : m.isOperation = true) :
    (s.after m).frame =
      { s.frame with
        propagated := (marks m).foldl SortedSet.insert s.propagated
        syncKeys := (s.writtenSyncs m).foldl SortedSet.insert s.syncKeys } := by
  cases m with
  | create user object =>
    show (s.create user object).frame = _
    unfold create
    exact frame_touch _ _ _ _
  | modify user object key previous new =>
    show (s.modify user object key previous new).frame = _
    unfold modify
    dsimp only
    rw [frame_noteSync, frame_touch, noteSync_eq]
    rfl
  | delete user object passive =>
    show (s.delete user object passive).frame = _
    unfold delete
    exact frame_touch _ _ _ _
  | createEdge user edge => exact frame_followEdge_eq (frame_touch _ _ _ _) .created user edge
  | deleteEdge user edge passive =>
    exact frame_followEdge_eq (frame_touch _ _ _ _) .deleted user edge
  | propagate object =>
    show (s.propagate object).2.frame = _
    unfold propagate
    dsimp only
    split
    · rfl
    · exact frame_touch _ _ _ _
  | flagAspect aspect object => exact frame_touch _ _ _ _
  | setCallback object token => exact frame_touch _ _ _ _
  | defer | disableLog | describeEdges | clear => cases hm

/-! ## An operation after another one -/

section

variable {s : Staging κ π} {m m' : Mutation κ π}

/-- An operation describes no type of edges. -/
theorem schema_after_operation (hm : m.isOperation = true) : (s.after m).schema = s.schema := by
  have h := congrArg Staging.schema (frame_after_operation s hm)
  exact h

/-- An operation adds the marks that it sets, and drops none. -/
theorem propagated_after_operation (hm : m.isOperation = true) :
    (s.after m).propagated = (marks m).foldl SortedSet.insert s.propagated := by
  have h := congrArg Staging.propagated (frame_after_operation s hm)
  exact h

/-- An operation adds the synchronization keys of what it writes, and drops
    none. -/
theorem syncKeys_after_operation (hm : m.isOperation = true) :
    (s.after m).syncKeys = (s.writtenSyncs m).foldl SortedSet.insert s.syncKeys := by
  have h := congrArg Staging.syncKeys (frame_after_operation s hm)
  exact h

/-- In which order elements are added to a set makes no difference. -/
theorem foldl_insert_comm {α : Type} [Ord α] [Std.TransOrd α] [Std.LawfulEqOrd α] [DecidableEq α]
    (as bs : List α) (t : SortedSet α) :
    bs.foldl SortedSet.insert (as.foldl SortedSet.insert t) =
      as.foldl SortedSet.insert (bs.foldl SortedSet.insert t) := by
  rw [← List.foldl_append, ← List.foldl_append]
  refine List.perm_append_comm.foldl_eq' (fun a _ b _ t => ?_) t
  refine SortedSet.ext_contains fun c => ?_
  simp only [SortedSet.contains_insert]
  cases decide (c = a) <;> cases decide (c = b) <;> rfl

/-- An operation leaves the marks of other objects alone. -/
theorem contains_marks (hm : m.isOperation = true) {id : ObjectId} (hid : id ∉ m.identities) :
    (s.after m).propagated.contains id = s.propagated.contains id := by
  rw [propagated_after_operation hm]
  cases m with
  | propagate object =>
    have hne : ¬ id = object.id := fun h => hid (h ▸ List.mem_singleton_self _)
    show (s.propagated.insert object.id).contains id = _
    rw [SortedSet.contains_insert, decide_eq_false hne, Bool.false_or]
  | _ => rfl

/-- An operation opens no record of another object. -/
theorem contains_after (hm : m.isOperation = true) {id : ObjectId} (hid : id ∉ m.identities) :
    (s.after m).contains id = s.contains id := by
  rw [contains_table, table_after_touches s (Mutation.not_isClear_of_isOperation hm),
    RecordTable.contains_touchAll, List.any_eq_false.mpr ?_, Bool.or_false]
  · rfl
  · intro x hx
    have hmem : x.object.id ∈ m.identities := List.mem_map_of_mem (object_mem_touches hx)
    exact fun h => hid (of_decide_eq_true h ▸ hmem)

theorem object_mem_identities (object : Tracked κ) :
    object.id ∈ (Mutation.propagate object : Mutation κ π).identities :=
  List.mem_singleton_self _

/-- What an operation touches does not depend on an operation on other objects
    before it. -/
theorem touches_after (h : m.Apart m') : m'.touches (s.after m) = m'.touches s := by
  have hoptions : (s.after m).options = s.options := options_after s m
  have hschema : (s.after m).schema = s.schema := schema_after_operation h.1
  have hfollow : ∀ event user edge,
      (s.after m).followTouches event user edge = s.followTouches event user edge := by
    intro event user edge
    unfold followTouches foldTouches auditTouches
    rw [hoptions, hschema]
  cases m' with
  | propagate object =>
    have hid : object.id ∉ m.identities := fun hmem => h.2.2 _ hmem (object_mem_identities object)
    simp only [Mutation.touches, contains_marks h.1 hid, contains_after h.1 hid]
  | createEdge user edge => exact congrArg (_ :: ·) (hfollow .created user edge)
  | deleteEdge user edge passive => exact congrArg (_ :: ·) (hfollow .deleted user edge)
  | create | modify | delete => simp only [Mutation.touches, auditChanges, hoptions]
  | flagAspect | setCallback => rfl
  | defer | disableLog | describeEdges | clear => cases h.2.1

/-- Nor does its answer. -/
theorem answer_after (h : m.Apart m') : ((s.after m).perform m').1 = (s.perform m').1 := by
  cases m' with
  | propagate object =>
    have hid : object.id ∉ m.identities := fun hmem => h.2.2 _ hmem (object_mem_identities object)
    rw [answer_propagate, answer_propagate, contains_marks h.1 hid, contains_after h.1 hid]
  | defer | disableLog | describeEdges | clear => cases h.2.1
  | _ => rfl

theorem writtenSyncs_after (hm : m.isOperation = true) :
    (s.after m).writtenSyncs m' = s.writtenSyncs m' := by
  unfold writtenSyncs edgeSyncs foldKeys
  rw [schema_after_operation hm]

end

/-! ## Staging areas that stage the same -/

/-- The two stage the same records but for their ticks, perhaps in another
    order, and agree in everything beside them. -/
structure SameButOrder (s s' : Staging κ π) : Prop where
  options : s.options = s'.options
  frame : s.frame = s'.frame
  counters : s.counters = s'.counters
  table : s.table.SameButOrder s'.table

namespace SameButOrder

variable {s s' s'' : Staging κ π}

theorem refl (s : Staging κ π) : s.SameButOrder s := ⟨rfl, rfl, rfl, .refl _⟩

theorem trans (h : s.SameButOrder s') (h' : s'.SameButOrder s'') : s.SameButOrder s'' :=
  ⟨h.options.trans h'.options, h.frame.trans h'.frame, h.counters.trans h'.counters,
    h.table.trans h'.table⟩

theorem contains (h : s.SameButOrder s') (id : ObjectId) : s.contains id = s'.contains id :=
  h.table.contains id

/-- The counters follow from the ticks, if they agreed before. -/
theorem counters_of_ticks {t t' : Staging κ π} {n n' : Nat} (hs : Opened n s t)
    (hs' : Opened n' s' t') (hoptions : s.options = s'.options)
    (hcounters : s.counters = s'.counters) (hbefore : s.nextTick = s'.nextTick)
    (hafter : t.nextTick = t'.nextTick) : t.counters = t'.counters := by
  have hn : n = n' := by
    have h := hs.ticks
    have h' := hs'.ticks
    omega
  rw [hs.counters, hs'.counters, hoptions, hcounters, hn]

/-- The touches of a recording do not depend on the order of the records. -/
theorem touches (h : s.SameButOrder s') (m : Mutation κ π) : m.touches s = m.touches s' := by
  have hfollow : ∀ event user edge,
      s.followTouches event user edge = s'.followTouches event user edge := by
    intro event user edge
    unfold followTouches foldTouches auditTouches
    rw [h.options, schema_of_frame h.frame]
  cases m with
  | propagate object =>
    simp only [Mutation.touches, propagated_of_frame h.frame, h.contains]
  | createEdge user edge => exact congrArg (_ :: ·) (hfollow .created user edge)
  | deleteEdge user edge passive => exact congrArg (_ :: ·) (hfollow .deleted user edge)
  | create | modify | delete => simp only [Mutation.touches, auditChanges, h.options]
  | _ => rfl

/-- Nor does its answer. -/
theorem answer (h : s.SameButOrder s') (m : Mutation κ π) : (s.perform m).1 = (s'.perform m).1 :=
  answer_congr h.frame m fun object _ => h.contains object.id

/-- Every recording keeps them so. -/
theorem after (h : s.SameButOrder s') (m : Mutation κ π) :
    (s.after m).SameButOrder (s'.after m) := by
  have htable : (s.after m).table.SameButOrder (s'.after m).table := by
    rw [table_after, table_after, h.touches m]
    split
    · exact ⟨h.table.nextTick, List.Perm.refl _, fun _ => rfl⟩
    · exact h.table.touchAll _
  obtain ⟨n, hn⟩ := opened_after s m
  obtain ⟨n', hn'⟩ := opened_after s' m
  refine ⟨?_, frame_after h.frame m, ?_, htable⟩
  · rw [options_after, options_after, h.options]
  · exact counters_of_ticks hn hn' h.options h.counters h.table.nextTick htable.nextTick

end SameButOrder

/-- Operations on disjoint objects commute. -/
theorem after_comm (s : Staging κ π) {m m' : Mutation κ π} (h : m.Apart m') :
    ((s.after m).after m').SameButOrder ((s.after m').after m) := by
  have hclear := Mutation.not_isClear_of_isOperation h.1
  have hclear' := Mutation.not_isClear_of_isOperation h.2.1
  have htable : ((s.after m).after m').table.SameButOrder ((s.after m').after m).table := by
    simp only [table_after, hclear, hclear', if_neg Bool.false_ne_true, touches_after h,
      touches_after h.symm]
    refine s.table.touchAll_comm _ _ fun x hx y hy heq => ?_
    exact h.2.2 _ (List.mem_map_of_mem (object_mem_touches hx))
      (heq ▸ List.mem_map_of_mem (object_mem_touches hy))
  obtain ⟨n, hn⟩ := opened_afterAll s [m, m']
  obtain ⟨n', hn'⟩ := opened_afterAll s [m', m]
  refine ⟨?_, ?_, ?_, htable⟩
  · simp only [options_after]
  · -- Marks and keys are added to sets, in which the order does not show.
    have hsyncs : (s.after m).writtenSyncs m' = s.writtenSyncs m' := writtenSyncs_after h.1
    have hsyncs' : (s.after m').writtenSyncs m = s.writtenSyncs m := writtenSyncs_after h.2.1
    rw [frame_after_operation _ h.2.1, frame_after_operation _ h.1, frame_after_operation _ h.1,
      frame_after_operation _ h.2.1, propagated_after_operation h.1,
      propagated_after_operation h.2.1, syncKeys_after_operation h.1,
      syncKeys_after_operation h.2.1, hsyncs, hsyncs', foldl_insert_comm (marks m),
      foldl_insert_comm (s.writtenSyncs m)]
  · exact SameButOrder.counters_of_ticks hn hn' rfl rfl rfl htable.nextTick

/-! ## Reordered runs -/

section

variable {ι : Type}

/-- The answers of a run of labelled recordings, each with its label. -/
def labelledAnswers (s : Staging κ π) (run : List (ι × Mutation κ π)) : List (ι × Option Bool) :=
  (run.map Prod.fst).zip (s.answers (run.map Prod.snd))

/-- The staging area after a run of labelled recordings. -/
def afterRun (s : Staging κ π) (run : List (ι × Mutation κ π)) : Staging κ π :=
  s.afterAll (run.map Prod.snd)

/-- In a run, two adjacent operations on disjoint objects change places. -/
inductive SwapsOnce : List (ι × Mutation κ π) → List (ι × Mutation κ π) → Prop where
  /-- The operations `a` and `b` do. -/
  | swap (past : List (ι × Mutation κ π)) (a b : ι × Mutation κ π)
      (later : List (ι × Mutation κ π)) (h : a.2.Apart b.2) :
      SwapsOnce (past ++ a :: b :: later) (past ++ b :: a :: later)

theorem labelledAnswers_cons (s : Staging κ π) (a : ι × Mutation κ π)
    (run : List (ι × Mutation κ π)) :
    s.labelledAnswers (a :: run) = (a.1, (s.perform a.2).1) :: (s.after a.2).labelledAnswers run :=
  rfl

/-- What stages the same answers the same, and goes on to stage the same. -/
theorem SameButOrder.run {s s' : Staging κ π} (h : s.SameButOrder s')
    (run : List (ι × Mutation κ π)) :
    s.labelledAnswers run = s'.labelledAnswers run ∧
      (s.afterRun run).SameButOrder (s'.afterRun run) := by
  induction run generalizing s s' with
  | nil => exact ⟨rfl, h⟩
  | cons a rest ih =>
    obtain ⟨hanswers, hafter⟩ := ih (h.after a.2)
    exact ⟨by rw [labelledAnswers_cons, labelledAnswers_cons, h.answer, hanswers], hafter⟩

/-- One swap changes no answer, and the same is staged afterwards. -/
theorem swapped_once_agree (s : Staging κ π) {run run' : List (ι × Mutation κ π)}
    (h : SwapsOnce run run') :
    (s.labelledAnswers run).Perm (s.labelledAnswers run') ∧
      (s.afterRun run).SameButOrder (s.afterRun run') := by
  cases h with
  | swap past a b later h =>
    induction past generalizing s with
    | nil =>
      obtain ⟨hanswers, hafter⟩ := (s.after_comm h).run later
      refine ⟨?_, hafter⟩
      show (s.labelledAnswers (a :: b :: later)).Perm (s.labelledAnswers (b :: a :: later))
      simp only [labelledAnswers_cons]
      rw [answer_after h, answer_after h.symm, hanswers]
      exact List.Perm.swap _ _ _
    | cons c rest ih =>
      obtain ⟨hanswers, hafter⟩ := ih (s.after c.2)
      exact ⟨hanswers.cons _, hafter⟩

/-- Two runs that are the same up to swaps of adjacent operations on disjoint
    objects: under its label, each recording has the same answer in both, and
    both stage the same records but for their ticks, with the same marks,
    synchronization keys and next tick. -/
theorem reordered_runs_agree (s : Staging κ π) {run run' : List (ι × Mutation κ π)}
    (h : Relation.ReflTransGen SwapsOnce run run') :
    (s.labelledAnswers run).Perm (s.labelledAnswers run') ∧
      (s.afterRun run).SameButOrder (s.afterRun run') := by
  induction h with
  | refl => exact ⟨List.Perm.refl _, .refl _⟩
  | tail _ hswap ih =>
    obtain ⟨hanswers, hafter⟩ := s.swapped_once_agree hswap
    exact ⟨ih.1.trans hanswers, ih.2.trans hafter⟩

end

/-! ## An edge and a node beside it -/

/-- The creation of an audited edge, two operations on a third node, and a mark
    on a fourth. -/
def edgeFirst : List (Nat × Mutation Unit Unit) :=
  [(0, .createEdge (some ⟨"u", "name"⟩) (sampleEdge "KNOWS")),
    (1, .modify (some ⟨"u", "name"⟩) (sampleNode 5 "uuid-n5") ⟨"email", some "Principal"⟩
      none (some (.int 7))),
    (2, .propagate (sampleNode 5 "uuid-n5")), (3, .propagate (sampleNode 6 "uuid-n6"))]

/-- The same recordings with the edge in the third place. -/
def edgeLate : List (Nat × Mutation Unit Unit) :=
  [(1, .modify (some ⟨"u", "name"⟩) (sampleNode 5 "uuid-n5") ⟨"email", some "Principal"⟩
      none (some (.int 7))),
    (2, .propagate (sampleNode 5 "uuid-n5")),
    (0, .createEdge (some ⟨"u", "name"⟩) (sampleEdge "KNOWS")),
    (3, .propagate (sampleNode 6 "uuid-n6"))]

theorem edgeFirst_edgeLate : Relation.ReflTransGen SwapsOnce edgeFirst edgeLate :=
  .tail (.tail .refl (.swap [] _ _ _ (by decide))) (.swap [_] _ _ _ (by decide))

/-- The runs open their records in different orders, and answer and stage the
    same. -/
theorem reordered_runs_agree_on_an_edge :
    let s : Staging Unit Unit := new (({} : Options).auditing true true) ∅
    Relation.ReflTransGen SwapsOnce edgeFirst edgeLate ∧
    (s.afterRun edgeFirst).ids ≠ (s.afterRun edgeLate).ids ∧
    (s.labelledAnswers edgeFirst).Perm (s.labelledAnswers edgeLate) ∧
    (s.afterRun edgeFirst).SameButOrder (s.afterRun edgeLate) := by
  intro s
  obtain ⟨hanswers, hafter⟩ := reordered_runs_agree s edgeFirst_edgeLate
  exact ⟨edgeFirst_edgeLate, by decide, hanswers, hafter⟩

end Staging

end ChangeLedger
