/-
  ChangeLedger.Proofs.FirstTouch — records stand in the order of first touch.

  A record is opened at the end of the list with the next tick, and never
  moves or changes its tick.  So in every reachable ledger the ticks ascend
  along the list, and no object has two records.

  Main results:
    * `RecordTable.Ordered.touch` — a touch keeps the order.
    * `Transaction.reached_ordered` — every reachable ledger is in order.
-/
import ChangeLedger.Proofs.Reachability
import ChangeLedger.Proofs.Touches
import Mathlib.Data.List.Nodup

namespace ChangeLedger

variable {κ π σ : Type}

/-- No object has two records, and the records stand in the order of their
    ticks, all of which have been passed. -/
structure RecordTable.Ordered (b : RecordTable κ) : Prop where
  nodup : (b.records.map Record.id).Nodup
  ascend : b.records.Pairwise fun r r' => r.firstTouch < r'.firstTouch
  passed : ∀ r ∈ b.records, r.firstTouch < b.nextTick

namespace RecordTable.Ordered

variable {b : RecordTable κ}

theorem empty (tick : Nat) : (⟨[], tick⟩ : RecordTable κ).Ordered :=
  ⟨List.nodup_nil, List.Pairwise.nil, by simp⟩

/-- Changing records where they stand keeps the order, as long as identities
    and ticks stay. -/
theorem map (hb : b.Ordered) {f : Record κ → Record κ} (hid : ∀ r, (f r).id = r.id)
    (htick : ∀ r, (f r).firstTouch = r.firstTouch) :
    (⟨b.records.map f, b.nextTick⟩ : RecordTable κ).Ordered where
  nodup := by
    show ((b.records.map f).map Record.id).Nodup
    rw [List.map_map, show Record.id ∘ f = Record.id from funext hid]
    exact hb.nodup
  ascend := by
    show (b.records.map f).Pairwise _
    rw [List.pairwise_map]
    simp only [htick]
    exact hb.ascend
  passed r hr := by
    obtain ⟨r', hr', rfl⟩ := List.mem_map.mp hr
    rw [htick]
    exact hb.passed r' hr'

/-- In particular one record may be changed where it stands. -/
theorem update (hb : b.Ordered) (id : ObjectId) {f : Record κ → Record κ}
    (hid : ∀ r, (f r).id = r.id) (htick : ∀ r, (f r).firstTouch = r.firstTouch) :
    (⟨updateRecord id f b.records, b.nextTick⟩ : RecordTable κ).Ordered := by
  refine hb.map (fun r => ?_) (fun r => ?_)
  · split
    next => exact hid r
    next => rfl
  · split
    next => exact htick r
    next => rfl

/-- A record of an object that had none may stand at the end. -/
theorem append (hb : b.Ordered) {r : Record κ} (hr : b.find? r.id = none)
    (htick : r.firstTouch = b.nextTick) :
    (⟨b.records ++ [r], b.nextTick + 1⟩ : RecordTable κ).Ordered where
  nodup := by
    show ((b.records ++ [r]).map Record.id).Nodup
    rw [List.map_append]
    refine List.nodup_append.mpr ⟨hb.nodup, by simp, ?_⟩
    intro id hid id' hid' heq
    obtain ⟨r', hr', rfl⟩ := List.mem_map.mp hid
    rw [List.mem_singleton.mp hid'] at heq
    -- An old record of the same object would have been found.
    have hnot := List.find?_eq_none.mp hr r' hr'
    exact hnot (decide_eq_true heq)
  ascend := by
    show (b.records ++ [r]).Pairwise _
    refine List.pairwise_append.mpr ⟨hb.ascend, List.pairwise_singleton _ _, ?_⟩
    intro r' hr' r'' hr''
    -- The next tick lies beyond every tick in use.
    have hlt := hb.passed r' hr'
    rw [List.mem_singleton.mp hr'']
    omega
  passed r' hr' := by
    show r'.firstTouch < b.nextTick + 1
    cases List.mem_append.mp hr' with
    | inl hold =>
      have hlt := hb.passed r' hold
      omega
    | inr hnew =>
      rw [List.mem_singleton.mp hnew]
      omega

/-- **A step.** A touch keeps the order: it changes a record where it stands, or
    opens one at the end. -/
theorem touch (hb : b.Ordered) (x : Touch κ) : (b.touch x).Ordered := by
  unfold RecordTable.touch
  split
  next =>
    exact hb.update x.object.id (fun r => Record.id_applyAll r x.changes)
      fun r => Record.firstTouch_applyAll r x.changes
  next hnew =>
    refine hb.append ?_ (Record.firstTouch_applyAll _ x.changes)
    rw [show (x.opened b.nextTick).id = x.object.id from Record.id_applyAll _ x.changes]
    exact Option.not_isSome_iff_eq_none.mp hnew

/-- **A run.** So do several touches. -/
theorem touchAll (hb : b.Ordered) (xs : List (Touch κ)) : (b.touchAll xs).Ordered := by
  induction xs generalizing b with
  | nil => exact hb
  | cons x rest ih => exact ih (hb.touch x)

/-- A record that stands in the table is the one that its look-up finds. -/
theorem find?_of_mem (hb : b.Ordered) {r : Record κ} (hr : r ∈ b.records) :
    b.find? r.id = some r := by
  have hsome : (b.find? r.id).isSome = true :=
    List.find?_isSome.mpr ⟨r, hr, decide_eq_true rfl⟩
  obtain ⟨r', hr'⟩ := Option.isSome_iff_exists.mp hsome
  -- The look-up finds some record of the object, and there is only one.
  have hid : r'.id = r.id := Staging.id_of_findRecord hr'
  rw [hr', List.inj_on_of_nodup_map hb.nodup (List.mem_of_find?_eq_some hr') hr hid]

end RecordTable.Ordered

/-! ## Reachable ledgers -/

/-- The records of a staging area are in order. -/
def Staging.Ordered (s : Staging κ π) : Prop := s.table.Ordered

namespace Staging.Ordered

variable {s : Staging κ π}

/-- A recording keeps the records in order. -/
theorem after (hs : s.Ordered) (m : Mutation κ π) : (s.after m).Ordered := by
  unfold Staging.Ordered
  rw [table_after]
  split
  next =>
    -- Dropping everything keeps the next tick, and with no record all is in order.
    exact RecordTable.Ordered.empty s.nextTick
  next => exact RecordTable.Ordered.touchAll hs (m.touches s)

theorem afterAll (hs : s.Ordered) (ms : List (Mutation κ π)) : (s.afterAll ms).Ordered := by
  induction ms generalizing s with
  | nil => exact hs
  | cons m rest ih => exact ih (hs.after m)

theorem count (hs : s.Ordered) (f : Counters → Counters) : (s.count f).Ordered := by
  unfold Staging.Ordered
  rw [table_count]
  exact hs

/-- A record of the staging area is the one that its look-up finds. -/
theorem find?_of_mem (hs : s.Ordered) {r : Record κ} (hr : r ∈ s.records) :
    s.find? r.id = some r := RecordTable.Ordered.find?_of_mem hs hr

end Staging.Ordered

/-- Every event keeps the records in order. -/
theorem kept_ordered : Kept fun (s : Staging κ π) (_ : List (Event κ π)) => s.Ordered where
  recorded m hs := hs.after m
  passed _ _ ms hs := RecordTable.Ordered.update (hs.afterAll ms) _ (fun _ => rfl) fun _ => rfl
  failed _ _ ms hs := hs.afterAll ms
  bystander _ _ hs := hs
  counted f hs := hs.count f
  taken hs := hs
  drained hs := RecordTable.Ordered.map hs (fun _ => rfl) fun _ => rfl
  closed _ := RecordTable.Ordered.empty _

theorem ordered_new (options : Options) (schema : Schema) :
    (Staging.new options schema : Staging κ π).Ordered := RecordTable.Ordered.empty 0

/-- The records of every reachable ledger are in order. -/
theorem Transaction.reached_ordered (h : Hooks κ π σ) (script : InnerScript κ π σ)
    (plan : InnerPlan κ π σ) (depth : Nat) (sink : Sink σ) (options : Options) (schema : Schema)
    (world : σ) (moves : List (Move κ π σ)) :
    (reached (h.nested script plan sink depth) sink options schema world moves).staging.Ordered :=
  kept_ordered.reached h script _ sink (kept_ordered.planned h script sink plan depth)
    (ordered_new options schema) world moves

end ChangeLedger
