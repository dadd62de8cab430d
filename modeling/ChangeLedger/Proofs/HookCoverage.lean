/-
  ChangeLedger.Proofs.HookCoverage — no write goes unnoticed by its inner hook.

  A record is clean only because an inner hook of its object has passed, and
  nothing but that very call has written to the record since the call began.
  This holds between any two moves, and also in the middle of a phase,
  whenever a recording or an inner hook begins; whether earlier phases failed
  makes no difference.  Once the first phase succeeds, every record is clean,
  and running it again calls no hook.

  Main results:
    * `isClean_after` — a recording cleans nothing, and dirties what it writes.
    * `kept_seen` — every event keeps the clean records seen.
    * `settle_ok_all_clean`, `settle_of_all_clean` — the end of the first phase.
    * `clean_records_were_seen` — the whole statement, for every run.
-/
import ChangeLedger.Proofs.FirstTouch

namespace ChangeLedger

variable {κ π σ : Type}

/-! ## Clean records and written records -/

/-- Whether the object has a record that is not dirty. -/
def RecordTable.isClean (b : RecordTable κ) (id : ObjectId) : Bool :=
  (b.find? id).any fun r => !r.dirty

/-- Whether the object has a record that is not dirty. -/
def Staging.isClean (s : Staging κ π) (id : ObjectId) : Bool := s.table.isClean id

/-- The identities whose records a recording writes to or opens. -/
def Mutation.written (s : Staging κ π) (m : Mutation κ π) : List ObjectId :=
  ((m.touches s).filter fun x => x.writes || !s.contains x.object.id).map fun x => x.object.id

/-- The identities whose records a run of recordings writes to or opens. -/
def Staging.writtenBy (s : Staging κ π) : List (Mutation κ π) → List ObjectId
  | [] => []
  | m :: ms => m.written s ++ (s.after m).writtenBy ms

/-- The identities whose records are written to or opened in an event. -/
def Event.writes : Event κ π → List ObjectId
  | recorded before m => m.written before
  | inner before _ _ recordings _ => before.writtenBy recordings
  | _ => []

/-- An inner hook of the object passed, and no later event wrote to the
    record.  What the hook itself wrote does not count. -/
def SeenByHook (es : List (Event κ π)) (id : ObjectId) : Prop :=
  ∃ past before object ctx recordings later,
    es = past ++ .inner before object ctx recordings true :: later ∧ object.id = id ∧
      ∀ e ∈ later, id ∉ e.writes

theorem SeenByHook.append {es : List (Event κ π)} {id : ObjectId} (h : SeenByHook es id)
    {e : Event κ π} (he : id ∉ e.writes) : SeenByHook (es ++ [e]) id := by
  obtain ⟨past, before, object, ctx, recordings, later, rfl, hid, hlater⟩ := h
  refine ⟨past, before, object, ctx, recordings, later ++ [e], by simp, hid, ?_⟩
  intro e' he'
  cases List.mem_append.mp he' with
  | inl hold => exact hlater e' hold
  | inr hnew => rw [List.mem_singleton.mp hnew]; exact he

/-! ## What recordings do to clean records -/

/-- A touch cleans no record, and dirties the one that it writes to. -/
theorem RecordTable.isClean_touch {b : RecordTable κ} {x : Touch κ} {id : ObjectId}
    (h : (b.touch x).isClean id = true) :
    b.isClean id = true ∧ (x.object.id = id → x.writes = false) := by
  unfold isClean at h ⊢
  rw [find?_touch] at h
  by_cases hid : id = x.object.id
  · rw [if_pos hid, Option.any_some, Record.dirty_applyAll] at h
    cases hf : b.find? id with
    | none =>
      -- a record that the touch opens is dirty
      rw [hf] at h
      simp [Record.opened] at h
    | some r =>
      rw [hf, Option.getD_some, Bool.not_or, Bool.and_eq_true] at h
      obtain ⟨hchanges, hdirty⟩ := h
      rw [Option.any_some]
      refine ⟨hdirty, fun _ => ?_⟩
      unfold Touch.writes
      rw [← Bool.not_eq_true']
      exact hchanges
  · rw [if_neg hid] at h
    exact ⟨h, fun heq => absurd heq.symm hid⟩

theorem RecordTable.isClean_touchAll {b : RecordTable κ} {xs : List (Touch κ)} {id : ObjectId}
    (h : (b.touchAll xs).isClean id = true) :
    b.isClean id = true ∧ ∀ x ∈ xs, x.object.id = id → x.writes = false := by
  induction xs generalizing b with
  | nil => exact ⟨h, by simp⟩
  | cons x rest ih =>
    obtain ⟨hrest, hwrites⟩ := ih h
    obtain ⟨hb, hx⟩ := isClean_touch hrest
    refine ⟨hb, ?_⟩
    intro x' hx'
    cases List.mem_cons.mp hx' with
    | inl heq => rw [heq]; exact hx
    | inr hmem => exact hwrites x' hmem

namespace Staging

variable {s : Staging κ π} {id : ObjectId}

theorem contains_of_isClean (h : s.isClean id = true) : s.contains id = true := by
  unfold isClean RecordTable.isClean at h
  unfold contains
  rw [show s.table.find? id = s.find? id from rfl] at h
  cases hf : s.find? id with
  | none => rw [hf] at h; cases h
  | some r => rfl

/-- What is clean after a recording was clean before, and the recording has
    not written to it. -/
theorem isClean_after {m : Mutation κ π} (h : (s.after m).isClean id = true) :
    s.isClean id = true ∧ id ∉ m.written s := by
  unfold isClean at h
  rw [table_after] at h
  cases hclear : m.isClear with
  | true =>
    rw [hclear, if_pos rfl] at h
    cases h
  | false =>
    rw [hclear, if_neg Bool.false_ne_true] at h
    obtain ⟨hclean, hwrites⟩ := RecordTable.isClean_touchAll h
    refine ⟨hclean, ?_⟩
    -- A touch counts as written if it writes or opens the record.  It did not
    -- write, and the record was there.
    intro hmem
    obtain ⟨x, hx, hid⟩ := List.mem_map.mp hmem
    obtain ⟨hxs, hwritten⟩ := List.mem_filter.mp hx
    have hcontains : s.contains id = true := contains_of_isClean hclean
    rw [hwrites x hxs hid, hid, hcontains] at hwritten
    cases hwritten

theorem isClean_afterAll {ms : List (Mutation κ π)} (h : (s.afterAll ms).isClean id = true) :
    s.isClean id = true ∧ id ∉ s.writtenBy ms := by
  -- Backwards: what is clean at the end was clean before the last recording.
  induction ms generalizing s with
  | nil => exact ⟨h, by simp [writtenBy]⟩
  | cons m rest ih =>
    obtain ⟨hafter, hrest⟩ := ih h
    obtain ⟨hclean, hm⟩ := isClean_after hafter
    refine ⟨hclean, ?_⟩
    show id ∉ m.written s ++ (s.after m).writtenBy rest
    intro hmem
    cases List.mem_append.mp hmem with
    | inl hfirst => exact hm hfirst
    | inr hlater => exact hrest hlater

theorem isClean_clearDirty {q : ObjectId} (hne : id ≠ q)
    (h : (s.update q Record.clearDirty).isClean id = true) : s.isClean id = true := by
  unfold isClean RecordTable.isClean at h ⊢
  rw [show (s.update q Record.clearDirty).table.find? id
      = findRecord id (updateRecord q Record.clearDirty s.records) from rfl,
    findRecord_updateRecord (f := Record.clearDirty) (fun _ => rfl), if_neg hne] at h
  exact h

theorem isClean_dropPushes : s.dropPushes.isClean id = s.isClean id := by
  unfold isClean RecordTable.isClean
  rw [show s.dropPushes.table.find? id = findRecord id (s.records.map Record.dropPushes) from rfl]
  unfold findRecord
  rw [List.find?_map]
  show Option.any _ (Option.map _ (s.records.find? fun r => r.id = id)) = _
  rw [show s.table.find? id = s.records.find? fun r => r.id = id from rfl]
  cases s.records.find? fun r => decide (r.id = id) <;> rfl

end Staging

/-! ## Every clean record was seen -/

/-- Every clean record was seen by its inner hook. -/
def AllSeen (s : Staging κ π) (es : List (Event κ π)) : Prop :=
  ∀ id, s.isClean id = true → SeenByHook es id

/-- An event that writes to nothing keeps what was seen. -/
theorem AllSeen.quiet {s s' : Staging κ π} {es : List (Event κ π)} {e : Event κ π}
    (h : AllSeen s es) (hclean : ∀ id, s'.isClean id = true → s.isClean id = true)
    (he : e.writes = []) : AllSeen s' (es ++ [e]) := by
  intro id hid
  refine (h id (hclean id hid)).append ?_
  rw [he]
  exact List.not_mem_nil

theorem kept_seen : Kept (AllSeen : Staging κ π → List (Event κ π) → Prop) where
  recorded m hs id hid :=
    have ⟨hclean, hwritten⟩ := Staging.isClean_after hid
    (hs id hclean).append hwritten
  passed {s es} object ctx ms hs id hid := by
    by_cases hr : id = object.id
    · -- The call that just passed is the one that saw the record.
      exact ⟨es, s, object, ctx, ms, [], rfl, hr.symm, by simp⟩
    · -- Any other clean record was clean before the call, and not written by it.
      obtain ⟨hclean, hwritten⟩ := Staging.isClean_afterAll (Staging.isClean_clearDirty hr hid)
      exact (hs id hclean).append hwritten
  failed _ _ ms hs id hid :=
    have ⟨hclean, hwritten⟩ := Staging.isClean_afterAll hid
    (hs id hclean).append hwritten
  bystander e he hs := by
    refine hs.quiet (fun _ hid => hid) ?_
    cases e with
    | recorded before m => cases he
    | inner before object ctx ms passed => cases he
    | _ => rfl
  counted f hs id hid := by
    refine hs id ?_
    unfold Staging.isClean at hid
    rw [Staging.table_count] at hid
    exact hid
  taken hs := hs
  drained hs := hs.quiet (fun _ hid => Staging.isClean_dropPushes ▸ hid) rfl
  -- No record is left that could be clean.
  closed _ _ hid := by cases hid

/-! ## The end of the first phase -/

namespace Transaction

variable {h : Hooks κ π σ} {user : Option Principal}

/-- A sweep counts its calls; one that calls no hook finds nothing dirty and
    changes nothing. -/
theorem sweep_ok {ids : List ObjectId} {called n : Nat} {t t' : Transaction κ π σ}
    (hs : sweep h user ids called t = (.ok n, t')) :
    called ≤ n ∧ (n = called → t' = t ∧
      ∀ id ∈ ids, (t.staging.find? id).filter Record.dirty = none) := by
  induction ids generalizing called t with
  | nil =>
    obtain ⟨hn, ht⟩ := Prod.mk.inj hs
    have hcalled : called = n := Except.ok.inj hn
    exact ⟨Nat.le_of_eq hcalled, fun _ => ⟨ht.symm, by simp⟩⟩
  | cons id rest ih =>
    unfold sweep at hs
    cases hf : (t.staging.find? id).filter Record.dirty with
    | none =>
      rw [hf] at hs
      obtain ⟨hle, hsame⟩ := ih hs
      refine ⟨hle, fun hn => ?_⟩
      obtain ⟨ht, hrest⟩ := hsame hn
      refine ⟨ht, fun id' hid' => ?_⟩
      cases List.mem_cons.mp hid' with
      | inl heq => rw [heq]; exact hf
      | inr hmem => exact hrest id' hmem
    | some r =>
      rw [hf] at hs
      dsimp only at hs
      cases hv : visit h user r t with
      | mk answer t₁ =>
        rw [hv] at hs
        cases answer with
        | error e => cases (Prod.mk.inj hs).1
        | ok _ =>
          -- This call counts, so that the sweep is not one without calls.
          obtain ⟨hle, -⟩ := ih hs
          exact ⟨by omega, fun hn => by omega⟩

/-- When the sweeps end well, no look-up finds a dirty record. -/
theorem settleWithin_ok {left made : Nat} {t t' : Transaction κ π σ}
    (hs : settleWithin h user left made t = (.ok (), t')) (id : ObjectId) (r : Record κ)
    (hr : t'.staging.find? id = some r) : r.dirty = false := by
  induction left generalizing made t with
  | zero =>
    -- At the cap, the phase succeeds only if it finds nothing dirty.
    unfold settleWithin at hs
    cases hf : t.staging.records.find? Record.dirty with
    | some r' => rw [hf] at hs; cases (Prod.mk.inj hs).1
    | none =>
      rw [hf] at hs
      obtain ⟨-, rfl⟩ := Prod.mk.inj hs
      have hnone := List.find?_eq_none.mp hf r (List.mem_of_find?_eq_some hr)
      exact Bool.eq_false_iff.mpr hnone
  | succ left ih =>
    unfold settleWithin at hs
    cases hsweep : sweep h user t.staging.ids 0 t with
    | mk answer t₁ =>
      rw [hsweep] at hs
      cases answer with
      | error e => cases (Prod.mk.inj hs).1
      | ok called =>
        cases called with
        | succ called => exact ih hs
        | zero =>
          -- A sweep without calls passed over every staged record, which was then clean.
          obtain ⟨-, rfl⟩ := Prod.mk.inj hs
          obtain ⟨rfl, hclean⟩ := (sweep_ok hsweep).2 rfl
          have hid : r.id = id := Staging.id_of_findRecord hr
          have hmem : id ∈ t₁.staging.ids :=
            List.mem_map.mpr ⟨r, List.mem_of_find?_eq_some hr, hid⟩
          have hnone := hclean id hmem
          rw [hr] at hnone
          cases hd : r.dirty with
          | false => rfl
          | true => rw [Option.filter_some_pos hd] at hnone; cases hnone

/-- When the first phase succeeds, every record is clean. -/
theorem settle_ok_all_clean {t t' : Transaction κ π σ} (hs : settle h user t = (.ok (), t'))
    (hordered : t'.staging.Ordered) : ∀ r ∈ t'.staging.records, r.dirty = false := by
  intro r hr
  unfold settle at hs
  cases hw : settleWithin h user t.staging.options.maxSweeps 0 t with
  | mk answer t₁ =>
    rw [hw] at hs
    obtain ⟨hanswer, rfl⟩ := Prod.mk.inj hs
    have hrecords : (t₁.finishPhase .innerHooks (succeeded answer)).staging.records
        = t₁.staging.records := Staging.records_count _ _
    have hfind := hordered.find?_of_mem hr
    unfold Staging.find? at hfind
    rw [hrecords] at hfind
    rw [show answer = .ok () from hanswer] at hw
    exact settleWithin_ok hw r.id r hfind

theorem sweep_of_all_clean {t : Transaction κ π σ}
    (hclean : ∀ r ∈ t.staging.records, r.dirty = false) (ids : List ObjectId) (called : Nat) :
    sweep h user ids called t = (.ok called, t) := by
  induction ids with
  | nil => rfl
  | cons id rest ih =>
    unfold sweep
    cases hf : t.staging.find? id with
    | none => exact ih
    | some r =>
      have hr : r.dirty = false := hclean r (List.mem_of_find?_eq_some hf)
      rw [Option.filter_some_neg hr]
      exact ih

/-- With every record clean, the first phase calls no hook. -/
theorem settle_of_all_clean {t : Transaction κ π σ}
    (hclean : ∀ r ∈ t.staging.records, r.dirty = false) :
    settle h user t = (.ok (), t.finishPhase .innerHooks true) := by
  have hwithin : settleWithin h user t.staging.options.maxSweeps 0 t = (.ok (), t) := by
    unfold settleWithin
    cases t.staging.options.maxSweeps with
    | zero =>
      have hnone : t.staging.records.find? Record.dirty = none := by
        refine List.find?_eq_none.mpr fun r hr => ?_
        rw [hclean r hr]
        exact Bool.false_ne_true
      dsimp only
      rw [hnone]
    | succ left =>
      dsimp only
      rw [sweep_of_all_clean hclean t.staging.ids 0]
      rfl
  unfold settle
  rw [hwithin]
  rfl

end Transaction

/-! ## Every run -/

/-- In an ordered staging area, a record that is not dirty is clean by
    look-up. -/
theorem AllSeen.of_mem {s : Staging κ π} {es : List (Event κ π)} (h : AllSeen s es)
    (hs : s.Ordered) {r : Record κ} (hr : r ∈ s.records) (hd : r.dirty = false) :
    SeenByHook es r.id := by
  refine h r.id ?_
  unfold Staging.isClean RecordTable.isClean
  rw [show s.table.find? r.id = some r from hs.find?_of_mem hr, Option.any_some, hd]
  rfl

namespace Transaction

/-- After every run, and whenever a recording or an inner hook began in it, a
    record that is not dirty was seen by its inner hook.  When the first phase
    then succeeds, no record is dirty, and running it once more succeeds too,
    without a call and without a change to any record. -/
theorem clean_records_were_seen (h : Hooks κ π σ) (script : InnerScript κ π σ) (sink : Sink σ)
    (options : Options) (schema : Schema) (world : σ) (moves : List (Move κ π σ)) :
    let t := reached (h.watched script) sink options schema world moves
    (∀ r ∈ t.staging.records, r.dirty = false → SeenByHook t.events r.id) ∧
    (∀ past e later before, t.events = past ++ e :: later → e.start? = some before →
      ∀ r ∈ before.records, r.dirty = false → SeenByHook past r.id) ∧
    ∀ user t', settle (h.watched script) user t = (.ok (), t') →
      (∀ r ∈ t'.staging.records, r.dirty = false) ∧
      ∀ user', ∃ t'', settle (h.watched script) user' t' = (.ok (), t'') ∧
        t''.events = t'.events ∧ t''.staging.records = t'.staging.records := by
  intro t
  -- The order is needed to find by its identity a record that stands in the list.
  have hkept := ((kept_ordered (κ := κ) (π := π)).and kept_seen).always
  have hnew : AllSeen (Staging.new options schema : Staging κ π) [] := by
    intro id hid
    cases hid
  have hnone : Kept.AtStarts (fun s es => Staging.Ordered s ∧ AllSeen s es)
      ([] : List (Event κ π)) := by
    intro past e later before hsplit _
    cases past <;> cases hsplit
  obtain ⟨⟨hordered, hseen⟩, hstarts⟩ := hkept.reached h script _ sink
    (fun _ _ _ ht => ht) ⟨⟨ordered_new options schema, hnew⟩, hnone⟩ world moves
  refine ⟨fun r hr hd => hseen.of_mem hordered hr hd, ?_, ?_⟩
  · intro past e later before hsplit hstart r hr hd
    obtain ⟨hord, hall⟩ := hstarts past e later before hsplit hstart
    exact hall.of_mem hord hr hd
  · intro user t' hs
    have hordered' : t'.staging.Ordered := by
      have hk : (settle (h.watched script) user t).2.staging.Ordered :=
        kept_ordered.settle h script _ (fun _ _ _ ht => ht) user hordered
      rw [hs] at hk
      exact hk
    have hclean := settle_ok_all_clean hs hordered'
    -- Run once more, the phase only counts its end.
    refine ⟨hclean, fun user' => ⟨_, settle_of_all_clean hclean, rfl, ?_⟩⟩
    exact Staging.records_count _ _

end Transaction

end ChangeLedger
