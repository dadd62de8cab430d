/-
  ChangeLedger.Proofs.Tallies — what each step of a commit counts.

  A ledger counts in six places: where a record is opened, where a sweep is
  complete, where a phase ends, and where an append is taken or refused.  All
  of this only adds to the counters.  So what a run of steps counts is the sum
  of what the steps count, and a tally keeps that sum in plain numbers, while
  the counters themselves wrap around.

  Records are opened by the recordings of inner hooks, and these stand in the
  events.  A step is accounted for if the records that its calls open are
  counted, and besides them exactly its tally.

  Main results:
    * `Counters.plus_plus` — tallies add up.
    * `Staging.opened_openings` — recordings count the records that they open.
    * `Transaction.visit_accounted`, `sweep_accounted`, `settleWithin_accounted`,
      `settle_accounted` — the inner hooks: one call, one sweep, all sweeps, and
      the phase.
    * `validate_onlyCounts`, `runDeferred_onlyCounts`, `notify_onlyCounts`,
      `drainLogsOn_onlyCounts` — the other phases.
-/
import ChangeLedger.Proofs.CommitProtocol
import ChangeLedger.Proofs.InnerCalls
import ChangeLedger.Proofs.PooledDrains
import ChangeLedger.Proofs.RecordChecks
import ChangeLedger.Proofs.SweepCap
import Mathlib.Algebra.Group.Basic

namespace ChangeLedger

variable {κ π σ : Type}

/-! ## Tallies -/

/-- Activity in plain numbers.  Times are no part of it. -/
@[ext]
structure Tally where
  /-- Records that were opened. -/
  recordsCreated : Nat := 0
  /-- Sweeps of inner hooks that called at least one. -/
  innerSweeps : Nat := 0
  /-- Inner hooks called in those sweeps. -/
  innerHooks : Nat := 0
  /-- Phases that succeeded. -/
  phasesOk : Nat := 0
  /-- Phases that failed. -/
  phasesFailed : Nat := 0
  /-- Appends that a sink took. -/
  logAppends : Nat := 0
  /-- Bytes in those appends. -/
  logBytes : Nat := 0
  /-- Appends that a sink refused. -/
  logFailures : Nat := 0

namespace Tally

instance : Zero Tally := ⟨{}⟩

instance : Add Tally where
  add a b :=
    { recordsCreated := a.recordsCreated + b.recordsCreated
      innerSweeps := a.innerSweeps + b.innerSweeps
      innerHooks := a.innerHooks + b.innerHooks
      phasesOk := a.phasesOk + b.phasesOk
      phasesFailed := a.phasesFailed + b.phasesFailed
      logAppends := a.logAppends + b.logAppends
      logBytes := a.logBytes + b.logBytes
      logFailures := a.logFailures + b.logFailures }

theorem add_def (a b : Tally) : a + b =
    ⟨a.recordsCreated + b.recordsCreated, a.innerSweeps + b.innerSweeps,
      a.innerHooks + b.innerHooks, a.phasesOk + b.phasesOk, a.phasesFailed + b.phasesFailed,
      a.logAppends + b.logAppends, a.logBytes + b.logBytes, a.logFailures + b.logFailures⟩ := rfl

theorem zero_def : (0 : Tally) = {} := rfl

instance : AddCommMonoid Tally where
  add_assoc a b c := by simp only [add_def, Nat.add_assoc]
  zero_add a := by simp only [add_def, zero_def, Nat.zero_add]
  add_zero a := by simp only [add_def, zero_def, Nat.add_zero]
  add_comm a b := by simp only [add_def, Nat.add_comm]
  nsmul := nsmulRec

/-- A phase that ends. -/
def phase (ok : Bool) : Tally := { phasesOk := ok.toNat, phasesFailed := (!ok).toNat }

end Tally

/-! ## Counters and tallies -/

namespace Counters

/-- The counters after some more activity.  The times are left as they are. -/
def plus (c : Counters) (n : Tally) : Counters :=
  { c with
    recordsCreated := c.recordsCreated + UInt64.ofNat n.recordsCreated
    innerSweeps := c.innerSweeps + UInt64.ofNat n.innerSweeps
    innerHooks := c.innerHooks + UInt64.ofNat n.innerHooks
    phasesOk := c.phasesOk + UInt64.ofNat n.phasesOk
    phasesFailed := c.phasesFailed + UInt64.ofNat n.phasesFailed
    logAppends := c.logAppends + UInt64.ofNat n.logAppends
    logBytes := c.logBytes + UInt64.ofNat n.logBytes
    logFailures := c.logFailures + UInt64.ofNat n.logFailures }

theorem plus_zero (c : Counters) : c.plus 0 = c := by
  simp [plus, Tally.zero_def]

/-- Tallies add up, although the counters wrap around. -/
theorem plus_plus (c : Counters) (a b : Tally) : (c.plus a).plus b = c.plus (a + b) := by
  simp only [plus, Tally.add_def, UInt64.ofNat_add, UInt64.add_assoc]

theorem recordCreated_eq_plus (c : Counters) :
    c.recordCreated = c.plus { recordsCreated := 1 } := by
  simp [recordCreated, plus]

/-- Records are counted one by one. -/
theorem iterate_recordCreated (n : Nat) (c : Counters) :
    recordCreated^[n] c = c.plus { recordsCreated := n } := by
  induction n generalizing c with
  | zero => exact c.plus_zero.symm
  | succ n ih =>
    rw [Function.iterate_succ_apply, ih, recordCreated_eq_plus, plus_plus, add_comm]
    rfl

theorem innerSweep_eq_plus (c : Counters) (hooks : Nat) :
    c.innerSweep hooks = c.plus { innerSweeps := 1, innerHooks := hooks } := by
  simp [innerSweep, plus]

theorem phaseFinished_eq_plus (c : Counters) (phase : Phase) (ok : Bool) :
    c.phaseFinished phase 0 ok = c.plus (.phase ok) := by
  unfold phaseFinished Tally.phase plus
  cases ok <;> cases phase <;> simp

theorem appendsMade_eq_plus (c : Counters) (taken bytes refused : Nat) :
    c.appendsMade taken bytes refused =
      c.plus { logAppends := taken, logBytes := bytes, logFailures := refused } := by
  simp [appendsMade, plus]

end Counters

/-! ## What is counted between two staging areas -/

/-- Records that are opened in no particular place. -/
def Tally.records (n : Nat) : Tally := { recordsCreated := n }

theorem Tally.records_add (m n : Nat) : records m + records n = records (m + n) := rfl

/-- If no other record was opened, these are all. -/
theorem Tally.records_add_of_none {n : Tally} (hn : n.recordsCreated = 0) (k : Nat) :
    records k + n = { n with recordsCreated := k } := by
  simp only [records, add_def, hn, Nat.add_zero, Nat.zero_add]

namespace Staging

/-- From one staging area to the other just this was counted, if activity is
    counted at all.  Every record that was opened took a tick. -/
structure Tallies (n : Tally) (s s' : Staging κ π) : Prop where
  ticks : s'.nextTick = s.nextTick + n.recordsCreated
  options : s'.options = s.options
  counters : s.options.countsActivity = true → s'.counters = s.counters.plus n

variable {s s' s'' : Staging κ π} {m n : Tally}

/-- Nothing is counted by what leaves the ticks, the options and the counters
    alone. -/
theorem Tallies.of_eq (hticks : s'.nextTick = s.nextTick) (hoptions : s'.options = s.options)
    (hcounters : s'.counters = s.counters) : Tallies 0 s s' :=
  ⟨hticks, hoptions, fun _ => hcounters.trans s.counters.plus_zero.symm⟩

theorem Tallies.trans (h : Tallies m s s') (h' : Tallies n s' s'') : Tallies (m + n) s s'' where
  ticks := by
    rw [h'.ticks, h.ticks, Nat.add_assoc]
    rfl
  options := h'.options.trans h.options
  counters hcounts := by
    have hcounts' : s'.options.countsActivity = true := by rw [h.options]; exact hcounts
    rw [h'.counters hcounts', h.counters hcounts, Counters.plus_plus]

/-- Counting counts, and opens nothing. -/
theorem Tallies.count {f : Counters → Counters} (hf : ∀ c, f c = c.plus n)
    (hn : n.recordsCreated = 0) (s : Staging κ π) : Tallies n s (s.count f) where
  ticks := by
    rw [nextTick_count, hn]
    rfl
  options := options_count s f
  counters hcounts := by
    unfold Staging.count
    rw [if_pos hcounts]
    exact hf s.counters

theorem Opened.tallies {k : Nat} (h : Opened k s s') : Tallies (.records k) s s' where
  ticks := h.ticks
  options := h.options
  counters hcounts := by
    rw [h.counters, if_pos hcounts, Counters.iterate_recordCreated]
    rfl

/-- A recording takes a tick for every record that it opens. -/
theorem nextTick_after_openings (s : Staging κ π) (m : Mutation κ π) :
    (s.after m).nextTick = s.nextTick + (s.openings m).length := by
  cases hm : m.isClear with
  | true =>
    obtain ⟨hnone, hticks⟩ := s.stamps_after_clear hm
    unfold openings
    rw [hticks, hnone, List.drop_nil]
    rfl
  | false => rw [(s.stamps_after_openings hm).2, s.openings_eq hm, List.length_zipIdx]

/-- Appends are counted by their outcomes. -/
theorem tallies_countAppends (outcomes : List AppendOutcome) (s : Staging κ π) :
    s.Tallies
      { logAppends := outcomes.countP AppendOutcome.accepted
        logBytes := ((outcomes.filter AppendOutcome.accepted).map AppendOutcome.bytes).sum
        logFailures := outcomes.countP fun o => !o.accepted }
      (outcomes.foldl countAppend s) := by
  rw [countAppends_eq]
  exact .count (fun c => c.appendsMade_eq_plus _ _ _) rfl s

/-- Recordings count the records that they open, and nothing else. -/
theorem opened_openings (s : Staging κ π) (ms : List (Mutation κ π)) :
    Opened (s.openingsAll ms).length s (s.afterAll ms) := by
  induction ms generalizing s with
  | nil => exact .of_eq rfl rfl rfl
  | cons m rest ih =>
    obtain ⟨k, hk⟩ := opened_after s m
    have hlength : k = (s.openings m).length := by
      have hticks := s.nextTick_after_openings m
      have hticks' := hk.ticks
      omega
    show Opened (s.openings m ++ (s.after m).openingsAll rest).length s ((s.after m).afterAll rest)
    rw [List.length_append, ← hlength]
    exact hk.trans (ih (s.after m))

end Staging

/-! ## Steps that are accounted for -/

theorem openingsIn_append (es es' : List (Event κ π)) :
    openingsIn (es ++ es') = openingsIn es ++ openingsIn es' := List.flatMap_append

theorem openings_of_isBystander {e : Event κ π} (he : e.isBystander = true) : e.openings = [] := by
  cases e with
  | recorded | inner | drained | closed => cases he
  | _ => rfl

/-- The calls of all phases but the first are bystanders. -/
theorem Event.isBystander_of_kind {e : Event κ π}
    (he : e.isCheck = true ∨ e.isAction = true ∨ e.isOuter = true ∨ e.isAppend = true) :
    e.isBystander = true := by
  cases e with
  | validated | indexed | acted | notified | appended => rfl
  | _ => rcases he with he | he | he | he <;> cases he

theorem openingsIn_bystanders {es : List (Event κ π)} (hes : ∀ e ∈ es, e.isBystander = true) :
    openingsIn es = [] :=
  List.flatMap_eq_nil_iff.mpr fun e he => openings_of_isBystander (hes e he)

namespace Transaction

/-- From one transaction to the other these calls are made.  The records that
    they open are counted, and besides them just this. -/
structure Accounted (calls : List (Event κ π)) (n : Tally)
    (t t' : Transaction κ π (Watched κ π σ)) : Prop where
  events : t'.events = t.events ++ calls
  tallies : t.staging.Tallies (.records (openingsIn calls).length + n) t'.staging

namespace Accounted

variable {t t' t'' : Transaction κ π (Watched κ π σ)} {calls calls' : List (Event κ π)}
  {m n : Tally}

/-- Nothing happens. -/
theorem refl (t : Transaction κ π (Watched κ π σ)) : Accounted [] 0 t t :=
  ⟨(List.append_nil _).symm, .of_eq rfl rfl rfl⟩

/-- One step after the other. -/
theorem trans (h : Accounted calls m t t') (h' : Accounted calls' n t' t'') :
    Accounted (calls ++ calls') (m + n) t t'' where
  events := by rw [h'.events, h.events, List.append_assoc]
  tallies := by
    rw [openingsIn_append, List.length_append, ← Tally.records_add, add_add_add_comm]
    exact h.tallies.trans h'.tallies

/-- Bystanders open nothing, so that only the counting is left. -/
theorem of_bystanders (hevents : t'.events = t.events ++ calls)
    (hcalls : ∀ e ∈ calls, e.isBystander = true) (ht : t.staging.Tallies n t'.staging) :
    Accounted calls n t t' := by
  refine ⟨hevents, ?_⟩
  rw [openingsIn_bystanders hcalls]
  exact (zero_add n).symm ▸ ht

/-- What makes no call only counts. -/
theorem of_tallies (hevents : t'.events = t.events) (ht : t.staging.Tallies n t'.staging) :
    Accounted [] n t t' :=
  of_bystanders (hevents.trans (List.append_nil _).symm) (List.forall_mem_nil _) ht

/-- A step is followed by one that only counts. -/
theorem counted (h : Accounted calls m t t') (hevents : t''.events = t'.events)
    (ht : t'.staging.Tallies n t''.staging) : Accounted calls (m + n) t t'' := by
  have hboth := h.trans (of_tallies hevents ht)
  rwa [List.append_nil] at hboth

/-- A bystander is called next. -/
theorem note (h : Accounted calls n t t') (w : σ) {e : Event κ π} (he : e.isBystander = true) :
    Accounted (calls ++ [e]) n t { t' with world := t'.world.note w e } := by
  have hone : Accounted [e] 0 t' { t' with world := t'.world.note w e } :=
    of_bystanders rfl (List.forall_mem_singleton.mpr he) (.of_eq rfl rfl rfl)
  rw [← add_zero n]
  exact h.trans hone

/-- What is staged is dropped, and another error buffer is taken. -/
theorem clear (h : Accounted calls n t t') (errors : ErrorBuffer) :
    Accounted calls n t { t'.clear with errors } := by
  rw [← add_zero n]
  exact h.counted rfl (.of_eq rfl rfl rfl)

end Accounted

/-- The end of a phase is counted. -/
theorem tallies_finishPhase (t : Transaction κ π σ) (phase : Phase) (ok : Bool) :
    t.staging.Tallies (.phase ok) (t.finishPhase phase ok).staging :=
  .count (fun c => c.phaseFinished_eq_plus phase ok) rfl t.staging

/-! ## The inner hooks -/

variable (h : Hooks κ π σ) (script : InnerScript κ π σ) (user : Option Principal)

/-- The call of an inner hook counts the records that the hook opens. -/
theorem visit_accounted (r : Record κ) (t : Transaction κ π (Watched κ π σ)) :
    ∃ e : Event κ π, e.isInner = true ∧
      Accounted [e] 0 t (visit (h.watched script) user r t).2 := by
  rw [visit_watched]
  let c := innerCall script user r t.unwatched
  have hopened := (Staging.opened_openings t.staging c.run.recordings).tallies
  refine ⟨c.event, rfl, rfl, ?_⟩
  have hcalls : (openingsIn [c.event]).length
      = (t.staging.openingsAll c.run.recordings).length := by
    unfold openingsIn
    rw [List.flatMap_singleton]
    rfl
  rw [hcalls, add_zero]
  -- To mark the record clean counts nothing.
  show t.staging.Tallies _ c.after.staging
  unfold InnerCall.after
  cases c.passed <;> exact ⟨hopened.ticks, hopened.options, hopened.counters⟩

/-- A sweep counts the records that its hooks open; its answer is the number of
    hooks called. -/
theorem sweep_accounted (ids : List ObjectId) (called : Nat)
    (t : Transaction κ π (Watched κ π σ)) :
    let out := sweep (h.watched script) user ids called t
    ∃ calls, (∀ e ∈ calls, e.isInner = true) ∧ Accounted calls 0 t out.2 ∧
      ∀ n, out.1 = .ok n → n = called + calls.length := by
  induction ids generalizing called t with
  | nil =>
    exact ⟨[], List.forall_mem_nil _, .refl t, fun n hn => (Except.ok.inj hn).symm⟩
  | cons id rest ih =>
    intro out
    rw [show out = sweep (h.watched script) user (id :: rest) called t from rfl]
    unfold sweep
    cases (t.staging.find? id).filter Record.dirty with
    | none => exact ih called t
    | some r =>
      dsimp only
      have hvisit := visit_accounted h script user r t
      revert hvisit
      obtain ⟨answer, t₁⟩ := visit (h.watched script) user r t
      rintro ⟨e, he, hone⟩
      cases answer with
      | error e' =>
        exact ⟨[e], List.forall_mem_singleton.mpr he, hone, fun n hn => by cases hn⟩
      | ok _ =>
        obtain ⟨calls, hinner, hrest, hcount⟩ := ih (called + 1) t₁
        refine ⟨e :: calls, List.forall_mem_cons.mpr ⟨he, hinner⟩, hone.trans hrest, ?_⟩
        intro n hn
        rw [hcount n hn, List.length_cons]
        omega

/-- So many complete sweeps each call a hook, and the next one finds nothing
    dirty and calls none. -/
def SettlesAfter (h : Hooks κ π σ) (user : Option Principal) (n : Nat)
    (t : Transaction κ π σ) : Prop :=
  ∃ t' t'', Sweeps h user n t t' ∧ sweep h user t'.staging.ids 0 t' = (.ok 0, t'')

/-- Two runs of sweeps from one transaction are of one length. -/
theorem SettlesAfter.unique {h : Hooks κ π σ} {user : Option Principal} {m n : Nat}
    {t : Transaction κ π σ} (hm : SettlesAfter h user m t) (hn : SettlesAfter h user n t) :
    m = n := by
  obtain ⟨t', _, hs, hquiet⟩ := hm
  obtain ⟨u', _, hs', hquiet'⟩ := hn
  induction hs generalizing n with
  | none =>
    cases hs' with
    | none => rfl
    | more hsweep _ => cases (Prod.mk.inj (hquiet.symm.trans hsweep)).1
  | more hsweep _ ih =>
    cases hs' with
    | none => cases (Prod.mk.inj (hquiet'.symm.trans hsweep)).1
    | more hsweep' hrest' =>
      -- The first sweep is the same in both.
      obtain ⟨hcalled, rfl⟩ := Prod.mk.inj (hsweep.symm.trans hsweep')
      obtain rfl := Nat.succ.inj (Except.ok.inj hcalled)
      exact congrArg Nat.succ (ih hquiet hrest')

/-- What the first phase counts: the sweeps that are complete and the hooks
    called in these.  If no hook fails, these are all hooks that are called. -/
theorem settleWithin_accounted (left made : Nat) (t : Transaction κ π (Watched κ π σ)) :
    let out := settleWithin (h.watched script) user left made t
    ∃ calls sweeps hooks, (∀ e ∈ calls, e.isInner = true) ∧
      Accounted calls { innerSweeps := sweeps, innerHooks := hooks } t out.2 ∧
      (out.1 = .ok () → hooks = calls.length ∧ SettlesAfter (h.watched script) user sweeps t) := by
  induction left generalizing made t with
  | zero =>
    unfold settleWithin
    cases hf : t.staging.records.find? Record.dirty with
    | some r => exact ⟨[], 0, 0, List.forall_mem_nil _, .refl t, fun hok => by cases hok⟩
    | none =>
      have hclean : ∀ r ∈ t.staging.records, r.dirty = false :=
        fun r hr => Bool.eq_false_iff.mpr (List.find?_eq_none.mp hf r hr)
      exact ⟨[], 0, 0, List.forall_mem_nil _, .refl t,
        fun _ => ⟨rfl, t, t, .none, sweep_of_all_clean hclean _ 0⟩⟩
  | succ left ih =>
    obtain ⟨calls, hinner, hswept, hcount⟩ :=
      sweep_accounted h script user t.staging.ids 0 t
    cases hsweep : sweep (h.watched script) user t.staging.ids 0 t with
    | mk answer t₁ =>
      rw [hsweep] at hswept hcount
      cases answer with
      | error e =>
        rw [settleWithin_of_error hsweep]
        exact ⟨calls, 0, 0, hinner, hswept, fun hok => by cases hok⟩
      | ok called =>
        have hall := hcount called rfl
        cases called with
        | zero =>
          rw [settleWithin_of_ok_zero hsweep]
          exact ⟨calls, 0, 0, hinner, hswept, fun _ => ⟨by omega, t, t₁, .none, hsweep⟩⟩
        | succ called =>
          rw [settleWithin_of_ok_succ hsweep]
          -- The sweep is complete, and is counted before the next one begins.
          let t₂ := t₁.stage fun s => s.count fun c => c.innerSweep (called + 1)
          have hone : Accounted calls { innerSweeps := 1, innerHooks := called + 1 } t t₂ := by
            rw [← zero_add { innerSweeps := 1, innerHooks := called + 1 : Tally }]
            exact hswept.counted rfl
              (.count (fun c => c.innerSweep_eq_plus (called + 1)) rfl t₁.staging)
          obtain ⟨calls', sweeps, hooks, hinner', hrest, hok⟩ := ih (made + 1) t₂
          refine ⟨calls ++ calls', 1 + sweeps, called + 1 + hooks,
            List.forall_mem_append.mpr ⟨hinner, hinner'⟩, hone.trans hrest, fun hsettled => ?_⟩
          obtain ⟨hhooks, t', t'', hsweeps, hquiet⟩ := hok hsettled
          rw [List.length_append, hhooks, Nat.add_comm 1]
          exact ⟨by omega, t', t'', .more hsweep hsweeps, hquiet⟩

/-- The first phase is counted at its end, besides its sweeps. -/
theorem settle_accounted (t : Transaction κ π (Watched κ π σ)) :
    let out := settle (h.watched script) user t
    ∃ calls sweeps hooks, (∀ e ∈ calls, e.isInner = true) ∧
      Accounted calls ({ innerSweeps := sweeps, innerHooks := hooks } + .phase (succeeded out.1))
        t out.2 ∧
      (out.1 = .ok () → hooks = calls.length ∧ SettlesAfter (h.watched script) user sweeps t) := by
  obtain ⟨calls, sweeps, hooks, hinner, hswept, hok⟩ :=
    settleWithin_accounted h script user t.staging.options.maxSweeps 0 t
  exact ⟨calls, sweeps, hooks, hinner, hswept.counted rfl (tallies_finishPhase _ _ _), hok⟩

/-! ## The other phases -/

/-- From one transaction to the other only bystanders are called, and just this
    is counted. -/
def OnlyCounts (n : Tally) (t t' : Transaction κ π (Watched κ π σ)) : Prop :=
  ∃ calls, (∀ e ∈ calls, e.isBystander = true) ∧ Accounted calls n t t'

namespace OnlyCounts

variable {t t' t'' : Transaction κ π (Watched κ π σ)} {m n : Tally}

/-- A phase with calls of one kind, which are bystanders. -/
theorem of_addsOnly {kind : Event κ π → Bool} (hevents : AddsOnly kind t.events t'.events)
    (hkind : ∀ e, kind e = true → e.isBystander = true) (ht : t.staging.Tallies n t'.staging) :
    OnlyCounts n t t' := by
  obtain ⟨calls, hevents, hcalls⟩ := hevents
  have hbystanders : ∀ e ∈ calls, e.isBystander = true := fun e he => hkind e (hcalls e he)
  exact ⟨calls, hbystanders, .of_bystanders hevents hbystanders ht⟩

theorem trans (h : OnlyCounts m t t') (h' : OnlyCounts n t' t'') : OnlyCounts (m + n) t t'' := by
  obtain ⟨calls, hcalls, hfirst⟩ := h
  obtain ⟨calls', hcalls', hsecond⟩ := h'
  exact ⟨calls ++ calls', List.forall_mem_append.mpr ⟨hcalls, hcalls'⟩, hfirst.trans hsecond⟩

/-- After a step with any calls, one that calls only bystanders. -/
theorem after {calls : List (Event κ π)} (h' : OnlyCounts n t' t'') (h : Accounted calls m t t') :
    ∃ others, (∀ e ∈ others, e.isBystander = true) ∧ Accounted (calls ++ others) (m + n) t t'' := by
  obtain ⟨others, hothers, hthen⟩ := h'
  exact ⟨others, hothers, h.trans hthen⟩

end OnlyCounts

/-- Validation counts its end only. -/
theorem validate_onlyCounts (validating : Bool) (t : Transaction κ π (Watched κ π σ)) :
    OnlyCounts (.phase (succeeded (validate (h.watched script) validating t).1)) t
      (validate (h.watched script) validating t).2 := by
  obtain ⟨-, -, -, hstaging⟩ := validateRecords_checked h script validating t.staging.records t
  have hcounted := tallies_finishPhase (validateRecords (h.watched script) validating
    t.staging.records t).2 .validation (succeeded (validate (h.watched script) validating t).1)
  rw [hstaging] at hcounted
  exact .of_addsOnly (validate_addsOnly h script validating t)
    (fun _ he => Event.isBystander_of_kind (.inl he)) hcounted

/-- So do the deferred actions. -/
theorem runDeferred_onlyCounts (t : Transaction κ π (Watched κ π σ)) :
    OnlyCounts (.phase (succeeded (runDeferred (h.watched script) user t).1)) t
      (runDeferred (h.watched script) user t).2 := by
  obtain ⟨-, -, -, hstaging⟩ := runDeferred_calls h script (fun _ _ t => t) user t
  have hcounted := tallies_finishPhase (t.stage fun s => { s with pending := [] })
    .postProcessing (succeeded (runDeferred (h.watched script) user t).1)
  refine .of_addsOnly (runDeferred_addsOnly h script user t)
    (fun _ he => Event.isBystander_of_kind (.inr (.inl he))) ?_
  -- To take the pending actions counts nothing.
  exact hstaging ▸ ⟨hcounted.ticks, hcounted.options, hcounted.counters⟩

/-- So do the outer hooks, and they fail if they leave warnings. -/
theorem notify_onlyCounts (t : Transaction κ π (Watched κ π σ)) :
    OnlyCounts (.phase (notify (h.watched script) user t).1.isEmpty) t
      (notify (h.watched script) user t).2 :=
  .of_addsOnly (notify_addsOnly h script user t)
    (fun _ he => Event.isBystander_of_kind (.inr (.inr (.inl he))))
    (tallies_finishPhase t .outerHooks (notify (h.watched script) user t).1.isEmpty)

/-- Each append is taken or refused. -/
theorem countP_appendAll (sink : Sink σ) (writes : List (LogName × String)) (w : σ) :
    let outcomes := (sink.appendAll writes w).1
    outcomes.countP AppendOutcome.accepted + outcomes.countP (fun o => !o.accepted)
      = writes.length := by
  induction writes generalizing w with
  | nil => rfl
  | cons a rest ih =>
    have hrest := ih (sink.append a.1 a.2 w).2
    rw [Sink.appendAll_cons, List.length_cons]
    dsimp only at hrest ⊢
    rw [List.countP_cons, List.countP_cons]
    cases succeeded (sink.append a.1 a.2 w).1 <;> simp <;> omega

/-- A drain counts the appends that were taken, which are its answer, and those
    that were refused.  Together they are as many as there are texts to write.
    A drain that is skipped is no phase. -/
theorem drainLogsOn_onlyCounts (pool : Pool) (sink : Sink σ)
    (t : Transaction κ π (Watched κ π σ)) :
    let out := drainLogsOn pool sink.watched t
    let drains := t.staging.logEnabled && t.staging.options.anyAudit
    ∃ bytes refused,
      OnlyCounts
        { phasesOk := if drains then 1 else 0
          logAppends := out.1
          logBytes := bytes
          logFailures := refused } t out.2 ∧
      out.1 + refused =
        if drains then (PendingWrites.ofChunks t.staging.auditChunks).entries.length else 0 := by
  intro out drains
  have honly : ∀ n, t.staging.Tallies n out.2.staging → OnlyCounts n t out.2 := fun n ht =>
    .of_addsOnly (drainLogsOn_addsOnly sink pool t)
      (fun _ he => Event.isBystander_of_kind (.inr (.inr (.inr he)))) ht
  by_cases hon : drains = true
  · let outcomes := (sink.watched.appendAll (t.staging.appends pool) t.world).1
    have hout : out = _ := drainLogsOn_on pool sink.watched hon
    have htaken : out.1 = outcomes.countP AppendOutcome.accepted := by rw [hout]
    rw [if_pos hon, if_pos hon, htaken]
    let bytes := ((outcomes.filter AppendOutcome.accepted).map AppendOutcome.bytes).sum
    refine ⟨bytes, outcomes.countP fun o => !o.accepted, honly _ ?_, ?_⟩
    · -- The outcomes are counted one by one, and then the end of the phase.
      have hdropped : t.staging.Tallies 0 t.staging.dropPushes := .of_eq rfl rfl rfl
      have hfinished := (hdropped.trans (Staging.tallies_countAppends outcomes _)).trans
        (.count (fun c => c.phaseFinished_eq_plus .changeLog true) rfl _)
      rw [zero_add] at hfinished
      rw [hout]
      exact hfinished
    · exact (countP_appendAll sink.watched (t.staging.appends pool) t.world).trans
        (t.staging.appends_perm pool).length_eq
  · have hout : out = (0, t) := drainLogsOn_off pool sink.watched hon
    rw [if_neg hon, if_neg hon, hout]
    refine ⟨0, 0, ?_, rfl⟩
    have hnone := honly 0 (hout ▸ .of_eq rfl rfl rfl)
    rwa [hout] at hnone

end Transaction

end ChangeLedger
