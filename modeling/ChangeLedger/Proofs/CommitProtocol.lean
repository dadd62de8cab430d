/-
  ChangeLedger.Proofs.CommitProtocol — which calls a commit makes, and when.

  A commit asks the storage once: to roll back if one of the first three
  phases fails, to commit otherwise.  Inner hooks, validators, indexes and
  actions are all called before the storage is asked; outer hooks and the sink
  are called only after it has committed.  Nothing is staged at the end.

  Main results:
    * `prepare_eq_error_iff` — the failure that a commit is aborted with.
    * `commit_takes_one_course` — every commit takes one of three courses.
-/
import ChangeLedger.Proofs.Forgetting
import ChangeLedger.Proofs.Reachability
import ChangeLedger.Transaction.Pool
import Mathlib.Logic.ExistsUnique

namespace ChangeLedger

variable {κ π σ : Type}

/-! ## Calls of one kind -/

/-- Between two moments, only events of one kind were noted. -/
def AddsOnly (kind : Event κ π → Bool) (before after : List (Event κ π)) : Prop :=
  ∃ calls, after = before ++ calls ∧ ∀ e ∈ calls, kind e = true

namespace AddsOnly

variable {kind : Event κ π → Bool} {es es' : List (Event κ π)}

theorem refl : AddsOnly kind es es := ⟨[], (List.append_nil es).symm, by simp⟩

/-- One more event of the kind may be noted. -/
theorem note (h : AddsOnly kind es es') {e : Event κ π} (he : kind e = true) :
    AddsOnly kind es (es' ++ [e]) := by
  obtain ⟨calls, rfl, hall⟩ := h
  refine ⟨calls ++ [e], List.append_assoc es calls [e], ?_⟩
  intro e' he'
  cases List.mem_append.mp he' with
  | inl hold => exact hall e' hold
  | inr hnew => rw [List.mem_singleton.mp hnew]; exact he

end AddsOnly

/-- The calls of the first three phases, phase by phase. -/
def IsPreparation (es : List (Event κ π)) : Prop :=
  ∃ inners checks actions, es = inners ++ checks ++ actions ∧
    (∀ e ∈ inners, e.isInner = true) ∧ (∀ e ∈ checks, e.isCheck = true) ∧
    ∀ e ∈ actions, e.isAction = true

/-! ## The phases, seen from their calls -/

namespace Transaction

variable (h : Hooks κ π σ) (script : InnerScript κ π σ) (sink : Sink σ)

/-- The inner hooks are called, and nothing else. -/
theorem settle_addsOnly (user : Option Principal) (t : Transaction κ π (Watched κ π σ)) :
    AddsOnly Event.isInner t.events (settle (h.watched script) user t).2.events := by
  refine settle_keeps (P := fun t' => AddsOnly Event.isInner t.events t'.events)
    ?_ (fun _ _ ht => ht) t AddsOnly.refl
  intro r t' ht _ _
  obtain ⟨ctx, run, passed, -, hv⟩ :=
    visit_watchedAfter h script (fun _ _ t => t) user r t'
  show AddsOnly Event.isInner t.events
    (visit (h.watchedAfter script fun _ _ t => t) user r t').2.events
  rw [hv]
  exact ht.note rfl

/-- Validation calls validators and indexes. -/
theorem validate_addsOnly (validating : Bool) (t : Transaction κ π (Watched κ π σ)) :
    AddsOnly Event.isCheck t.events (validate (h.watched script) validating t).2.events :=
  validate_keeps (h := h.watched script) (P := fun t' => AddsOnly Event.isCheck t.events t'.events)
    (fun _ _ ht => ht.note rfl) (fun _ _ ht => ht.note rfl) (fun _ _ ht => ht)
    validating t AddsOnly.refl

/-- The third phase runs actions. -/
theorem runDeferred_addsOnly (user : Option Principal) (t : Transaction κ π (Watched κ π σ)) :
    AddsOnly Event.isAction t.events (runDeferred (h.watched script) user t).2.events :=
  runDeferred_keeps (h := h.watched script)
    (P := fun t' => AddsOnly Event.isAction t.events t'.events)
    (fun _ _ ht => ht.note rfl) (fun _ ht => ht) (fun _ _ ht => ht) t AddsOnly.refl

/-- After the storage has committed, outer hooks are called. -/
theorem notify_addsOnly (user : Option Principal) (t : Transaction κ π (Watched κ π σ)) :
    AddsOnly Event.isOuter t.events (notify (h.watched script) user t).2.events :=
  notify_keeps (h := h.watched script) (P := fun t' => AddsOnly Event.isOuter t.events t'.events)
    (fun _ _ ht => ht.note rfl) (fun _ _ ht => ht) t AddsOnly.refl

/-- Last come the appends, in the order of the pool. -/
theorem drainLogsOn_addsOnly (pool : Pool) (t : Transaction κ π (Watched κ π σ)) :
    AddsOnly Event.isAppend t.events (drainLogsOn pool sink.watched t).2.events := by
  by_cases hon : (t.staging.logEnabled && t.staging.options.anyAudit) = true
  · rw [drainLogsOn_on pool sink.watched hon]
    refine Sink.appendAll_keeps (Q := fun w => AddsOnly Event.isAppend t.events w.events)
      ?_ _ t.world AddsOnly.refl
    intro name text w hw
    exact hw.note rfl
  · rw [drainLogsOn_off pool sink.watched hon]
    exact AddsOnly.refl

/-- However far they get, the first three phases make only their own calls. -/
theorem prepare_events (validating : Bool) (user : Option Principal)
    (t : Transaction κ π (Watched κ π σ)) :
    ∃ calls, (prepare (h.watched script) validating user t).2.events = t.events ++ calls ∧
      IsPreparation calls := by
  unfold prepare
  have hs := settle_addsOnly h script user t
  revert hs
  obtain ⟨settled, t₁⟩ := settle (h.watched script) user t
  rintro ⟨inners, h₁, hinners⟩
  cases settled with
  | error e =>
    -- The calls end with the hook that failed.
    exact ⟨inners, h₁, inners, [], [], by simp, hinners, by simp, by simp⟩
  | ok _ =>
    dsimp only at h₁ ⊢
    have hv := validate_addsOnly h script validating t₁
    revert hv
    obtain ⟨validated, t₂⟩ := validate (h.watched script) validating t₁
    rintro ⟨checks, h₂, hchecks⟩
    cases validated with
    | error e =>
      -- They end with the record that was rejected, or not indexed.
      refine ⟨inners ++ checks, ?_, inners, checks, [], by simp, hinners, hchecks, by simp⟩
      rw [← List.append_assoc, ← h₁]
      exact h₂
    | ok _ =>
      dsimp only at h₂ ⊢
      obtain ⟨actions, h₃, hactions⟩ := runDeferred_addsOnly h script user t₂
      refine ⟨inners ++ checks ++ actions, ?_, inners, checks, actions, rfl, hinners, hchecks,
        hactions⟩
      rw [h₃, h₂, h₁]
      simp only [List.append_assoc]

end Transaction

/-! ## The phase that fails -/

open Transaction

/-- The first of the three phases before the storage to fail, and its error. -/
inductive FailsBefore (h : Hooks κ π σ) (validating : Bool) (user : Option Principal)
    (t : Transaction κ π σ) (e : Failure) : Phase → Prop where
  /-- The inner hooks fail. -/
  | innerHooks (hs : (settle h user t).1 = .error e) : FailsBefore h validating user t e .innerHooks
  /-- The inner hooks succeed, and validation fails. -/
  | validation (hs : (settle h user t).1 = .ok ())
      (hv : (validate h validating (settle h user t).2).1 = .error e) :
      FailsBefore h validating user t e .validation
  /-- Both succeed, and an action fails. -/
  | postProcessing (hs : (settle h user t).1 = .ok ())
      (hv : (validate h validating (settle h user t).2).1 = .ok ())
      (hr : (runDeferred h user (validate h validating (settle h user t).2).2).1 = .error e) :
      FailsBefore h validating user t e .postProcessing

/-- Only one phase is the first to fail. -/
theorem FailsBefore.unique {h : Hooks κ π σ} {validating : Bool} {user : Option Principal}
    {t : Transaction κ π σ} {e e' : Failure} {phase phase' : Phase}
    (hf : FailsBefore h validating user t e phase)
    (hf' : FailsBefore h validating user t e' phase') : e = e' ∧ phase = phase' := by
  cases hf with
  | innerHooks hs =>
    cases hf' with
    | innerHooks hs' => exact ⟨Except.error.inj (hs.symm.trans hs'), rfl⟩
    | validation hs' _ | postProcessing hs' _ _ => cases hs.symm.trans hs'
  | validation hs hv =>
    cases hf' with
    | innerHooks hs' => cases hs.symm.trans hs'
    | validation _ hv' => exact ⟨Except.error.inj (hv.symm.trans hv'), rfl⟩
    | postProcessing _ hv' _ => cases hv.symm.trans hv'
  | postProcessing hs hv hr =>
    cases hf' with
    | innerHooks hs' => cases hs.symm.trans hs'
    | validation _ hv' => cases hv.symm.trans hv'
    | postProcessing _ _ hr' => exact ⟨Except.error.inj (hr.symm.trans hr'), rfl⟩

namespace Transaction

section

variable {h : Hooks κ π σ} {validating : Bool} {user : Option Principal} {t : Transaction κ π σ}

/-- If the inner hooks fail, nothing else is tried. -/
theorem prepare_of_settle_error {e : Failure} (hs : (settle h user t).1 = .error e) :
    prepare h validating user t = (.error e, (settle h user t).2) := by
  unfold prepare
  revert hs
  obtain ⟨settled, t₁⟩ := settle h user t
  rintro rfl
  rfl

/-- If validation fails, no action is run. -/
theorem prepare_of_validate_error {e : Failure} (hs : (settle h user t).1 = .ok ())
    (hv : (validate h validating (settle h user t).2).1 = .error e) :
    prepare h validating user t = (.error e, (validate h validating (settle h user t).2).2) := by
  unfold prepare
  revert hs hv
  obtain ⟨settled, t₁⟩ := settle h user t
  rintro rfl
  dsimp only
  obtain ⟨validated, t₂⟩ := validate h validating t₁
  rintro rfl
  rfl

/-- Else the deferred actions have the last word. -/
theorem prepare_of_validate_ok (hs : (settle h user t).1 = .ok ())
    (hv : (validate h validating (settle h user t).2).1 = .ok ()) :
    prepare h validating user t
      = runDeferred h user (validate h validating (settle h user t).2).2 := by
  unfold prepare
  revert hs hv
  obtain ⟨settled, t₁⟩ := settle h user t
  rintro rfl
  dsimp only
  obtain ⟨validated, t₂⟩ := validate h validating t₁
  rintro rfl
  rfl

end

/-- The preparation fails with the error of the first phase that fails. -/
theorem prepare_eq_error_iff (h : Hooks κ π σ) (validating : Bool) (user : Option Principal)
    (t : Transaction κ π σ) (e : Failure) :
    (prepare h validating user t).1 = .error e ↔
      ∃ phase, FailsBefore h validating user t e phase := by
  constructor
  · -- The phases are followed until one of them fails.
    intro hp
    cases hs : (settle h user t).1 with
    | error e' =>
      rw [prepare_of_settle_error hs] at hp
      obtain rfl : e' = e := Except.error.inj hp
      exact ⟨.innerHooks, .innerHooks hs⟩
    | ok _ =>
      cases hv : (validate h validating (settle h user t).2).1 with
      | error e' =>
        rw [prepare_of_validate_error hs hv] at hp
        obtain rfl : e' = e := Except.error.inj hp
        exact ⟨.validation, .validation hs hv⟩
      | ok _ =>
        rw [prepare_of_validate_ok hs hv] at hp
        exact ⟨.postProcessing, .postProcessing hs hv hp⟩
  · -- Conversely, the phases before the one that fails are known to succeed.
    rintro ⟨phase, hf⟩
    cases hf with
    | innerHooks hs => rw [prepare_of_settle_error hs]
    | validation hs hv => rw [prepare_of_validate_error hs hv]
    | postProcessing hs hv hr =>
      rw [prepare_of_validate_ok hs hv]
      exact hr

end Transaction

/-! ## The three courses of a commit -/

/-- The ways a commit can go. -/
inductive CommitCourse where
  /-- A phase before the storage fails. -/
  | aborted
  /-- The storage does not commit. -/
  | refused
  /-- The storage commits. -/
  | concluded
  deriving DecidableEq

/-- A commit of `t` goes this way: which phase fails, what it answers, and
    which calls it makes in which order. -/
inductive TakesCourse (h : Hooks κ π σ) (validating : Bool) (user : Option Principal)
    (t : Transaction κ π σ) :
    CommitCourse → Except Failure CommitReport → List (Event κ π) → Prop where
  /-- One of the first three phases fails.  The storage rolls back, and
      whatever it answers, the failure of the phase is returned. -/
  | aborted {e : Failure} {phase : Phase} {calls : List (Event κ π)}
      (answer : Except Failure Unit) (hf : FailsBefore h validating user t e phase)
      (hp : IsPreparation calls) :
      TakesCourse h validating user t .aborted (.error e) (calls ++ [.rolledBack answer])
  /-- The three phases succeed, and the storage fails to commit. -/
  | refused {e : Failure} {calls : List (Event κ π)}
      (hf : ∀ e phase, ¬ FailsBefore h validating user t e phase) (hp : IsPreparation calls) :
      TakesCourse h validating user t .refused (.error e) (calls ++ [.committed (.error e)])
  /-- The three phases succeed, and so does the commit of the storage.  Then
      the outer hooks are called, and then the logs are appended to. -/
  | concluded {calls outers appends : List (Event κ π)} (report : CommitReport)
      (hf : ∀ e phase, ¬ FailsBefore h validating user t e phase) (hp : IsPreparation calls)
      (ho : ∀ e ∈ outers, e.isOuter = true) (ha : ∀ e ∈ appends, e.isAppend = true) :
      TakesCourse h validating user t .concluded (.ok report)
        (calls ++ [.committed (.ok ())] ++ outers ++ appends)

/-- What fails and what is answered decide the course. -/
theorem TakesCourse.unique {h : Hooks κ π σ} {validating : Bool} {user : Option Principal}
    {t : Transaction κ π σ} {c c' : CommitCourse} {result : Except Failure CommitReport}
    {es es' : List (Event κ π)} (hc : TakesCourse h validating user t c result es)
    (hc' : TakesCourse h validating user t c' result es') : c = c' := by
  cases hc with
  | aborted answer hf hp =>
    cases hc' with
    | aborted _ _ _ => rfl
    | refused hf' _ => exact absurd hf (hf' _ _)
  | refused hf hp =>
    cases hc' with
    | aborted _ hf' _ => exact absurd hf' (hf _ _)
    | refused _ _ => rfl
  | concluded report hf hp ho ha =>
    cases hc' with
    | concluded _ _ _ _ _ => rfl

/-- Nothing is staged: no record, no mark, no key and no action. -/
structure Staging.IsVacant (s : Staging κ π) : Prop where
  records : s.records = []
  propagated : s.propagated = ∅
  syncKeys : s.syncKeys = ∅
  pending : s.pending = []
  claimedKeys : s.claimedKeys = ∅

theorem Staging.isVacant_clear (s : Staging κ π) : s.clear.IsVacant := ⟨rfl, rfl, rfl, rfl, rfl⟩

namespace Transaction

/-- The course of a commit that runs with a given error buffer, added to the
    events so far. -/
theorem commitWithOn_course (pool : Pool) (h : Hooks κ π σ) (script : InnerScript κ π σ)
    (sink : Sink σ) (storage : Storage σ) (validating : Bool) (user : Option Principal)
    (t : Transaction κ π (Watched κ π σ)) :
    let done := commitWithOn pool (h.watched script) sink.watched storage.watched validating user t
    done.2.staging.IsVacant ∧ ∃ course es, done.2.events = t.events ++ es ∧
      TakesCourse (h.following script) validating user t.unwatched course done.1 es := by
  -- Which phase fails is said of hooks that note nothing; these fail alike.
  have hfails : ∀ e, (prepare (h.watched script) validating user t).1 = .error e ↔
      ∃ phase, FailsBefore (h.following script) validating user t.unwatched e phase := by
    intro e
    rw [← prepare_eq_error_iff, ← show _ = prepare (h.following script) validating user t.unwatched
      from mapWorld_prepare (h.watched_refines script) validating user t]
    rfl
  obtain ⟨calls, hevents, hcalls⟩ := prepare_events h script validating user t
  revert hfails hevents
  unfold commitWithOn
  obtain ⟨prepared, t₁⟩ := prepare (h.watched script) validating user t
  intro hfails hevents
  cases prepared with
  | error e =>
    -- The storage is asked to roll back; its answer is noted and not returned.
    obtain ⟨phase, hphase⟩ := (hfails e).mp rfl
    refine ⟨Staging.isVacant_clear _, .aborted,
      calls ++ [.rolledBack (storage.rollback t₁.world.world).1], ?_, .aborted _ hphase hcalls⟩
    show t₁.events ++ _ = _
    rw [hevents, List.append_assoc]
  | ok _ =>
    have hsucceeds : ∀ e phase,
        ¬ FailsBefore (h.following script) validating user t.unwatched e phase := by
      intro e phase hphase
      cases (hfails e).mpr ⟨phase, hphase⟩
    dsimp only
    rw [show (storage.watched (κ := κ) (π := π)).commit t₁.world
      = ((storage.commit t₁.world.world).1, t₁.world.note (storage.commit t₁.world.world).2
          (.committed (storage.commit t₁.world.world).1)) from rfl]
    cases (storage.commit t₁.world.world).1 with
    | error e =>
      -- Its refusal is the last event: nobody is notified.
      refine ⟨Staging.isVacant_clear _, .refused, calls ++ [.committed (.error e)], ?_,
        .refused hsucceeds hcalls⟩
      show t₁.events ++ _ = _
      rw [hevents, List.append_assoc]
    | ok _ =>
      let t₂ : Transaction κ π (Watched κ π σ) :=
        { t₁ with world := t₁.world.note (storage.commit t₁.world.world).2 (.committed (.ok ())) }
      obtain ⟨outers, houters, ho⟩ := notify_addsOnly h script user t₂
      obtain ⟨appends, happends, ha⟩ :=
        drainLogsOn_addsOnly sink pool (notify (h.watched script) user t₂).2
      refine ⟨Staging.isVacant_clear _, .concluded,
        calls ++ [.committed (.ok ())] ++ outers ++ appends, ?_,
        .concluded _ hsucceeds hcalls ho ha⟩
      show (drainLogsOn pool sink.watched (notify (h.watched script) user t₂).2).2.events = _
      have hcommitted : t₂.events = t.events ++ calls ++ [.committed (.ok ())] := by
        show t₁.events ++ _ = _
        rw [hevents]
      rw [happends, houters, hcommitted]
      simp only [List.append_assoc]

/-- A commit takes exactly one of the three courses, whatever hooks, sink, pool
    and storage do, and leaves nothing staged.  What the chronicle sees is what
    happens without it. -/
theorem commit_takes_one_course (pool : Pool) (h : Hooks κ π σ) (script : InnerScript κ π σ)
    (sink : Sink σ) (storage : Storage σ) (validating : Bool) (user : Option Principal)
    (t : Transaction κ π σ) :
    let done := commitOn pool (h.watched script) sink.watched storage.watched validating user
      t.watched
    commitOn pool (h.following script) sink storage validating user t
      = (done.1, done.2.unwatched) ∧
    (∃! course, TakesCourse (h.following script) validating user { t with errors := ∅ } course
      done.1 done.2.events) ∧
    done.2.staging.IsVacant := by
  intro done
  obtain ⟨hvacant, course, es, hevents, htakes⟩ :=
    commitWithOn_course pool h script sink storage validating user { t.watched with errors := ∅ }
  have hes : done.2.events = es := hevents
  refine ⟨?_, ⟨course, ?_, ?_⟩, hvacant⟩
  · exact (mapWorld_commitOn pool (h.watched_refines script) sink.watched_refines
      storage.watched_refines validating user t.watched).symm
  · show TakesCourse _ _ _ _ course done.1 done.2.events
    rw [hes]
    exact htakes
  · intro course' htakes'
    exact htakes'.unique htakes

end Transaction

end ChangeLedger
