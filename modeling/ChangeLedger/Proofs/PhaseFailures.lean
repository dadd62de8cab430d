/-
  ChangeLedger.Proofs.PhaseFailures — where the failure of a phase comes from.

  The first three phases fail with errors of two kinds: those that they make
  themselves, out of tokens, refusals and caps, and those that they were given
  by a hook.  The third phase rewrites what an action answers; the first two
  pass on the answer of an inner hook and of an index as it is, whatever kind
  of error it may be.

  Main results:
    * `settle_error`, `validate_error`, `runDeferred_error` — the origin of
      the failure of a phase.
    * `commit_failure_aborts` — the failure of a commit that is aborted says
      so, unless a hook answered with one that says otherwise.
-/
import ChangeLedger.Proofs.CommitProtocol
import ChangeLedger.Proofs.References

namespace ChangeLedger

variable {κ π σ : Type}

namespace Transaction

variable {h : Hooks κ π σ} {user : Option Principal} {e : Failure} {t t' : Transaction κ π σ}

/-! ## The inner hooks -/

/-- A visit fails with the answer of the hook, or with the tokens that it
    added. -/
theorem visit_error {r : Record κ} (hv : visit h user r t = (.error e, t')) :
    h.inner r.object ⟨user, r.verb, r.callback⟩ t = (.error e, t') ∨
      ∃ message, e = .hook r.id .innerHooks message := by
  unfold visit at hv
  dsimp only at hv
  revert hv
  obtain ⟨answer, t₁⟩ := h.inner r.object ⟨user, r.verb, r.callback⟩ t
  intro hv
  cases answer with
  | error e₁ => exact .inl hv
  | ok _ =>
    dsimp only at hv
    split at hv
    · exact .inr ⟨_, (Except.error.inj (Prod.mk.inj hv).1).symm⟩
    · cases (Prod.mk.inj hv).1

/-- A sweep fails where a visit does. -/
theorem sweep_error {ids : List ObjectId} {called : Nat}
    (hs : sweep h user ids called t = (.error e, t')) :
    ∃ r t₁, visit h user r t₁ = (.error e, t') := by
  induction ids generalizing called t with
  | nil => cases (Prod.mk.inj hs).1
  | cons id rest ih =>
    unfold sweep at hs
    cases hf : (t.staging.find? id).filter Record.dirty with
    | none =>
      rw [hf] at hs
      exact ih hs
    | some r =>
      rw [hf] at hs
      dsimp only at hs
      cases hv : visit h user r t with
      | mk answer t₁ =>
        rw [hv] at hs
        cases answer with
        | error e₁ =>
          obtain ⟨he, rfl⟩ := Prod.mk.inj hs
          exact ⟨r, t, by rw [hv, Except.error.inj he]⟩
        | ok _ => exact ih hs

theorem settleWithin_error {left made : Nat}
    (hs : settleWithin h user left made t = (.error e, t')) :
    (∃ r t₁, visit h user r t₁ = (.error e, t')) ∨ ∃ id sweeps, e = notSettled id sweeps := by
  induction left generalizing made t with
  | zero =>
    unfold settleWithin at hs
    split at hs
    · cases (Prod.mk.inj hs).1
    · exact .inr ⟨_, _, (Except.error.inj (Prod.mk.inj hs).1).symm⟩
  | succ left ih =>
    unfold settleWithin at hs
    cases hsweep : sweep h user t.staging.ids 0 t with
    | mk answer t₁ =>
      rw [hsweep] at hs
      match answer with
      | .error e₁ =>
        obtain ⟨he, rfl⟩ := Prod.mk.inj hs
        rw [Except.error.inj he] at hsweep
        exact .inl (sweep_error hsweep)
      | .ok 0 => cases (Prod.mk.inj hs).1
      | .ok (called + 1) => exact ih hs

/-- The first phase fails with the answer of the inner hook that was called
    last, or with an error of its own. -/
theorem settle_error (hs : (settle h user t).1 = .error e) :
    (∃ object ctx t₁ t₂, h.inner object ctx t₁ = (.error e, t₂) ∧
      (settle h user t).2 = t₂.finishPhase .innerHooks false) ∨
    ∃ id message, e = .hook id .innerHooks message := by
  cases hw : settleWithin h user t.staging.options.maxSweeps 0 t with
  | mk answer t₂ =>
    have hsettle : settle h user t = (answer, t₂.finishPhase .innerHooks (succeeded answer)) := by
      unfold settle
      rw [hw]
    rw [hsettle] at hs
    dsimp only at hs
    subst hs
    obtain ⟨r, t₁, hv⟩ | ⟨id, sweeps, he⟩ := settleWithin_error hw
    · obtain hinner | ⟨message, he⟩ := visit_error hv
      · exact .inl ⟨_, _, _, _, hinner, by rw [hsettle]; rfl⟩
      · exact .inr ⟨_, _, he⟩
    · exact .inr ⟨_, _, he⟩

/-! ## Validation and deferred actions -/

theorem validateRecords_error {validating : Bool} {rs : List (Record κ)}
    (hv : validateRecords h validating rs t = (.error e, t')) :
    (∃ r ∈ rs, ∃ w, h.index r w = (.error e, t'.world)) ∨
      ∃ id tokens, e = .validation id tokens := by
  induction rs generalizing t with
  | nil => cases (Prod.mk.inj hv).1
  | cons r rest ih =>
    have hrest : ∀ {t₁ : Transaction κ π σ},
        validateRecords h validating rest t₁ = (.error e, t') →
        (∃ r' ∈ r :: rest, ∃ w, h.index r' w = (.error e, t'.world)) ∨
          ∃ id tokens, e = .validation id tokens := by
      intro t₁ hrec
      obtain ⟨r', hr', hindex⟩ | htokens := ih hrec
      · exact .inl ⟨r', List.mem_cons_of_mem _ hr', hindex⟩
      · exact .inr htokens
    unfold validateRecords at hv
    split at hv
    · exact hrest hv
    · cases ha : accept h validating r t with
      | mk accepted t₁ =>
        rw [ha] at hv
        cases accepted with
        | error e₁ =>
          have he : e₁ = e := Except.error.inj (Prod.mk.inj hv).1
          subst he
          -- A refusal carries the tokens of the record.
          unfold accept at ha
          split at ha
          · dsimp only at ha
            split at ha
            · cases (Prod.mk.inj ha).1
            · exact .inr ⟨_, _, (Except.error.inj (Prod.mk.inj ha).1).symm⟩
          · cases (Prod.mk.inj ha).1
        | ok _ =>
          dsimp only at hv
          cases hi : h.index r t₁.world with
          | mk indexed w =>
            rw [hi] at hv
            cases indexed with
            | error e₁ =>
              have he : e₁ = e := Except.error.inj (Prod.mk.inj hv).1
              have hw : w = t'.world := congrArg Transaction.world (Prod.mk.inj hv).2
              exact .inl ⟨r, List.mem_cons_self, t₁.world, by rw [hi, he, hw]⟩
            | ok _ => exact hrest hv

/-- The second phase fails with the answer of the index that was called last,
    or with the refusal of an object. -/
theorem validate_error {validating : Bool} (hv : (validate h validating t).1 = .error e) :
    (∃ r ∈ t.staging.records, ∃ w,
      h.index r w = (.error e, (validate h validating t).2.world)) ∨
    ∃ id tokens, e = .validation id tokens := by
  cases hw : validateRecords h validating t.staging.records t with
  | mk answer t₁ =>
    have hvalidate : validate h validating t
        = (answer, t₁.finishPhase .validation (succeeded answer)) := by
      unfold validate
      rw [hw]
    rw [hvalidate] at hv ⊢
    dsimp only at hv
    subst hv
    obtain ⟨r, hr, w, hindex⟩ | htokens := validateRecords_error hw
    · exact .inl ⟨r, hr, w, hindex⟩
    · exact .inr htokens

theorem runActions_error {actions : List (String × π)}
    (hr : (runActions h user actions t).1 = .error e) :
    ∃ key message, e = .postProcess key message := by
  induction actions generalizing t with
  | nil => cases hr
  | cons a rest ih =>
    obtain ⟨key, action⟩ := a
    unfold runActions at hr
    dsimp only at hr
    split at hr
    next e₁ hfailure =>
      have he : e₁ = e := Except.error.inj hr
      subst he
      -- What an action answers is told as a failure of its key.
      unfold actionFailure? at hfailure
      split at hfailure
      · exact ⟨_, _, (Option.some.inj hfailure).symm⟩
      · exact ⟨_, _, (Option.some.inj hfailure).symm⟩
      · split at hfailure
        · cases hfailure
        · exact ⟨_, _, (Option.some.inj hfailure).symm⟩
    next => exact ih hr

/-- The third phase fails with an error of its own, whatever an action
    answers. -/
theorem runDeferred_error (hr : (runDeferred h user t).1 = .error e) :
    ∃ key message, e = .postProcess key message := runActions_error hr

/-! ## Commits -/

/-- If a commit is aborted because one of the first three phases fails, it
    returns the failure of the phase; and this failure says that it aborts,
    unless an inner hook or an index answered with it and ended its phase. -/
theorem commit_failure_aborts (pool : Pool) (h : Hooks κ π σ) (sink : Sink σ)
    (storage : Storage σ) (validating : Bool) (user : Option Principal) (t : Transaction κ π σ)
    (e : Failure) (phase : Phase)
    (hf : FailsBefore h validating user { t with errors := ∅ } e phase) :
    (commitOn pool h sink storage validating user t).1 = .error e ∧
    (e.abortsCommit = true ∨
      (phase = .innerHooks ∧ ∃ object ctx t₁ t₂, h.inner object ctx t₁ = (.error e, t₂) ∧
        (settle h user { t with errors := ∅ }).2 = t₂.finishPhase .innerHooks false) ∨
      (phase = .validation ∧
        ∃ r ∈ (settle h user { t with errors := ∅ }).2.staging.records, ∃ w,
          h.index r w = (.error e,
            (validate h validating (settle h user { t with errors := ∅ }).2).2.world))) := by
  have hprepare : (prepare h validating user { t with errors := ∅ }).1 = .error e :=
    (prepare_eq_error_iff h validating user _ e).mpr ⟨phase, hf⟩
  constructor
  · obtain ⟨e', he, hdone⟩ | ⟨e', hok, -⟩ | ⟨hok, -⟩ :=
      commitOn_cases pool h sink storage validating user t
    · have hsame : e' = e := Except.error.inj (he.symm.trans hprepare)
      rw [hdone, hsame]
    · cases hok.symm.trans hprepare
    · cases hok.symm.trans hprepare
  · cases hf with
    | innerHooks hs =>
      obtain hhook | ⟨id, message, rfl⟩ := settle_error hs
      · exact .inr (.inl ⟨rfl, hhook⟩)
      · exact .inl rfl
    | validation _ hv =>
      obtain hindex | ⟨id, tokens, rfl⟩ := validate_error hv
      · exact .inr (.inr ⟨rfl, hindex⟩)
      · exact .inl rfl
    | postProcessing _ _ hr =>
      obtain ⟨key, message, rfl⟩ := runDeferred_error hr
      exact .inl rfl

/-- The failure of a log on a full disk. -/
def diskFull : Failure := .auditIo "logs/n1" (.reported "disk full")

/-- A storage that does whatever it is asked to. -/
def willingStorage : Storage MemoryLog where
  commit w := (.ok (), w)
  rollback w := (.ok (), w)

/-- Deferred actions cannot write a log, but the commit aborts and says so. -/
theorem commit_failure_aborts_after_action :
    let hooks : Hooks Unit Unit MemoryLog :=
      { idleHooks with act := fun _ _ errors w => (.error diskFull, errors, w) }
    let t : Transaction Unit Unit MemoryLog :=
      ⟨(Staging.new {} ∅).after (.defer "log" ()), ∅, ∅⟩
    ∃ e, (commit hooks MemoryLog.sink willingStorage true none t).1 = .error e ∧
      e.abortsCommit = true := by
  intro hooks t
  have hf : FailsBefore hooks true none { t with errors := ∅ }
      (.postProcess "log" diskFull.message) .postProcessing := .postProcessing rfl rfl rfl
  obtain ⟨hcommit, haborts⟩ :=
    commit_failure_aborts .inline hooks MemoryLog.sink willingStorage true none t _ _ hf
  refine ⟨_, hcommit, ?_⟩
  obtain h | ⟨h, -⟩ | ⟨h, -⟩ := haborts
  · exact h
  · cases h
  · cases h

/-- An inner hook that cannot write a log aborts the commit with a failure
    that says that it does not abort. -/
theorem commit_failure_does_not_abort :
    let hooks : Hooks Unit Unit MemoryLog :=
      { idleHooks with inner := fun _ _ t => (.error diskFull, t) }
    let t : Transaction Unit Unit MemoryLog := ⟨(Staging.new {} ∅).create none ada, ∅, ∅⟩
    FailsBefore hooks true none { t with errors := ∅ } diskFull .innerHooks ∧
      (commit hooks MemoryLog.sink willingStorage true none t).1 = .error diskFull ∧
      diskFull.abortsCommit = false := by
  exact ⟨.innerHooks rfl, rfl, rfl⟩

end Transaction

end ChangeLedger
