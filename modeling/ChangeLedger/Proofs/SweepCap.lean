/-
  ChangeLedger.Proofs.SweepCap — what the cap on the sweeps decides.

  The cap does not show before it is reached.  A run of the first phase makes
  complete sweeps, each of which calls a hook, until a sweep finds nothing
  dirty, a hook fails, or as many sweeps are made as the cap allows.  In the
  first two cases a larger cap changes nothing; in the third the phase fails
  exactly if a record is dirty still.

  Main results:
    * `Sweeps` — complete sweeps; `settleWithin_cases` — how they go on.
    * `settleWithin_of_sweeps` — what is left to do after some of them.
    * `settle_cap_exact` — the phase under two caps.
-/
import ChangeLedger.Proofs.Openings
import ChangeLedger.Proofs.References
import ChangeLedger.Proofs.SweepLoop

namespace ChangeLedger

variable {κ π σ : Type}

namespace Transaction

/-! ## Complete sweeps -/

/-- From one transaction to the other, `n` complete sweeps are made and
    counted, and each calls a hook. -/
inductive Sweeps (h : Hooks κ π σ) (user : Option Principal) :
    Nat → Transaction κ π σ → Transaction κ π σ → Prop where
  /-- None is made. -/
  | none {t} : Sweeps h user 0 t t
  /-- One is made, and others follow. -/
  | more {n called t t₁ t'}
      (hs : sweep h user t.staging.ids 0 t = (.ok (called + 1), t₁))
      (hrest : Sweeps h user n (t₁.stage fun s => s.count fun c => c.innerSweep (called + 1)) t') :
      Sweeps h user (n + 1) t t'

/-- After `n` complete sweeps, a hook fails in the next one. -/
def FailsAfter (h : Hooks κ π σ) (user : Option Principal) (n : Nat) (t : Transaction κ π σ)
    (e : Failure) (t'' : Transaction κ π σ) : Prop :=
  ∃ t', Sweeps h user n t t' ∧ sweep h user t'.staging.ids 0 t' = (.error e, t'')

/-- A hook fails before `cap` sweeps are complete. -/
def FailsInHook (h : Hooks κ π σ) (user : Option Principal) (cap : Nat)
    (t : Transaction κ π σ) : Prop :=
  ∃ n < cap, ∃ e t'', FailsAfter h user n t e t''

variable {h : Hooks κ π σ} {user : Option Principal} {n cap : Nat} {t t' t'' : Transaction κ π σ}

/-! ## How the recursion goes on -/

section

variable {t₁ : Transaction κ π σ} {left : Nat}

theorem settleWithin_of_error {e : Failure} (hs : sweep h user t.staging.ids 0 t = (.error e, t₁))
    (made : Nat) : settleWithin h user (left + 1) made t = (.error e, t₁) := by
  unfold settleWithin
  rw [hs]

theorem settleWithin_of_ok_zero (hs : sweep h user t.staging.ids 0 t = (.ok 0, t₁)) (made : Nat) :
    settleWithin h user (left + 1) made t = (.ok (), t₁) := by
  unfold settleWithin
  rw [hs]
  rfl

theorem settleWithin_of_ok_succ {called : Nat}
    (hs : sweep h user t.staging.ids 0 t = (.ok (called + 1), t₁)) (made : Nat) :
    settleWithin h user (left + 1) made t =
      settleWithin h user left (made + 1)
        (t₁.stage fun s => s.count fun c => c.innerSweep (called + 1)) := by
  conv => lhs; unfold settleWithin
  rw [hs]
  rfl

end

/-- What a recursion with `n` more sweeps to make does from the beginning on,
    one without them does from where `n` sweeps lead. -/
theorem settleWithin_of_sweeps (hs : Sweeps h user n t t') (left made : Nat) :
    settleWithin h user (n + left) made t = settleWithin h user left (made + n) t' := by
  induction hs generalizing made with
  | none => rw [Nat.zero_add, Nat.add_zero]
  | @more n called t t₁ t' hsweep _ ih =>
    rw [show n + 1 + left = n + left + 1 by omega, show made + (n + 1) = made + 1 + n by omega,
      settleWithin_of_ok_succ hsweep, ih (made + 1)]

/-- Either the sweeps go on up to the cap, or one before finds nothing dirty,
    or a hook fails in one. -/
theorem settleWithin_cases (h : Hooks κ π σ) (user : Option Principal) (cap : Nat)
    (t : Transaction κ π σ) :
    (∃ t', Sweeps h user cap t t') ∨
    (∃ n < cap, ∃ t' t'', Sweeps h user n t t' ∧
      sweep h user t'.staging.ids 0 t' = (.ok 0, t'')) ∨
    FailsInHook h user cap t := by
  induction cap generalizing t with
  | zero => exact .inl ⟨t, .none⟩
  | succ cap ih =>
    cases hsweep : sweep h user t.staging.ids 0 t with
    | mk answer t₁ =>
      match answer with
      | .error e => exact .inr (.inr ⟨0, by omega, e, t₁, t, .none, hsweep⟩)
      | .ok 0 => exact .inr (.inl ⟨0, by omega, t, t₁, .none, hsweep⟩)
      | .ok (called + 1) =>
        -- This sweep comes before all those of the rest.
        obtain ⟨t', hs⟩ | ⟨n, hn, t', t'', hs, hquiet⟩ | ⟨n, hn, e, t'', t', hs, hfails⟩ :=
          ih (t₁.stage fun s => s.count fun c => c.innerSweep (called + 1))
        · exact .inl ⟨t', .more hsweep hs⟩
        · exact .inr (.inl ⟨n + 1, by omega, t', t'', .more hsweep hs, hquiet⟩)
        · exact .inr (.inr ⟨n + 1, by omega, e, t'', t', .more hsweep hs, hfails⟩)

/-- As long as more sweeps follow, none fails. -/
theorem Sweeps.next {m : Nat} (hs : Sweeps h user (n + (m + 1)) t t'') (hn : Sweeps h user n t t') :
    ∃ called t₁, sweep h user t'.staging.ids 0 t' = (.ok (called + 1), t₁) := by
  induction hn with
  | none =>
    rw [show 0 + (m + 1) = m + 1 by omega] at hs
    cases hs with
    | more hsweep _ => exact ⟨_, _, hsweep⟩
  | @more n called t t₁ t' hsweep _ ih =>
    rw [show n + 1 + (m + 1) = n + (m + 1) + 1 by omega] at hs
    cases hs with
    | more hsweep' hrest =>
      -- The first sweep is the same in both.
      rw [hsweep] at hsweep'
      obtain ⟨hcalled, rfl⟩ := Prod.mk.inj hsweep'
      rw [← Nat.succ.inj (Except.ok.inj hcalled)] at hrest
      exact ih hrest

theorem Sweeps.not_failsInHook (hs : Sweeps h user cap t t') : ¬ FailsInHook h user cap t := by
  rintro ⟨n, hn, e, t'', t₁, hs₁, hfails⟩
  obtain ⟨m, rfl⟩ : ∃ m, cap = n + (m + 1) := ⟨cap - n - 1, by omega⟩
  obtain ⟨called, t₂, hsweep⟩ := hs.next hs₁
  rw [hfails] at hsweep
  cases (Prod.mk.inj hsweep).1

/-! ## How the recursion ends -/

theorem settleWithin_of_quiet (hs : Sweeps h user n t t')
    (hquiet : sweep h user t'.staging.ids 0 t' = (.ok 0, t'')) (hn : n < cap) (made : Nat) :
    settleWithin h user cap made t = (.ok (), t'') := by
  obtain ⟨left, rfl⟩ : ∃ left, cap = n + (left + 1) := ⟨cap - n - 1, by omega⟩
  rw [settleWithin_of_sweeps hs, settleWithin_of_ok_zero hquiet]

theorem settleWithin_of_fails {e : Failure} (hf : FailsAfter h user n t e t'') (hn : n < cap)
    (made : Nat) : settleWithin h user cap made t = (.error e, t'') := by
  obtain ⟨t', hs, hfails⟩ := hf
  obtain ⟨left, rfl⟩ : ∃ left, cap = n + (left + 1) := ⟨cap - n - 1, by omega⟩
  rw [settleWithin_of_sweeps hs, settleWithin_of_error hfails]

theorem settleWithin_of_clean (hs : Sweeps h user n t t')
    (hclean : ∀ r ∈ t'.staging.records, r.dirty = false) (hn : n ≤ cap) (made : Nat) :
    settleWithin h user cap made t = (.ok (), t') := by
  obtain ⟨left, rfl⟩ : ∃ left, cap = n + left := ⟨cap - n, by omega⟩
  rw [settleWithin_of_sweeps hs]
  cases left with
  | zero =>
    have hnone : t'.staging.records.find? Record.dirty = none :=
      List.find?_eq_none.mpr fun r hr => by rw [hclean r hr]; exact Bool.false_ne_true
    unfold settleWithin
    rw [hnone]
  | succ left => exact settleWithin_of_ok_zero (sweep_of_all_clean hclean _ 0) _

/-- With the cap reached, the first dirty record is blamed. -/
theorem settleWithin_at_cap (hs : Sweeps h user cap t t') {r : Record κ}
    (hr : t'.staging.records.find? Record.dirty = some r) :
    settleWithin h user cap 0 t = (.error (notSettled r.id cap), t') := by
  have hsweeps := settleWithin_of_sweeps hs 0 0
  rw [Nat.add_zero, Nat.zero_add] at hsweeps
  rw [hsweeps]
  unfold settleWithin
  rw [hr]

/-- A run that succeeds, or fails in a hook, is the same under a larger cap. -/
theorem settleWithin_mono {cap' : Nat} (hle : cap ≤ cap')
    (hend : (settleWithin h user cap 0 t).1 = .ok () ∨ FailsInHook h user cap t) :
    settleWithin h user cap' 0 t = settleWithin h user cap 0 t := by
  cases hend with
  | inr hfails =>
    obtain ⟨n, hn, e, t'', hf⟩ := hfails
    rw [settleWithin_of_fails hf hn, settleWithin_of_fails hf (by omega)]
  | inl hok =>
    obtain ⟨t', hs⟩ | ⟨n, hn, t', t'', hs, hquiet⟩ | ⟨n, hn, e, t'', hf⟩ :=
      settleWithin_cases h user cap t
    · -- The cap is reached, but nothing is dirty.
      have hclean : ∀ r ∈ t'.staging.records, r.dirty = false := by
        cases hf : t'.staging.records.find? Record.dirty with
        | none => exact fun r hr => Bool.eq_false_iff.mpr (List.find?_eq_none.mp hf r hr)
        | some r =>
          rw [settleWithin_at_cap hs hf] at hok
          cases hok
      rw [settleWithin_of_clean hs hclean hle, settleWithin_of_clean hs hclean (Nat.le_refl cap)]
    · rw [settleWithin_of_quiet hs hquiet hn, settleWithin_of_quiet hs hquiet (by omega)]
    · rw [settleWithin_of_fails hf hn] at hok
      cases hok

/-- The recursion gives up exactly if the cap is reached and a record is dirty
    still.  A hook might fail with the same words, but not after the cap. -/
theorem settleWithin_gives_up_iff :
    (∃ id, (settleWithin h user cap 0 t).1 = .error (notSettled id cap)) ∧
        ¬ FailsInHook h user cap t ↔
      ∃ t', Sweeps h user cap t t' ∧ ∃ r ∈ t'.staging.records, r.dirty = true := by
  constructor
  · rintro ⟨⟨id, herror⟩, hnot⟩
    obtain ⟨t', hs⟩ | ⟨n, hn, t', t'', hs, hquiet⟩ | hfails := settleWithin_cases h user cap t
    · refine ⟨t', hs, ?_⟩
      by_contra hnone
      have hclean : ∀ r ∈ t'.staging.records, r.dirty = false :=
        fun r hr => Bool.eq_false_iff.mpr fun hd => hnone ⟨r, hr, hd⟩
      rw [settleWithin_of_clean hs hclean (Nat.le_refl cap)] at herror
      cases herror
    · rw [settleWithin_of_quiet hs hquiet hn] at herror
      cases herror
    · exact absurd hfails hnot
  · rintro ⟨t', hs, r, hr, hd⟩
    refine ⟨?_, hs.not_failsInHook⟩
    obtain ⟨r', hr'⟩ := Option.isSome_iff_exists.mp (List.find?_isSome.mpr ⟨r, hr, hd⟩)
    exact ⟨r'.id, by rw [settleWithin_at_cap hs hr']⟩

/-! ## What sweeps keep and count -/

theorem Sweeps.keeps {P : Transaction κ π σ → Prop}
    (hvisit : ∀ r t, P t → P (visit h user r t).2)
    (hcount : ∀ f t, P t → P (t.stage (·.count f))) (hs : Sweeps h user n t t') (ht : P t) :
    P t' := by
  induction hs with
  | none => exact ht
  | @more n called t t₁ t' hsweep _ ih =>
    have hkept : P (sweep h user t.staging.ids 0 t).2 :=
      sweep_keeps (fun r t ht _ _ => hvisit r t ht) t.staging.ids 0 t ht
    rw [hsweep] at hkept
    exact ih (hcount _ t₁ hkept)

/-- If hooks count no sweep, every complete sweep is counted once. -/
theorem Sweeps.innerSweeps
    (hvisit : ∀ r (t : Transaction κ π σ),
      (visit h user r t).2.staging.options = t.staging.options ∧
      (visit h user r t).2.staging.counters.innerSweeps = t.staging.counters.innerSweeps)
    (hs : Sweeps h user n t t') (hcounts : t.staging.options.countsActivity = true) :
    t'.staging.counters.innerSweeps = t.staging.counters.innerSweeps + UInt64.ofNat n := by
  induction hs with
  | none => exact (UInt64.add_zero _).symm
  | @more n called t t₁ t' hsweep _ ih =>
    have hkept : (sweep h user t.staging.ids 0 t).2.staging.options = t.staging.options ∧
        (sweep h user t.staging.ids 0 t).2.staging.counters.innerSweeps
          = t.staging.counters.innerSweeps := by
      refine sweep_keeps (P := fun t₁ => t₁.staging.options = t.staging.options ∧
        t₁.staging.counters.innerSweeps = t.staging.counters.innerSweeps) ?_ _ 0 t ⟨rfl, rfl⟩
      intro r t₁ ht₁ _ _
      obtain ⟨hoptions, hsweeps⟩ := hvisit r t₁
      exact ⟨hoptions.trans ht₁.1, hsweeps.trans ht₁.2⟩
    rw [hsweep] at hkept
    obtain ⟨hoptions, hsweeps⟩ := hkept
    have hon : t₁.staging.options.countsActivity = true := by rw [hoptions]; exact hcounts
    have hone : (t₁.staging.count fun c => c.innerSweep (called + 1)).counters.innerSweeps
        = t.staging.counters.innerSweeps + 1 := by
      unfold Staging.count
      rw [if_pos hon, ← hsweeps]
      rfl
    have hrest := ih (by
      show (t₁.staging.count _).options.countsActivity = true
      rw [Staging.options_count]
      exact hon)
    rw [hrest]
    show (t₁.staging.count _).counters.innerSweeps + _ = _
    rw [hone, UInt64.ofNat_add, UInt64.add_assoc, UInt64.add_comm 1]
    rfl

end Transaction

/-! ## Another cap -/

/-- The event, with another cap in the staging area that it begins in. -/
def Event.capped (cap : Nat) : Event κ π → Event κ π
  | recorded before m => recorded (before.capped cap) m
  | inner before object ctx recordings passed =>
    inner (before.capped cap) object ctx recordings passed
  | e => e

theorem Event.capped_capped (cap cap' : Nat) (e : Event κ π) :
    (e.capped cap).capped cap' = e.capped cap' := by
  cases e <;> rfl

/-- A script that does not look at the cap. -/
def InnerScript.IgnoresCap (script : InnerScript κ π σ) : Prop :=
  ∀ object ctx t cap, script object ctx (t.stage (·.capped cap)) = script object ctx t

namespace Transaction

/-- The transaction with another cap, now and in all its events. -/
def capped (cap : Nat) (t : Transaction κ π (Watched κ π σ)) :
    Transaction κ π (Watched κ π σ) where
  staging := t.staging.capped cap
  errors := t.errors
  world := ⟨t.world.world, t.world.events.map (Event.capped cap)⟩

theorem capped_stage_count (cap : Nat) (f : Counters → Counters)
    (t : Transaction κ π (Watched κ π σ)) :
    (t.stage (·.count f)).capped cap = (t.capped cap).stage (·.count f) := by
  unfold capped stage
  rw [Staging.capped_count]

theorem capped_capped (cap cap' : Nat) (t : Transaction κ π (Watched κ π σ)) :
    (t.capped cap).capped cap' = t.capped cap' := by
  unfold capped
  dsimp only
  rw [List.map_map, show Event.capped cap' ∘ Event.capped cap = Event.capped (κ := κ) cap' from
    funext fun e => Event.capped_capped cap cap' e]
  rfl

variable (h : Hooks κ π σ) {script : InnerScript κ π σ} (user : Option Principal)

/-- A hook that does not look at the cap does the same under every cap. -/
theorem capped_inner (hscript : script.IgnoresCap) (cap : Nat) (object : Tracked κ)
    (ctx : InnerContext) (t : Transaction κ π (Watched κ π σ)) :
    Prod.map id (capped cap) ((h.watched script).inner object ctx t) =
      (h.watched script).inner object ctx (t.capped cap) := by
  have hrun : script object ctx (t.capped cap).unwatched = script object ctx t.unwatched :=
    hscript object ctx t.unwatched cap
  unfold Hooks.watched Hooks.watchedAfter
  dsimp only
  rw [hrun, show (t.capped cap).staging = t.staging.capped cap from rfl, Staging.capped_afterAll]
  unfold capped Watched.note
  dsimp only [Prod.map]
  rw [List.map_append]
  rfl

theorem capped_visit (hscript : script.IgnoresCap) (cap : Nat) (r : Record κ)
    (t : Transaction κ π (Watched κ π σ)) :
    Prod.map id (capped cap) (visit (h.watched script) user r t) =
      visit (h.watched script) user r (t.capped cap) :=
  visit_commutes (f := capped cap) unseen_id (fun _ _ => rfl) (fun _ _ => rfl)
    (capped_inner h hscript cap) r t

/-- The phase under a cap is what the recursion over that cap does from any
    other cap on, but for the cap. -/
theorem settle_capped (hscript : script.IgnoresCap) (cap cap' : Nat)
    (t : Transaction κ π (Watched κ π σ)) :
    settle (h.watched script) user (t.capped cap') =
      let out := settleWithin (h.watched script) user cap' 0 (t.capped cap)
      (out.1, (out.2.finishPhase .innerHooks (succeeded out.1)).capped cap') := by
  have hcommutes := settleWithin_commutes (f := capped cap') unseen_id
    (fun _ => (List.map_id _).symm) (capped_visit h user hscript cap') (capped_stage_count cap')
    cap' 0 (t.capped cap)
  rw [capped_capped] at hcommutes
  unfold settle
  rw [show (t.capped cap').staging.options.maxSweeps = cap' from rfl, ← hcommutes]
  unfold finishPhase
  dsimp only [Prod.map]
  rw [capped_stage_count]
  rfl

/-- What a hook records counts no sweep. -/
theorem visit_innerSweeps (script : InnerScript κ π σ) (r : Record κ)
    (t : Transaction κ π (Watched κ π σ)) :
    (visit (h.watched script) user r t).2.staging.options = t.staging.options ∧
    (visit (h.watched script) user r t).2.staging.counters.innerSweeps
      = t.staging.counters.innerSweeps := by
  obtain ⟨ctx, run, passed, -, hv⟩ := visit_watchedAfter h script (fun _ _ t => t) user r t
  obtain ⟨n, hn⟩ := Staging.opened_afterAll t.staging run.recordings
  unfold Hooks.watched
  rw [hv]
  cases passed <;> exact ⟨hn.options, hn.innerSweeps⟩

theorem innerSweeps_finishPhase (t : Transaction κ π σ) (phase : Phase) (ok : Bool) :
    (t.finishPhase phase ok).staging.counters.innerSweeps = t.staging.counters.innerSweeps := by
  unfold finishPhase stage Staging.count Counters.phaseFinished
  dsimp only
  split
  · cases ok <;> split <;> rfl
  · rfl

/-- The record that is blamed is the dirty one that was touched first. -/
theorem firstTouch_le_of_find? {s : Staging κ π} (hs : s.Ordered) {r : Record κ}
    (hr : s.records.find? Record.dirty = some r) :
    ∀ r' ∈ s.records, r'.dirty = true → r.firstTouch ≤ r'.firstTouch := by
  intro r' hr' hd'
  obtain ⟨-, before, after, hsplit, hclean⟩ := List.find?_eq_some_iff_append.mp hr
  have hascend := hs.ascend
  rw [show s.table.records = before ++ r :: after from hsplit] at hascend
  have hlater := List.pairwise_cons.mp (List.pairwise_append.mp hascend).2.1
  rw [hsplit] at hr'
  obtain hbefore | hrest := List.mem_append.mp hr'
  · have hnot := hclean r' hbefore
    rw [hd'] at hnot
    cases hnot
  · obtain rfl | hafter := List.mem_cons.mp hrest
    · exact Nat.le_refl _
    · exact Nat.le_of_lt (hlater.1 r' hafter)

/-- For every reachable ledger and all inner hooks that only record and do not
    look at the cap, the first phase ends under every cap; and if under one
    cap it succeeds, or a hook fails, then it gives the same answer, with the
    same calls and the same final state, under every larger one.  It gives up
    exactly if as many sweeps as the cap allows are complete and a record is
    dirty then; it blames the dirty record that was touched first, has counted
    as many sweeps, and calls no hook after the last of them.  If no record is
    dirty then, it succeeds. -/
theorem settle_cap_exact (past : Hooks κ π σ) (earlier : InnerScript κ π σ)
    (plan : InnerPlan κ π σ) (depth : Nat) (sink : Sink σ) (options : Options) (schema : Schema)
    (world : σ) (moves : List (Move κ π σ)) (h : Hooks κ π σ) (script : InnerScript κ π σ)
    (hscript : script.IgnoresCap) (user : Option Principal) :
    let t := reached (past.nested earlier plan sink depth) sink options schema world moves
    let hooks := h.watched script
    let run := fun cap => settle hooks user (t.capped cap)
    (∀ cap, ∃ out, Turn.Ends hooks user cap (.first (t.capped cap)) out ∧
      run cap = (out.1, out.2.finishPhase .innerHooks (succeeded out.1))) ∧
    (∀ cap cap', cap ≤ cap' →
      (run cap).1 = .ok () ∨ FailsInHook hooks user cap (t.capped cap) →
      (run cap').1 = (run cap).1 ∧ (run cap').2 = (run cap).2.capped cap') ∧
    (∀ cap,
      (∃ id, (run cap).1 = .error (notSettled id cap)) ∧
          ¬ FailsInHook hooks user cap (t.capped cap) ↔
        ∃ t', Sweeps hooks user cap (t.capped cap) t' ∧
          ∃ r ∈ t'.staging.records, r.dirty = true) ∧
    ∀ cap t', Sweeps hooks user cap (t.capped cap) t' →
      ((∀ r ∈ t'.staging.records, r.dirty = false) →
        run cap = (.ok (), t'.finishPhase .innerHooks true)) ∧
      ((∃ r ∈ t'.staging.records, r.dirty = true) →
        ∃ r ∈ t'.staging.records, r.dirty = true ∧
          (∀ r' ∈ t'.staging.records, r'.dirty = true → r.firstTouch ≤ r'.firstTouch) ∧
          run cap = (.error (notSettled r.id cap), t'.finishPhase .innerHooks false)) ∧
      (t.staging.options.countsActivity = true →
        (run cap).2.staging.counters.innerSweeps =
          t.staging.counters.innerSweeps + UInt64.ofNat cap) := by
  intro t hooks run
  have hordered : t.staging.Ordered :=
    reached_ordered past earlier plan depth sink options schema world moves
  have hvisit : ∀ r (t₁ : Transaction κ π (Watched κ π σ)), t₁.staging.Ordered →
      (visit hooks user r t₁).2.staging.Ordered :=
    fun r t₁ ht₁ => kept_ordered.visit h script _ (fun _ _ _ ht => ht) user r ht₁
  have hrun : ∀ cap, run cap =
      let out := settleWithin hooks user cap 0 (t.capped cap)
      (out.1, out.2.finishPhase .innerHooks (succeeded out.1)) := fun _ => rfl
  refine ⟨fun cap => ?_, fun cap cap' hle hend => ?_, fun cap => ?_, fun cap t' hs => ?_⟩
  · have hends := Turn.ends_settleWithin hvisit cap 0 (t.capped cap) hordered
    rw [Nat.zero_add] at hends
    exact ⟨_, hends, hrun cap⟩
  · have hmono := settleWithin_mono hle hend
    have hcapped : run cap' = _ := settle_capped h user hscript cap cap' t
    rw [hmono] at hcapped
    rw [hcapped, hrun cap]
    exact ⟨rfl, rfl⟩
  · rw [hrun cap]
    exact settleWithin_gives_up_iff
  · have hordered' : t'.staging.Ordered :=
      hs.keeps (P := fun t => t.staging.Ordered) hvisit (fun f _ ht => ht.count f) hordered
    have hclean : (∀ r ∈ t'.staging.records, r.dirty = false) →
        run cap = (.ok (), t'.finishPhase .innerHooks true) := by
      intro hall
      rw [hrun cap, settleWithin_of_clean hs hall (Nat.le_refl cap)]
      rfl
    have hdirty : ∀ r, t'.staging.records.find? Record.dirty = some r →
        run cap = (.error (notSettled r.id cap), t'.finishPhase .innerHooks false) := by
      intro r hr
      rw [hrun cap, settleWithin_at_cap hs hr]
      rfl
    refine ⟨hclean, ?_, fun hcounts => ?_⟩
    · rintro ⟨r, hr, hd⟩
      obtain ⟨r₁, hr₁⟩ := Option.isSome_iff_exists.mp (List.find?_isSome.mpr ⟨r, hr, hd⟩)
      exact ⟨r₁, List.mem_of_find?_eq_some hr₁, List.find?_some hr₁,
        firstTouch_le_of_find? hordered' hr₁, hdirty r₁ hr₁⟩
    · have hsweeps := hs.innerSweeps (visit_innerSweeps h user script) hcounts
      -- However the phase ends, its end counts no sweep.
      have hfinal : ∃ ok, (run cap).2 = t'.finishPhase .innerHooks ok := by
        cases hf : t'.staging.records.find? Record.dirty with
        | some r => exact ⟨false, by rw [hdirty r hf]⟩
        | none =>
          have hall : ∀ r ∈ t'.staging.records, r.dirty = false :=
            fun r hr => Bool.eq_false_iff.mpr (List.find?_eq_none.mp hf r hr)
          exact ⟨true, by rw [hclean hall]⟩
      obtain ⟨ok, hok⟩ := hfinal
      rw [hok, innerSweeps_finishPhase, hsweeps]
      rfl

/-- The inner hook of the second node writes to the first one. -/
def cascadeScript : InnerScript Unit Unit MemoryLog := fun object _ t =>
  ⟨if object.id = bob.id then [.modify none ada (.plain "friends") none none] else [],
    t.errors, t.world, .ok ()⟩

/-- Both nodes are created; the first one is dirty again after the first sweep
    and clean after the second.  One sweep is not enough, and two are as good
    as any larger number. -/
theorem settle_cap_exact_of_cascade :
    let t := reached (idleHooks.nested idleScript idlePlan MemoryLog.sink 0) MemoryLog.sink {} ∅ ∅
      [.record (.create none ada), .record (.create none bob)]
    let hooks := idleHooks.watched cascadeScript
    (∃ id, (settle hooks none (t.capped 1)).1 = .error (notSettled id 1)) ∧
      (settle hooks none (t.capped 2)).1 = .ok () ∧
      ∀ cap, 2 ≤ cap → (settle hooks none (t.capped cap)).1 = .ok () := by
  intro t hooks
  have hscript : cascadeScript.IgnoresCap := fun _ _ _ _ => rfl
  obtain ⟨-, hmono, hgivesUp, -⟩ := settle_cap_exact idleHooks idleScript idlePlan 0
    MemoryLog.sink {} ∅ ∅ [.record (.create none ada), .record (.create none bob)] idleHooks
    cascadeScript hscript none
  let swept := sweep hooks none (t.capped 1).staging.ids 0 (t.capped 1)
  have hsweep : swept = (.ok 2, swept.2) := Prod.ext rfl rfl
  have hok : (settle hooks none (t.capped 2)).1 = .ok () := rfl
  refine ⟨((hgivesUp 1).mpr ⟨_, .more hsweep .none, ?_⟩).1, hok, fun cap hcap => ?_⟩
  · exact ⟨_, List.mem_cons_self, rfl⟩
  · rw [(hmono 2 cap hcap (.inl hok)).1, hok]

end Transaction

end ChangeLedger
