/-
  ChangeLedger.Proofs.Reachability — properties of every ledger that can be reached.

  A property relates the staging area to the events so far.  It holds of every
  reachable ledger if it holds of a new one and if each kind of event keeps
  it; `Kept` lists these obligations.  Everything else a ledger does between
  two events leaves the staging area alone or only counts.

  The pending actions are taken before the first of them runs, so that a
  property that tells what is pending by the events is broken in between.  Such
  a property is asked to survive the run of the actions as a whole; `Upheld`
  lists the obligations for that, and they are the weaker ones.

  Main results:
    * `visit_watchedAfter` — what one call of an inner hook does, and its event.
    * `Kept.upheld` — what every event keeps is upheld.
    * `Upheld.settle`, `Upheld.runDeferred`, `Upheld.commitOn` — a phase and a
      commit keep what is upheld.
    * `Upheld.reached` — what is upheld holds of every reachable ledger.
    * `Kept.always` — what is kept held whenever a recording or an inner hook
      began.
-/
import ChangeLedger.Proofs.ActionRuns
import ChangeLedger.Proofs.PhaseInduction

namespace ChangeLedger

variable {κ π σ : Type}

/-! ## One inner hook -/

namespace Transaction

/-- What a call of an inner hook leaves in the end, if `t` is what its moves
    left: the recordings of its run, the record marked clean if the run passed,
    and the event of the call. -/
def visited (r : Record κ) (ctx : InnerContext) (run : InnerRun κ π σ) (passed : Bool)
    (t : Transaction κ π (Watched κ π σ)) : Transaction κ π (Watched κ π σ) where
  staging :=
    let s := t.staging.afterAll run.recordings
    if passed then s.update r.id Record.clearDirty else s
  errors := run.errors
  world := t.world.note run.world (.inner t.staging r.object ctx run.recordings passed)

/-- A visit succeeds exactly if the run of the hook passes. -/
theorem visit_watchedAfter (h : Hooks κ π σ) (script : InnerScript κ π σ)
    (earlier : Tracked κ → InnerContext → Transaction κ π (Watched κ π σ) →
      Transaction κ π (Watched κ π σ))
    (user : Option Principal) (r : Record κ) (t : Transaction κ π (Watched κ π σ)) :
    ∃ ctx run passed, succeeded (visit (h.watchedAfter script earlier) user r t).1 = passed ∧
      (visit (h.watchedAfter script earlier) user r t).2
        = visited r ctx run passed (earlier r.object ctx t) := by
  -- The errors are counted from before the moves of the hook, not from before
  -- its recordings.
  let ctx : InnerContext := ⟨user, r.verb, r.callback⟩
  let t' := earlier r.object ctx t
  let run := script r.object ctx t'.unwatched
  refine ⟨ctx, run, run.passed t.errors.size, ?_⟩
  unfold visit
  rw [show (h.watchedAfter script earlier).inner r.object ⟨user, r.verb, r.callback⟩ t
    = (run.answer, ⟨t'.staging.afterAll run.recordings, run.errors,
        t'.world.note run.world (.inner t'.staging r.object ctx run.recordings
          (run.passed t.errors.size))⟩) from rfl]
  cases ha : run.answer with
  | error e =>
    have hp : run.passed t.errors.size = false := by simp [InnerRun.passed, ha, succeeded]
    rw [hp]
    exact ⟨rfl, rfl⟩
  | ok _ =>
    dsimp only
    by_cases hlt : t.errors.size < run.errors.size
    · have hp : run.passed t.errors.size = false := by
        simp only [InnerRun.passed, ha, succeeded, Bool.true_and, decide_eq_false_iff_not]
        omega
      rw [if_pos hlt, hp]
      exact ⟨rfl, rfl⟩
    · have hp : run.passed t.errors.size = true := by
        simp only [InnerRun.passed, ha, succeeded, Bool.true_and, decide_eq_true_eq]
        omega
      rw [if_neg hlt, hp]
      exact ⟨rfl, rfl⟩

end Transaction

/-! ## What each event keeps -/

namespace Staging

/-- What was counted survives the clearing. -/
@[simp] theorem clear_count (s : Staging κ π) (f : Counters → Counters) :
    (s.count f).clear = s.clear.count f := by
  unfold count clear
  dsimp only
  split <;> rfl

end Staging

/-- Each kind of event keeps the property, and so does counting. -/
structure Kept (I : Staging κ π → List (Event κ π) → Prop) : Prop where
  /-- A recording. -/
  recorded : ∀ {s es} m, I s es → I (s.after m) (es ++ [.recorded s m])
  /-- The inner hook of an object passes. -/
  passed : ∀ {s es} object ctx ms, I s es →
    I ((s.afterAll ms).update object.id Record.clearDirty)
      (es ++ [.inner s object ctx ms true])
  /-- The inner hook of an object fails. -/
  failed : ∀ {s es} object ctx ms, I s es →
    I (s.afterAll ms) (es ++ [.inner s object ctx ms false])
  /-- A call that leaves the staging area alone. -/
  bystander : ∀ {s es} e, e.isBystander = true → I s es → I s (es ++ [e])
  /-- Counting is no event. -/
  counted : ∀ {s es} f, I s es → I (s.count f) es
  /-- Taking the deferred actions is no event either. -/
  taken : ∀ {s es}, I s es → I { s with pending := [] } es
  /-- The change logs are written. -/
  drained : ∀ {s es}, I s es → I s.dropPushes (es ++ [.drained])
  /-- Everything staged is dropped at the end of a commit or a rollback. -/
  closed : ∀ {s es}, I s es → I s.clear (es ++ [.closed])

namespace Kept

/-! ## Combining properties -/

/-- Two properties that are kept are kept together. -/
theorem and {I J : Staging κ π → List (Event κ π) → Prop} (hI : Kept I) (hJ : Kept J) :
    Kept fun s es => I s es ∧ J s es where
  recorded m hs := ⟨hI.recorded m hs.1, hJ.recorded m hs.2⟩
  passed object ctx ms hs := ⟨hI.passed object ctx ms hs.1, hJ.passed object ctx ms hs.2⟩
  failed object ctx ms hs := ⟨hI.failed object ctx ms hs.1, hJ.failed object ctx ms hs.2⟩
  bystander e he hs := ⟨hI.bystander e he hs.1, hJ.bystander e he hs.2⟩
  counted f hs := ⟨hI.counted f hs.1, hJ.counted f hs.2⟩
  taken hs := ⟨hI.taken hs.1, hJ.taken hs.2⟩
  drained hs := ⟨hI.drained hs.1, hJ.drained hs.2⟩
  closed hs := ⟨hI.closed hs.1, hJ.closed hs.2⟩

/-- The property held whenever a recording or an inner hook began. -/
def AtStarts (I : Staging κ π → List (Event κ π) → Prop) (es : List (Event κ π)) : Prop :=
  ∀ past e later before, es = past ++ e :: later → e.start? = some before → I before past

theorem atStarts_nil (I : Staging κ π → List (Event κ π) → Prop) : AtStarts I [] := by
  intro past e later before hsplit _
  simp at hsplit

/-- One more event asks for the property once, if it is a start. -/
theorem atStarts_append {I : Staging κ π → List (Event κ π) → Prop} {es : List (Event κ π)}
    {e : Event κ π} (hes : AtStarts I es) (he : ∀ before, e.start? = some before → I before es) :
    AtStarts I (es ++ [e]) := by
  intro past e' later before hsplit hstart
  -- The event is the new one if nothing comes after it, and an old one else.
  cases List.eq_nil_or_concat later with
  | inl hnil =>
    subst hnil
    obtain ⟨hpast, hlast⟩ := List.append_inj' hsplit rfl
    rw [← hpast]
    rw [← List.singleton_inj.mp hlast] at hstart
    exact he before hstart
  | inr hconcat =>
    obtain ⟨later', last, hlater⟩ := hconcat
    subst hlater
    have hinit : es ++ [e] = (past ++ e' :: later') ++ [last] := by
      rw [hsplit]
      simp
    exact hes past e' later' before (List.append_inj' hinit rfl).1 hstart

/-- What every event keeps held not only between the moves, but at every
    moment at which a recording or an inner hook began. -/
theorem always {I : Staging κ π → List (Event κ π) → Prop} (hI : Kept I) :
    Kept fun s es => I s es ∧ AtStarts I es where
  recorded m hs :=
    ⟨hI.recorded m hs.1, atStarts_append hs.2 fun _ hb => Option.some.inj hb ▸ hs.1⟩
  passed object ctx ms hs :=
    ⟨hI.passed object ctx ms hs.1, atStarts_append hs.2 fun _ hb => Option.some.inj hb ▸ hs.1⟩
  failed object ctx ms hs :=
    ⟨hI.failed object ctx ms hs.1, atStarts_append hs.2 fun _ hb => Option.some.inj hb ▸ hs.1⟩
  bystander e he hs := by
    -- No bystander begins a recording.
    refine ⟨hI.bystander e he hs.1, atStarts_append hs.2 fun before hb => ?_⟩
    cases e with
    | recorded before' m => cases he
    | inner before' object ctx ms passed => cases he
    | _ => cases hb
  counted f hs := ⟨hI.counted f hs.1, hs.2⟩
  taken hs := ⟨hI.taken hs.1, hs.2⟩
  drained hs := ⟨hI.drained hs.1, atStarts_append hs.2 fun _ hb => nomatch hb⟩
  closed hs := ⟨hI.closed hs.1, atStarts_append hs.2 fun _ hb => nomatch hb⟩

/-! ## What a ledger does keeps -/

/-- What inner hooks do before they record keeps the property. -/
def EarlierKeeps (I : Staging κ π → List (Event κ π) → Prop)
    (earlier : Tracked κ → InnerContext → Transaction κ π (Watched κ π σ) →
      Transaction κ π (Watched κ π σ)) : Prop :=
  ∀ object ctx t, I t.staging t.events →
    I (earlier object ctx t).staging (earlier object ctx t).events

end Kept

/-- Each kind of event but the run of an action keeps the property, and so does
    the run of all pending actions, up to the first that fails. -/
structure Upheld (h : Hooks κ π σ) (I : Staging κ π → List (Event κ π) → Prop) : Prop where
  /-- A recording. -/
  recorded : ∀ {s es} m, I s es → I (s.after m) (es ++ [.recorded s m])
  /-- The inner hook of an object passes. -/
  passed : ∀ {s es} object ctx ms, I s es →
    I ((s.afterAll ms).update object.id Record.clearDirty)
      (es ++ [.inner s object ctx ms true])
  /-- The inner hook of an object fails. -/
  failed : ∀ {s es} object ctx ms, I s es →
    I (s.afterAll ms) (es ++ [.inner s object ctx ms false])
  /-- A call that leaves the staging area alone, and that is not the run of an
      action. -/
  bystander : ∀ {s es} e, e.isBystander = true → e.isAction = false → I s es → I s (es ++ [e])
  /-- Counting is no event. -/
  counted : ∀ {s es} f, I s es → I (s.count f) es
  /-- The pending actions are taken and run. -/
  ran : ∀ {s es} user errors world made answer,
    StopsAtFailure ActionCall.FailsWith (actionCalls h user s.pending (errors, world)) made answer →
      I s es → I { s with pending := [] } (es ++ made.map ActionCall.event)
  /-- The change logs are written. -/
  drained : ∀ {s es}, I s es → I s.dropPushes (es ++ [.drained])
  /-- Everything staged is dropped at the end of a commit or a rollback. -/
  closed : ∀ {s es}, I s es → I s.clear (es ++ [.closed])

/-- What each bystander keeps, several keep. -/
theorem Kept.bystanders {I : Staging κ π → List (Event κ π) → Prop} (hk : Kept I)
    {s : Staging κ π} {es calls : List (Event κ π)} (hcalls : ∀ e ∈ calls, e.isBystander = true)
    (hs : I s es) : I s (es ++ calls) := by
  induction calls generalizing es with
  | nil => exact (List.append_nil es).symm ▸ hs
  | cons e rest ih =>
    rw [List.forall_mem_cons] at hcalls
    have hrest := ih hcalls.2 (hk.bystander e hcalls.1 hs)
    rwa [List.append_assoc] at hrest

/-- What every event keeps is upheld. -/
theorem Kept.upheld {I : Staging κ π → List (Event κ π) → Prop} (hk : Kept I) (h : Hooks κ π σ) :
    Upheld h I where
  recorded m hs := hk.recorded m hs
  passed object ctx ms hs := hk.passed object ctx ms hs
  failed object ctx ms hs := hk.failed object ctx ms hs
  bystander e he _ hs := hk.bystander e he hs
  counted f hs := hk.counted f hs
  ran _ _ _ made _ _ hs := by
    -- The run of a single action is a bystander.
    refine hk.bystanders (fun e he => ?_) (hk.taken hs)
    obtain ⟨c, -, rfl⟩ := List.mem_map.mp he
    rfl
  drained hs := hk.drained hs
  closed hs := hk.closed hs

/-! ## Phases and commits -/

namespace Upheld

open Transaction
open Kept (EarlierKeeps)

variable {h : Hooks κ π σ} (script : InnerScript κ π σ)
  (earlier : Tracked κ → InnerContext → Transaction κ π (Watched κ π σ) →
    Transaction κ π (Watched κ π σ))
  (sink : Sink σ) {I : Staging κ π → List (Event κ π) → Prop}
  {t : Transaction κ π (Watched κ π σ)}

/-- One call of an inner hook: what it does before it records, then its
    recordings, then the clearing of its record if it passes. -/
theorem visit (hu : Upheld h I) (he : EarlierKeeps I earlier) (user : Option Principal)
    (r : Record κ) (ht : I t.staging t.events) :
    I (visit (h.watchedAfter script earlier) user r t).2.staging
      (visit (h.watchedAfter script earlier) user r t).2.events := by
  obtain ⟨ctx, run, passed, -, hv⟩ := visit_watchedAfter h script earlier user r t
  rw [hv]
  cases passed with
  | true => exact hu.passed r.object ctx run.recordings (he r.object ctx t ht)
  | false => exact hu.failed r.object ctx run.recordings (he r.object ctx t ht)

/-- The inner hooks keep what is upheld, sweep after sweep. -/
theorem settle (hu : Upheld h I) (he : EarlierKeeps I earlier) (user : Option Principal)
    (ht : I t.staging t.events) :
    I (settle (h.watchedAfter script earlier) user t).2.staging
      (settle (h.watchedAfter script earlier) user t).2.events :=
  settle_keeps (P := fun t => I t.staging t.events)
    (fun r _ ht _ _ => hu.visit script earlier he user r ht) (fun f _ ht => hu.counted f ht) t ht

/-- Validators and indexes are bystanders. -/
theorem validate (hu : Upheld h I) (validating : Bool) (ht : I t.staging t.events) :
    I (validate (h.watchedAfter script earlier) validating t).2.staging
      (validate (h.watchedAfter script earlier) validating t).2.events :=
  validate_keeps (P := fun t => I t.staging t.events)
    (fun _ _ ht => hu.bystander _ rfl rfl ht) (fun _ _ ht => hu.bystander _ rfl rfl ht)
    (fun f _ ht => hu.counted f ht) validating t ht

/-- The actions are taken and run as one. -/
theorem runDeferred (hu : Upheld h I) (user : Option Principal) (ht : I t.staging t.events) :
    I (runDeferred (h.watchedAfter script earlier) user t).2.staging
      (runDeferred (h.watchedAfter script earlier) user t).2.events := by
  obtain ⟨made, hmade, hevents, hstaging⟩ := runDeferred_calls h script earlier user t
  rw [hstaging, hevents]
  exact hu.counted _ (hu.ran user t.errors t.world.world made _ hmade ht)

/-- So are the outer hooks bystanders. -/
theorem notify (hu : Upheld h I) (user : Option Principal) (ht : I t.staging t.events) :
    I (notify (h.watchedAfter script earlier) user t).2.staging
      (notify (h.watchedAfter script earlier) user t).2.events :=
  notify_keeps (P := fun t => I t.staging t.events)
    (fun _ _ ht => hu.bystander _ rfl rfl ht) (fun f _ ht => hu.counted f ht) t ht

/-- A run of appends is one bystander after the other. -/
theorem appendAll (hu : Upheld h I) (writes : List (LogName × String)) {s : Staging κ π}
    (w : Watched κ π σ) (hw : I s w.events) :
    I s (sink.watched.appendAll writes w).2.events :=
  Sink.appendAll_keeps (Q := fun w => I s w.events)
    (fun _ _ _ hw => hu.bystander _ rfl rfl hw) writes w hw

/-- Counting the outcomes of a drain is no event. -/
theorem countAppends (hu : Upheld h I) (outcomes : List AppendOutcome) {s : Staging κ π}
    {es : List (Event κ π)} (hs : I s es) : I (outcomes.foldl Staging.countAppend s) es := by
  induction outcomes generalizing s with
  | nil => exact hs
  | cons o rest ih => exact ih (hu.counted _ hs)

/-- Nor is it one if everything staged is dropped afterwards. -/
theorem clear_countAppends (hu : Upheld h I) (outcomes : List AppendOutcome) {s : Staging κ π}
    {es : List (Event κ π)} (hs : I s.clear es) :
    I (outcomes.foldl Staging.countAppend s).clear es := by
  induction outcomes generalizing s with
  | nil => exact hs
  | cons o rest ih =>
    have hc : I (s.countAppend o).clear es := by
      unfold Staging.countAppend
      rw [Staging.clear_count]
      exact hu.counted _ hs
    exact ih hc

/-- The drain from outside a commit, with the event at its end. -/
theorem drainLogsOn (hu : Upheld h I) (pool : Pool) (ht : I t.staging t.events) :
    if t.staging.logEnabled && t.staging.options.anyAudit then
      I (t.drainLogsOn pool sink.watched).2.staging
        ((t.drainLogsOn pool sink.watched).2.events ++ [.drained])
    else I (t.drainLogsOn pool sink.watched).2.staging
      (t.drainLogsOn pool sink.watched).2.events := by
  split
  next hon =>
    rw [drainLogsOn_on pool sink.watched hon]
    -- The appends come first in the events, though the records were emptied
    -- before: the sink does not see the staging area.
    have ha := hu.appendAll sink (t.staging.appends pool) t.world ht
    revert ha
    obtain ⟨outcomes, world⟩ := sink.watched.appendAll (t.staging.appends pool) t.world
    intro ha
    exact hu.counted (fun c => c.phaseFinished .changeLog 0 true)
      (hu.countAppends outcomes (hu.drained ha))
  next hoff =>
    rw [drainLogsOn_off pool sink.watched hoff]
    exact ht

/-- The drain in a commit, which drops everything staged at its end. -/
theorem drainLogsOn_closed (hu : Upheld h I) (pool : Pool) (ht : I t.staging t.events) :
    I (t.drainLogsOn pool sink.watched).2.staging.clear
      ((t.drainLogsOn pool sink.watched).2.events ++ [.closed]) := by
  by_cases hon : (t.staging.logEnabled && t.staging.options.anyAudit) = true
  · rw [drainLogsOn_on pool sink.watched hon]
    have ha := hu.appendAll sink (t.staging.appends pool) t.world ht
    revert ha
    obtain ⟨outcomes, world⟩ := sink.watched.appendAll (t.staging.appends pool) t.world
    intro ha
    -- What the drain drops would have been dropped at the end of the commit.
    have hc : I t.staging.dropPushes.clear (world.events ++ [.closed]) :=
      hu.closed (s := t.staging) ha
    show I (Staging.count _ (fun c => c.phaseFinished .changeLog 0 true)).clear _
    rw [Staging.clear_count]
    exact hu.counted _ (hu.clear_countAppends outcomes hc)
  · rw [drainLogsOn_off pool sink.watched hon]
    exact hu.closed ht

/-- The three phases before the storage, up to the first that fails. -/
theorem prepare (hu : Upheld h I) (he : EarlierKeeps I earlier) (validating : Bool)
    (user : Option Principal) (ht : I t.staging t.events) :
    I (prepare (h.watchedAfter script earlier) validating user t).2.staging
      (prepare (h.watchedAfter script earlier) validating user t).2.events := by
  unfold Transaction.prepare
  have h₁ := hu.settle script earlier he user ht
  revert h₁
  obtain ⟨settled, t₁⟩ := Transaction.settle (h.watchedAfter script earlier) user t
  intro h₁
  cases settled with
  | error e => exact h₁
  | ok _ =>
    have h₂ := hu.validate script earlier validating h₁
    revert h₂
    dsimp only
    obtain ⟨validated, t₂⟩ :=
      Transaction.validate (h.watchedAfter script earlier) validating t₁
    intro h₂
    cases validated with
    | error e => exact h₂
    | ok _ => exact hu.runDeferred script earlier user h₂

/-- A commit keeps what is upheld, on each of its courses and with every pool;
    its end is the last event. -/
theorem commitOn (hu : Upheld h I) (he : EarlierKeeps I earlier) (pool : Pool)
    (storage : Storage σ) (validating : Bool) (user : Option Principal)
    (ht : I t.staging t.events) :
    let done := commitOn pool (h.watchedAfter script earlier) sink.watched storage.watched
      validating user t
    I done.2.staging (done.2.events ++ [.closed]) := by
  let done := commitWithOn pool (h.watchedAfter script earlier) sink.watched storage.watched
    validating user { t with errors := ∅ }
  show I done.2.staging (done.2.events ++ [.closed])
  unfold done commitWithOn
  have h₁ := hu.prepare script earlier he validating user (t := { t with errors := ∅ }) ht
  revert h₁
  obtain ⟨prepared, t₁⟩ := Transaction.prepare (h.watchedAfter script earlier) validating user
    { t with errors := ∅ }
  intro h₁
  cases prepared with
  | error e =>
    -- The rollback is a bystander, whatever it answers.
    exact hu.closed (hu.bystander _ rfl rfl h₁)
  | ok _ =>
    have h₂ : I t₁.staging (storage.watched.commit t₁.world).2.events :=
      hu.bystander _ rfl rfl h₁
    revert h₂
    dsimp only
    obtain ⟨answer, world⟩ := (storage.watched (κ := κ) (π := π)).commit t₁.world
    intro h₂
    cases answer with
    | error e => exact hu.closed h₂
    | ok _ =>
      have h₃ := hu.notify script earlier user (t := { t₁ with world }) h₂
      exact hu.drainLogsOn_closed sink pool h₃

/-! ## Reachable ledgers -/

/-- **A step.** Whatever a move does keeps what is upheld. -/
theorem make (hu : Upheld h I) (he : EarlierKeeps I earlier) (move : Move κ π σ)
    (ht : I t.staging t.events) :
    I (t.make (h.watchedAfter script earlier) sink move).staging
      (t.make (h.watchedAfter script earlier) sink move).events := by
  cases move with
  | record m => exact hu.recorded m ht
  | settle user => exact hu.settle script earlier he user ht
  | validate validating => exact hu.validate script earlier validating ht
  | runDeferred user => exact hu.runDeferred script earlier user ht
  | notify user => exact hu.notify script earlier user ht
  | drainLogs pool =>
    have hd := hu.drainLogsOn sink pool ht
    unfold Transaction.make
    revert hd
    dsimp only
    split <;> exact id
  | commit pool storage validating user =>
    exact hu.commitOn script earlier sink he pool storage validating user ht
  | rollback storage => exact hu.closed (hu.bystander _ rfl rfl ht)
  -- The property is about neither the error buffer nor the world.
  | meanwhile errors world => exact ht

/-- **A run.** So do several moves. -/
theorem makeAll (hu : Upheld h I) (he : EarlierKeeps I earlier) (moves : List (Move κ π σ))
    (ht : I t.staging t.events) :
    I (t.makeAll (h.watchedAfter script earlier) sink moves).staging
      (t.makeAll (h.watchedAfter script earlier) sink moves).events := by
  induction moves generalizing t with
  | nil => exact ht
  | cons move rest ih => exact ih (hu.make script earlier sink he move ht)

/-- However deep the calls of inner hooks are nested, their moves keep what
    every event keeps. -/
theorem planned (hu : Upheld h I) (plan : InnerPlan κ π σ) (depth : Nat) :
    EarlierKeeps I (h.planned script plan sink depth) := by
  induction depth with
  | zero => exact fun _ _ _ ht => ht
  | succ depth ih =>
    -- The hooks that these moves call are nested one level less.
    intro object ctx t ht
    exact hu.makeAll script _ sink ih (plan object ctx t.unwatched) ht

/-- What every event keeps holds of every reachable ledger. -/
theorem reached (hu : Upheld h I) (he : EarlierKeeps I earlier) {options : Options}
    {schema : Schema} (hnew : I (Staging.new options schema) []) (world : σ)
    (moves : List (Move κ π σ)) :
    I (reached (h.watchedAfter script earlier) sink options schema world moves).staging
      (reached (h.watchedAfter script earlier) sink options schema world moves).events :=
  hu.makeAll script earlier sink he moves hnew

end Upheld

namespace Kept

open Transaction

variable (h : Hooks κ π σ) (script : InnerScript κ π σ)
  (earlier : Tracked κ → InnerContext → Transaction κ π (Watched κ π σ) →
    Transaction κ π (Watched κ π σ))
  (sink : Sink σ) {I : Staging κ π → List (Event κ π) → Prop}
  {t : Transaction κ π (Watched κ π σ)}

theorem visit (hk : Kept I) (he : EarlierKeeps I earlier) (user : Option Principal) (r : Record κ)
    (ht : I t.staging t.events) :
    I (visit (h.watchedAfter script earlier) user r t).2.staging
      (visit (h.watchedAfter script earlier) user r t).2.events :=
  (hk.upheld h).visit script earlier he user r ht

theorem settle (hk : Kept I) (he : EarlierKeeps I earlier) (user : Option Principal)
    (ht : I t.staging t.events) :
    I (settle (h.watchedAfter script earlier) user t).2.staging
      (settle (h.watchedAfter script earlier) user t).2.events :=
  (hk.upheld h).settle script earlier he user ht

theorem prepare (hk : Kept I) (he : EarlierKeeps I earlier) (validating : Bool)
    (user : Option Principal) (ht : I t.staging t.events) :
    I (prepare (h.watchedAfter script earlier) validating user t).2.staging
      (prepare (h.watchedAfter script earlier) validating user t).2.events :=
  (hk.upheld h).prepare script earlier he validating user ht

theorem planned (hk : Kept I) (plan : InnerPlan κ π σ) (depth : Nat) :
    EarlierKeeps I (h.planned script plan sink depth) :=
  (hk.upheld h).planned script sink plan depth

/-- What every event keeps holds of every reachable ledger. -/
theorem reached (hk : Kept I) (he : EarlierKeeps I earlier) {options : Options} {schema : Schema}
    (hnew : I (Staging.new options schema) []) (world : σ) (moves : List (Move κ π σ)) :
    I (reached (h.watchedAfter script earlier) sink options schema world moves).staging
      (reached (h.watchedAfter script earlier) sink options schema world moves).events :=
  (hk.upheld h).reached script earlier sink he hnew world moves

end Kept

end ChangeLedger
