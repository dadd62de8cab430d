/-
  ChangeLedger.Proofs.ActionRuns — the run of the deferred actions.

  The third phase takes all deferred actions and runs them in order, up to the
  first that fails.  An action fails if it answers with an error, or if it adds
  tokens to the error buffer that all actions share; the phase tells which of
  them failed by the key that the action was deferred under.

  What each action would do, if none ended the run, is listed by `actionCalls`.

  Main results:
    * `ActionCall.fails_iff` — when an action fails.
    * `runActions_calls` — the calls and the end of a run.
    * `runDeferred_calls` — the third phase: afterwards no action is pending.
-/
import ChangeLedger.Proofs.Chronicle
import ChangeLedger.Proofs.FirstFailure

namespace ChangeLedger

variable {κ π σ : Type}

/-! ## The call of one action -/

/-- The call of a deferred action. -/
structure ActionCall (π : Type) where
  /-- The key that it was deferred under. -/
  key : String
  /-- The action. -/
  action : π
  /-- The error buffer before the call. -/
  before : ErrorBuffer
  /-- The error buffer afterwards. -/
  after : ErrorBuffer
  /-- What the action answers. -/
  answer : Except Failure Unit

namespace ActionCall

/-- The tokens that the action added. -/
def added (c : ActionCall π) : ErrorTokens := c.after.since c.before.size

/-- The event of the call. -/
def event (c : ActionCall π) : Event κ π := .acted c.action c.answer

/-- An action fails if it answers with an error or adds a token.  A failure of
    the kind of this phase is passed on as it is; of any other, and of tokens,
    the text is told under the key of the action. -/
inductive FailsWith (c : ActionCall π) : Failure → Prop where
  /-- The action answers with a failure of a deferred action. -/
  | own {key message : String} (hanswer : c.answer = .error (.postProcess key message)) :
      c.FailsWith (.postProcess key message)
  /-- It answers with another failure. -/
  | told {e : Failure} (hanswer : c.answer = .error e)
      (hother : ∀ key message, e ≠ .postProcess key message) :
      c.FailsWith (.postProcess c.key e.message)
  /-- It answers that all is well, but has added tokens. -/
  | objected (hanswer : c.answer = .ok ()) (hadded : c.added.toList ≠ []) :
      c.FailsWith (.postProcess c.key c.added.display)

/-- The failure is the one that the phase makes of the answer and the tokens. -/
theorem failsWith_iff {c : ActionCall π} {e : Failure} :
    c.FailsWith e ↔ Transaction.actionFailure? c.key c.answer c.added = some e := by
  constructor
  · intro hfails
    cases hfails with
    | own hanswer => rw [hanswer]; rfl
    | @told e' hanswer hother =>
      rw [hanswer]
      cases e' with
      | postProcess key message => exact absurd rfl (hother key message)
      | _ => rfl
    | objected hanswer hadded =>
      unfold Transaction.actionFailure?
      rw [hanswer]
      dsimp only
      rw [if_neg (by rwa [List.isEmpty_iff])]
  · intro hfailure
    cases ha : c.answer with
    | error e' =>
      rw [ha] at hfailure
      cases e' with
      | postProcess key message =>
        obtain rfl := Option.some.inj hfailure
        exact .own ha
      | _ =>
        obtain rfl := Option.some.inj hfailure
        exact .told ha fun _ _ he => nomatch he
    | ok _ =>
      unfold Transaction.actionFailure? at hfailure
      rw [ha] at hfailure
      dsimp only at hfailure
      split at hfailure
      next => cases hfailure
      next hadded =>
        obtain rfl := Option.some.inj hfailure
        exact .objected ha fun hnil => hadded (List.isEmpty_iff.mpr hnil)

/-- An action fails exactly if it answers with an error or adds a token. -/
theorem fails_iff (c : ActionCall π) :
    (∃ e, c.FailsWith e) ↔ (∃ e, c.answer = .error e) ∨ c.added.toList ≠ [] := by
  constructor
  · rintro ⟨e, hfails⟩
    cases hfails with
    | own hanswer => exact .inl ⟨_, hanswer⟩
    | told hanswer _ => exact .inl ⟨_, hanswer⟩
    | objected _ hadded => exact .inr hadded
  · intro hfails
    cases ha : c.answer with
    | error e =>
      by_cases hown : ∃ key message, e = .postProcess key message
      · obtain ⟨key, message, rfl⟩ := hown
        exact ⟨_, .own ha⟩
      · exact ⟨_, .told ha fun key message he => hown ⟨key, message, he⟩⟩
    | ok _ =>
      refine ⟨_, .objected ha (hfails.resolve_left ?_)⟩
      rintro ⟨e, he⟩
      rw [ha] at he
      cases he

/-- The tokens that an action adds are told from those that were there
    before. -/
theorem added_of_addAll {c : ActionCall π} {ts : List ErrorToken}
    (h : c.after = c.before.addAll ts) : c.added = ⟨ts⟩ := by
  unfold added
  rw [h, ErrorBuffer.since_addAll]

end ActionCall

/-! ## The calls of several actions -/

section

variable (h : Hooks κ π σ) (user : Option Principal)

/-- The call of one action, and the error buffer and the world after it. -/
def actionCall (deferred : String × π) (s : ErrorBuffer × σ) :
    ActionCall π × (ErrorBuffer × σ) :=
  let out := h.act deferred.2 user s.1 s.2
  ({ key := deferred.1, action := deferred.2, before := s.1, after := out.2.1, answer := out.1 },
    out.2)

/-- The calls of several actions, one after the other. -/
def actionCalls (actions : List (String × π)) (s : ErrorBuffer × σ) : List (ActionCall π) :=
  callsInTurn (actionCall h user) actions s

/-- There is one call for each action, in order. -/
theorem map_actionCalls (actions : List (String × π)) (s : ErrorBuffer × σ) :
    (actionCalls h user actions s).map (fun c => (c.key, c.action)) = actions :=
  map_callsInTurn (fun _ _ => rfl) actions s

end

/-! ## The phase -/

namespace Transaction

variable (h : Hooks κ π σ) (script : InnerScript κ π σ)
  (earlier : Tracked κ → InnerContext → Transaction κ π (Watched κ π σ) →
    Transaction κ π (Watched κ π σ))
  (user : Option Principal)

/-- An action is run, and then the others are, unless it failed. -/
theorem runActions_cons (a : String × π) (rest : List (String × π))
    (t : Transaction κ π (Watched κ π σ)) :
    let call := actionCall h user a (t.errors, t.world.world)
    let t' : Transaction κ π (Watched κ π σ) :=
      { t with errors := call.2.1, world := ⟨call.2.2, t.events ++ [call.1.event]⟩ }
    runActions (h.watchedAfter script earlier) user (a :: rest) t =
      match actionFailure? call.1.key call.1.answer call.1.added with
      | some e => (.error e, t')
      | none => runActions (h.watchedAfter script earlier) user rest t' := rfl

/-- A run makes the calls up to the first that fails, and leaves the staging
    area alone. -/
theorem runActions_calls (actions : List (String × π)) (t : Transaction κ π (Watched κ π σ)) :
    let out := runActions (h.watchedAfter script earlier) user actions t
    ∃ made, StopsAtFailure ActionCall.FailsWith
        (actionCalls h user actions (t.errors, t.world.world)) made out.1 ∧
      out.2.events = t.events ++ made.map ActionCall.event ∧ out.2.staging = t.staging := by
  induction actions generalizing t with
  | nil => exact ⟨[], .nil, (List.append_nil _).symm, rfl⟩
  | cons a rest ih =>
    dsimp only
    rw [runActions_cons]
    unfold actionCalls callsInTurn
    obtain ⟨c, errors, world⟩ := actionCall h user a (t.errors, t.world.world)
    dsimp only
    cases hfailure : actionFailure? c.key c.answer c.added with
    | some e => exact ⟨[c], .head (ActionCall.failsWith_iff.mpr hfailure) _, rfl, rfl⟩
    | none =>
      have hc : ∀ e, ¬ c.FailsWith e := by
        intro e hfails
        rw [ActionCall.failsWith_iff, hfailure] at hfails
        cases hfails
      obtain ⟨made, hmade, hevents, hstaging⟩ :=
        ih { t with errors, world := ⟨world, t.events ++ [c.event]⟩ }
      exact ⟨c :: made, hmade.cons hc, hevents.trans (List.append_assoc t.events [c.event] _),
        hstaging⟩

/-- The phase makes the calls of the pending actions up to the first that
    fails.  However it ends, none is pending afterwards, and nothing else in the
    staging area has changed but the counters. -/
theorem runDeferred_calls (t : Transaction κ π (Watched κ π σ)) :
    let out := runDeferred (h.watchedAfter script earlier) user t
    ∃ made, StopsAtFailure ActionCall.FailsWith
        (actionCalls h user t.staging.pending (t.errors, t.world.world)) made out.1 ∧
      out.2.events = t.events ++ made.map ActionCall.event ∧
      out.2.staging = { t.staging with pending := [] }.count fun c =>
        c.phaseFinished .postProcessing 0 (succeeded out.1) := by
  intro out
  obtain ⟨made, hmade, hevents, hstaging⟩ :=
    runActions_calls h script earlier user t.staging.pending
      (t.stage fun s => { s with pending := [] })
  exact ⟨made, hmade, hevents, congrArg (fun s : Staging κ π =>
    s.count fun c => c.phaseFinished .postProcessing 0 (succeeded out.1)) hstaging⟩

end Transaction

end ChangeLedger
