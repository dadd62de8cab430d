/-
  ChangeLedger.Proofs.EarlierTokens — what was reported before fails nothing now.

  Hooks, validators and actions share one error buffer, and it is not emptied
  between two phases.  A phase tells the tokens of a call from those that were
  there before by a mark.  So if everything it calls does no more with the
  buffer than to add to it, then a phase does the same whatever the buffer holds
  when it begins, and its failures tell none of the earlier tokens.

  Main results:
    * `ErrorBuffer.since_behind` — earlier tokens do not show behind a mark.
    * `runPhases_behind`, `prepare_behind` — phases on a buffer that holds
      tokens.
    * `earlier_tokens_never_leak` — the results, the calls and the final state.
-/
import ChangeLedger.Proofs.References
import ChangeLedger.Proofs.PhaseMaps

namespace ChangeLedger

variable {κ π σ : Type}

/-! ## Tokens in front -/

namespace ErrorBuffer

/-- The buffer with these tokens in front of those that it holds. -/
def behind (b : ErrorBuffer) (earlier : List ErrorToken) : ErrorBuffer := ⟨earlier ++ b.tokens⟩

/-- What was added between two moments is the same behind earlier tokens. -/
theorem since_behind (b b' : ErrorBuffer) (earlier : List ErrorToken) :
    (b'.behind earlier).since (b.behind earlier).size = b'.since b.size := by
  simp [behind, since, size]

theorem behind_append (b : ErrorBuffer) (earlier earlier' : List ErrorToken) :
    b.behind (earlier ++ earlier') = (b.behind earlier').behind earlier := by
  simp [behind]

/-- With all its tokens put in front of an empty buffer, a buffer is itself. -/
theorem empty_behind (b : ErrorBuffer) : (∅ : ErrorBuffer).behind b.tokens = b := by
  show (⟨b.tokens ++ []⟩ : ErrorBuffer) = b
  rw [List.append_nil]

end ErrorBuffer

namespace Transaction

/-- The transaction with these tokens in front of its errors. -/
def behind (t : Transaction κ π σ) (earlier : List ErrorToken) : Transaction κ π σ :=
  { t with errors := t.errors.behind earlier }

/-- The transaction with no errors. -/
def unblamed (t : Transaction κ π σ) : Transaction κ π σ := { t with errors := ∅ }

/-- A transaction has its own tokens behind none. -/
theorem unblamed_behind (t : Transaction κ π σ) : t.unblamed.behind t.errors.tokens = t :=
  congrArg (fun errors => { t with errors }) t.errors.empty_behind

theorem behind_append (t : Transaction κ π σ) (earlier earlier' : List ErrorToken) :
    t.behind (earlier ++ earlier') = (t.behind earlier').behind earlier :=
  congrArg (fun errors => { t with errors }) (t.errors.behind_append earlier earlier')

/-- No phase notices the earlier tokens itself. -/
theorem neutral_behind (earlier : List ErrorToken) :
    Neutral id fun t : Transaction κ π σ => t.behind earlier where
  toUnseen := unseen_id
  records _ := (List.map_id _).symm
  pending _ := rfl
  maxSweeps _ := rfl
  count _ _ := rfl
  clearDirty _ _ := rfl
  take _ := rfl
  added t t' := t.errors.since_behind t'.errors earlier

end Transaction

/-! ## What only adds to the buffer -/

namespace Transaction

/-- With any error buffer, a call does what it does with the empty one, and its
    tokens are added to those that are there. -/
def OnlyAdds {α : Type} (call : Transaction κ π σ → α × Transaction κ π σ) : Prop :=
  ∀ t, call t = (call t.unblamed).map id (·.behind t.errors.tokens)

/-- Behind earlier tokens, a call that only adds does the same. -/
theorem OnlyAdds.behind {α : Type} {call : Transaction κ π σ → α × Transaction κ π σ}
    (hcall : OnlyAdds call) (earlier : List ErrorToken) (t : Transaction κ π σ) :
    (call t).map id (·.behind earlier) = call (t.behind earlier) := by
  rw [hcall t, hcall (t.behind earlier)]
  exact Prod.ext rfl (behind_append _ earlier t.errors.tokens).symm

end Transaction

/-- All that is given the error buffer only adds to it. -/
structure Hooks.OnlyAdd (h : Hooks κ π σ) : Prop where
  inner : ∀ object ctx, Transaction.OnlyAdds (h.inner object ctx)
  validators : ∀ r, Transaction.OnlyAdds (h.ask r)
  actions : ∀ user action, Transaction.OnlyAdds (h.runAction user action)

/-- With any error buffer, a script chooses the run that it chooses with the
    empty one, and the tokens are added to those that are there. -/
def InnerScript.OnlyAdds (script : InnerScript κ π σ) : Prop := ∀ object ctx t,
  let run := script object ctx t.unblamed
  script object ctx t = { run with errors := run.errors.behind t.errors.tokens }

/-- A script that only adds to the errors adds the same behind earlier
    tokens. -/
theorem InnerScript.OnlyAdds.behind {script : InnerScript κ π σ} (hscript : script.OnlyAdds)
    (earlier : List ErrorToken) (object : Tracked κ) (ctx : InnerContext) (t : Transaction κ π σ) :
    let run := script object ctx t
    script object ctx (t.behind earlier) = { run with errors := run.errors.behind earlier } := by
  have hbare := hscript object ctx t
  have hfull := hscript object ctx (t.behind earlier)
  dsimp only at hbare hfull ⊢
  rw [hfull, hbare]
  exact congrArg (fun errors => { script object ctx t.unblamed with errors })
    (ErrorBuffer.behind_append _ earlier t.errors.tokens)

/-- Whether a run passes does not depend on what was there before it. -/
theorem InnerRun.passed_behind (run : InnerRun κ π σ) (b : ErrorBuffer)
    (earlier : List ErrorToken) :
    { run with errors := run.errors.behind earlier }.passed (b.behind earlier).size
      = run.passed b.size := by
  unfold InnerRun.passed
  refine congrArg (succeeded run.answer && ·) (decide_eq_decide.mpr ?_)
  simp [ErrorBuffer.behind, ErrorBuffer.size]

namespace Hooks

variable {h : Hooks κ π σ} {script : InnerScript κ π σ}
  {before : Tracked κ → InnerContext → Transaction κ π (Watched κ π σ) →
    Transaction κ π (Watched κ π σ)}

/-- Noting the calls adds no token. -/
theorem onlyAdds_runAction_watchedAfter {user : Option Principal} {action : π}
    (hactions : Transaction.OnlyAdds (h.runAction user action)) :
    Transaction.OnlyAdds ((h.watchedAfter script before).runAction user action) := by
  intro t
  let noted (out : Except Failure Unit × Transaction κ π σ) :
      Except Failure Unit × Transaction κ π (Watched κ π σ) :=
    (out.1, ⟨out.2.staging, out.2.errors, t.world.note out.2.world (.acted action out.1)⟩)
  show noted (h.runAction user action t.unwatched)
    = (noted (h.runAction user action t.unwatched.unblamed)).map id _
  rw [hactions t.unwatched]
  rfl

@[inherit_doc onlyAdds_runAction_watchedAfter]
theorem onlyAdds_ask_watchedAfter {r : Record κ} (hvalidators : Transaction.OnlyAdds (h.ask r)) :
    Transaction.OnlyAdds ((h.watchedAfter script before).ask r) := by
  intro t
  let noted (out : Bool × Transaction κ π σ) : Bool × Transaction κ π (Watched κ π σ) :=
    (out.1, ⟨out.2.staging, out.2.errors, t.world.note out.2.world (.validated r out.1)⟩)
  show noted (h.ask r t.unwatched) = (noted (h.ask r t.unwatched.unblamed)).map id _
  rw [hvalidators t.unwatched]
  rfl

@[inherit_doc onlyAdds_runAction_watchedAfter]
theorem onlyAdds_inner_watchedAfter (hscript : script.OnlyAdds)
    (hbefore : ∀ object ctx t,
      before object ctx t = (before object ctx t.unblamed).behind t.errors.tokens)
    (object : Tracked κ) (ctx : InnerContext) :
    Transaction.OnlyAdds ((h.watchedAfter script before).inner object ctx) := by
  intro t
  let t' := before object ctx t.unblamed
  let run := script object ctx t'.unwatched
  -- The script is asked behind the tokens of `t`, and chooses the same run.
  have hrun : script object ctx (before object ctx t).unwatched
      = { run with errors := run.errors.behind t.errors.tokens } := by
    rw [hbefore object ctx t]
    exact hscript.behind t.errors.tokens object ctx t'.unwatched
  have hpassed : (script object ctx (before object ctx t).unwatched).passed t.errors.size
      = run.passed t.unblamed.errors.size := by
    have hbehind := run.passed_behind ∅ t.errors.tokens
    rw [ErrorBuffer.empty_behind] at hbehind
    rw [hrun]
    exact hbehind
  unfold watchedAfter
  dsimp only
  rw [hpassed, hrun, hbefore object ctx t]
  rfl

end Hooks

/-! ## Phases in a row -/

/-- The call of one of the three phases before the storage is asked. -/
inductive PhaseCall where
  /-- Runs the inner hooks. -/
  | settle (user : Option Principal)
  /-- Validates and indexes. -/
  | validate (validating : Bool)
  /-- Runs the deferred actions. -/
  | runDeferred (user : Option Principal)

namespace Transaction

variable {h : Hooks κ π σ}

/-- Runs a phase. -/
def runPhase (h : Hooks κ π σ) (t : Transaction κ π σ) :
    PhaseCall → Except Failure Unit × Transaction κ π σ
  | .settle user => settle h user t
  | .validate validating => validate h validating t
  | .runDeferred user => runDeferred h user t

/-- Runs several phases, whatever they answer. -/
def runPhases (h : Hooks κ π σ) :
    List PhaseCall → Transaction κ π σ → List (Except Failure Unit) × Transaction κ π σ
  | [], t => ([], t)
  | c :: rest, t =>
    let done := runPhase h t c
    let later := runPhases h rest done.2
    (done.1 :: later.1, later.2)

/-- **A step.** A phase does the same behind earlier tokens. -/
theorem runPhase_behind (hh : h.OnlyAdd) (earlier : List ErrorToken) (t : Transaction κ π σ)
    (c : PhaseCall) :
    (runPhase h t c).map id (·.behind earlier) = runPhase h (t.behind earlier) c := by
  cases c with
  | settle user =>
    exact (neutral_behind earlier).settle (fun object ctx => (hh.inner object ctx).behind earlier)
      user t
  | validate validating =>
    exact (neutral_behind earlier).validate (fun _ _ => rfl)
      ((neutral_behind earlier).accept (fun r => (hh.validators r).behind earlier) validating)
      (fun _ _ => rfl) t
  | runDeferred user =>
    exact (neutral_behind earlier).runDeferred
      (fun action => (hh.actions user action).behind earlier) t

/-- **A run.** So do several phases in any order. -/
theorem runPhases_behind (hh : h.OnlyAdd) (earlier : List ErrorToken) (calls : List PhaseCall)
    (t : Transaction κ π σ) :
    (runPhases h calls t).map id (·.behind earlier) = runPhases h calls (t.behind earlier) := by
  induction calls generalizing t with
  | nil => rfl
  | cons c rest ih =>
    unfold runPhases
    rw [← runPhase_behind hh earlier t c]
    dsimp only [Prod.map, id]
    rw [← ih]
    rfl

/-- So do the three phases before the storage, which stop at the same
    failure. -/
theorem prepare_behind (hh : h.OnlyAdd) (earlier : List ErrorToken) (validating : Bool)
    (user : Option Principal) (t : Transaction κ π σ) :
    (prepare h validating user t).map id (·.behind earlier)
      = prepare h validating user (t.behind earlier) :=
  (neutral_behind earlier).prepare (fun object ctx => (hh.inner object ctx).behind earlier)
    (fun _ _ => rfl)
    ((neutral_behind earlier).accept (fun r => (hh.validators r).behind earlier) validating)
    (fun _ _ => rfl) (fun action => (hh.actions user action).behind earlier) t

/-! ## The whole statement -/

/-- Two runs agree in all but the error buffer, and there the second one has
    the same tokens behind the earlier ones. -/
structure SameBehind {α : Type} (earlier : List ErrorToken)
    (bare full : α × Transaction κ π (Watched κ π σ)) : Prop where
  answer : full.1 = bare.1
  calls : full.2.events = bare.2.events
  staging : full.2.staging = bare.2.staging
  world : full.2.world.world = bare.2.world.world
  errors : full.2.errors.tokens = earlier ++ bare.2.errors.tokens

theorem SameBehind.of_eq {α : Type} {earlier : List ErrorToken}
    {bare full : α × Transaction κ π (Watched κ π σ)}
    (h : bare.map id (·.behind earlier) = full) : SameBehind earlier bare full := by
  subst h
  exact ⟨rfl, rfl, rfl, rfl, rfl⟩

/-- **Earlier tokens never leak into later failures.**  Take any transaction, and
    inner hooks, validators and actions that only add to the error buffer; the
    inner hooks may run phases themselves.  Any of the three phases before the
    storage commit, or several in any order, or the three in a row up to the
    first that fails, do the same on a buffer that holds earlier tokens as on an
    empty one: they give the same results, with the same texts, make the same
    calls and leave the same staging area and world.  In the end the buffer holds
    the earlier tokens and behind them what the other one holds. -/
theorem earlier_tokens_never_leak (h : Hooks κ π σ) (hvalidators : ∀ r, OnlyAdds (h.ask r))
    (hactions : ∀ user action, OnlyAdds (h.runAction user action)) (script : InnerScript κ π σ)
    (hscript : script.OnlyAdds)
    (before : Tracked κ → InnerContext → Transaction κ π (Watched κ π σ) →
      Transaction κ π (Watched κ π σ))
    (hbefore : ∀ object ctx t,
      before object ctx t = (before object ctx t.unblamed).behind t.errors.tokens)
    (t : Transaction κ π (Watched κ π σ)) (earlier : List ErrorToken) :
    let hooks := h.watchedAfter script before
    let bare := { t with errors := ∅ }
    let full := { t with errors := ⟨earlier⟩ }
    (∀ calls, SameBehind earlier (runPhases hooks calls bare) (runPhases hooks calls full)) ∧
    ∀ validating user, SameBehind earlier (prepare hooks validating user bare)
      (prepare hooks validating user full) := by
  intro hooks bare full
  have hh : hooks.OnlyAdd := {
    inner := Hooks.onlyAdds_inner_watchedAfter hscript hbefore
    validators := fun r => Hooks.onlyAdds_ask_watchedAfter (hvalidators r)
    actions := fun user action => Hooks.onlyAdds_runAction_watchedAfter (hactions user action) }
  have hfull : bare.behind earlier = full :=
    congrArg (fun errors => { t with errors }) (ErrorBuffer.empty_behind ⟨earlier⟩)
  refine ⟨fun calls => .of_eq ?_, fun validating user => .of_eq ?_⟩
  · rw [← hfull]
    exact runPhases_behind hh earlier calls bare
  · rw [← hfull]
    exact prepare_behind hh earlier validating user bare

/-- The inner hook of every object answers that all is well, but adds a token. -/
def lateScript : InnerScript Unit Unit MemoryLog :=
  fun _ _ t => ⟨[], t.errors.add ⟨"n-1", none, "late"⟩, t.world, .ok ()⟩

/-- The buffer holds a token when a node is about to be settled.  The first phase
    fails with the token of the hook alone, and the others do not fail. -/
theorem earlier_tokens_never_leak_of_late :
    let t := reached (idleHooks.nested idleScript idlePlan MemoryLog.sink 0) MemoryLog.sink {} ∅ ∅
      [.record (.create none ada)]
    let hooks := idleHooks.watchedAfter lateScript fun _ _ t => t
    let out := runPhases hooks [.settle none, .validate true, .runDeferred none]
      { t with errors := ⟨[⟨"n-0", none, "early"⟩]⟩ }
    out.1 = [.error (.hook ada.id .innerHooks "n-1: late"), .ok (), .ok ()] ∧
      out.2.errors.tokens = [⟨"n-0", none, "early"⟩, ⟨"n-1", none, "late"⟩] := by
  intro t hooks out
  have hadd : ∀ {α : Type} (t : Transaction Unit Unit MemoryLog) (answer : α),
      (answer, t) = (answer, t.unblamed.behind t.errors.tokens) :=
    fun t answer => congrArg (Prod.mk answer) t.unblamed_behind.symm
  obtain ⟨hphases, -⟩ := earlier_tokens_never_leak idleHooks (fun _ t => hadd t true)
    (fun _ _ t => hadd t (Except.ok ())) lateScript (fun _ _ _ => rfl) (fun _ _ t => t)
    (fun _ _ t => t.unblamed_behind.symm) t [⟨"n-0", none, "early"⟩]
  have hsame := hphases [.settle none, .validate true, .runDeferred none]
  exact ⟨hsame.answer.trans rfl, hsame.errors.trans rfl⟩

end Transaction

end ChangeLedger
