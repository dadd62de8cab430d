/-
  ChangeLedger.Proofs.DeferredActions — deferred actions run at most once, in order.

  An action is accepted if its key is new since everything staged was last
  dropped.  It waits until a third phase takes it or until it is dropped with
  everything else.  A phase takes all that waits, and runs it in the order in
  which it was accepted, up to the first action that fails; what it does not run
  then is never run.

  Which actions wait is read off the events here (`deferralsIn`), and compared
  with what the staging area holds as pending.  That the two agree is broken
  while a phase runs, so it is upheld only across the run as a whole.

  Main results:
    * `keptAlong_claimed` — the keys are those of the history.
    * `upheld_runsInOrder` — what is pending is what waits, and each run in the
      events is a run of what waited.
    * `RunsInOrder.inOrder` — what was run, and what waits after it, was
      accepted in this order.
    * `Transaction.deferred_actions_run_once_in_order` — deferred actions on
      every reachable ledger.
-/
import ChangeLedger.Proofs.DrainExactness
import ChangeLedger.Proofs.History
import ChangeLedger.Proofs.Reordering

namespace ChangeLedger

variable {κ π σ : Type}

/-! ## Keys -/

/-- Whether the recording defers an action under the key. -/
def Mutation.defersUnder (key : String) : Mutation κ π → Bool
  | .defer key' _ => key' = key
  | _ => false

/-- An operation defers nothing. -/
theorem Mutation.defersUnder_of_isOperation {m : Mutation κ π} (hm : m.isOperation = true)
    (key : String) : m.defersUnder key = false := by
  cases m with
  | defer => cases hm
  | _ => rfl

namespace Staging

/-- An action is accepted unless its key is claimed. -/
theorem accepts_defer (s : Staging κ π) (key : String) (action : π) :
    (s.defer key action).1 = !s.claimedKeys.contains key :=
  Option.some.inj (answer_defer s key action)

theorem pending_after_operation (s : Staging κ π) {m : Mutation κ π} (hm : m.isOperation = true) :
    (s.after m).pending = s.pending := by
  have h := congrArg Staging.pending (frame_after_operation s hm)
  exact h

theorem claimedKeys_after_operation (s : Staging κ π) {m : Mutation κ π}
    (hm : m.isOperation = true) : (s.after m).claimedKeys = s.claimedKeys := by
  have h := congrArg Staging.claimedKeys (frame_after_operation s hm)
  exact h

/-- A recording that drops nothing claims the key that it defers under. -/
theorem contains_claimedKeys_after (s : Staging κ π) {m : Mutation κ π} (hm : m.isClear = false)
    (key : String) :
    (s.after m).claimedKeys.contains key = (m.defersUnder key || s.claimedKeys.contains key) := by
  cases hop : m.isOperation with
  | true =>
    rw [claimedKeys_after_operation s hop, Mutation.defersUnder_of_isOperation hop, Bool.false_or]
  | false =>
    cases m with
    | defer key' action =>
      show (s.defer key' action).2.claimedKeys.contains key = (decide (key' = key) || _)
      unfold defer
      split
      next hclaimed =>
        -- A key that is claimed already stays so.
        by_cases hkey : key' = key
        · subst hkey
          rw [hclaimed, Bool.or_true]
        · rw [decide_eq_false hkey, Bool.false_or]
      next =>
        rw [SortedSet.contains_insert, decide_eq_decide.mpr (eq_comm (a := key))]
    | disableLog => rfl
    | describeEdges => rfl
    | clear => cases hm
    | _ => cases hop

/-- The claimed keys are those under which the history defers. -/
def Claimed (s : Staging κ π) (past : List (Recorded κ π)) : Prop :=
  ∀ key, s.claimedKeys.contains key = past.any fun p => p.2.defersUnder key

theorem Claimed.after {s : Staging κ π} {past : List (Recorded κ π)} (hs : s.Claimed past)
    (m : Mutation κ π) : (s.after m).Claimed (s.historyAfter m past) := by
  intro key
  unfold historyAfter
  cases hm : m.isClear with
  | true =>
    cases m with
    | clear => rfl
    | _ => cases hm
  | false =>
    rw [if_neg Bool.false_ne_true, contains_claimedKeys_after s hm, hs key, List.any_append,
      List.any_cons, List.any_nil, Bool.or_false, Bool.or_comm]

end Staging

/-- Every recording keeps the claimed keys those of the history. -/
theorem keptAlong_claimed :
    KeptAlong fun (s : Staging κ π) (past : List (Recorded κ π)) => s.Claimed past where
  recorded m hs := hs.after m
  cleaned _ hs := hs
  counted {s past} f hs := by
    rw [Staging.count_eq]
    exact hs
  taken hs := hs
  drained hs := hs

theorem claimed_new (options : Options) (schema : Schema) :
    (Staging.new options schema : Staging κ π).Claimed [] := fun _ => rfl

/-! ## What waits -/

/-- The actions that were accepted so far, and those of them that wait. -/
structure Deferrals (π : Type) where
  /-- The accepted actions with their keys, in order. -/
  accepted : List (String × π) := []
  /-- Those that have neither been taken by a phase nor dropped. -/
  waiting : List (String × π) := []

namespace Staging

/-- The deferrals after a recording.  An action that is deferred was accepted if
    the answer is yes. -/
def deferralsAfter (s : Staging κ π) (m : Mutation κ π) (d : Deferrals π) : Deferrals π :=
  match m with
  | .defer key action =>
    if (s.defer key action).1 then
      ⟨d.accepted ++ [(key, action)], d.waiting ++ [(key, action)]⟩
    else d
  | .clear => { d with waiting := [] }
  | _ => d

/-- The deferrals after a run of recordings. -/
def deferralsAfterAll (s : Staging κ π) : List (Mutation κ π) → Deferrals π → Deferrals π
  | [], d => d
  | m :: ms, d => (s.after m).deferralsAfterAll ms (s.deferralsAfter m d)

end Staging

namespace Event

/-- The deferrals after an event.  When one action is run, all have been
    taken. -/
def deferrals (e : Event κ π) (d : Deferrals π) : Deferrals π :=
  match e with
  | recorded before m => before.deferralsAfter m d
  | inner before _ _ recordings _ => before.deferralsAfterAll recordings d
  | acted .. | closed => { d with waiting := [] }
  | _ => d

/-- The action that is run, if the event is a run. -/
def ran? : Event κ π → Option π
  | acted action _ => some action
  | _ => none

theorem ran?_of_not_isAction {e : Event κ π} (he : e.isAction = false) : e.ran? = none := by
  cases e with
  | acted => cases he
  | _ => rfl

end Event

/-- The deferrals of a ledger. -/
def deferralsIn (es : List (Event κ π)) : Deferrals π := es.foldl (fun d e => e.deferrals d) {}

theorem deferralsIn_concat (es : List (Event κ π)) (e : Event κ π) :
    deferralsIn (es ++ [e]) = e.deferrals (deferralsIn es) := List.foldl_concat ..

/-- A run of actions accepts none, and leaves none that wait unless it is
    empty. -/
theorem deferralsIn_actions (es : List (Event κ π)) (made : List (ActionCall π)) :
    deferralsIn (es ++ made.map ActionCall.event) =
      if made = [] then deferralsIn es else { deferralsIn es with waiting := [] } := by
  induction made generalizing es with
  | nil => rw [List.map_nil, List.append_nil, if_pos rfl]
  | cons c rest ih =>
    rw [List.map_cons, ← List.singleton_append, ← List.append_assoc, ih, deferralsIn_concat,
      if_neg (List.cons_ne_nil c rest)]
    split <;> rfl

/-! ## What is pending -/

namespace Staging

variable {s : Staging κ π} {d : Deferrals π}

theorem pending_after (h : s.pending = d.waiting) (m : Mutation κ π) :
    (s.after m).pending = (s.deferralsAfter m d).waiting := by
  cases m with
  | defer key action =>
    show (s.defer key action).2.pending = (if (s.defer key action).1 then _ else d).waiting
    unfold defer
    cases s.claimedKeys.contains key with
    | true => exact h
    | false => exact congrArg (· ++ [(key, action)]) h
  | disableLog => exact h
  | describeEdges => exact h
  | clear => rfl
  | _ => exact (pending_after_operation s rfl).trans h

theorem pending_afterAll (h : s.pending = d.waiting) (ms : List (Mutation κ π)) :
    (s.afterAll ms).pending = (s.deferralsAfterAll ms d).waiting := by
  induction ms generalizing s d with
  | nil => exact h
  | cons m rest ih => exact ih (pending_after h m)

end Staging

/-! ## Runs in order -/

/-- Every run of actions in the events is the run of what waited when it began,
    up to the first action that fails. -/
inductive RunsInOrder (h : Hooks κ π σ) : List (Event κ π) → Prop where
  /-- Nothing has happened yet. -/
  | start : RunsInOrder h []
  /-- Something else happens than the run of an action. -/
  | other {es : List (Event κ π)} {e : Event κ π} (hes : RunsInOrder h es)
      (he : e.isAction = false) : RunsInOrder h (es ++ [e])
  /-- A phase runs what waits. -/
  | phase {es : List (Event κ π)} {user : Option Principal} {errors : ErrorBuffer} {world : σ}
      {made : List (ActionCall π)} {answer : Except Failure Unit} (hes : RunsInOrder h es)
      (hmade : StopsAtFailure ActionCall.FailsWith
        (actionCalls h user (deferralsIn es).waiting (errors, world)) made answer) :
      RunsInOrder h (es ++ made.map ActionCall.event)

/-- When a phase has run what waits, nothing waits. -/
theorem waiting_of_run {h : Hooks κ π σ} {user : Option Principal} {errors : ErrorBuffer}
    {world : σ} {es : List (Event κ π)} {made : List (ActionCall π)} {answer : Except Failure Unit}
    (hmade : StopsAtFailure ActionCall.FailsWith
      (actionCalls h user (deferralsIn es).waiting (errors, world)) made answer) :
    (deferralsIn (es ++ made.map ActionCall.event)).waiting = [] := by
  rw [deferralsIn_actions]
  split
  next hnil =>
    -- Nothing was run, so that nothing waited.
    have hcalls := hmade.eq_nil_iff.mp hnil
    have hmap := map_actionCalls h user (deferralsIn es).waiting (errors, world)
    rw [hcalls] at hmap
    exact hmap.symm
  next => rfl

/-- What is pending is what waits, and the runs are in order. -/
theorem upheld_runsInOrder (h : Hooks κ π σ) :
    Upheld h fun s es => s.pending = (deferralsIn es).waiting ∧ RunsInOrder h es where
  recorded m hs := by
    rw [deferralsIn_concat]
    exact ⟨Staging.pending_after hs.1 m, hs.2.other rfl⟩
  passed object ctx ms hs := by
    rw [deferralsIn_concat]
    exact ⟨Staging.pending_afterAll hs.1 ms, hs.2.other rfl⟩
  failed object ctx ms hs := by
    rw [deferralsIn_concat]
    exact ⟨Staging.pending_afterAll hs.1 ms, hs.2.other rfl⟩
  bystander e he hact hs := by
    rw [deferralsIn_concat]
    refine ⟨?_, hs.2.other hact⟩
    cases e with
    | recorded => cases he
    | inner => cases he
    | acted => cases hact
    | closed => cases he
    | _ => exact hs.1
  counted f hs := by
    rw [Staging.count_eq]
    exact hs
  ran user errors world made answer hmade hs := by
    rw [hs.1] at hmade
    exact ⟨(waiting_of_run hmade).symm, hs.2.phase hmade⟩
  drained hs := by
    rw [deferralsIn_concat]
    exact ⟨hs.1, hs.2.other rfl⟩
  closed hs := by
    rw [deferralsIn_concat]
    exact ⟨rfl, hs.2.other rfl⟩

/-! ## At most once -/

namespace Deferrals

/-- What was run so far, and what still waits, was accepted in this order. -/
def InOrder (d : Deferrals π) (ran : List π) : Prop :=
  (ran ++ d.waiting.map Prod.snd).Sublist (d.accepted.map Prod.snd)

variable {d : Deferrals π} {ran : List π}

/-- What waits may be dropped. -/
theorem InOrder.drop (hd : d.InOrder ran) : ({ d with waiting := [] } : Deferrals π).InOrder ran :=
  ((List.append_sublist_append_left ran).mpr (List.nil_sublist _)).trans hd

/-- Another action is accepted, and waits. -/
theorem InOrder.accept (hd : d.InOrder ran) (deferred : String × π) :
    (⟨d.accepted ++ [deferred], d.waiting ++ [deferred]⟩ : Deferrals π).InOrder ran := by
  unfold InOrder
  rw [List.map_append, List.map_append, ← List.append_assoc]
  exact hd.append (List.Sublist.refl _)

theorem InOrder.after (hd : d.InOrder ran) (s : Staging κ π) (m : Mutation κ π) :
    (s.deferralsAfter m d).InOrder ran := by
  cases m with
  | defer key action =>
    show (if (s.defer key action).1 then _ else d).InOrder ran
    split
    next => exact hd.accept (key, action)
    next => exact hd
  | clear => exact hd.drop
  | _ => exact hd

theorem InOrder.afterAll (hd : d.InOrder ran) (s : Staging κ π) (ms : List (Mutation κ π)) :
    (s.deferralsAfterAll ms d).InOrder ran := by
  induction ms generalizing s d with
  | nil => exact hd
  | cons m rest ih => exact ih (hd.after s m) (s.after m)

/-- No event but the run of an action adds to what was run. -/
theorem InOrder.event (hd : d.InOrder ran) (e : Event κ π) : (e.deferrals d).InOrder ran := by
  cases e with
  | recorded before m => exact hd.after before m
  | inner before object ctx ms passed => exact hd.afterAll before ms
  | acted | closed => exact hd.drop
  | _ => exact hd

end Deferrals

/-- Where the runs are in order, each action that was accepted is run at most
    once, in the order of acceptance, and what waits has not been run. -/
theorem RunsInOrder.inOrder {h : Hooks κ π σ} {es : List (Event κ π)} (hes : RunsInOrder h es) :
    (deferralsIn es).InOrder (es.filterMap Event.ran?) := by
  induction hes with
  | start => exact List.Sublist.refl _
  | @other es e _ he ih =>
    rw [deferralsIn_concat, List.filterMap_append, List.filterMap_cons_none
      (Event.ran?_of_not_isAction he), List.filterMap_nil, List.append_nil]
    exact ih.event e
  | @phase es user errors world made answer _ hmade ih =>
    -- What is run has waited at the front.
    have hran : (es ++ made.map ActionCall.event).filterMap Event.ran?
        = es.filterMap Event.ran? ++ made.map ActionCall.action := by
      rw [List.filterMap_append, List.filterMap_map]
      exact congrArg _ (congrFun List.filterMap_eq_map made)
    have hfront : made.map ActionCall.action <+: (deferralsIn es).waiting.map Prod.snd := by
      rw [← map_actionCalls h user (deferralsIn es).waiting (errors, world), List.map_map]
      exact hmade.prefix_of.map _
    have haccepted : (deferralsIn (es ++ made.map ActionCall.event)).accepted
        = (deferralsIn es).accepted := by
      rw [deferralsIn_actions]
      split <;> rfl
    unfold Deferrals.InOrder
    rw [hran, waiting_of_run hmade, haccepted, List.map_nil, List.append_nil]
    exact ((List.append_sublist_append_left _).mpr hfront.sublist).trans ih

namespace Transaction

/-- **Deferred actions run at most once, in order.**  At every moment of every
    reachable ledger, an action is accepted exactly if none was deferred under
    its key since everything staged was last dropped.  Each run of actions, be
    it in a phase of its own, in a commit or in an inner hook, is the run of what
    was accepted and neither taken nor dropped before, up to the first action
    that fails; this is also what is pending now.  So what was run, followed by
    what is pending, was accepted in this order.

    Whatever is pending, the third phase runs it in order, up to the first
    action that fails, and ends with that failure, or well if there is none.  An
    action fails exactly if it answers with an error or adds a token.
    Afterwards nothing is pending, however it ended, and nothing else has
    changed in the staging area but the counters. -/
theorem deferred_actions_run_once_in_order (h : Hooks κ π σ) (script : InnerScript κ π σ)
    (plan : InnerPlan κ π σ) (depth : Nat) (sink : Sink σ) (options : Options) (schema : Schema)
    (world : σ) (moves : List (Move κ π σ)) :
    let hooks := h.nested script plan sink depth
    let t := reached hooks sink options schema world moves
    (∀ s past, t.Moment s past → ∀ key action,
      (s.defer key action).1 = true ↔ ∀ p ∈ past, p.2.defersUnder key = false) ∧
    RunsInOrder h t.events ∧
    t.staging.pending = (deferralsIn t.events).waiting ∧
    (t.events.filterMap Event.ran? ++ t.staging.pending.map Prod.snd).Sublist
      ((deferralsIn t.events).accepted.map Prod.snd) ∧
    ∀ (user : Option Principal) (u : Transaction κ π (Watched κ π σ)),
      let calls := actionCalls h user u.staging.pending (u.errors, u.world.world)
      let out := runDeferred hooks user u
      (∃ made, StopsAtFailure ActionCall.FailsWith calls made out.1 ∧
        out.2.events = u.events ++ made.map ActionCall.event) ∧
      (∀ c ∈ calls, ((∃ e, c.FailsWith e) ↔ (∃ e, c.answer = .error e) ∨ c.added.toList ≠ []) ∧
        ∀ ts, c.after = c.before.addAll ts → c.added = ⟨ts⟩) ∧
      out.2.staging = { u.staging with pending := [], counters := out.2.staging.counters } := by
  intro hooks t
  have hupheld := upheld_runsInOrder h
  obtain ⟨hpending, hruns⟩ : t.staging.pending = (deferralsIn t.events).waiting ∧
      RunsInOrder h t.events :=
    hupheld.reached script _ sink (hupheld.planned script sink plan depth) ⟨rfl, .start⟩ world moves
  refine ⟨fun s past hm key action => ?_, hruns, hpending, ?_, fun user u => ?_⟩
  · have hclaimed : s.Claimed past := keptAlong_claimed.atMoments h script plan depth sink
      (claimed_new options schema) world moves hm
    rw [Staging.accepts_defer, Bool.not_eq_true', hclaimed key, List.any_eq_false]
    simp
  · rw [hpending]
    exact hruns.inOrder
  · intro calls out
    obtain ⟨made, hmade, hevents, hstaging⟩ :=
      runDeferred_calls h script (h.planned script plan sink depth) user u
    refine ⟨⟨made, hmade, hevents⟩, fun c _ => ⟨c.fails_iff, fun ts hts => ?_⟩, ?_⟩
    · exact ActionCall.added_of_addAll hts
    · have hcount : out.2.staging = _ := hstaging
      rw [hcount]
      exact Staging.count_eq _ _

/-- Actions that are numbers: the first does nothing, the second adds a token,
    and every other one fails. -/
def numberedHooks : Hooks Unit Nat MemoryLog where
  isStale _ _ := false
  inner _ _ t := (.ok (), t)
  validate _ errors w := (true, errors, w)
  index _ w := (.ok (), w)
  outer _ _ w := (.ok (), w)
  act
    | 0, _, errors, w => (.ok (), errors, w)
    | 1, _, errors, w => (.ok (), errors.add ⟨"n-1", none, "late"⟩, w)
    | _, _, errors, w => (.error (.storage "down"), errors, w)

/-- Three actions are deferred, the first under its key once more, which is not
    accepted.  The second one fails by its token, so that the third is never
    run; still its key stays claimed. -/
theorem deferred_actions_run_once_in_order_of_three :
    let script : InnerScript Unit Nat MemoryLog := fun _ _ t => ⟨[], t.errors, t.world, .ok ()⟩
    let hooks := numberedHooks.nested script (fun _ _ _ => []) MemoryLog.sink 0
    let deferred : List (Move Unit Nat MemoryLog) := [.record (.defer "a" 0),
      .record (.defer "a" 2), .record (.defer "b" 1), .record (.defer "c" 2)]
    let before := reached hooks MemoryLog.sink {} ∅ ∅ deferred
    let t := reached hooks MemoryLog.sink {} ∅ ∅
      (deferred ++ [.runDeferred none, .runDeferred none])
    let calls := actionCalls numberedHooks none before.staging.pending
      (before.errors, before.world.world)
    (runDeferred hooks none before).1 = .error (.postProcess "b" "n-1: late") ∧
    (∃ c ∈ calls, c.key = "b" ∧ (∃ e, c.FailsWith e) ∧ c.added = ⟨[⟨"n-1", none, "late"⟩]⟩) ∧
    (deferralsIn t.events).accepted = [("a", 0), ("b", 1), ("c", 2)] ∧
    t.events.filterMap Event.ran? = [0, 1] ∧
    RunsInOrder numberedHooks t.events ∧ t.staging.pending = [] ∧
    (t.staging.defer "c" 0).1 = false ∧ (t.staging.defer "d" 0).1 = true := by
  intro script hooks deferred before t calls
  obtain ⟨hanswers, hruns, hpending, -, hphase⟩ :=
    deferred_actions_run_once_in_order numberedHooks script (fun _ _ _ => []) 0 MemoryLog.sink {}
      ∅ ∅ (deferred ++ [.runDeferred none, .runDeferred none])
  obtain ⟨-, hcalls, -⟩ := hphase none before
  have hsecond : _ ∈ calls := List.mem_of_getElem? (i := 1) rfl
  obtain ⟨hfails, hadded⟩ := hcalls _ hsecond
  have htoken := hadded [⟨"n-1", none, "late"⟩] rfl
  refine ⟨rfl, ⟨_, hsecond, rfl, hfails.mpr (.inr ?_), htoken⟩, rfl, rfl, hruns, hpending, rfl,
    (hanswers _ _ .now "d" 0).mpr (by decide)⟩
  rw [htoken]
  exact List.cons_ne_nil _ _

end Transaction

end ChangeLedger
