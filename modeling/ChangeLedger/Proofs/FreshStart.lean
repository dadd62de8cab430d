/-
  ChangeLedger.Proofs.FreshStart — a cleared ledger is a new one, but for its ticks.

  Clearing drops all that was staged and lets the ticks go on.  What it leaves
  is the staging area of a new transaction with all ticks later, by as many
  ticks as records were opened before; and a ledger does not notice later
  ticks.  So nothing that was staged before the clearing shows in anything that
  comes after it.

  Main results:
    * `ticksCounted` — the ticks are the records that were opened.
    * `Transaction.isVacant_make` — what clears a ledger.
    * `Transaction.cleared_ledger_starts_anew` — every run after a clearing is
      the run of a new ledger, with later ticks.
-/
import ChangeLedger.Proofs.CommitProtocol
import ChangeLedger.Proofs.DelayedMoves
import ChangeLedger.Proofs.DrainExactness
import ChangeLedger.Proofs.References

namespace ChangeLedger

variable {κ π σ : Type}

/-! ## Counting opened records -/

/-- A touch that opens a record takes a tick, and no other does. -/
theorem RecordTable.nextTick_touchAll (b : RecordTable κ) (xs : List (Touch κ)) :
    (b.touchAll xs).nextTick + b.records.length = b.nextTick + (b.touchAll xs).records.length := by
  induction xs generalizing b with
  | nil => rfl
  | cons x rest ih =>
    have hlength : (b.touch x).records.length
        = b.records.length + if b.contains x.object.id then 0 else 1 := by
      have hids := congrArg List.length (ids_touch b x)
      rw [List.length_append] at hids
      unfold ids at hids
      rw [List.length_map, List.length_map] at hids
      rw [hids]
      split <;> rfl
    have hrest := ih (b.touch x)
    rw [hlength, nextTick_touch] at hrest
    rw [touchAll_cons]
    omega

namespace Staging

/-- Number of records that recordings open. -/
def opens (s : Staging κ π) : List (Mutation κ π) → Nat
  | [] => 0
  | m :: rest => ((s.after m).size - s.size) + (s.after m).opens rest

theorem nextTick_after (s : Staging κ π) (m : Mutation κ π) :
    (s.after m).nextTick = s.nextTick + ((s.after m).size - s.size) := by
  have htable := table_after s m
  have hticks : (s.after m).table.nextTick = (s.after m).nextTick := rfl
  have hsize : (s.after m).table.records.length = (s.after m).size := rfl
  rw [← hticks, ← hsize, htable]
  cases hm : m.isClear with
  | true => simp
  | false =>
    rw [if_neg Bool.false_ne_true]
    have hcounts := s.table.nextTick_touchAll (m.touches s)
    have hold : s.table.records.length = s.size := rfl
    have hnext : s.table.nextTick = s.nextTick := rfl
    have hmore : s.nextTick ≤ (s.table.touchAll (m.touches s)).nextTick := by
      obtain ⟨n, hn⟩ := opened_after s m
      have hafter := congrArg RecordTable.nextTick htable
      rw [hm, if_neg Bool.false_ne_true] at hafter
      rw [← hafter, hticks, hn.ticks]
      exact Nat.le_add_right _ _
    omega

theorem nextTick_afterAll (s : Staging κ π) (ms : List (Mutation κ π)) :
    (s.afterAll ms).nextTick = s.nextTick + s.opens ms := by
  induction ms generalizing s with
  | nil => rfl
  | cons m rest ih =>
    show ((s.after m).afterAll rest).nextTick = _
    rw [ih, nextTick_after, opens, Nat.add_assoc]

end Staging

/-- Number of records that are opened in an event. -/
def Event.opens : Event κ π → Nat
  | recorded before m => before.opens [m]
  | inner before _ _ recordings _ => before.opens recordings
  | _ => 0

/-- Number of records that are opened in some events. -/
def Event.opensAll (es : List (Event κ π)) : Nat := es.foldl (fun n e => n + e.opens) 0

theorem Event.opensAll_concat (es : List (Event κ π)) (e : Event κ π) :
    opensAll (es ++ [e]) = opensAll es + e.opens := List.foldl_append

/-- The next tick is the number of records that were ever opened. -/
theorem ticksCounted :
    Kept fun (s : Staging κ π) es => s.nextTick = Event.opensAll es := by
  have hsum : ∀ {s : Staging κ π} {es : List (Event κ π)} (e : Event κ π),
      s.nextTick = Event.opensAll es → s.nextTick + e.opens = Event.opensAll (es ++ [e]) := by
    intro s es e hs
    rw [Event.opensAll_concat, hs]
  constructor
  case recorded =>
    intro s es m hs
    rw [← hsum (.recorded s m) hs]
    exact s.nextTick_after m
  case passed =>
    intro s es object ctx ms hs
    rw [← hsum (.inner s object ctx ms true) hs]
    exact s.nextTick_afterAll ms
  case failed =>
    intro s es object ctx ms hs
    rw [← hsum (.inner s object ctx ms false) hs]
    exact s.nextTick_afterAll ms
  case bystander =>
    intro s es e he hs
    rw [← hsum e hs]
    cases e with
    | recorded before m => cases he
    | inner before object ctx recordings passed => cases he
    | _ => rfl
  case counted =>
    intro s es f hs
    rw [← hs, Staging.nextTick_count]
  case taken => exact fun hs => hs
  case drained => exact fun hs => hsum .drained hs
  case closed => exact fun hs => hsum .closed hs

/-! ## Clearing -/

/-- Whether a move drops everything staged: a clearing, a commit however it
    ends, or a rollback. -/
def Move.isClearing : Move κ π σ → Bool
  | .record m => m.isClear
  | .commit .. | .rollback _ => true
  | _ => false

namespace Transaction

theorem isVacant_commitOn (pool : Pool) (h : Hooks κ π σ) (sink : Sink σ) (storage : Storage σ)
    (validating : Bool) (user : Option Principal) (t : Transaction κ π σ) :
    (commitOn pool h sink storage validating user t).2.staging.IsVacant := by
  -- Each of the three courses ends with a clearing.
  obtain ⟨e, -, hdone⟩ | ⟨e, -, -, hdone⟩ | ⟨-, -, hdone⟩ :=
    commitOn_cases pool h sink storage validating user t
  · rw [hdone]
    exact Staging.isVacant_clear _
  · rw [hdone]
    exact Staging.isVacant_clear _
  · rw [hdone]
    exact Staging.isVacant_clear _

/-- After a clearing nothing is staged. -/
theorem isVacant_make (h : Hooks κ π (Watched κ π σ)) (sink : Sink σ)
    (t : Transaction κ π (Watched κ π σ)) {move : Move κ π σ} (hm : move.isClearing = true) :
    (t.make h sink move).staging.IsVacant := by
  cases move with
  | record m =>
    cases m with
    | clear => exact Staging.isVacant_clear _
    | _ => cases hm
  | commit pool storage validating user =>
    exact isVacant_commitOn pool h sink.watched storage.watched validating user t
  | rollback storage => exact Staging.isVacant_clear _
  | _ => cases hm

end Transaction

namespace Staging

/-- The staging area of a new transaction with the same options and described
    types of edges, the same choice about change logs, and what was counted so
    far. -/
def renewed (s : Staging κ π) : Staging κ π :=
  { Staging.new s.options s.schema with
    logEnabled := s.logEnabled
    counters := s.counters }

/-- A staging area in which nothing is staged is a new one with later ticks. -/
theorem IsVacant.eq_later {s : Staging κ π} (h : s.IsVacant) : s = s.renewed.later s.nextTick := by
  cases s
  cases h.records
  cases h.propagated
  cases h.syncKeys
  cases h.pending
  cases h.claimedKeys
  unfold renewed later Staging.new
  dsimp only
  rw [Nat.zero_add]
  rfl

end Staging

/-! ## Starting anew -/

namespace Transaction

/-- The late ledger does for ever what the early one does, with its own hooks
    and `d` ticks later: it answers every run of moves alike, makes the same
    calls on the way, and looks the same afterwards. -/
structure FollowsLater (d : Nat) (sink : Sink σ) (late early : Hooks κ π (Watched κ π σ))
    (t' t : Transaction κ π (Watched κ π σ)) : Prop where
  replies : ∀ moves, replies late sink t' moves
    = (replies early sink t moves).map (Reply.later d)
  events : ∀ moves, (t'.makeAll late sink moves).events
    = (t.makeAll early sink moves).events.map (Event.later d)
  view : ∀ moves, (t'.makeAll late sink moves).staging.view
    = (t.makeAll early sink moves).staging.view.later d
  errors : ∀ moves, (t'.makeAll late sink moves).errors = (t.makeAll early sink moves).errors
  world : ∀ moves, (t'.makeAll late sink moves).world.world
    = (t.makeAll early sink moves).world.world

theorem followsLater_later {d : Nat} {late early : Hooks κ π (Watched κ π σ)}
    (ha : early.ActAlike d (Watched.later d) late) (sink : Sink σ)
    (t : Transaction κ π (Watched κ π σ)) : FollowsLater d sink late early (t.later d) t where
  replies moves := (replies_later ha sink t moves).symm
  events moves := by
    rw [← makeAll_later ha sink t moves]
    rfl
  view moves := by
    rw [← makeAll_later ha sink t moves]
    exact Staging.view_later d _
  errors moves := by
    rw [← makeAll_later ha sink t moves]
    rfl
  world moves := by
    rw [← makeAll_later ha sink t moves]
    rfl

/-- **A cleared ledger starts anew.**  After a clearing, a ledger does for ever
    what a new one does that has the same options, described types of edges,
    choice about change logs, counters, errors and world; only its ticks are
    later, by the number of records that it opened before.  Code that looks at
    ticks is told the later ones; code that does not is the same for both. -/
theorem cleared_ledger_starts_anew (h : Hooks κ π σ) (script : InnerScript κ π σ)
    (plan : InnerPlan κ π σ) (depth : Nat) (sink : Sink σ) (options : Options) (schema : Schema)
    (world : σ) (past : List (Move κ π σ)) (clearing : Move κ π σ)
    (hclearing : clearing.isClearing = true) :
    let hooks := h.nested script plan sink depth
    let t := reached hooks sink options schema world (past ++ [clearing])
    let d := Event.opensAll t.events
    let anew : Transaction κ π (Watched κ π σ) :=
      ⟨t.staging.renewed, t.errors, { world := t.world.world }⟩
    FollowsLater d sink hooks ((h.told d).nested (script.told d) (plan.told d) sink depth)
        t.unwatched.watched anew ∧
      (IgnoreTicks h script plan →
        FollowsLater d sink hooks hooks t.unwatched.watched anew) := by
  intro hooks t d anew
  have hd : t.staging.nextTick = d :=
    ticksCounted.reached h script _ sink (ticksCounted.planned h script sink plan depth) rfl world
      (past ++ [clearing])
  have hvacant : t.staging.IsVacant := by
    have hmade : t = (reached hooks sink options schema world past).make hooks sink clearing :=
      List.foldl_append
    rw [hmade]
    exact isVacant_make hooks sink _ hclearing
  have hlater : t.unwatched.watched = anew.later d := by
    show (⟨t.staging, t.errors, { world := t.world.world }⟩ : Transaction κ π (Watched κ π σ))
      = ⟨t.staging.renewed.later d, t.errors, { world := t.world.world }⟩
    rw [← hd, ← hvacant.eq_later]
  have hfollows := followsLater_later (h.nested_later script plan sink d depth) sink anew
  rw [← hlater] at hfollows
  refine ⟨hfollows, fun hignore => ?_⟩
  rw [hignore.nested_told d sink depth] at hfollows
  exact hfollows

/-- A node is created and everything cleared; after that, the ticks of a ledger
    whose hooks do nothing are later by one. -/
theorem cleared_ledger_starts_anew_of_one_node :
    let hooks := idleHooks.nested idleScript idlePlan MemoryLog.sink 0
    let t := reached hooks MemoryLog.sink {} ∅ ∅ [.record (.create none ada), .record .clear]
    FollowsLater 1 MemoryLog.sink hooks hooks t.unwatched.watched
      ⟨t.staging.renewed, t.errors, { world := t.world.world }⟩ := by
  have hignore : IgnoreTicks idleHooks idleScript idlePlan :=
    ⟨fun _ _ _ _ => rfl, fun _ _ _ => rfl, fun _ _ _ _ => rfl, fun _ _ _ _ => rfl,
      fun _ _ _ _ => rfl⟩
  exact (cleared_ledger_starts_anew idleHooks idleScript idlePlan 0 MemoryLog.sink {} ∅ ∅
    [.record (.create none ada)] (.record .clear) rfl).2 hignore

end Transaction

end ChangeLedger
