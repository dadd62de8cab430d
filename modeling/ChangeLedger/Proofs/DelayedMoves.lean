/-
  ChangeLedger.Proofs.DelayedMoves — a ledger does not notice later ticks.

  A recording opens records at the next ticks and never looks at a tick, and
  phases go by the order of the records.  So a ledger whose ticks are all later
  by some number answers every move as it would without the delay and makes the
  same calls on the way; only the ticks in its records stay later.

  The code that a ledger calls could look at a tick.  Hooks that are told of
  later ticks are the hooks that see the delayed ledger; hooks that ignore
  ticks are these same hooks.

  Main results:
    * `Staging.later_after`, `Staging.view_later` — a recording, and all that
      can be read off a staging area.
    * `Transaction.make_later`, `Transaction.reply_later` — a step: what a
      move leaves and what it answers.
    * `Transaction.makeAll_later`, `Transaction.replies_later` — a run.
-/
import ChangeLedger.Proofs.Alike
import ChangeLedger.Proofs.Chronicle
import ChangeLedger.Proofs.Delay
import ChangeLedger.Proofs.Openings
import ChangeLedger.Proofs.Ticks

namespace ChangeLedger

variable {κ π σ : Type}

/-! ## Recordings -/

theorem Record.later_applyAll (d : Nat) (r : Record κ) (cs : List RecordChange) :
    (r.applyAll cs).later d = (r.later d).applyAll cs := by
  show (r.applyAll cs).withTick ((r.applyAll cs).firstTouch + d) = _
  rw [firstTouch_applyAll, withTick_applyAll]
  rfl

namespace RecordTable

/-- The records with all ticks, past and to come, `d` later. -/
def later (d : Nat) (b : RecordTable κ) : RecordTable κ :=
  ⟨b.records.map (Record.later d), b.nextTick + d⟩

/-- A touch changes the same record, or opens one with a later tick. -/
theorem later_touch (d : Nat) (b : RecordTable κ) (x : Touch κ) :
    (b.touch x).later d = (b.later d).touch x := by
  have hfind : (b.later d).find? x.object.id = (b.find? x.object.id).map (Record.later d) :=
    (Record.unseen_later d).findRecord_map x.object.id b.records
  unfold touch
  rw [hfind, Option.isSome_map]
  split
  next =>
    have hrecords : (updateRecord x.object.id (·.applyAll x.changes) b.records).map (Record.later d)
        = updateRecord x.object.id (·.applyAll x.changes) (b.records.map (Record.later d)) := by
      unfold updateRecord
      rw [List.map_map, List.map_map]
      refine List.map_congr_left fun r _ => ?_
      show (if r.id = x.object.id then r.applyAll x.changes else r).later d
        = if r.id = x.object.id then (r.later d).applyAll x.changes else r.later d
      split
      next => exact r.later_applyAll d x.changes
      next => rfl
    exact congrArg (fun records => (⟨records, b.nextTick + d⟩ : RecordTable κ)) hrecords
  next =>
    have hopened : (x.opened b.nextTick).later d = x.opened (b.nextTick + d) :=
      Record.later_applyAll d _ x.changes
    show (⟨(b.records ++ [x.opened b.nextTick]).map (Record.later d), b.nextTick + 1 + d⟩
        : RecordTable κ)
      = ⟨b.records.map (Record.later d) ++ [x.opened (b.nextTick + d)], b.nextTick + d + 1⟩
    rw [List.map_append, List.map_singleton, hopened, Nat.add_right_comm]

theorem later_touchAll (d : Nat) (b : RecordTable κ) (xs : List (Touch κ)) :
    (b.touchAll xs).later d = (b.later d).touchAll xs := by
  induction xs generalizing b with
  | nil => rfl
  | cons x rest ih => rw [touchAll_cons, touchAll_cons, ih, later_touch]

end RecordTable

namespace Staging

theorem touches_later (d : Nat) (s : Staging κ π) (m : Mutation κ π) :
    m.touches (s.later d) = m.touches s := by
  cases m with
  | propagate object =>
    show (if s.propagated.contains object.id || (s.later d).contains object.id then _ else _)
      = if s.propagated.contains object.id || s.contains object.id then _ else _
    rw [contains_later]
  | _ => rfl

/-- A recording does the same whether the ticks are later or not. -/
theorem later_after (d : Nat) (s : Staging κ π) (m : Mutation κ π) :
    (s.after m).later d = (s.later d).after m := by
  have htable : ((s.after m).later d).table = ((s.later d).after m).table := by
    rw [table_after, touches_later]
    show (s.after m).table.later d = _
    rw [table_after]
    split
    next => rfl
    next => exact s.table.later_touchAll d (m.touches s)
  have hframe : ((s.after m).later d).frame = ((s.later d).after m).frame :=
    frame_after (show s.frame = (s.later d).frame from rfl) m
  refine ext_parts hframe htable ?_ ?_
  · rw [options_after]
    exact options_after s m
  · -- As many records are opened, since the ticks go on alike.
    obtain ⟨n, hn⟩ := opened_after s m
    obtain ⟨n', hn'⟩ := opened_after (s.later d) m
    have hsame : n' = n := by
      have hticks : s.nextTick + n + d = s.nextTick + d + n' := by
        rw [← hn.ticks]
        exact (congrArg RecordTable.nextTick htable).trans hn'.ticks
      omega
    rw [hn'.counters, hsame]
    exact hn.counters

theorem later_afterAll (d : Nat) (s : Staging κ π) (ms : List (Mutation κ π)) :
    (s.afterAll ms).later d = (s.later d).afterAll ms := by
  induction ms generalizing s with
  | nil => rfl
  | cons m rest ih =>
    show ((s.after m).afterAll rest).later d = ((s.later d).after m).afterAll rest
    rw [ih, later_after]

theorem answer_later (d : Nat) (s : Staging κ π) (m : Mutation κ π) :
    ((s.later d).perform m).1 = (s.perform m).1 :=
  answer_congr (show (s.later d).frame = s.frame from rfl) m
    fun object _ => contains_later d s object.id

/-! ## Reading -/

/-- All that can be read off a staging area. -/
structure View (κ : Type) where
  options : Options
  size : Nat
  isEmpty : Bool
  ids : List ObjectId
  contains : ObjectId → Bool
  record : ObjectId → Option (Record κ)
  isPropagated : ObjectId → Bool
  isDeleted : ObjectId → Bool
  isModified : ObjectId → String → Bool
  modifiedKeys : SortedSet PropertyKey
  syncKeys : SortedSet String
  summary : ObjectId → Option Summary
  snapshots : List Snapshot
  diagnostic : String

/-- The view of a staging area. -/
def view (s : Staging κ π) : View κ where
  options := s.options
  size := s.size
  isEmpty := s.isEmpty
  ids := s.ids
  contains := s.contains
  record := s.find?
  isPropagated := s.isPropagated
  isDeleted := s.isDeleted
  isModified := s.isModified
  modifiedKeys := s.modifiedKeys
  syncKeys := s.syncKeys
  summary := s.summary?
  snapshots := s.snapshots
  diagnostic := s.diagnostic

/-- A view with later ticks: they show in records and in copies of records. -/
def View.later (d : Nat) (v : View κ) : View κ :=
  { v with
    record := fun id => (v.record id).map (Record.later d)
    snapshots := v.snapshots.map (Snapshot.later d) }

/-- Beside the ticks, later ticks cannot be seen. -/
theorem view_later (d : Nat) (s : Staging κ π) : (s.later d).view = s.view.later d := by
  have hsize : (s.later d).size = s.size := List.length_map _
  have hempty : (s.later d).isEmpty = s.isEmpty := List.isEmpty_map
  have hids : (s.later d).ids = s.ids := (Record.unseen_later d).ids_map s.records
  have hcontains : (s.later d).contains = s.contains := funext (contains_later d s)
  have hrecord : (s.later d).find? = fun id => (s.find? id).map (Record.later d) :=
    funext (find?_later d s)
  have hdeleted : (s.later d).isDeleted = s.isDeleted := by
    funext id
    unfold isDeleted
    rw [find?_later, Option.any_map]
    rfl
  have hmodified : (s.later d).isModified = s.isModified := by
    funext id name
    unfold isModified
    rw [find?_later, Option.any_map]
    rfl
  have hkeys : (s.later d).modifiedKeys = s.modifiedKeys := List.foldl_map
  have hsummary : (s.later d).summary? = s.summary? := by
    funext id
    unfold summary?
    rw [find?_later, Option.map_map]
    rfl
  have hdiagnostic : (s.later d).diagnostic = s.diagnostic := by
    unfold diagnostic
    rw [hsize]
    rfl
  unfold view View.later
  rw [hsize, hempty, hids, hcontains, hrecord, hdeleted, hmodified, hkeys, hsummary, hdiagnostic,
    snapshots_later]
  rfl

end Staging

/-! ## Chronicles -/

/-- The event with all ticks `d` later. -/
def Event.later (d : Nat) : Event κ π → Event κ π
  | recorded before m => recorded (before.later d) m
  | inner before object ctx recordings passed =>
    inner (before.later d) object ctx recordings passed
  | validated r accepted => validated (r.later d) accepted
  | indexed r answer => indexed (r.later d) answer
  | notified r answer => notified (r.later d) answer
  | e => e

/-- The world, with all ticks `d` later in the events. -/
def Watched.later (d : Nat) (w : Watched κ π σ) : Watched κ π σ :=
  ⟨w.world, w.events.map (Event.later d)⟩

theorem Watched.later_note (d : Nat) (w : Watched κ π σ) (world : σ) (e : Event κ π) :
    (w.note world e).later d = (w.later d).note world (e.later d) := by
  unfold note later
  rw [List.map_append, List.map_singleton]

theorem Sink.watched_later (d : Nat) (sink : Sink σ) :
    (sink.watched : Sink (Watched κ π σ)).Refines (Watched.later d) sink.watched :=
  fun _ _ _ => Prod.ext rfl (Watched.later_note d _ _ _)

theorem Storage.watched_later (d : Nat) (storage : Storage σ) :
    (storage.watched : Storage (Watched κ π σ)).Refines (Watched.later d) storage.watched where
  commit _ := Prod.ext rfl (Watched.later_note d _ _ _)
  rollback _ := Prod.ext rfl (Watched.later_note d _ _ _)

namespace Transaction

/-- The transaction with all ticks `d` later, in its events too. -/
def later (d : Nat) (t : Transaction κ π (Watched κ π σ)) : Transaction κ π (Watched κ π σ) :=
  t.delayed d (Watched.later d)

theorem later_note (d : Nat) (t : Transaction κ π (Watched κ π σ)) (e : Event κ π) :
    (t.note e).later d = (t.later d).note (e.later d) :=
  congrArg (fun w => (⟨t.staging.later d, t.errors, w⟩ : Transaction κ π (Watched κ π σ)))
    (Watched.later_note d t.world t.world.world e)

end Transaction

/-! ## What hooks are told -/

/-- The hooks, told of ticks `d` later than they are. -/
def Hooks.told (d : Nat) (h : Hooks κ π σ) : Hooks κ π σ :=
  { h with
    validate := fun r errors w => h.validate (r.later d) errors w
    index := fun r w => h.index (r.later d) w
    outer := fun r user w => h.outer (r.later d) user w }

/-- The script, told of ticks `d` later than they are. -/
def InnerScript.told (d : Nat) (script : InnerScript κ π σ) : InnerScript κ π σ :=
  fun object ctx t => script object ctx (t.delayed d id)

/-- The plan, told of ticks `d` later than they are. -/
def InnerPlan.told (d : Nat) (plan : InnerPlan κ π σ) : InnerPlan κ π σ :=
  fun object ctx t => plan object ctx (t.delayed d id)

/-- The code that a ledger calls does not look at ticks. -/
structure IgnoreTicks (h : Hooks κ π σ) (script : InnerScript κ π σ) (plan : InnerPlan κ π σ) :
    Prop where
  validate : ∀ d r errors w, h.validate (r.later d) errors w = h.validate r errors w
  index : ∀ d r w, h.index (r.later d) w = h.index r w
  outer : ∀ d r user w, h.outer (r.later d) user w = h.outer r user w
  script : ∀ d object ctx t, script object ctx (t.delayed d id) = script object ctx t
  plan : ∀ d object ctx t, plan object ctx (t.delayed d id) = plan object ctx t

/-- What hooks that do not look at ticks are told of them makes no difference. -/
theorem IgnoreTicks.nested_told {h : Hooks κ π σ} {script : InnerScript κ π σ}
    {plan : InnerPlan κ π σ} (hi : IgnoreTicks h script plan) (d : Nat) (sink : Sink σ)
    (depth : Nat) :
    (h.told d).nested (script.told d) (plan.told d) sink depth
      = h.nested script plan sink depth := by
  have hh : h.told d = h := by
    have hv : (fun r errors w => h.validate (Record.later d r) errors w) = h.validate :=
      funext fun r => funext fun errors => funext fun w => hi.validate d r errors w
    have hx : (fun r w => h.index (Record.later d r) w) = h.index :=
      funext fun r => funext fun w => hi.index d r w
    have ho : (fun r user w => h.outer (Record.later d r) user w) = h.outer :=
      funext fun r => funext fun user => funext fun w => hi.outer d r user w
    unfold Hooks.told
    rw [hv, hx, ho]
  have hs : script.told d = script :=
    funext fun object => funext fun ctx => funext fun t => hi.script d object ctx t
  have hp : plan.told d = plan :=
    funext fun object => funext fun ctx => funext fun t => hi.plan d object ctx t
  rw [hh, hs, hp]

/-- Hooks that are told of later ticks act as the hooks that see them. -/
theorem Hooks.watchedAfter_later (h : Hooks κ π σ) (script : InnerScript κ π σ) (d : Nat)
    {earlier earlier' : Tracked κ → InnerContext → Transaction κ π (Watched κ π σ) →
      Transaction κ π (Watched κ π σ)}
    (he : ∀ object ctx t, (earlier object ctx t).later d = earlier' object ctx (t.later d)) :
    ((h.told d).watchedAfter (script.told d) earlier).ActAlike d (Watched.later d)
      (h.watchedAfter script earlier') where
  isStale _ _ := rfl
  inner object ctx t := by
    show _ = (h.watchedAfter script earlier').inner object ctx (t.later d)
    unfold Hooks.watchedAfter
    dsimp only
    rw [← he]
    refine Prod.ext rfl ?_
    show Transaction.delayed _ _ _ = _
    unfold Transaction.delayed
    rw [Staging.later_afterAll, Watched.later_note]
    rfl
  validate _ _ _ := Prod.ext rfl (Prod.ext rfl (Watched.later_note d _ _ _))
  index _ _ := Prod.ext rfl (Watched.later_note d _ _ _)
  outer _ _ _ := Prod.ext rfl (Watched.later_note d _ _ _)
  act _ _ _ _ := Prod.ext rfl (Prod.ext rfl (Watched.later_note d _ _ _))

/-! ## Moves -/

/-- What a move answers. -/
inductive Reply where
  /-- The answer of a recording. -/
  | recorded (answer : Option Bool)
  /-- The answer of one of the first three phases. -/
  | ended (answer : Except Failure Unit)
  /-- The warnings of the outer hooks. -/
  | warned (warnings : List Failure)
  /-- Number of appends that were written. -/
  | drained (written : Nat)
  /-- The answer of a commit. -/
  | committed (answer : Except Failure CommitReport)
  /-- No answer. -/
  | silent

/-- The reply with all ticks `d` later; only reports of commits mention any. -/
def Reply.later (d : Nat) : Reply → Reply
  | committed answer => committed (answer.map (CommitReport.later d))
  | o => o

namespace Transaction

/-- The reply of a move. -/
def reply (h : Hooks κ π (Watched κ π σ)) (sink : Sink σ) (t : Transaction κ π (Watched κ π σ)) :
    Move κ π σ → Reply
  | .record m => .recorded (t.staging.perform m).1
  | .settle user => .ended (t.settle h user).1
  | .validate validating => .ended (t.validate h validating).1
  | .runDeferred user => .ended (t.runDeferred h user).1
  | .notify user => .warned (t.notify h user).1
  | .drainLogs pool => .drained (t.drainLogsOn pool sink.watched).1
  | .commit pool storage validating user =>
    .committed (t.commitOn pool h sink.watched storage.watched validating user).1
  | .rollback _ | .meanwhile .. => .silent

/-- The replies of several moves. -/
def replies (h : Hooks κ π (Watched κ π σ)) (sink : Sink σ) :
    Transaction κ π (Watched κ π σ) → List (Move κ π σ) → List Reply
  | _, [] => []
  | t, move :: rest => t.reply h sink move :: replies h sink (t.make h sink move) rest

variable {d : Nat} {early late : Hooks κ π (Watched κ π σ)}

/-- **A step.** A move leaves the same whether the ticks are later or not. -/
theorem make_later (ha : early.ActAlike d (Watched.later d) late) (sink : Sink σ)
    (t : Transaction κ π (Watched κ π σ)) (move : Move κ π σ) :
    (t.make early sink move).later d = (t.later d).make late sink move := by
  cases move with
  | record m =>
    show ((t.stage (·.after m)).note (.recorded t.staging m)).later d = _
    rw [later_note]
    show Transaction.note ⟨(t.staging.after m).later d, t.errors, t.world.later d⟩ _ = _
    rw [Staging.later_after]
    rfl
  | settle user => exact congrArg Prod.snd (delayed_settle ha user t)
  | validate validating => exact congrArg Prod.snd (delayed_validate ha validating t)
  | runDeferred user => exact congrArg Prod.snd (delayed_runDeferred ha user t)
  | notify user => exact congrArg Prod.snd (delayed_notify ha user t)
  | drainLogs pool =>
    have hd : (t.drainLogsOn pool sink.watched).2.later d
        = ((t.later d).drainLogsOn pool sink.watched).2 :=
      congrArg Prod.snd (delayed_drainLogsOn (d := d) pool (sink.watched_later d) t)
    unfold make
    dsimp only
    rw [← hd, show (t.later d).staging.logEnabled = t.staging.logEnabled from rfl,
      show (t.later d).staging.options = t.staging.options from rfl]
    split
    · exact later_note d _ _
    · rfl
  | commit pool storage validating user =>
    have hc : (t.commitOn pool early sink.watched storage.watched validating user).2.later d
        = ((t.later d).commitOn pool late sink.watched storage.watched validating user).2 :=
      congrArg Prod.snd (delayed_commitOn pool ha (sink.watched_later d)
        (storage.watched_later d) validating user t)
    show (Transaction.note _ _).later d = Transaction.note _ _
    rw [later_note, hc]
    rfl
  | rollback storage =>
    have hr : (t.rollback storage.watched).later d = (t.later d).rollback storage.watched :=
      delayed_rollback (storage.watched_later d) t
    show (Transaction.note _ _).later d = Transaction.note _ _
    rw [later_note, hr]
    rfl
  | meanwhile errors world => rfl

/-- **A step.** A move answers the same whether the ticks are later or not. -/
theorem reply_later (ha : early.ActAlike d (Watched.later d) late) (sink : Sink σ)
    (t : Transaction κ π (Watched κ π σ)) (move : Move κ π σ) :
    (t.reply early sink move).later d = (t.later d).reply late sink move := by
  cases move with
  | record m => exact congrArg Reply.recorded (Staging.answer_later d t.staging m).symm
  | settle user =>
    exact congrArg (fun r => Reply.ended r.1) (delayed_settle ha user t)
  | validate validating =>
    exact congrArg (fun r => Reply.ended r.1) (delayed_validate ha validating t)
  | runDeferred user =>
    exact congrArg (fun r => Reply.ended r.1) (delayed_runDeferred ha user t)
  | notify user => exact congrArg (fun r => Reply.warned r.1) (delayed_notify ha user t)
  | drainLogs pool =>
    exact congrArg (fun r => Reply.drained r.1)
      (delayed_drainLogsOn (d := d) pool (sink.watched_later d) t)
  | commit pool storage validating user =>
    exact congrArg (fun r => Reply.committed r.1)
      (delayed_commitOn pool ha (sink.watched_later d) (storage.watched_later d) validating user
        t)
  | rollback storage => rfl
  | meanwhile errors world => rfl

/-- **A run.** So do several moves. -/
theorem makeAll_later (ha : early.ActAlike d (Watched.later d) late) (sink : Sink σ)
    (t : Transaction κ π (Watched κ π σ)) (moves : List (Move κ π σ)) :
    (t.makeAll early sink moves).later d = (t.later d).makeAll late sink moves := by
  induction moves generalizing t with
  | nil => rfl
  | cons move rest ih =>
    show ((t.make early sink move).makeAll early sink rest).later d
      = ((t.later d).make late sink move).makeAll late sink rest
    rw [ih, make_later ha]

theorem replies_later (ha : early.ActAlike d (Watched.later d) late) (sink : Sink σ)
    (t : Transaction κ π (Watched κ π σ)) (moves : List (Move κ π σ)) :
    (replies early sink t moves).map (Reply.later d) = replies late sink (t.later d) moves := by
  induction moves generalizing t with
  | nil => rfl
  | cons move rest ih =>
    show (t.reply early sink move).later d ::
        (replies early sink (t.make early sink move) rest).map (Reply.later d)
      = (t.later d).reply late sink move ::
        replies late sink ((t.later d).make late sink move) rest
    rw [ih, make_later ha, reply_later ha]

end Transaction

/-- However deep the calls of inner hooks are nested, hooks that are told of
    later ticks act as the hooks that see them. -/
theorem Hooks.nested_later (h : Hooks κ π σ) (script : InnerScript κ π σ) (plan : InnerPlan κ π σ)
    (sink : Sink σ) (d depth : Nat) :
    ((h.told d).nested (script.told d) (plan.told d) sink depth).ActAlike d (Watched.later d)
      (h.nested script plan sink depth) := by
  refine h.watchedAfter_later script d ?_
  induction depth with
  | zero => exact fun _ _ _ => rfl
  | succ depth ih =>
    -- The hooks that these moves call are nested one level less.
    intro object ctx t
    exact Transaction.makeAll_later (h.watchedAfter_later script d ih) sink t _

end ChangeLedger
