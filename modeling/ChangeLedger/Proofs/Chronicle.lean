/-
  ChangeLedger.Proofs.Chronicle — what happens to a ledger, call by call.

  The ledger answers with results; which calls it made on the way, and in
  which order, is seen only by the code it calls.  A chronicle makes the calls
  visible: the world is given a list of events, and every hook, action, sink
  and storage notes its own call there before it answers as it would have
  answered anyway.

  An inner hook may record changes.  What one call of it does is kept as data,
  an `InnerRun`, and a script says which run each call is: reading the staging
  area, a hook may choose its run as it likes.  Hooks that are nested may run
  phases and commit as well, as an `InnerPlan` says, before they record.

  `Transaction.reached` is the ledger after a list of moves, that is of calls
  from outside the hooks; every state that a ledger can get into is reached.
-/
import ChangeLedger.Staging.Mutation
import ChangeLedger.Transaction.Commit

namespace ChangeLedger

variable {κ π σ : Type}

/-! ## Inner hooks that only record -/

/-- What one call of an inner hook does. -/
structure InnerRun (κ π σ : Type) where
  /-- The recordings it makes, in order. -/
  recordings : List (Mutation κ π)
  /-- The error buffer it leaves. -/
  errors : ErrorBuffer
  /-- The world it leaves. -/
  world : σ
  /-- What it answers. -/
  answer : Except Failure Unit

/-- The run of each call of an inner hook. -/
abbrev InnerScript (κ π σ : Type) :=
  Tracked κ → InnerContext → Transaction κ π σ → InnerRun κ π σ

namespace InnerRun

/-- The answer of a run, and the transaction after it. -/
def performed (run : InnerRun κ π σ) (s : Staging κ π) :
    Except Failure Unit × Transaction κ π σ :=
  (run.answer, ⟨s.afterAll run.recordings, run.errors, run.world⟩)

/-- Whether a run fails nothing: it answers so, and the buffer holds no more
    than the `mark` tokens it held before. -/
def passed (run : InnerRun κ π σ) (mark : Nat) : Bool :=
  succeeded run.answer && run.errors.size ≤ mark

end InnerRun

/-- Hooks whose inner hooks follow a script. -/
def Hooks.following (h : Hooks κ π σ) (script : InnerScript κ π σ) : Hooks κ π σ :=
  { h with inner := fun object ctx t => (script object ctx t).performed t.staging }

/-! ## Events -/

/-- One event in the life of a ledger. -/
inductive Event (κ π : Type) where
  /-- A recording was made from outside, in the staging area `before`. -/
  | recorded (before : Staging κ π) (m : Mutation κ π)
  /-- An inner hook was called; in the staging area `before` it made these
      recordings, and it passed or failed the phase. -/
  | inner (before : Staging κ π) (object : Tracked κ) (ctx : InnerContext)
      (recordings : List (Mutation κ π)) (passed : Bool)
  /-- An object was validated. -/
  | validated (r : Record κ) (accepted : Bool)
  /-- An object was indexed. -/
  | indexed (r : Record κ) (answer : Except Failure Unit)
  /-- A deferred action was run. -/
  | acted (action : π) (answer : Except Failure Unit)
  /-- The storage was asked to commit. -/
  | committed (answer : Except Failure Unit)
  /-- The storage was asked to roll back. -/
  | rolledBack (answer : Except Failure Unit)
  /-- An outer hook was called. -/
  | notified (r : Record κ) (answer : Except Failure Unit)
  /-- A text was appended to a log. -/
  | appended (name : LogName) (text : String) (answer : Except Failure Unit)
  /-- The change logs were written from outside a commit. -/
  | drained
  /-- A commit or a rollback came to its end; everything staged is gone. -/
  | closed

namespace Event

/-- Whether the event is the call of an inner hook. -/
def isInner : Event κ π → Bool
  | inner .. => true
  | _ => false

/-- Whether the event is a call of the validation phase. -/
def isCheck : Event κ π → Bool
  | validated .. | indexed .. => true
  | _ => false

/-- Whether the event is the run of a deferred action. -/
def isAction : Event κ π → Bool
  | acted .. => true
  | _ => false

/-- Whether the event is the call of an outer hook. -/
def isOuter : Event κ π → Bool
  | notified .. => true
  | _ => false

/-- Whether the event is an append to a log. -/
def isAppend : Event κ π → Bool
  | appended .. => true
  | _ => false

/-- The staging area in which a recording or a call of an inner hook begins. -/
def start? : Event κ π → Option (Staging κ π)
  | recorded before _ | inner before .. => some before
  | _ => none

/-- Whether the event is a call that leaves the staging area alone. -/
def isBystander : Event κ π → Bool
  | validated .. | indexed .. | acted .. | committed _ | rolledBack _ | notified ..
  | appended .. => true
  | _ => false

end Event

/-! ## Watching -/

/-- A world together with the events so far, oldest first. -/
structure Watched (κ π σ : Type) where
  /-- The world. -/
  world : σ
  /-- The events. -/
  events : List (Event κ π) := []

/-- Notes an event that leaves the world as given. -/
def Watched.note (w : Watched κ π σ) (world : σ) (e : Event κ π) : Watched κ π σ :=
  ⟨world, w.events ++ [e]⟩

namespace Transaction

/-- The transaction in another world. -/
def mapWorld {σ' : Type} (f : σ → σ') (t : Transaction κ π σ) : Transaction κ π σ' :=
  ⟨t.staging, t.errors, f t.world⟩

/-- The transaction, with an empty list of events beside its world. -/
def watched (t : Transaction κ π σ) : Transaction κ π (Watched κ π σ) :=
  t.mapWorld fun w => { world := w }

/-- The transaction without its events. -/
def unwatched (t : Transaction κ π (Watched κ π σ)) : Transaction κ π σ :=
  t.mapWorld Watched.world

/-- The events of a transaction, oldest first. -/
def events (t : Transaction κ π (Watched κ π σ)) : List (Event κ π) := t.world.events

/-- Notes an event. -/
def note (t : Transaction κ π (Watched κ π σ)) (e : Event κ π) :
    Transaction κ π (Watched κ π σ) :=
  { t with world := t.world.note t.world.world e }

end Transaction

/-- Hooks that note their calls.  An inner hook first does what it does
    `earlier`, and then what the script says. -/
def Hooks.watchedAfter (h : Hooks κ π σ) (script : InnerScript κ π σ)
    (earlier : Tracked κ → InnerContext → Transaction κ π (Watched κ π σ) →
      Transaction κ π (Watched κ π σ)) : Hooks κ π (Watched κ π σ) where
  isStale object w := h.isStale object w.world
  inner object ctx t :=
    let t' := earlier object ctx t
    let run := script object ctx t'.unwatched
    let passed := run.passed t.errors.size
    (run.answer, ⟨t'.staging.afterAll run.recordings, run.errors,
      t'.world.note run.world (.inner t'.staging object ctx run.recordings passed)⟩)
  validate r errors w :=
    let (accepted, errors, world) := h.validate r errors w.world
    (accepted, errors, w.note world (.validated r accepted))
  index r w :=
    let (answer, world) := h.index r w.world
    (answer, w.note world (.indexed r answer))
  outer r user w :=
    let (answer, world) := h.outer r user w.world
    (answer, w.note world (.notified r answer))
  act action user errors w :=
    let (answer, errors, world) := h.act action user errors w.world
    (answer, errors, w.note world (.acted action answer))

/-- Hooks that note their calls; the inner ones follow a script and do nothing
    else. -/
def Hooks.watched (h : Hooks κ π σ) (script : InnerScript κ π σ) : Hooks κ π (Watched κ π σ) :=
  h.watchedAfter script fun _ _ t => t

/-- A sink that notes its appends. -/
def Sink.watched (sink : Sink σ) : Sink (Watched κ π σ) where
  append name text w :=
    let (answer, world) := sink.append name text w.world
    (answer, w.note world (.appended name text answer))

/-- A storage that notes what it is asked for. -/
def Storage.watched (storage : Storage σ) : Storage (Watched κ π σ) where
  commit w :=
    let (answer, world) := storage.commit w.world
    (answer, w.note world (.committed answer))
  rollback w :=
    let (answer, world) := storage.rollback w.world
    (answer, w.note world (.rolledBack answer))

/-! ## Moves -/

/-- One call on a ledger. -/
inductive Move (κ π σ : Type) where
  /-- Makes a recording. -/
  | record (m : Mutation κ π)
  /-- Runs the inner hooks. -/
  | settle (user : Option Principal)
  /-- Validates and indexes. -/
  | validate (validating : Bool)
  /-- Runs the deferred actions. -/
  | runDeferred (user : Option Principal)
  /-- Runs the outer hooks. -/
  | notify (user : Option Principal)
  /-- Writes the change logs, with a pool for the appends. -/
  | drainLogs (pool : Pool)
  /-- Commits, with a pool for the appends. -/
  | commit (pool : Pool) (storage : Storage σ) (validating : Bool) (user : Option Principal)
  /-- Rolls back. -/
  | rollback (storage : Storage σ)
  /-- Brings another error buffer and another world: the caller may hand over
      any buffer, and the world does not wait for the ledger. -/
  | meanwhile (errors : ErrorBuffer) (world : σ)

namespace Transaction

/-- Makes one move.  A drain that is skipped leaves no event. -/
def make (h : Hooks κ π (Watched κ π σ)) (sink : Sink σ) (t : Transaction κ π (Watched κ π σ)) :
    Move κ π σ → Transaction κ π (Watched κ π σ)
  | .record m => (t.stage (·.after m)).note (.recorded t.staging m)
  | .settle user => (t.settle h user).2
  | .validate validating => (t.validate h validating).2
  | .runDeferred user => (t.runDeferred h user).2
  | .notify user => (t.notify h user).2
  | .drainLogs pool =>
    let after := (t.drainLogsOn pool sink.watched).2
    if t.staging.logEnabled && t.staging.options.anyAudit then after.note .drained else after
  | .commit pool storage validating user =>
    (t.commitOn pool h sink.watched storage.watched validating user).2.note .closed
  | .rollback storage => (t.rollback storage.watched).note .closed
  | .meanwhile errors world => { t with errors, world := { t.world with world } }

/-- Makes several moves. -/
def makeAll (h : Hooks κ π (Watched κ π σ)) (sink : Sink σ) (t : Transaction κ π (Watched κ π σ))
    (moves : List (Move κ π σ)) : Transaction κ π (Watched κ π σ) := moves.foldl (make h sink) t

/-- The ledger that moves lead to, from a new staging area on. -/
def reached (h : Hooks κ π (Watched κ π σ)) (sink : Sink σ) (options : Options) (schema : Schema)
    (world : σ) (moves : List (Move κ π σ)) : Transaction κ π (Watched κ π σ) :=
  makeAll h sink ⟨Staging.new options schema, ∅, { world }⟩ moves

end Transaction

/-! ## Inner hooks that call phases -/

/-- The moves that each call of an inner hook makes before it records. -/
abbrev InnerPlan (κ π σ : Type) :=
  Tracked κ → InnerContext → Transaction κ π σ → List (Move κ π σ)

namespace Hooks

/-- What an inner hook does before it records, if its moves may call inner
    hooks in their turn.  The calls are nested `depth` deep: the innermost
    hooks only record. -/
def planned (h : Hooks κ π σ) (script : InnerScript κ π σ) (plan : InnerPlan κ π σ)
    (sink : Sink σ) : Nat → Tracked κ → InnerContext → Transaction κ π (Watched κ π σ) →
      Transaction κ π (Watched κ π σ)
  | 0, _, _, t => t
  | depth + 1, object, ctx, t =>
    t.makeAll (h.watchedAfter script (h.planned script plan sink depth)) sink
      (plan object ctx t.unwatched)

/-- Hooks that note their calls; the inner ones follow a plan and then a
    script, with calls nested `depth` deep. -/
def nested (h : Hooks κ π σ) (script : InnerScript κ π σ) (plan : InnerPlan κ π σ)
    (sink : Sink σ) (depth : Nat) : Hooks κ π (Watched κ π σ) :=
  h.watchedAfter script (h.planned script plan sink depth)

end Hooks

end ChangeLedger
