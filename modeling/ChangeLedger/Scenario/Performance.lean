/-
  ChangeLedger.Scenario.Performance — running a script.

  Commands act on a transaction whose world is that of the script.  An inner
  hook runs the commands of its rules, and these may run phases and with them
  other hooks; hooks are nested at most `nestingLimit` deep.
-/
import ChangeLedger.Scenario.World

namespace ChangeLedger.Scenario

/-- A transaction of a script. -/
abbrev Act := Transaction Actor ScriptedAction World

/-- The hooks of a script. -/
abbrev ActorHooks := Hooks Actor ScriptedAction World

/-! ## The cast -/

/-- An actor as a tracked object. -/
def Actor.tracked (a : Actor) : Tracked Actor := ⟨a.id, a.uuid, a⟩

/-- The actor with a name; of several, the last one. -/
def findActor (cast : List Actor) (name : String) : Option Actor :=
  cast.reverse.find? fun a => a.name = name

/-- The edge that an actor stands for.  The ends of a test double are fixed
    when it is made; those of a scripted object are looked up now. -/
def Actor.edge (cast : List Actor) (a : Actor) : Edge Actor :=
  let resolve (known : List Actor) (name? : Option String) :=
    (name?.bind (findActor known)).map Actor.tracked
  match a.role with
  | .double d =>
    let earlier := cast.take a.place
    ⟨a.tracked, d.edge.type?, resolve earlier d.edge.source?, resolve earlier d.edge.target?⟩
  | .scripted s =>
    ⟨a.tracked, s.edge.type?, resolve cast s.edge.source?, resolve cast s.edge.target?⟩
  | .plain => ⟨a.tracked, none, none, none⟩

/-! ## Where commands run -/

/-- Who runs a command: the script itself or the hook of an actor. -/
structure Scope where
  /-- The actor whose hook runs the command. -/
  self? : Option Actor := none
  /-- The user that the hook was called with. -/
  user? : Option Principal := none

/-- The actor that a command names. -/
def Scope.actor? (scope : Scope) (cast : List Actor) : Subject → Option Actor
  | .named name => findActor cast name
  | .itself => scope.self?

/-- The user that a command acts for. -/
def Scope.acting (scope : Scope) : ActingUser → Option Principal
  | .nobody => none
  | .given user => some user
  | .ofHook => scope.user?

/-! ## Commands -/

/-- An answer that comes with a transaction. -/
abbrev Outcome := Except Failure Answer × Act

/-- The answer of a phase. -/
def phaseAnswer : Except Failure Unit × Act → Outcome
  | (.ok (), t) => (.ok .done, t)
  | (.error e, t) => (.ok (.failed e), t)

/-- Records something on the actor that a command names. -/
def recordOn (cast : List Actor) (scope : Scope) (obj : Subject)
    (f : Actor → Staging Actor ScriptedAction → Staging Actor ScriptedAction) (t : Act) :
    Outcome :=
  match scope.actor? cast obj with
  | some a => (.ok .done, t.stage (f a))
  | none => (.ok .done, t)

/-- Marks an actor as reached by propagation. -/
def mark (a : Actor) (t : Act) : Bool × Act :=
  let (fresh, staging) := t.staging.propagate a.tracked
  (fresh, { t with staging })

/-- Calls the inner hook of an actor that was reached by propagation, with an
    error buffer of its own. -/
def reach (h : ActorHooks) (a : Actor) (t : Act) : Act :=
  -- neither the failure of the hook nor its tokens reach the caller
  let (_, after) := h.inner a.tracked ⟨none, .propagated, none⟩ { t with errors := ∅ }
  { after with errors := t.errors }

/-- Marks actors one after the other, and calls the inner hooks of those that
    were not reached before; the answer is their identities. -/
def spreadTo (h : ActorHooks) (cast : List Actor) : List String → Act → List ObjectId × Act
  | [], t => ([], t)
  | name :: rest, t =>
    match findActor cast name with
    | none => spreadTo h cast rest t
    | some a =>
      match mark a t with
      | (false, t) => spreadTo h cast rest t
      | (true, t) =>
        let (ids, t) := spreadTo h cast rest (reach h a t)
        (a.id :: ids, t)

/-- Runs an operation on a storage of its own, and answers with its calls. -/
def withStorage {α : Type} (t : Act) (run : Act → α × Act) : α × List StorageCall × Act :=
  let (result, after) := run { t with world := { t.world with storageCalls := [] } }
  (result, after.world.storageCalls.reverse,
    { after with world := { after.world with storageCalls := t.world.storageCalls } })

/-- Registers the description of a type of edges.  The staging area learns of
    it if it goes by the registry of the script. -/
def registerEdges (type : EdgeType) (d : EdgeDescription) (t : Act) : Act :=
  let t := { t with world := { t.world with schema := t.world.schema.register type d } }
  if t.world.sharesRegistry then t.stage fun s => s.describeEdges type d else t

/-- Runs one command. -/
def Command.run (cast : List Actor) (h : ActorHooks) (scope : Scope) (c : Command) (t : Act) :
    Outcome :=
  let user := scope.acting
  let s := t.staging
  match c with
  | create obj u => recordOn cast scope obj (fun a s => s.create (user u) a.tracked) t
  | modify obj key previous new u =>
    recordOn cast scope obj (fun a s => s.modify (user u) a.tracked key previous new) t
  | delete obj passive u =>
    recordOn cast scope obj (fun a s => s.delete (user u) a.tracked passive) t
  | createEdge obj u => recordOn cast scope obj (fun a s => s.createEdge (user u) (a.edge cast)) t
  | deleteEdge obj passive u =>
    recordOn cast scope obj (fun a s => s.deleteEdge (user u) (a.edge cast) passive) t
  | propagate obj =>
    match scope.actor? cast obj with
    | some a => let (fresh, t) := mark a t; (.ok (.flag fresh), t)
    | none => (.ok (.flag false), t)
  | flagAspect aspect obj => recordOn cast scope obj (fun a s => s.flagAspect aspect a.tracked) t
  | setCallback obj token => recordOn cast scope obj (fun a s => s.setCallback a.tracked token) t
  | disableLog => (.ok .done, t.stage Staging.disableLog)
  | clear => (.ok .done, t.clear)
  | describeEdges type d => (.ok .done, registerEdges type d t)
  | lookup type => (.ok (.description (t.world.schema.describe? type)), t)
  | defer key action =>
    let (kept, staging) := s.defer key action
    (.ok (.flag kept), { t with staging })
  | size => (.ok (.sized s.size s.isEmpty), t)
  | contains id => (.ok (.flag (s.contains id)), t)
  | isPropagated id => (.ok (.flag (s.isPropagated id)), t)
  | isDeleted id => (.ok (.flag (s.isDeleted id)), t)
  | isModified id name => (.ok (.flag (s.isModified id name)), t)
  | modifiedKeys => (.ok (.keys s.modifiedKeys.toList), t)
  | syncKeys => (.ok (.names s.syncKeys.toList), t)
  | summary id => (.ok (.summary (s.summary? id)), t)
  | records => (.ok (.snapshots s.snapshots), t)
  | inspect id => (.ok (.record (s.find? id)), t)
  | observe id => (.ok (.observed ((s.find? id).map Record.verb) s.ids), t)
  | diagnostic => (.ok (.text (some s.diagnostic)), t)
  | recordDiagnostic id => (.ok (.text ((s.find? id).map Record.diagnostic)), t)
  | optionsDiagnostic => (.ok (.text (some s.options.diagnostic)), t)
  | errors => (.ok (.tokens t.errors.tokens), t)
  | addError token => (.ok .done, { t with errors := t.errors.add token })
  | logs => (.ok (.logs t.world.store.listing), t)
  | metrics => (.ok (.metrics s.counters), t)
  | journal event id =>
    let ids := (t.world.journal.reverse.filter fun e => e.1 = event).map (·.2)
    (.ok (.journalled (ids.count id) ids), t)
  | settle u => phaseAnswer (t.settle h (user u))
  | validate validating => phaseAnswer (t.validate h validating)
  | runDeferred u => phaseAnswer (t.runDeferred h (user u))
  | notify u => let (es, t) := t.notify h (user u); (.ok (.warnings es), t)
  | drainLogs => let (n, t) := t.drainLogs sink; (.ok (.number n), t)
  | commit u validating storage =>
    let (result, calls, t) := withStorage t fun t =>
      t.commit h sink storage.storage validating (user u)
    (.ok (.committed result storage calls), t)
  | rollback storage =>
    let ((), calls, t) := withStorage t fun t => ((), t.rollback storage.storage)
    (.ok (.rolledBack storage calls), t)
  | renew =>
    (.ok .done, t.stage fun s => { Staging.new s.options s.schema with counters := s.counters })
  | fail e => (.error e, t)
  | spread objs => let (ids, t) := spreadTo h cast objs t; (.ok (.reached ids), t)

/-! ## Hooks -/

/-- Changes the world. -/
def onWorld (f : World → World) (t : Act) : Act := { t with world := f t.world }

/-- Runs the commands of a rule up to the first that fails. -/
def runCommands (cast : List Actor) (h : ActorHooks) (scope : Scope) (quiet : Bool) :
    List Command → Act → Except Failure Unit × Act
  | [], t => (.ok (), t)
  | c :: rest, t =>
    match c.run cast h scope t with
    | (.error e, t) => (.error e, t)
    | (.ok answer, t) =>
      let t := if quiet then t else onWorld (·.leave (.did c.word answer)) t
      runCommands cast h scope quiet rest t

/-- Whether a rule fires for a verb after it has fired `times` times. -/
def Rule.fires (r : Rule) (verb : ChangeVerb) (times : Nat) : Bool :=
  r.verb?.all (fun v => v = verb) && r.max?.all fun m => times < m

/-- Tries the rules of an inner hook in order; `place` is that of the first. -/
def runRules (cast : List Actor) (h : ActorHooks) (scope : Scope) (quiet : Bool) (actor : Nat)
    (verb : ChangeVerb) : (place : Nat) → List Rule → Act → Except Failure Unit × Act
  | _, [], t => (.ok (), t)
  | place, r :: rest, t =>
    if r.fires verb (t.world.fired.getD ⟨actor, place⟩ 0) then
      -- counted before the commands run, for they may call the hook again
      match runCommands cast h scope quiet r.commands (onWorld (·.fire ⟨actor, place⟩) t) with
      | (.error e, t) => (.error e, t)
      | (.ok (), t) => runRules cast h scope quiet actor verb (place + 1) rest t
    else runRules cast h scope quiet actor verb (place + 1) rest t

/-- The inner hook of an actor with rules. -/
def followRules (cast : List Actor) (h : ActorHooks) (a : Actor) (rules : List Rule)
    (quiet : Bool) (ctx : InnerContext) (t : Act) : Except Failure Unit × Act :=
  let entry := TraceEntry.inner a.id ctx.verb ctx.callback (ctx.principal.map (·.id))
  let t := if quiet then t else onWorld (·.leave entry) t
  runRules cast h ⟨some a, ctx.principal⟩ quiet a.place ctx.verb 0 rules t

/-- The inner hook of an actor; `h` are the hooks that its commands call. -/
def innerHook (cast : List Actor) (h : ActorHooks) (object : Tracked Actor) (ctx : InnerContext)
    (t : Act) : Except Failure Unit × Act :=
  let a := object.handle
  match a.role with
  | .double d =>
    let t := if d.journalled then onWorld (·.note .inner a.id) t else t
    match d.inner? with
    | none => (.ok (), t)
    | some rules => followRules cast h a rules d.quiet ctx t
  | .scripted s => followRules cast h a s.inner s.quiet ctx t
  | .plain => (.ok (), t)

/-- Notes a hook call of a test double. -/
def Double.noteIn (d : Double) (event : HookEvent) (id : ObjectId) (w : World) : World :=
  if d.journalled then w.note event id else w

/-- The validation of an actor. -/
def validateHook (r : Record Actor) (errors : ErrorBuffer) (w : World) :
    Bool × ErrorBuffer × World :=
  let a := r.object.handle
  match a.role with
  | .double d =>
    let w := d.noteIn .validate a.id w
    match d.reject? with
    | some field => (false, errors.add ⟨"TestObject", some field, "invalid"⟩, w)
    | none => (true, errors, w)
  | .scripted s =>
    (s.accepts, errors.addAll s.tokens, w.leave (.validate r.id r.verb r.modified.size))
  | .plain => (true, errors, w)

/-- The indexing of an actor. -/
def indexHook (r : Record Actor) (w : World) : Except Failure Unit × World :=
  let a := r.object.handle
  match a.role with
  | .double d => (.ok (), d.noteIn .index a.id w)
  | .scripted s => (answerWith s.index?, w.leave (.index r.id r.verb r.modified.size))
  | .plain => (.ok (), w)

/-- The outer hook of an actor. -/
def outerHook (r : Record Actor) (user : Option Principal) (w : World) :
    Except Failure Unit × World :=
  let a := r.object.handle
  match a.role with
  | .double d =>
    (if d.failsOuter then .error (.hook a.id .outerHooks "outer hook refused") else .ok (),
      d.noteIn .outer a.id w)
  | .scripted s =>
    (answerWith s.outer?, w.leave (.outer r.id r.verb r.modified.size (user.map (·.id))))
  | .plain => (.ok (), w)

/-- Whether an actor is out of date. -/
def Actor.isStale (a : Actor) : Bool :=
  match a.role with
  | .double d => d.stale
  | .scripted s => s.stale
  | .plain => false

/-- The run of a deferred action. -/
def ScriptedAction.run (a : ScriptedAction) (user : Option Principal) (errors : ErrorBuffer)
    (w : World) : Except Failure Unit × ErrorBuffer × World :=
  let errors := errors.addAll a.tokens
  let errors :=
    if a.tokenForUser then errors.add ⟨(user.map (·.name)).getD "system", none, "denied"⟩
    else errors
  (answerWith a.failure?, errors, { w with ran := a.tag :: w.ran })

/-- How deep the hooks of a script are nested at most. -/
def nestingLimit : Nat := 4096

/-- The hooks of a cast, `depth` deep: below that, inner hooks do nothing. -/
def hooks (cast : List Actor) : (depth : Nat) → ActorHooks
  | 0 =>
    { isStale := fun object _ => object.handle.isStale
      inner := fun _ _ t => (.ok (), t)
      validate := validateHook, index := indexHook, outer := outerHook
      act := ScriptedAction.run }
  | depth + 1 =>
    { isStale := fun object _ => object.handle.isStale
      inner := fun object ctx t => innerHook cast (hooks cast depth) object ctx t
      validate := validateHook, index := indexHook, outer := outerHook
      act := ScriptedAction.run }

/-! ## Scripts -/

/-- What one command of a script did. -/
structure Step where
  /-- Its answer. -/
  answer : Answer
  /-- Every record afterwards, in a line each. -/
  state : List String
  /-- The hook calls it noted, in order. -/
  journal : List (HookEvent × ObjectId)
  /-- The tags of the actions it ran, in order. -/
  ran : List String
  /-- The trace it left, in order. -/
  trace : List TraceEntry

/-- A record in a line. -/
def stateLine (r : Record Actor) : String :=
  r.id.display ++ " " ++ r.verb.display ++ " " ++ toString r.firstTouch ++ " " ++
    if r.dirty then "dirty" else "clean"

/-- Runs one command of a script. -/
def step (cast : List Actor) (c : Command) (t : Act) : Step × Act :=
  let before := t.world.journal.length
  let (result, t) := c.run cast (hooks cast nestingLimit) {} t
  let answer := match result with
    | .ok answer => answer
    | .error e => .failed e
  let w := t.world
  ({ answer
     state := t.staging.records.map stateLine
     journal := (w.journal.take (w.journal.length - before)).reverse
     ran := w.ran.reverse
     trace := w.trace.reverse },
    { t with world := { w with ran := [], trace := [] } })

/-- Runs the commands of a script. -/
def perform (cast : List Actor) : List Command → Act → List Step
  | [], _ => []
  | c :: rest, t =>
    let (done, t) := step cast c t
    done :: perform cast rest t

/-- The transaction at the start of a script. -/
def opening (options : Options) (schema : Schema) (sharesRegistry : Bool) (store : LogStore) :
    Act where
  staging := Staging.new options (if sharesRegistry then schema else ∅)
  errors := ∅
  world := { store, schema, sharesRegistry }

end ChangeLedger.Scenario
