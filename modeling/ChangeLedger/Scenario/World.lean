/-
  ChangeLedger.Scenario.World — the world that scripted hooks act on.

  The world of a script holds the journal of hook calls, the trace, the tags
  of the actions that ran, the number of times each rule fired, the log store
  and the schema as registered.  Lists that only grow are kept newest first.
-/
import ChangeLedger.Scenario.Answer

namespace ChangeLedger.Scenario

/-- A rule by the place of its actor in the cast and its own place. -/
structure RulePlace where
  /-- The place of the actor. -/
  actor : Nat
  /-- The place of the rule. -/
  rule : Nat
  deriving DecidableEq

instance : Ord RulePlace := ⟨compareLex (compareOn RulePlace.actor) (compareOn RulePlace.rule)⟩

instance : Std.TransOrd RulePlace :=
  inferInstanceAs
    (Std.TransCmp (compareLex (compareOn RulePlace.actor) (compareOn RulePlace.rule)))

/-- The world of a script. -/
structure World where
  /-- The hook calls of journalled actors, newest first. -/
  journal : List (HookEvent × ObjectId) := []
  /-- The tags of the actions that ran, newest first. -/
  ran : List String := []
  /-- The trace, newest first. -/
  trace : List TraceEntry := []
  /-- How often each rule has fired. -/
  fired : SortedMap RulePlace Nat := ∅
  /-- The logs. -/
  store : LogStore
  /-- What the storage at hand was asked for, newest first. -/
  storageCalls : List StorageCall := []
  /-- The schema as registered. -/
  schema : Schema := ∅
  /-- Whether the staging area goes by that schema; else it knows of no edges. -/
  sharesRegistry : Bool := true

namespace World

/-- Notes a hook call. -/
def note (w : World) (event : HookEvent) (id : ObjectId) : World :=
  { w with journal := (event, id) :: w.journal }

/-- Leaves an entry in the trace. -/
def leave (w : World) (entry : TraceEntry) : World := { w with trace := entry :: w.trace }

/-- Counts that a rule fires. -/
def fire (w : World) (p : RulePlace) : World :=
  { w with fired := w.fired.insert p (w.fired.getD p 0 + 1) }

end World

/-- The log store of a script as a sink. -/
def sink : Sink World where
  append name text w :=
    match w.store with
    | .memory log refused =>
      if refused.contains name then
        (.error (.auditIo (name.path "") (.reported "refused")), w)
      else (.ok (), { w with store := .memory (log.append name text) refused })
    | .files tree =>
      let (result, tree) := tree.appendLog "" name text
      (result, { w with store := .files tree })

/-- Answers with a failure, if there is one. -/
def answerWith : Option Failure → Except Failure Unit
  | none => .ok ()
  | some e => .error e

/-- A scripted storage; its calls are noted. -/
def ScriptedStorage.storage : ScriptedStorage → Storage World
  | recording refusing =>
    { commit := fun w =>
        (if refusing then .error (.storage "commit refused") else .ok (),
          { w with storageCalls := .commit (!refusing) :: w.storageCalls })
      rollback := fun w => (.ok (), { w with storageCalls := .rollback :: w.storageCalls }) }
  | answering commit? rollback? =>
    { commit := fun w =>
        (answerWith commit?,
          { w with storageCalls := .commit commit?.isNone :: w.storageCalls })
      rollback := fun w =>
        (answerWith rollback?, { w with storageCalls := .rollback :: w.storageCalls }) }

end ChangeLedger.Scenario
