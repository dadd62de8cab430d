/-
  ChangeLedger.Scenario.Script — rehearsals of a ledger, written as data.

  A script has actors, which are tracked objects with scripted hooks, and a
  list of commands.  Commands record changes, read the staging area and run
  the phases; an inner hook is a list of rules that run commands themselves.
-/
import ChangeLedger.Failure.Cause
import ChangeLedger.Graph.Schema
import ChangeLedger.Graph.Value
import ChangeLedger.Staging.Verb
import ChangeLedger.Text.Quoted

namespace ChangeLedger.Scenario

/-! ## Parts of commands -/

/-- The object of a command. -/
inductive Subject where
  /-- The actor with this name. -/
  | named (name : String)
  /-- The actor whose hook runs the command. -/
  | itself

/-- The acting user of a command. -/
inductive ActingUser where
  /-- Nobody is known. -/
  | nobody
  /-- This user. -/
  | given (user : Principal)
  /-- The user that the hook was called with. -/
  | ofHook

/-- A deferred action: it leaves its tag, adds tokens and perhaps fails. -/
structure ScriptedAction where
  /-- The tag that shows that the action ran. -/
  tag : String
  /-- The tokens to add. -/
  tokens : List ErrorToken := []
  /-- Whether to add a token that names the acting user. -/
  tokenForUser : Bool := false
  /-- The failure to answer with. -/
  failure? : Option Failure := none

/-- A storage that answers by script. -/
inductive ScriptedStorage where
  /-- It remembers what happened to it, and may refuse to commit. -/
  | recording (refusing : Bool)
  /-- It answers a commit and a rollback with these failures, if given. -/
  | answering (commit? rollback? : Option Failure)

/-- The hook calls that a journal notes. -/
inductive HookEvent where
  /-- An inner hook was called. -/
  | inner
  /-- An object was validated. -/
  | validate
  /-- An object was indexed. -/
  | index
  /-- An outer hook was called. -/
  | outer
  deriving DecidableEq

/-- The name of a hook call. -/
def HookEvent.display : HookEvent → String
  | inner => "inner"
  | validate => "validate"
  | index => "index"
  | outer => "outer"

/-! ## Commands -/

/-- One command of a script. -/
inductive Command where
  /-- Records the creation of an object. -/
  | create (obj : Subject) (user : ActingUser)
  /-- Records a property write. -/
  | modify (obj : Subject) (key : PropertyKey) (previous new : Option Value) (user : ActingUser)
  /-- Records the deletion of an object. -/
  | delete (obj : Subject) (passive : Bool) (user : ActingUser)
  /-- Records the creation of an edge. -/
  | createEdge (obj : Subject) (user : ActingUser)
  /-- Records the deletion of an edge. -/
  | deleteEdge (obj : Subject) (passive : Bool) (user : ActingUser)
  /-- Marks an object as reached by propagation. -/
  | propagate (obj : Subject)
  /-- Flags a structural aspect. -/
  | flagAspect (aspect : Aspect) (obj : Subject)
  /-- Attaches a token to an object. -/
  | setCallback (obj : Subject) (token : String)
  /-- Switches the change logs off. -/
  | disableLog
  /-- Drops everything staged. -/
  | clear
  /-- Describes a type of edges. -/
  | describeEdges (type : EdgeType) (description : EdgeDescription)
  /-- Looks a type of edges up. -/
  | lookup (type : EdgeType)
  /-- Defers an action. -/
  | defer (key : String) (action : ScriptedAction)
  /-- Asks for the number of records. -/
  | size
  /-- Asks whether an object was touched. -/
  | contains (id : ObjectId)
  /-- Asks whether an object was marked as reached by propagation. -/
  | isPropagated (id : ObjectId)
  /-- Asks whether an object was deleted. -/
  | isDeleted (id : ObjectId)
  /-- Asks whether a property was written. -/
  | isModified (id : ObjectId) (name : String)
  /-- Asks for the keys of all written properties. -/
  | modifiedKeys
  /-- Asks for the synchronization keys. -/
  | syncKeys
  /-- Asks for the changes of an object. -/
  | summary (id : ObjectId)
  /-- Asks for copies of all records. -/
  | records
  /-- Asks for a whole record. -/
  | inspect (id : ObjectId)
  /-- Reads the records from outside. -/
  | observe (id : ObjectId)
  /-- Asks for the diagnostic text of the staging area. -/
  | diagnostic
  /-- Asks for the diagnostic text of a record. -/
  | recordDiagnostic (id : ObjectId)
  /-- Asks for the diagnostic text of the options. -/
  | optionsDiagnostic
  /-- Asks for the tokens in the error buffer. -/
  | errors
  /-- Adds a token to the error buffer. -/
  | addError (token : ErrorToken)
  /-- Asks for the content of the sink. -/
  | logs
  /-- Asks for the counters. -/
  | metrics
  /-- Asks which objects saw a hook call, and how often one did. -/
  | journal (event : HookEvent) (id : ObjectId)
  /-- Runs the inner hooks. -/
  | settle (user : ActingUser)
  /-- Validates and indexes. -/
  | validate (validating : Bool)
  /-- Runs the deferred actions. -/
  | runDeferred (user : ActingUser)
  /-- Runs the outer hooks. -/
  | notify (user : ActingUser)
  /-- Writes the change logs. -/
  | drainLogs
  /-- Commits. -/
  | commit (user : ActingUser) (validating : Bool) (storage : ScriptedStorage)
  /-- Rolls back. -/
  | rollback (storage : ScriptedStorage)
  /-- Starts a new staging area with the same options. -/
  | renew
  /-- Ends the hook with a failure. -/
  | fail (failure : Failure)
  /-- Marks objects as reached by propagation, and calls the inner hooks of
      those that were not reached before. -/
  | spread (objs : List String)

/-- The word for a command in scripts. -/
def Command.word : Command → String
  | create .. => "create"
  | modify .. => "modify"
  | delete .. => "delete"
  | createEdge .. => "create_rel"
  | deleteEdge .. => "delete_rel"
  | propagate _ => "mark_propagated"
  | flagAspect .owner _ => "modify_owner"
  | flagAspect .security _ => "modify_security"
  | flagAspect .location _ => "modify_location"
  | setCallback .. => "register_callback"
  | disableLog => "disable_change_log"
  | clear => "clear"
  | describeEdges .. => "register"
  | lookup _ => "lookup"
  | defer .. => "post_process"
  | size => "len"
  | contains _ => "contains"
  | isPropagated _ => "is_propagated"
  | isDeleted _ => "is_deleted"
  | isModified .. => "is_modified"
  | modifiedKeys => "modified_keys"
  | syncKeys => "sync_keys"
  | summary _ => "summary"
  | records => "records"
  | inspect _ => "inspect"
  | observe _ => "observe"
  | diagnostic => "debug"
  | recordDiagnostic _ => "debug_record"
  | optionsDiagnostic => "debug_options"
  | errors => "errors"
  | addError _ => "add_error"
  | logs => "logs"
  | metrics => "metrics"
  | journal .. => "journal"
  | settle _ => "inner"
  | validate _ => "validation"
  | runDeferred _ => "post"
  | notify _ => "outer"
  | drainLogs => "change_log"
  | commit .. => "commit"
  | rollback _ => "rollback"
  | renew => "new_queue"
  | fail _ => "fail"
  | spread _ => "spread"

/-! ## Actors -/

/-- A rule of an inner hook.  It fires if the verb fits and it has not fired
    too often before. -/
structure Rule where
  /-- The only verb the rule fires for, if it names one. -/
  verb? : Option ChangeVerb := none
  /-- How often the rule fires, if that is limited. -/
  max? : Option Nat := none
  /-- What the rule does. -/
  commands : List Command

/-- The ends and the type of an edge, by the names of actors. -/
structure EdgeScript where
  /-- The type, if the edge has one. -/
  type? : Option EdgeType := none
  /-- The actor the edge starts from. -/
  source? : Option String := none
  /-- The actor the edge points to. -/
  target? : Option String := none

/-- A test double: it keeps a journal and fails on request. -/
structure Double where
  /-- The edge it stands for, if it is one; its ends come earlier in the cast. -/
  edge : EdgeScript := {}
  /-- The field on which validation refuses it. -/
  reject? : Option String := none
  /-- Whether its outer hook fails. -/
  failsOuter : Bool := false
  /-- Whether it is out of date. -/
  stale : Bool := false
  /-- Whether hook calls are noted in the journal. -/
  journalled : Bool := true
  /-- The rules of its inner hook, if it has one. -/
  inner? : Option (List Rule) := none
  /-- Whether its inner hook leaves no trace. -/
  quiet : Bool := false

/-- An object whose hooks all answer by script. -/
structure Scripted where
  /-- The edge it stands for; its ends may be anywhere in the cast. -/
  edge : EdgeScript := {}
  /-- Whether it is out of date. -/
  stale : Bool := false
  /-- The rules of its inner hook. -/
  inner : List Rule := []
  /-- Whether its inner hook leaves no trace. -/
  quiet : Bool := false
  /-- Whether validation accepts it. -/
  accepts : Bool := true
  /-- The tokens that its validation adds. -/
  tokens : List ErrorToken := []
  /-- The failure of its indexing, if it fails. -/
  index? : Option Failure := none
  /-- The failure of its outer hook, if it fails. -/
  outer? : Option Failure := none

/-- What an actor does when its hooks are called. -/
inductive Role where
  /-- It is a test double. -/
  | double (d : Double)
  /-- Its hooks answer by script. -/
  | scripted (s : Scripted)
  /-- It has no hooks. -/
  | plain

/-- A tracked object of a script. -/
structure Actor where
  /-- The name by which commands refer to the actor. -/
  name : String
  /-- The place of the actor in the cast. -/
  place : Nat
  /-- The identity of the object. -/
  id : ObjectId
  /-- The uuid of the object. -/
  uuid : String
  /-- What it does when its hooks are called. -/
  role : Role

/-- The uuid of a test double without one of its own: the number in
    hexadecimal, led by zeros and, for an edge, a letter. -/
def defaultUuid (id : ObjectId) : String :=
  let digits := Nat.toDigits 16 id.number
  let width := match id.kind with
    | .node => 32
    | .edge => 31
  (match id.kind with
    | .node => ""
    | .edge => "r") ++
    String.ofList (List.replicate (width - digits.length) '0' ++ digits)

/-- The diagnostic text of a test double. -/
def doubleDiagnostic (id : ObjectId) (uuid : String) (type? : Option EdgeType) : String :=
  "TestObject \x7b id: " ++ id.diagnostic ++ ", uuid: " ++ Quoted.quote uuid ++
    ", rel_type: " ++
    (match type? with
      | none => "None"
      | some type => "Some(RelType(" ++ Quoted.quote type.name ++ "))") ++ ", .. \x7d"

end ChangeLedger.Scenario
