/-
  ChangeLedger.Scenario.Answer — what commands answer and leave behind.
-/
import ChangeLedger.Audit.FileTree
import ChangeLedger.Scenario.Script
import ChangeLedger.Transaction.Commit

namespace ChangeLedger.Scenario

/-- What a scripted storage was asked for. -/
inductive StorageCall where
  /-- To commit; it said whether it did. -/
  | commit (done : Bool)
  /-- To roll back. -/
  | rollback
  deriving DecidableEq

/-- The logs that a script writes to. -/
inductive LogStore where
  /-- Logs in memory; appends to the listed ones are refused. -/
  | memory (log : MemoryLog) (refused : List LogName)
  /-- Logs in a directory. -/
  | files (tree : FileTree)

/-- What a sink holds: places and texts. -/
inductive LogListing where
  /-- The logs in memory. -/
  | memory (logs : List (LogName × String))
  /-- The files of a directory, by path. -/
  | files (files : List (String × String))

/-- The files of a directory, sorted by path. -/
def fileListing (t : FileTree) : List (String × String) :=
  (SortedMap.ofList (t.files.entries.map fun e => ("/".intercalate e.1, e.2))).entries

/-- What a log store holds. -/
def LogStore.listing : LogStore → LogListing
  | memory log _ => .memory log.logs.entries
  | files tree => .files (fileListing tree)

/-- The answer of a command. -/
inductive Answer where
  /-- It is done. -/
  | done
  /-- Yes or no. -/
  | flag (b : Bool)
  /-- A number. -/
  | number (n : Nat)
  /-- A number, and whether it stands for nothing at all. -/
  | sized (n : Nat) (isEmpty : Bool)
  /-- A failure. -/
  | failed (e : Failure)
  /-- Property keys. -/
  | keys (keys : List PropertyKey)
  /-- Plain names. -/
  | names (names : List String)
  /-- The changes of an object, if it was touched. -/
  | summary (s? : Option Summary)
  /-- Copies of records. -/
  | snapshots (ss : List Snapshot)
  /-- A whole record, if the object was touched. -/
  | record (r? : Option (Record Actor))
  /-- The records as seen from outside, with the verb of one object. -/
  | observed (verb? : Option ChangeVerb) (ids : List ObjectId)
  /-- A text, if there is one. -/
  | text (s? : Option String)
  /-- Tokens of an error buffer. -/
  | tokens (ts : List ErrorToken)
  /-- The content of the sink. -/
  | logs (listing : LogListing)
  /-- The counters. -/
  | metrics (c : Counters)
  /-- How often one object saw a hook call, and all objects that did. -/
  | journalled (times : Nat) (ids : List ObjectId)
  /-- The warnings of outer hooks. -/
  | warnings (es : List Failure)
  /-- The description of a type of edges, if there is one. -/
  | description (d? : Option EdgeDescription)
  /-- The outcome of a commit and the calls of its storage. -/
  | committed (result : Except Failure CommitReport) (storage : ScriptedStorage)
      (calls : List StorageCall)
  /-- The calls of the storage of a rollback. -/
  | rolledBack (storage : ScriptedStorage) (calls : List StorageCall)
  /-- The objects that were reached for the first time. -/
  | reached (ids : List ObjectId)

/-- What a hook leaves in the trace. -/
inductive TraceEntry where
  /-- An inner hook was called. -/
  | inner (id : ObjectId) (verb : ChangeVerb) (callback userId : Option String)
  /-- A hook ran a command. -/
  | did (word : String) (answer : Answer)
  /-- A scripted object was validated, with so many written properties. -/
  | validate (id : ObjectId) (verb : ChangeVerb) (written : Nat)
  /-- A scripted object was indexed, with so many written properties. -/
  | index (id : ObjectId) (verb : ChangeVerb) (written : Nat)
  /-- The outer hook of a scripted object was called. -/
  | outer (id : ObjectId) (verb : ChangeVerb) (written : Nat) (userId : Option String)

end ChangeLedger.Scenario
