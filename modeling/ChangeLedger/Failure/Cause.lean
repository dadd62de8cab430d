/-
  ChangeLedger.Failure.Cause — why an operation of the ledger failed.

  Every failure is a value that names its cause; its text and whether it
  aborts a commit are functions of the cause.
-/
import ChangeLedger.Failure.Token
import ChangeLedger.Graph.Identity
import ChangeLedger.Transaction.Phase

namespace ChangeLedger

/-! ## Reading and writing files -/

/-- Why a file could not be read or written. -/
inductive IoCause where
  /-- An embedding program reported this text. -/
  | reported (text : String)
  /-- A regular file stands where a directory is needed. -/
  | notADirectory
  /-- A directory stands where a regular file is needed. -/
  | isADirectory
  /-- A name is longer than the file system allows. -/
  | nameTooLong
  /-- The content is no UTF-8 text. -/
  | notText
  deriving DecidableEq

namespace IoCause

/-- The text of a cause. -/
def message : IoCause → String
  | reported text => text
  | notADirectory => "not a directory"
  | isADirectory => "is a directory"
  | nameTooLong => "file name too long"
  | notText => "stream did not contain valid UTF-8"

/-- Whether the wording of a cause is given by the program that reported it,
    rather than by the operating system. -/
def isReported : IoCause → Bool
  | reported _ => true
  | _ => false

end IoCause

/-! ## Configuration -/

/-- Why a configuration could not be loaded or put to use. -/
inductive ConfigFailure where
  /-- The file could not be read. -/
  | read (path : String) (cause : IoCause)
  /-- The text is no TOML document of the expected shape. -/
  | parse (path : String)
  /-- Auditing is enabled, but there is no directory to write to. -/
  | missingDirectory
  /-- The worker threads could not be started. -/
  | workerPool (message : String)
  deriving DecidableEq

/-- The text of a configuration failure. -/
def ConfigFailure.message : ConfigFailure → String
  | read path cause => "failed to read config " ++ path ++ ": " ++ cause.message
  | parse path => "failed to parse config " ++ path
  | missingDirectory => "change log enabled but no directory configured"
  | workerPool message => "failed to build worker pool: " ++ message

/-! ## Failures -/

/-- A failure of a recording, of a commit phase or of the set-up. -/
inductive Failure where
  /-- A touched object violated a business rule. -/
  | validation (object : ObjectId) (tokens : ErrorTokens)
  /-- A hook of an object signalled an error in some phase. -/
  | hook (object : ObjectId) (phase : Phase) (message : String)
  /-- The deferred action with this key failed. -/
  | postProcess (key message : String)
  /-- A change log could not be written. -/
  | auditIo (path : String) (cause : IoCause)
  /-- The storage engine refused to commit or roll back. -/
  | storage (message : String)
  /-- The configuration is unusable. -/
  | config (cause : ConfigFailure)
  /-- The caller passed something that cannot be acted on. -/
  | invalidArgument (message : String)
  deriving DecidableEq

namespace Failure

/-- The text of a failure. -/
def message : Failure → String
  | validation object tokens =>
    "validation failed for " ++ object.display ++ ": " ++ tokens.display
  | hook object phase message =>
    phase.display ++ " hook failed for " ++ object.display ++ ": " ++ message
  | postProcess key message => "post-process action `" ++ key ++ "` failed: " ++ message
  | auditIo path cause => "change log append to " ++ path ++ " failed: " ++ cause.message
  | storage message => "storage error: " ++ message
  | config cause => cause.message
  | invalidArgument message => "invalid argument: " ++ message

/-- Whether the failure leaves the transaction beyond committing.  Outer
    hooks, audit writes and the configuration cannot undo a commit. -/
def abortsCommit : Failure → Bool
  | validation .. | postProcess .. | storage _ | invalidArgument _ => true
  | hook _ phase _ => phase != .outerHooks
  | auditIo .. | config _ => false

end Failure

end ChangeLedger
