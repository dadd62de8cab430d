/-
  ChangeLedger.Settings.Config — the configuration file of a ledger.

  The file is a TOML document with two tables, `changelog` and `pipeline`.
  Tables and keys may be left out, unknown ones are refused.  Instead of a
  table there may be an array, which gives the values of its keys in order.
-/
import ChangeLedger.Failure.Cause
import ChangeLedger.Settings.Options
import ChangeLedger.Toml.Document

namespace ChangeLedger

/-- The content of a configuration file. -/
structure Config where
  /-- Whether the logs of objects are written. -/
  enabled : Bool := false
  /-- Whether the logs of users are written. -/
  userEnabled : Bool := false
  /-- The directory of the logs. -/
  directory : Option String := none
  /-- A phase that takes longer than this many milliseconds is reported. -/
  slowPhaseMillis : Nat := 1000
  /-- Number of sweeps after which the inner hooks have to be settled. -/
  maxSweeps : Nat := 10000
  /-- Number of threads that write logs; with none the committing thread
      writes them. -/
  workerThreads : Nat := 0
  deriving DecidableEq

namespace Config

instance : Inhabited Config := ⟨{}⟩

/-! ## Reading the text -/

/-- A key of a table and what its datum says. -/
structure Setting where
  /-- The key. -/
  key : String
  /-- Enters a datum into a configuration, if it has the right type. -/
  enter : Toml.Datum → Config → Option Config

/-- A setting that is a truth value. -/
def Setting.ofBool (key : String) (f : Bool → Config → Config) : Setting where
  key
  enter
    | .bool b, c => some (f b c)
    | _, _ => none

/-- A setting that is a string. -/
def Setting.ofString (key : String) (f : String → Config → Config) : Setting where
  key
  enter
    | .str s, c => some (f s c)
    | _, _ => none

/-- A setting that is a number and not negative. -/
def Setting.ofNat (key : String) (f : Nat → Config → Config) : Setting where
  key
  enter
    | .int (.ofNat n), c => some (f n c)
    | _, _ => none

/-- The keys of the table `changelog`, in order. -/
def changelogSettings : List Setting :=
  [.ofBool "enabled" fun b c => { c with enabled := b },
    .ofBool "user_enabled" fun b c => { c with userEnabled := b },
    .ofString "directory" fun s c => { c with directory := some s }]

/-- The keys of the table `pipeline`, in order. -/
def pipelineSettings : List Setting :=
  [.ofNat "slow_phase_ms" fun n c => { c with slowPhaseMillis := n },
    .ofNat "max_fixpoint_sweeps" fun n c => { c with maxSweeps := n },
    .ofNat "worker_threads" fun n c => { c with workerThreads := n }]

/-- Enters the entries of a table; each must be one of the settings. -/
def enterEntries (settings : List Setting) (es : Toml.Entries) (c : Config) : Option Config :=
  es.foldlM (fun c e => (settings.find? fun s => s.key = e.1).bind fun s => s.enter e.2 c) c

/-- A table of the document as a setting of its own.  An array stands for the
    values of the keys in order; surplus items are passed over. -/
def Setting.ofTable (key : String) (settings : List Setting) : Setting where
  key
  enter
    | .table _ es, c => enterEntries settings es c
    | .array items, c => (settings.zip items).foldlM (fun c p => p.1.enter p.2 c) c
    | _, _ => none

/-- The configuration that a TOML text describes. -/
def ofText? (text : String) : Option Config :=
  (Toml.document? text).bind fun es =>
    enterEntries
      [.ofTable "changelog" changelogSettings, .ofTable "pipeline" pipelineSettings] es {}

/-- Reads a text; `path` names it in the failure. -/
def ofText (path text : String) : Except ConfigFailure Config :=
  match ofText? text with
  | some c => .ok c
  | none => .error (.parse path)

/-! ## Loading a file -/

/-- What is found in the place of the configuration file. -/
inductive Source where
  /-- Nothing. -/
  | missing
  /-- A directory. -/
  | directory
  /-- A file with this content. -/
  | file (content : ByteArray)

/-- Loads the configuration file.  Without one, the defaults apply. -/
def load (path : String) : Source → Except ConfigFailure Config
  | .missing => .ok {}
  | .directory => .error (.read path .isADirectory)
  | .file content =>
    match String.fromUTF8? content with
    | some text => ofText path text
    | none => .error (.read path .notText)

/-! ## Putting it to use -/

/-- The options that a configuration asks for.  Writing logs of any kind takes
    a directory. -/
def toOptions (c : Config) : Except ConfigFailure Options :=
  let options := Options.withMaxSweeps
    { auditEnabled := c.enabled
      userAuditEnabled := c.userEnabled
      slowPhaseMillis := c.slowPhaseMillis }
    c.maxSweeps
  if options.anyAudit && c.directory.isNone then .error .missingDirectory
  else .ok { options with workers := if c.workerThreads = 0 then none else some c.workerThreads }

end Config

end ChangeLedger
