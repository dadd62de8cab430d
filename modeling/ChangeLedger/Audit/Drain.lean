/-
  ChangeLedger.Audit.Drain — buffered audit texts on their way to a sink.

  The texts of one drain are first merged by log, so that each log gets one
  append, and the appends are then made in the order of the log names.  An
  append that fails does not stop the others.
-/
import ChangeLedger.Audit.Sink

namespace ChangeLedger

/-- Appends that are still to be made: a text for each log. -/
abbrev PendingWrites := SortedMap LogName String

namespace PendingWrites

/-- Adds a text to what is pending for a log; an empty text adds nothing. -/
def add (w : PendingWrites) (chunk : LogName × String) : PendingWrites :=
  if chunk.2.isEmpty then w else w.insert chunk.1 (w.getD chunk.1 "" ++ chunk.2)

/-- Merges texts by log, in their order. -/
def ofChunks (chunks : List (LogName × String)) : PendingWrites :=
  chunks.foldl add SortedMap.empty

end PendingWrites

/-- What became of one append. -/
structure AppendOutcome where
  /-- The log. -/
  name : LogName
  /-- Number of bytes of the text. -/
  bytes : Nat
  /-- Whether the sink took it. -/
  accepted : Bool
  deriving DecidableEq

/-- Makes appends one after the other. -/
def Sink.appendAll {σ : Type} (sink : Sink σ) :
    List (LogName × String) → σ → List AppendOutcome × σ
  | [], s => ([], s)
  | (name, text) :: rest, s =>
    let (result, s) := sink.append name text s
    let accepted := match result with
      | .ok () => true
      | .error _ => false
    let (outcomes, s) := sink.appendAll rest s
    (⟨name, text.utf8ByteSize, accepted⟩ :: outcomes, s)

end ChangeLedger
