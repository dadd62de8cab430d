/-
  ChangeLedger.Audit.Sink — where change logs are written.

  A sink is a store of logs with one operation, the append.  `MemoryLog` keeps
  the logs in memory and accepts everything.
-/
import ChangeLedger.Audit.LogName
import ChangeLedger.Collections.SortedMap
import ChangeLedger.Failure.Cause

namespace ChangeLedger

/-- A destination for change logs that keeps its content in `σ`. -/
structure Sink (σ : Type) where
  /-- Appends a text to one log in one go, or fails. -/
  append : LogName → String → σ → Except Failure Unit × σ

/-- The logs kept in memory. -/
structure MemoryLog where
  /-- The text of every log that was written. -/
  logs : SortedMap LogName String

namespace MemoryLog

/-- The store without any log. -/
def empty : MemoryLog := ⟨.empty⟩

instance : EmptyCollection MemoryLog := ⟨empty⟩
instance : Inhabited MemoryLog := ⟨empty⟩

/-- The text of a log, if it was ever written. -/
def get? (m : MemoryLog) (name : LogName) : Option String := m.logs.get? name

/-- Appends a text to a log. -/
def append (m : MemoryLog) (name : LogName) (text : String) : MemoryLog :=
  ⟨m.logs.insert name (m.logs.getD name "" ++ text)⟩

/-- The memory store as a sink: every append succeeds. -/
def sink : Sink MemoryLog where
  append name text m := (.ok (), m.append name text)

/-- An append extends its own log and no other. -/
theorem get?_append (m : MemoryLog) (name other : LogName) (text : String) :
    (m.append name text).get? other =
      if other = name then some ((m.get? name).getD "" ++ text) else m.get? other := by
  simp [get?, append, SortedMap.get?_insert, SortedMap.getD]

end MemoryLog

end ChangeLedger
