/-
  ChangeLedger.Audit.Line — the lines of change logs.

  An entry says what happened to an object.  It is written as a line of
  compact JSON: once for the log of the object, naming the acting user, and
  once for the log of the user, naming the object.
-/
import ChangeLedger.Graph.Identity
import ChangeLedger.Graph.Value
import ChangeLedger.Text.JsonString

namespace ChangeLedger

/-! ## Vocabulary -/

/-- What an audit entry reports. -/
inductive AuditVerb where
  /-- An object was created. -/
  | create
  /-- A property was written. -/
  | change
  /-- An object was deleted. -/
  | delete
  /-- An edge was attached to a node. -/
  | link
  /-- An edge was detached from a node. -/
  | unlink
  deriving DecidableEq

/-- The name of an audit verb. -/
def AuditVerb.display : AuditVerb → String
  | create => "create"
  | change => "change"
  | delete => "delete"
  | link => "link"
  | unlink => "unlink"

/-- The direction of an edge, seen from the node whose log is written. -/
inductive Direction where
  /-- The node is where the edge points to. -/
  | incoming
  /-- The node is where the edge starts. -/
  | outgoing
  deriving DecidableEq

/-- The name of a direction. -/
def Direction.display : Direction → String
  | incoming => "in"
  | outgoing => "out"

/-! ## Lines -/

/-- One line of a change log.  Absent fields are not written. -/
structure AuditLine where
  /-- Milliseconds since the epoch. -/
  time : Int
  /-- Who acted. -/
  userId : Option String := none
  /-- The name of who acted. -/
  userName : Option String := none
  /-- The uuid of the object, in the log of a user. -/
  objectId : Option String := none
  /-- What happened. -/
  verb : AuditVerb
  /-- The type of the edge. -/
  edgeType : Option String := none
  /-- The uuid of the edge. -/
  edgeId : Option String := none
  /-- Which end of the edge the object is at. -/
  direction : Option Direction := none
  /-- The uuid of the node the edge starts from. -/
  source : Option String := none
  /-- The uuid of the object, or of the node at the other end. -/
  target : Option String := none
  /-- The name of the written property. -/
  key : Option String := none
  /-- The value before the write. -/
  previous : Option Value := none
  /-- The value after the write. -/
  value : Option Value := none

namespace AuditLine

/-- The names and texts of the fields that are present, in their order. -/
def fields (line : AuditLine) : List (String × String) :=
  [ ("time", some (toString line.time)),
    ("userId", line.userId.map JsonString.quote),
    ("userName", line.userName.map JsonString.quote),
    ("objId", line.objectId.map JsonString.quote),
    ("verb", some (JsonString.quote line.verb.display)),
    ("rel", line.edgeType.map JsonString.quote),
    ("relId", line.edgeId.map JsonString.quote),
    ("relDir", line.direction.map fun d => JsonString.quote d.display),
    ("source", line.source.map JsonString.quote),
    ("target", line.target.map JsonString.quote),
    ("key", line.key.map JsonString.quote),
    ("prev", line.previous.map Value.audit),
    ("val", line.value.map Value.audit) ].filterMap fun f => f.2.map (f.1, ·)

/-- The line as compact JSON, without its line feed. -/
def json (line : AuditLine) : String :=
  "\x7b" ++ String.intercalate "," (line.fields.map fun f => "\"" ++ f.1 ++ "\":" ++ f.2) ++ "\x7d"

/-- The line as it is appended to a log. -/
def text (line : AuditLine) : String := line.json ++ "\n"

end AuditLine

/-! ## Entries -/

/-- The mention of an edge in an entry. -/
structure EdgeMention where
  /-- The name of the type of the edge, empty if it has none. -/
  type : String
  /-- The uuid of the edge. -/
  uuid : String

/-- A property write in an entry. -/
structure WrittenProperty where
  /-- The name of the property. -/
  name : String
  /-- The value before the write, if there was one. -/
  previous : Option Value
  /-- The value after the write, if there is one. -/
  new : Option Value

/-- One audited event. -/
structure AuditEntry where
  /-- Milliseconds since the epoch. -/
  time : Int
  /-- What happened. -/
  verb : AuditVerb
  /-- The edge it happened to. -/
  edge : Option EdgeMention := none
  /-- Which end of the edge the object is at. -/
  direction : Option Direction := none
  /-- The uuid of the node the edge starts from. -/
  source : Option String := none
  /-- The uuid of the object, or of the node at the other end. -/
  target : Option String := none
  /-- The property write. -/
  change : Option WrittenProperty := none

namespace AuditEntry

/-- The line of an entry without mention of a user or an object.  A missing
    value of a written property is written as null. -/
def line (e : AuditEntry) : AuditLine where
  time := e.time
  verb := e.verb
  edgeType := e.edge.map (·.type)
  edgeId := e.edge.map (·.uuid)
  direction := e.direction
  source := e.source
  target := e.target
  key := e.change.map (·.name)
  previous := e.change.map (·.previous.getD .null)
  value := e.change.map (·.new.getD .null)

/-- The line in the log of the object. -/
def objectLine (e : AuditEntry) (user : Option Principal) : AuditLine :=
  { e.line with userId := user.map (·.id), userName := user.map (·.name) }

/-- The line in the log of the acting user. -/
def userLine (e : AuditEntry) (objectUuid : String) : AuditLine :=
  { e.line with objectId := some objectUuid }

end AuditEntry

end ChangeLedger
