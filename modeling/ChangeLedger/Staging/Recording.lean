/-
  ChangeLedger.Staging.Recording — what a transaction can record.

  Objects are created, written and deleted; edges are created and deleted,
  which also shows in the records of their two end nodes; objects are marked
  as reached by propagation; actions are deferred to the commit.  With
  auditing on, the first two groups leave audit entries on the records.
-/
import ChangeLedger.Staging.Area

namespace ChangeLedger

/-- What happens to an edge. -/
inductive EdgeEvent where
  /-- The edge is created. -/
  | created
  /-- The edge is deleted. -/
  | deleted
  deriving DecidableEq

namespace EdgeEvent

/-- The audit verb in the log of the edge. -/
def edgeVerb : EdgeEvent → AuditVerb
  | created => .create
  | deleted => .delete

/-- The audit verb in the logs of the end nodes. -/
def nodeVerb : EdgeEvent → AuditVerb
  | created => .link
  | deleted => .unlink

end EdgeEvent

/-- The values before and after that an edge event writes to a described
    property of an end node: a collection is touched, a scalar is set to the
    other node or loses it. -/
def EndDescription.written (d : EndDescription) (event : EdgeEvent) (otherUuid : String) :
    Option Value × Option Value :=
  match d.cardinality, event with
  | .collection, _ => (none, some (.list []))
  | .scalar, .created => (none, some (.ref otherUuid))
  | .scalar, .deleted => (some (.ref otherUuid), none)

namespace Record

variable {κ : Type}

/-- Records the reference that an edge event gains or loses. -/
def changeRef (r : Record κ) (event : EdgeEvent) (key : PropertyKey) (other : ObjectId) :
    Record κ :=
  match event with
  | .created => r.addRef key other
  | .deleted => r.removeRef key other

/-- Adds an audit entry, if auditing is on. -/
def audit (r : Record κ) (on : Bool) (user : Option Principal) (entry : AuditEntry) : Record κ :=
  if on then r.push user entry else r

end Record

namespace Staging

variable {κ π : Type}

/-! ## Objects -/

/-- Records the creation of an object. -/
def create (s : Staging κ π) (user : Option Principal) (object : Tracked κ) : Staging κ π :=
  s.touch object .create fun r =>
    r.create.audit s.options.anyAudit user
      { time := s.options.auditTime, verb := .create, target := some object.uuid }

/-- Remembers the synchronization key of a written property. -/
def noteSync (s : Staging κ π) (key : PropertyKey) : Staging κ π :=
  match key.sync with
  | some sync => { s with syncKeys := s.syncKeys.insert sync }
  | none => s

/-- Records a property write without auditing it. -/
def write (s : Staging κ π) (object : Tracked κ) (key : PropertyKey)
    (previous new : Option Value) : Staging κ π :=
  (s.touch object .modify fun r => r.modify key previous new).noteSync key

/-- Records a property write. -/
def modify (s : Staging κ π) (user : Option Principal) (object : Tracked κ) (key : PropertyKey)
    (previous new : Option Value) : Staging κ π :=
  let entry : AuditEntry :=
    { time := s.options.auditTime, verb := .change, change := some ⟨key.name, previous, new⟩ }
  (s.touch object .modify fun r =>
    (r.audit s.options.anyAudit user entry).modify key previous new).noteSync key

/-- Records the deletion of an object; a passive deletion follows from
    another one. -/
def delete (s : Staging κ π) (user : Option Principal) (object : Tracked κ) (passive : Bool) :
    Staging κ π :=
  s.touch object .modify fun r =>
    (r.delete passive).audit s.options.anyAudit user
      { time := s.options.auditTime, verb := .delete, target := some object.uuid }

/-- Flags the change of a structural aspect of a node. -/
def flagAspect (s : Staging κ π) (aspect : Aspect) (object : Tracked κ) : Staging κ π :=
  s.touch object .modify fun r => r.flagAspect aspect

/-- Attaches a token to an object. -/
def setCallback (s : Staging κ π) (object : Tracked κ) (token : String) : Staging κ π :=
  s.touch object .modify fun r => r.setCallback token

/-- Marks an object as changed by propagation alone.  The answer is whether
    it was neither marked nor touched before; only then does a cascade go on
    to its neighbours, so that it ends on cyclic graphs too. -/
def propagate (s : Staging κ π) (object : Tracked κ) : Bool × Staging κ π :=
  let fresh := !s.propagated.contains object.id
  -- the mark stays, even if the object turns out to be touched already
  let s := { s with propagated := s.propagated.insert object.id }
  if !fresh || s.contains object.id then (false, s)
  else (true, s.touch object .propagated Record.propagate)

/-! ## Edges -/

/-- Shows an edge event in the described property of one end node.  The
    reference to the other node is tracked if both ends are described. -/
def touchEnd (s : Staging κ π) (event : EdgeEvent) (tracked : Bool) (d : EndDescription)
    (node other : Tracked κ) : Staging κ π :=
  let (previous, new) := d.written event other.uuid
  let s := s.write node d.key previous new
  if tracked then s.touch node .modify fun r => r.changeRef event d.key other.id else s

/-- Shows an edge event in the described properties of both end nodes. -/
def touchEnds (s : Staging κ π) (event : EdgeEvent) (d : EdgeDescription)
    (source target : Tracked κ) : Staging κ π :=
  let s := match d.source? with
    | some described => s.touchEnd event d.tracksRefs described source target
    | none => s
  match d.target? with
  | some described => s.touchEnd event d.tracksRefs described target source
  | none => s

/-- Shows an edge event in the records of both end nodes.  An edge of a
    well-known type flags a structural aspect, whatever the schema says;
    other types show up as the schema describes them, or not at all. -/
def foldEdge (s : Staging κ π) (event : EdgeEvent) (type? : Option EdgeType)
    (source target : Tracked κ) : Staging κ π :=
  match type? with
  | none => s
  | some type =>
    match type.aspect? with
    | some aspect => (s.flagAspect aspect source).flagAspect aspect target
    | none =>
      match s.schema.describe? type with
      | none => s
      | some d => s.touchEnds event d source target

/-- Audits an edge event on the edge and on both end nodes. -/
def auditEdge (s : Staging κ π) (event : EdgeEvent) (user : Option Principal) (edge : Edge κ)
    (source target : Tracked κ) : Staging κ π :=
  let time := s.options.auditTime
  let mention : EdgeMention := ⟨(edge.type?.map EdgeType.name).getD "", edge.object.uuid⟩
  -- the log of the edge names both nodes, that of a node the other one
  let s := s.touch edge.object .modify fun r => r.push user
    { time, verb := event.edgeVerb, edge := some mention,
      source := some source.uuid, target := some target.uuid }
  let s := s.touch source .modify fun r => r.push user
    { time, verb := event.nodeVerb, edge := some mention,
      direction := some .outgoing, target := some target.uuid }
  s.touch target .modify fun r => r.push user
    { time, verb := event.nodeVerb, edge := some mention,
      direction := some .incoming, target := some source.uuid }

/-- Shows an edge event on the end nodes and audits it.  Nothing happens
    unless both nodes can be resolved. -/
def followEdge (s : Staging κ π) (event : EdgeEvent) (user : Option Principal) (edge : Edge κ) :
    Staging κ π :=
  match edge.source?, edge.target? with
  | some source, some target =>
    let s := s.foldEdge event edge.type? source target
    if s.options.anyAudit then s.auditEdge event user edge source target else s
  | _, _ => s

/-- Records the creation of an edge. -/
def createEdge (s : Staging κ π) (user : Option Principal) (edge : Edge κ) : Staging κ π :=
  (s.touch edge.object .create Record.create).followEdge .created user edge

/-- Records the deletion of an edge. -/
def deleteEdge (s : Staging κ π) (user : Option Principal) (edge : Edge κ) (passive : Bool) :
    Staging κ π :=
  (s.touch edge.object .modify fun r => r.delete passive).followEdge .deleted user edge

/-! ## Deferred actions and the change log -/

/-- Defers an action to the commit.  The first action under a key is kept;
    the answer is whether this one was. -/
def defer (s : Staging κ π) (key : String) (action : π) : Bool × Staging κ π :=
  if s.claimedKeys.contains key then (false, s)
  else
    (true, { s with
      claimedKeys := s.claimedKeys.insert key
      pending := s.pending ++ [(key, action)] })

/-- Writes no change logs for this staging area, whatever the options say. -/
def disableLog (s : Staging κ π) : Staging κ π := { s with logEnabled := false }

/-- Describes a type of edges from now on. -/
def describeEdges (s : Staging κ π) (type : EdgeType) (d : EdgeDescription) : Staging κ π :=
  { s with schema := s.schema.register type d }

end Staging

end ChangeLedger
