/-
  ChangeLedger.Proofs.Touches — a recording is a list of touches.

  A touch looks up the record of one object, opens it if there is none, and
  makes elementary changes to it.  What a recording does to the records is a
  list of touches that is known beforehand, and nothing else: so a property of
  records needs one argument for each elementary change and one for the
  opening of a record, whatever recording they come from.

  Main results:
    * `table_after` — the records after a recording are the records after its
      touches.
    * `RecordTable.find?_touch` — what a touch does to every look-up.
    * `tellsOfEdge_followTouches` — which touches an edge event brings with it.
-/
import ChangeLedger.Proofs.RecordingParts

namespace ChangeLedger

variable {κ π : Type}

/-! ## Elementary changes -/

/-- A change of one record. -/
inductive RecordChange where
  /-- The object is created. -/
  | create
  /-- The object is deleted. -/
  | delete (passive : Bool)
  /-- A property is written. -/
  | modify (key : PropertyKey) (previous new : Option Value)
  /-- A reference is gained or lost. -/
  | changeRef (event : EdgeEvent) (key : PropertyKey) (other : ObjectId)
  /-- A structural aspect is flagged. -/
  | flagAspect (aspect : Aspect)
  /-- Propagation reaches the object. -/
  | propagate
  /-- A token is attached. -/
  | setCallback (token : String)
  /-- An audit entry is added. -/
  | push (user : Option Principal) (entry : AuditEntry)

namespace RecordChange

/-- Whether the change is a write, which the inner hook has to see. -/
def isWrite : RecordChange → Bool
  | setCallback _ | push .. => false
  | _ => true

/-- The audit entry that the change adds. -/
def entry? : RecordChange → Option AuditPush
  | push user entry => some ⟨user, entry⟩
  | _ => none

end RecordChange

namespace Record

/-- The references gained and lost after an edge event, if they were `added`
    and `removed` before it. -/
def refsAfter (event : EdgeEvent) (key : PropertyKey) (other : ObjectId)
    (added removed : RefTable) : RefTable × RefTable :=
  match event with
  | .created => (if removed.has key other then added else added.put key other,
      removed.take key other)
  | .deleted => (added.take key other,
      if added.has key other then removed else removed.put key other)

/-- An edge event is a write that changes the two tables of references and
    nothing else. -/
theorem changeRef_eq (r : Record κ) (event : EdgeEvent) (key : PropertyKey) (other : ObjectId) :
    r.changeRef event key other =
      { r.touch with
        addedRefs := (refsAfter event key other r.addedRefs r.removedRefs).1
        removedRefs := (refsAfter event key other r.addedRefs r.removedRefs).2 } := by
  cases event with
  | created =>
    unfold changeRef addRef refsAfter
    dsimp only
    rw [show r.touch.removedRefs = r.removedRefs from rfl]
    split <;> rfl
  | deleted =>
    unfold changeRef removeRef refsAfter
    dsimp only
    rw [show r.touch.addedRefs = r.addedRefs from rfl]
    split <;> rfl

/-- The record after one change. -/
def apply (r : Record κ) : RecordChange → Record κ
  | .create => r.create
  | .delete passive => r.delete passive
  | .modify key previous new => r.modify key previous new
  | .changeRef event key other => r.changeRef event key other
  | .flagAspect aspect => r.flagAspect aspect
  | .propagate => r.propagate
  | .setCallback token => r.setCallback token
  | .push user entry => r.push user entry

/-- The record after several changes. -/
def applyAll (r : Record κ) (changes : List RecordChange) : Record κ := changes.foldl apply r

/-- A record stays that of its object, whatever is changed in it. -/
@[simp] theorem object_apply (r : Record κ) (c : RecordChange) : (r.apply c).object = r.object := by
  cases c with
  | changeRef event key other =>
    show (r.changeRef event key other).object = _
    rw [changeRef_eq]
    rfl
  | _ => rfl

/-- When a record was first touched is settled once and for all. -/
@[simp] theorem firstTouch_apply (r : Record κ) (c : RecordChange) :
    (r.apply c).firstTouch = r.firstTouch := by
  cases c with
  | changeRef event key other =>
    show (r.changeRef event key other).firstTouch = _
    rw [changeRef_eq]
    rfl
  | _ => rfl

/-- A write dirties the record, and other changes leave it as it was. -/
theorem dirty_apply (r : Record κ) (c : RecordChange) :
    (r.apply c).dirty = (c.isWrite || r.dirty) := by
  cases c with
  | changeRef event key other =>
    show (r.changeRef event key other).dirty = _
    rw [changeRef_eq]
    rfl
  | _ => rfl

/-- Only an audit entry adds to the audit entries. -/
theorem pushes_apply (r : Record κ) (c : RecordChange) :
    (r.apply c).pushes = r.pushes ++ c.entry?.toList := by
  cases c with
  | push user entry => rfl
  | changeRef event key other =>
    show (r.changeRef event key other).pushes = _
    rw [changeRef_eq]
    exact (List.append_nil _).symm
  | _ => exact (List.append_nil _).symm

/-- Several changes leave the object alone as well. -/
@[simp] theorem object_applyAll (r : Record κ) (cs : List RecordChange) :
    (r.applyAll cs).object = r.object := by
  induction cs generalizing r with
  | nil => rfl
  | cons c rest ih => exact (ih (r.apply c)).trans (object_apply r c)

@[simp] theorem id_applyAll (r : Record κ) (cs : List RecordChange) :
    (r.applyAll cs).id = r.id := congrArg Tracked.id (object_applyAll r cs)

@[simp] theorem firstTouch_applyAll (r : Record κ) (cs : List RecordChange) :
    (r.applyAll cs).firstTouch = r.firstTouch := by
  induction cs generalizing r with
  | nil => rfl
  | cons c rest ih => exact (ih (r.apply c)).trans (firstTouch_apply r c)

/-- Several changes dirty the record if one of them is a write. -/
theorem dirty_applyAll (r : Record κ) (cs : List RecordChange) :
    (r.applyAll cs).dirty = (cs.any RecordChange.isWrite || r.dirty) := by
  induction cs generalizing r with
  | nil => rfl
  | cons c rest ih =>
    rw [show r.applyAll (c :: rest) = (r.apply c).applyAll rest from rfl, ih, dirty_apply,
      List.any_cons]
    cases c.isWrite <;> cases rest.any RecordChange.isWrite <;> rfl

/-- Several changes add the audit entries among them, in their order. -/
theorem pushes_applyAll (r : Record κ) (cs : List RecordChange) :
    (r.applyAll cs).pushes = r.pushes ++ cs.filterMap RecordChange.entry? := by
  induction cs generalizing r with
  | nil => exact (List.append_nil _).symm
  | cons c rest ih =>
    rw [show r.applyAll (c :: rest) = (r.apply c).applyAll rest from rfl, ih, pushes_apply,
      List.append_assoc]
    congr 1
    cases hc : c.entry? with
    | none => simp [hc]
    | some p => simp [hc]

end Record

/-! ## Touches -/

/-- A touch: its object, the verb of a record that it opens, and what it
    changes. -/
structure Touch (κ : Type) where
  /-- The object. -/
  object : Tracked κ
  /-- The verb of the record if it has to be opened. -/
  initial : ChangeVerb
  /-- The changes, in order. -/
  changes : List RecordChange

namespace Touch

/-- Whether the touch writes to the record, rather than annotates it. -/
def writes (x : Touch κ) : Bool := x.changes.any RecordChange.isWrite

/-- The audit entries that the touch adds. -/
def entries (x : Touch κ) : List AuditPush := x.changes.filterMap RecordChange.entry?

/-- The record that the touch leaves where there was none. -/
def opened (x : Touch κ) (tick : Nat) : Record κ :=
  (Record.opened x.object tick x.initial).applyAll x.changes

end Touch

/-- The records, and the tick of the next one. -/
structure RecordTable (κ : Type) where
  /-- The records, in the order of their first touch. -/
  records : List (Record κ)
  /-- The tick of the next first touch. -/
  nextTick : Nat

/-- The records of a staging area. -/
def Staging.table (s : Staging κ π) : RecordTable κ := ⟨s.records, s.nextTick⟩

namespace RecordTable

/-- The record of an object, if it was touched. -/
def find? (b : RecordTable κ) (id : ObjectId) : Option (Record κ) := findRecord id b.records

/-- Makes a touch. -/
def touch (b : RecordTable κ) (x : Touch κ) : RecordTable κ :=
  if (b.find? x.object.id).isSome then
    ⟨updateRecord x.object.id (·.applyAll x.changes) b.records, b.nextTick⟩
  else ⟨b.records ++ [x.opened b.nextTick], b.nextTick + 1⟩

/-- Makes several touches. -/
def touchAll (b : RecordTable κ) (xs : List (Touch κ)) : RecordTable κ := xs.foldl touch b

@[simp] theorem touchAll_nil (b : RecordTable κ) : b.touchAll [] = b := rfl

@[simp] theorem touchAll_cons (b : RecordTable κ) (x : Touch κ) (xs : List (Touch κ)) :
    b.touchAll (x :: xs) = (b.touch x).touchAll xs := rfl

theorem touchAll_append (b : RecordTable κ) (xs ys : List (Touch κ)) :
    b.touchAll (xs ++ ys) = (b.touchAll xs).touchAll ys := List.foldl_append

/-- A touch changes the record of its object, which it opens if need be, and
    leaves every other record as it was. -/
theorem find?_touch (b : RecordTable κ) (x : Touch κ) (q : ObjectId) :
    (b.touch x).find? q =
      if q = x.object.id then
        some (((b.find? q).getD (Record.opened x.object b.nextTick x.initial)).applyAll x.changes)
      else b.find? q := by
  unfold touch
  cases hc : b.find? x.object.id with
  | some r =>
    -- The record is changed where it stands.
    rw [if_pos Option.isSome_some]
    show findRecord q (updateRecord _ _ _) = _
    rw [Staging.findRecord_updateRecord fun r => Record.id_applyAll r x.changes]
    by_cases hq : q = x.object.id
    · subst hq
      rw [if_pos rfl, if_pos rfl, show findRecord x.object.id b.records = some r from hc, hc]
      rfl
    · rw [if_neg hq, if_neg hq]
      rfl
  | none =>
    -- A record is opened at the end; its object had none, so that no other
    -- hides it from the look-up.
    rw [if_neg (by simp)]
    show findRecord q (b.records ++ [x.opened b.nextTick]) = _
    have hid : (x.opened b.nextTick).id = x.object.id := Record.id_applyAll _ x.changes
    unfold findRecord
    rw [List.find?_append, List.find?_singleton]
    by_cases hq : q = x.object.id
    · subst hq
      have hnone : b.records.find? (fun r => decide (r.id = x.object.id)) = none := hc
      rw [if_pos rfl, hnone, hc, if_pos (by simp [hid])]
      rfl
    · have hne : ¬ x.object.id = q := fun h => hq h.symm
      rw [if_neg hq, if_neg (by simp [hid, hne]), Option.or_none]
      rfl

/-- Whether the object has a record. -/
def contains (b : RecordTable κ) (id : ObjectId) : Bool := (b.find? id).isSome

/-- After a touch its object has a record, as have those that had one. -/
theorem contains_touch (b : RecordTable κ) (x : Touch κ) (id : ObjectId) :
    (b.touch x).contains id = (decide (id = x.object.id) || b.contains id) := by
  unfold contains
  rw [find?_touch]
  by_cases hid : id = x.object.id
  · rw [if_pos hid, decide_eq_true hid]
    rfl
  · rw [if_neg hid, decide_eq_false hid]
    rfl

/-- After several touches the objects of all of them have records. -/
theorem contains_touchAll (b : RecordTable κ) (xs : List (Touch κ)) (id : ObjectId) :
    (b.touchAll xs).contains id = (b.contains id || xs.any fun x => id = x.object.id) := by
  induction xs generalizing b with
  | nil => rw [touchAll_nil, List.any_nil, Bool.or_false]
  | cons x rest ih =>
    rw [touchAll_cons, ih, contains_touch, List.any_cons]
    cases b.contains id <;> cases decide (id = x.object.id) <;> rfl

end RecordTable

/-! ## The touches of a recording -/

namespace Staging

/-- The audit entry of a change, if auditing is on. -/
def auditChanges (s : Staging κ π) (user : Option Principal) (entry : AuditEntry) :
    List RecordChange :=
  if s.options.anyAudit then [.push user entry] else []

/-- The touches that show an edge event in the described property of an end
    node. -/
def endTouches (event : EdgeEvent) (tracked : Bool) (d : EndDescription)
    (node other : Tracked κ) : List (Touch κ) :=
  let (previous, new) := d.written event other.uuid
  ⟨node, .modify, [.modify d.key previous new]⟩ ::
    if tracked then [⟨node, .modify, [.changeRef event d.key other.id]⟩] else []

/-- The touches that show an edge event in the records of both end nodes. -/
def foldTouches (s : Staging κ π) (event : EdgeEvent) (type? : Option EdgeType)
    (source target : Tracked κ) : List (Touch κ) :=
  match type? with
  | none => []
  | some type =>
    match type.aspect? with
    | some aspect =>
      [⟨source, .modify, [.flagAspect aspect]⟩, ⟨target, .modify, [.flagAspect aspect]⟩]
    | none =>
      match s.schema.describe? type with
      | none => []
      | some d =>
        (match d.source? with
          | some described => endTouches event d.tracksRefs described source target
          | none => []) ++
        match d.target? with
          | some described => endTouches event d.tracksRefs described target source
          | none => []

/-- The touches that audit an edge event. -/
def auditTouches (s : Staging κ π) (event : EdgeEvent) (user : Option Principal) (edge : Edge κ)
    (source target : Tracked κ) : List (Touch κ) :=
  let time := s.options.auditTime
  let mention : EdgeMention := ⟨(edge.type?.map EdgeType.name).getD "", edge.object.uuid⟩
  [⟨edge.object, .modify, [.push user
      { time, verb := event.edgeVerb, edge := some mention,
        source := some source.uuid, target := some target.uuid }]⟩,
    ⟨source, .modify, [.push user
      { time, verb := event.nodeVerb, edge := some mention,
        direction := some .outgoing, target := some target.uuid }]⟩,
    ⟨target, .modify, [.push user
      { time, verb := event.nodeVerb, edge := some mention,
        direction := some .incoming, target := some source.uuid }]⟩]

/-- The touches of an edge event beside those of the edge itself. -/
def followTouches (s : Staging κ π) (event : EdgeEvent) (user : Option Principal)
    (edge : Edge κ) : List (Touch κ) :=
  match edge.source?, edge.target? with
  | some source, some target =>
    s.foldTouches event edge.type? source target ++
      if s.options.anyAudit then s.auditTouches event user edge source target else []
  | _, _ => []

end Staging

/-- Whether the change can tell of an edge event: a property, a reference or an
    aspect shows it, or an audit entry does. -/
def RecordChange.tellsOfEdge : RecordChange → Bool
  | modify .. | changeRef .. | flagAspect _ | push .. => true
  | _ => false

/-- The touch is one of these objects, opens it as modified, and makes only
    changes that tell of an edge event. -/
structure Touch.TellsOfEdge (objects : List (Tracked κ)) (x : Touch κ) : Prop where
  object_mem : x.object ∈ objects
  initial_eq : x.initial = .modify
  changes_tell : ∀ c ∈ x.changes, c.tellsOfEdge = true

/-- A touch with a single change of that kind. -/
theorem Touch.TellsOfEdge.single {objects : List (Tracked κ)} {object : Tracked κ}
    {c : RecordChange} (ho : object ∈ objects) (hc : c.tellsOfEdge = true) :
    TellsOfEdge objects ⟨object, .modify, [c]⟩ where
  object_mem := ho
  initial_eq := rfl
  changes_tell c' hc' := by rw [List.mem_singleton.mp hc', hc]

namespace Staging

/-- What an edge event writes to an end tells of it. -/
theorem tellsOfEdge_endTouches {event : EdgeEvent} {tracked : Bool} {d : EndDescription}
    {node other : Tracked κ} {objects : List (Tracked κ)} (hnode : node ∈ objects) {x : Touch κ}
    (hx : x ∈ endTouches event tracked d node other) : x.TellsOfEdge objects := by
  unfold endTouches at hx
  cases List.mem_cons.mp hx with
  | inl hwrite =>
    rw [hwrite]
    exact .single hnode rfl
  | inr href =>
    cases tracked with
    | true =>
      rw [List.mem_singleton.mp href]
      exact .single hnode rfl
    | false => cases href

/-- What an edge event writes or flags tells of it, and goes to its ends. -/
theorem tellsOfEdge_foldTouches {s : Staging κ π} {event : EdgeEvent} {type? : Option EdgeType}
    {source target : Tracked κ} {objects : List (Tracked κ)} (hsource : source ∈ objects)
    (htarget : target ∈ objects) {x : Touch κ}
    (hx : x ∈ s.foldTouches event type? source target) : x.TellsOfEdge objects := by
  unfold foldTouches at hx
  cases type? with
  | none => cases hx
  | some type =>
    dsimp only at hx
    cases ha : type.aspect? with
    | some aspect =>
      rw [ha] at hx
      cases List.mem_cons.mp hx with
      | inl heq =>
        rw [heq]
        exact .single hsource rfl
      | inr hrest =>
        rw [List.mem_singleton.mp hrest]
        exact .single htarget rfl
    | none =>
      rw [ha] at hx
      dsimp only at hx
      cases hd : s.schema.describe? type with
      | none =>
        rw [hd] at hx
        cases hx
      | some d =>
        rw [hd] at hx
        cases List.mem_append.mp hx with
        | inl hx =>
          cases hs : d.source? with
          | none =>
            rw [hs] at hx
            cases hx
          | some described =>
            rw [hs] at hx
            exact tellsOfEdge_endTouches hsource hx
        | inr hx =>
          cases ht : d.target? with
          | none =>
            rw [ht] at hx
            cases hx
          | some described =>
            rw [ht] at hx
            exact tellsOfEdge_endTouches htarget hx

/-- The audit entries of an edge event go to the edge and to its ends. -/
theorem tellsOfEdge_auditTouches {s : Staging κ π} {event : EdgeEvent} {user : Option Principal}
    {edge : Edge κ} {source target : Tracked κ} {x : Touch κ}
    (hx : x ∈ s.auditTouches event user edge source target) :
    x.TellsOfEdge [edge.object, source, target] := by
  unfold auditTouches at hx
  simp only [List.mem_cons, List.not_mem_nil, or_false] at hx
  rcases hx with rfl | rfl | rfl
  · exact .single (by simp) rfl
  · exact .single (by simp) rfl
  · exact .single (by simp) rfl

/-- Of the touches beside that of the edge itself, each tells of the edge event
    to the edge or to an end of it, and both ends are in reach. -/
theorem tellsOfEdge_followTouches {s : Staging κ π} {event : EdgeEvent} {user : Option Principal}
    {edge : Edge κ} {x : Touch κ} (hx : x ∈ s.followTouches event user edge) :
    ∃ source target, edge.source? = some source ∧ edge.target? = some target ∧
      x.TellsOfEdge [edge.object, source, target] := by
  unfold followTouches at hx
  cases hs : edge.source? with
  | none =>
    rw [hs] at hx
    cases hx
  | some source =>
    cases ht : edge.target? with
    | none =>
      rw [hs, ht] at hx
      cases hx
    | some target =>
      rw [hs, ht] at hx
      refine ⟨source, target, rfl, rfl, ?_⟩
      cases List.mem_append.mp hx with
      | inl hfold => exact tellsOfEdge_foldTouches (by simp) (by simp) hfold
      | inr haudit =>
        split at haudit
        · exact tellsOfEdge_auditTouches haudit
        · cases haudit

end Staging

/-- The touches that a recording makes in a staging area, in order. -/
def Mutation.touches (s : Staging κ π) : Mutation κ π → List (Touch κ)
  | .create user object =>
    [⟨object, .create, .create :: s.auditChanges user
      { time := s.options.auditTime, verb := .create, target := some object.uuid }⟩]
  | .modify user object key previous new =>
    [⟨object, .modify, s.auditChanges user
        { time := s.options.auditTime, verb := .change, change := some ⟨key.name, previous, new⟩ }
      ++ [.modify key previous new]⟩]
  | .delete user object passive =>
    [⟨object, .modify, .delete passive :: s.auditChanges user
      { time := s.options.auditTime, verb := .delete, target := some object.uuid }⟩]
  | .createEdge user edge =>
    ⟨edge.object, .create, [.create]⟩ :: s.followTouches .created user edge
  | .deleteEdge user edge passive =>
    ⟨edge.object, .modify, [.delete passive]⟩ :: s.followTouches .deleted user edge
  | .propagate object =>
    if s.propagated.contains object.id || s.contains object.id then []
    else [⟨object, .propagated, [.propagate]⟩]
  | .flagAspect aspect object => [⟨object, .modify, [.flagAspect aspect]⟩]
  | .setCallback object token => [⟨object, .modify, [.setCallback token]⟩]
  | .defer .. | .disableLog | .describeEdges .. | .clear => []

/-- Whether the recording drops everything staged. -/
def Mutation.isClear : Mutation κ π → Bool
  | .clear => true
  | _ => false

namespace Staging

/-- Counting leaves the records alone. -/
@[simp] theorem table_count (s : Staging κ π) (f : Counters → Counters) :
    (s.count f).table = s.table := by
  unfold count; split <;> rfl

@[simp] theorem nextTick_count (s : Staging κ π) (f : Counters → Counters) :
    (s.count f).nextTick = s.nextTick := congrArg RecordTable.nextTick (table_count s f)

@[simp] theorem propagated_count (s : Staging κ π) (f : Counters → Counters) :
    (s.count f).propagated = s.propagated := by
  unfold count; split <;> rfl

/-- A touch of the staging area is a touch of its records. -/
theorem table_touch (s : Staging κ π) (x : Touch κ) {f : Record κ → Record κ}
    (hf : ∀ r, f r = r.applyAll x.changes) :
    (s.touch x.object x.initial f).table = s.table.touch x := by
  have hf' : f = fun r => r.applyAll x.changes := funext hf
  subst hf'
  unfold touch RecordTable.touch
  rw [show (s.table.find? x.object.id).isSome = s.contains x.object.id from rfl]
  split
  next => rfl
  next => exact table_count _ _

/-- Noting a synchronization key leaves the records alone. -/
@[simp] theorem table_noteSync (s : Staging κ π) (key : PropertyKey) :
    (s.noteSync key).table = s.table := by
  unfold noteSync; split <;> rfl

/-- Auditing a record is one change of it, or none. -/
theorem audit_eq_applyAll (s : Staging κ π) (r : Record κ) (user : Option Principal)
    (entry : AuditEntry) :
    r.audit s.options.anyAudit user entry = r.applyAll (s.auditChanges user entry) := by
  unfold Record.audit auditChanges
  cases s.options.anyAudit <;> rfl

/-- An end is written with the touches that are listed for it. -/
theorem table_touchEnd (s : Staging κ π) (event : EdgeEvent) (tracked : Bool)
    (d : EndDescription) (node other : Tracked κ) :
    (s.touchEnd event tracked d node other).table =
      s.table.touchAll (endTouches event tracked d node other) := by
  unfold touchEnd endTouches
  obtain ⟨previous, new⟩ := d.written event other.uuid
  have hw : (s.write node d.key previous new).table
      = s.table.touch ⟨node, .modify, [.modify d.key previous new]⟩ := by
    unfold write
    rw [table_noteSync]
    exact table_touch s ⟨node, .modify, [.modify d.key previous new]⟩ fun _ => rfl
  dsimp only
  cases tracked with
  | true =>
    -- The reference is changed in the record that the write has just touched.
    rw [if_pos rfl, if_pos rfl, RecordTable.touchAll_cons, ← hw]
    exact table_touch _ ⟨node, .modify, [.changeRef event d.key other.id]⟩ fun _ => rfl
  | false => exact hw

/-- An edge event is folded into its ends with the touches that are listed for
    it. -/
theorem table_foldEdge (s : Staging κ π) (event : EdgeEvent) (type? : Option EdgeType)
    (source target : Tracked κ) :
    (s.foldEdge event type? source target).table =
      s.table.touchAll (s.foldTouches event type? source target) := by
  unfold foldEdge foldTouches
  cases type? with
  | none => rfl
  | some type =>
    dsimp only
    cases type.aspect? with
    | some aspect =>
      show ((s.flagAspect aspect source).flagAspect aspect target).table = _
      rw [RecordTable.touchAll_cons, ← table_touch s ⟨source, .modify, [.flagAspect aspect]⟩
        fun _ => rfl]
      exact table_touch _ ⟨target, .modify, [.flagAspect aspect]⟩ fun _ => rfl
    | none =>
      dsimp only
      cases s.schema.describe? type with
      | none => rfl
      | some d =>
        dsimp only
        unfold touchEnds
        -- The source comes first; its touches do not change what is described.
        rw [RecordTable.touchAll_append]
        cases d.source? with
        | none =>
          cases d.target? with
          | none => rfl
          | some described => exact table_touchEnd s event _ described target source
        | some sourceEnd =>
          rw [← table_touchEnd s event _ sourceEnd source target]
          cases d.target? with
          | none => rfl
          | some described => exact table_touchEnd _ event _ described target source

@[simp] theorem options_count (s : Staging κ π) (f : Counters → Counters) :
    (s.count f).options = s.options := by
  unfold count; split <;> rfl

@[simp] theorem schema_count (s : Staging κ π) (f : Counters → Counters) :
    (s.count f).schema = s.schema := by
  unfold count; split <;> rfl

/-- A touch changes records, counters and ticks, and no option. -/
@[simp] theorem options_touch (s : Staging κ π) (object : Tracked κ) (initial : ChangeVerb)
    (f : Record κ → Record κ) : (s.touch object initial f).options = s.options := by
  unfold touch; split
  next => rfl
  next => exact options_count _ _

/-- Nor does it change what is described of the types of edges. -/
@[simp] theorem schema_touch (s : Staging κ π) (object : Tracked κ) (initial : ChangeVerb)
    (f : Record κ → Record κ) : (s.touch object initial f).schema = s.schema := by
  unfold touch; split
  next => rfl
  next => exact schema_count _ _

/-- No part of a recording changes the options. -/
theorem options_across : HoldsAcross fun s s' : Staging κ π => s'.options = s.options where
  trans h h' := h'.trans h
  touch s object initial f := options_touch s object initial f
  beside _ _ hoptions _ := hoptions
  clear _ := rfl

@[simp] theorem options_foldEdge (s : Staging κ π) (event : EdgeEvent) (type? : Option EdgeType)
    (source target : Tracked κ) :
    (s.foldEdge event type? source target).options = s.options :=
  options_across.foldEdge s event type? source target

/-- An edge event is audited with three touches. -/
theorem table_auditEdge (s : Staging κ π) (event : EdgeEvent) (user : Option Principal)
    (edge : Edge κ) (source target : Tracked κ) :
    (s.auditEdge event user edge source target).table =
      s.table.touchAll (s.auditTouches event user edge source target) := by
  unfold auditEdge auditTouches
  rw [RecordTable.touchAll_cons, RecordTable.touchAll_cons, RecordTable.touchAll_cons,
    ← table_touch s _ fun _ => rfl, ← table_touch _ _ fun _ => rfl, ← table_touch _ _ fun _ => rfl]
  rfl

/-- What follows an edge event are the touches that are listed for it. -/
theorem table_followEdge (s : Staging κ π) (event : EdgeEvent) (user : Option Principal)
    (edge : Edge κ) :
    (s.followEdge event user edge).table = s.table.touchAll (s.followTouches event user edge) := by
  unfold followEdge followTouches
  cases edge.source? with
  | none => rfl
  | some source =>
    cases edge.target? with
    | none => rfl
    | some target =>
      dsimp only
      -- Whether to audit is asked after the fold, which leaves the options alone.
      rw [RecordTable.touchAll_append, ← table_foldEdge, options_foldEdge]
      cases s.options.anyAudit with
      | false => rfl
      | true =>
        rw [if_pos rfl, if_pos rfl, table_auditEdge]
        unfold auditTouches
        rw [options_foldEdge]

/-- Which touches follow an edge event does not depend on the records, so that
    they are the same after the touch of the edge. -/
theorem followTouches_touch (s : Staging κ π) (object : Tracked κ) (initial : ChangeVerb)
    (f : Record κ → Record κ) (event : EdgeEvent) (user : Option Principal) (edge : Edge κ) :
    (s.touch object initial f).followTouches event user edge =
      s.followTouches event user edge := by
  unfold followTouches foldTouches auditTouches
  rw [options_touch, schema_touch]

/-- A recording does to the records what its touches do, unless it drops them
    all. -/
theorem table_after (s : Staging κ π) (m : Mutation κ π) :
    (s.after m).table =
      if m.isClear then ⟨[], s.nextTick⟩ else s.table.touchAll (m.touches s) := by
  cases m with
  | create user object =>
    refine table_touch s ⟨object, .create, _⟩ fun r => ?_
    exact audit_eq_applyAll s r.create user _
  | modify user object key previous new =>
    show ((s.touch object .modify _).noteSync key).table = _
    rw [table_noteSync]
    -- Here the audit entry comes before the write, elsewhere after it.
    refine table_touch s ⟨object, .modify, _⟩ fun r => ?_
    rw [audit_eq_applyAll]
    unfold Record.applyAll
    rw [List.foldl_append]
    rfl
  | delete user object passive =>
    refine table_touch s ⟨object, .modify, _⟩ fun r => ?_
    exact audit_eq_applyAll s (r.delete passive) user _
  | createEdge user edge =>
    show ((s.touch edge.object .create Record.create).followEdge .created user edge).table = _
    have hedge : (s.touch edge.object .create Record.create).table
        = s.table.touch ⟨edge.object, .create, [.create]⟩ :=
      table_touch s ⟨edge.object, .create, [.create]⟩ fun _ => rfl
    rw [table_followEdge, followTouches_touch, hedge]
    rfl
  | deleteEdge user edge passive =>
    show ((s.touch edge.object .modify fun r => r.delete passive).followEdge .deleted user
      edge).table = _
    have hedge : (s.touch edge.object .modify fun r => r.delete passive).table
        = s.table.touch ⟨edge.object, .modify, [.delete passive]⟩ :=
      table_touch s ⟨edge.object, .modify, [.delete passive]⟩ fun _ => rfl
    rw [table_followEdge, followTouches_touch, hedge]
    rfl
  | propagate object =>
    show (s.propagate object).2.table = s.table.touchAll (Mutation.touches s (.propagate object))
    unfold propagate Mutation.touches
    dsimp only
    rw [show Staging.contains { s with propagated := s.propagated.insert object.id } object.id
      = s.contains object.id from rfl]
    -- An object that is marked, or has a record, is not touched again.
    cases s.propagated.contains object.id with
    | true => rfl
    | false =>
      cases hc : s.contains object.id with
      | true => rfl
      | false =>
        exact table_touch { s with propagated := s.propagated.insert object.id }
          ⟨object, .propagated, [.propagate]⟩ fun _ => rfl
  | flagAspect aspect object =>
    exact table_touch s ⟨object, .modify, [.flagAspect aspect]⟩ fun _ => rfl
  | setCallback object token =>
    exact table_touch s ⟨object, .modify, [.setCallback token]⟩ fun _ => rfl
  | defer key action =>
    show (s.defer key action).2.table = s.table
    unfold defer
    split <;> rfl
  | disableLog => rfl
  | describeEdges type description => rfl
  | clear => rfl

/-- A recording that drops nothing does to the records what its touches do. -/
theorem table_after_touches (s : Staging κ π) {m : Mutation κ π} (hm : m.isClear = false) :
    (s.after m).table = s.table.touchAll (m.touches s) := by
  rw [table_after, hm, if_neg Bool.false_ne_true]

end Staging

end ChangeLedger
