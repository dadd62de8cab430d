/-
  ChangeLedger.Proofs.Silence — a staging area without its audit entries.

  What a recording does splits in two.  Beside the records it changes marks,
  keys and actions, and this depends neither on the records nor on the
  options.  To the records it makes the touches that it would make without
  auditing, followed by bare ones, which change nothing; all other differences
  are audit entries.

  Main results:
    * `frame_after` — the part beside the records.
    * `touches_silent` — the touches of a recording without audit entries.
    * `silent_table_after` — the records without audit entries.
-/
import ChangeLedger.Proofs.Touches

namespace ChangeLedger

variable {κ π : Type}

/-! ## Beside the records -/

namespace Staging

/-- The staging area beside its records: neither these nor the options and the
    counters. -/
def frame (s : Staging κ π) : Staging κ π :=
  { s with options := {}, records := [], nextTick := 0, counters := {} }

section

variable {s s' : Staging κ π}

/-- The marks lie beside the records. -/
theorem propagated_of_frame (h : s.frame = s'.frame) : s.propagated = s'.propagated := by
  have hframe : s.frame.propagated = s'.frame.propagated := congrArg Staging.propagated h
  exact hframe

/-- So does what is described of the types of edges. -/
theorem schema_of_frame (h : s.frame = s'.frame) : s.schema = s'.schema := by
  have hframe : s.frame.schema = s'.frame.schema := congrArg Staging.schema h
  exact hframe

theorem claimedKeys_of_frame (h : s.frame = s'.frame) : s.claimedKeys = s'.claimedKeys := by
  have hframe : s.frame.claimedKeys = s'.frame.claimedKeys := congrArg Staging.claimedKeys h
  exact hframe

end

theorem frame_count (s : Staging κ π) (f : Counters → Counters) : (s.count f).frame = s.frame := by
  unfold count
  split <;> rfl

/-- A touch changes records and counters, and nothing beside them. -/
theorem frame_touch (s : Staging κ π) (object : Tracked κ) (initial : ChangeVerb)
    (f : Record κ → Record κ) : (s.touch object initial f).frame = s.frame := by
  unfold touch
  split
  next => rfl
  next => exact frame_count _ _

/-- Synchronization keys lie beside the records. -/
theorem frame_noteSync (s : Staging κ π) (key : PropertyKey) :
    (s.noteSync key).frame = s.frame.noteSync key := by
  unfold noteSync
  cases key.sync <;> rfl

/-- What is written to an end is noted, whether references are tracked or
    not. -/
theorem frame_touchEnd (s : Staging κ π) (event : EdgeEvent) (tracked : Bool)
    (d : EndDescription) (node other : Tracked κ) :
    (s.touchEnd event tracked d node other).frame = s.frame.noteSync d.key := by
  have hw : ∀ previous new, (s.write node d.key previous new).frame = s.frame.noteSync d.key := by
    intro previous new
    unfold write
    rw [frame_noteSync, frame_touch]
  unfold touchEnd
  dsimp only
  cases tracked with
  | true => rw [if_pos rfl, frame_touch, hw]
  | false => exact hw _ _

/-- The keys that an edge event writes to the end nodes. -/
def foldKeys (s : Staging κ π) (type? : Option EdgeType) : List PropertyKey :=
  match type? with
  | none => []
  | some type =>
    match type.aspect? with
    | some _ => []
    | none =>
      match s.schema.describe? type with
      | none => []
      | some d => (d.source?.map EndDescription.key).toList ++
          (d.target?.map EndDescription.key).toList

/-- Beside the records, an edge event notes the keys that it writes. -/
theorem frame_foldEdge (s : Staging κ π) (event : EdgeEvent) (type? : Option EdgeType)
    (source target : Tracked κ) :
    (s.foldEdge event type? source target).frame = (s.foldKeys type?).foldl noteSync s.frame := by
  unfold foldEdge foldKeys
  cases type? with
  | none => rfl
  | some type =>
    dsimp only
    cases type.aspect? with
    | some aspect =>
      unfold flagAspect
      dsimp only
      rw [frame_touch, frame_touch]
      rfl
    | none =>
      dsimp only
      cases s.schema.describe? type with
      | none => rfl
      | some d =>
        unfold touchEnds
        dsimp only
        cases d.source? <;> cases d.target? <;> simp only [frame_touchEnd] <;> rfl

/-- It notes them only if both ends can be resolved; auditing adds nothing to
    that. -/
theorem frame_followEdge (s : Staging κ π) (event : EdgeEvent) (user : Option Principal)
    (edge : Edge κ) :
    (s.followEdge event user edge).frame =
      if edge.source?.isSome && edge.target?.isSome then
        (s.foldKeys edge.type?).foldl noteSync s.frame
      else s.frame := by
  unfold followEdge
  cases edge.source? with
  | none => rfl
  | some source =>
    cases edge.target? with
    | none => rfl
    | some target =>
      dsimp only
      rw [← frame_foldEdge s event edge.type? source target]
      split
      next =>
        unfold auditEdge
        dsimp only
        rw [frame_touch, frame_touch, frame_touch]
        rfl
      next => rfl

/-- Which keys an edge event writes is read off the descriptions. -/
theorem foldKeys_congr {s s' : Staging κ π} (h : s.frame = s'.frame) (type? : Option EdgeType) :
    s.foldKeys type? = s'.foldKeys type? := by
  unfold foldKeys
  rw [schema_of_frame h]

/-- What a recording does beside the records does not depend on them, nor on
    the options. -/
theorem frame_after {s s' : Staging κ π} (h : s.frame = s'.frame) (m : Mutation κ π) :
    (s.after m).frame = (s'.after m).frame := by
  cases m with
  | create user object =>
    show (s.create user object).frame = (s'.create user object).frame
    unfold create
    rw [frame_touch, frame_touch, h]
  | modify user object key previous new =>
    show (s.modify user object key previous new).frame
      = (s'.modify user object key previous new).frame
    unfold modify
    dsimp only
    rw [frame_noteSync, frame_noteSync, frame_touch, frame_touch, h]
  | delete user object passive =>
    show (s.delete user object passive).frame = (s'.delete user object passive).frame
    unfold delete
    rw [frame_touch, frame_touch, h]
  | createEdge user edge =>
    show (s.createEdge user edge).frame = (s'.createEdge user edge).frame
    unfold createEdge
    -- What the event writes to its ends depends on the schema alone.
    have htouch : (s.touch edge.object .create Record.create).frame
        = (s'.touch edge.object .create Record.create).frame := by
      rw [frame_touch, frame_touch, h]
    rw [frame_followEdge, frame_followEdge, foldKeys_congr htouch, htouch]
  | deleteEdge user edge passive =>
    show (s.deleteEdge user edge passive).frame = (s'.deleteEdge user edge passive).frame
    unfold deleteEdge
    have htouch : (s.touch edge.object .modify fun r => r.delete passive).frame
        = (s'.touch edge.object .modify fun r => r.delete passive).frame := by
      rw [frame_touch, frame_touch, h]
    rw [frame_followEdge, frame_followEdge, foldKeys_congr htouch, htouch]
  | propagate object =>
    -- The mark is set even if the object has a record already.
    have hmark : ∀ s : Staging κ π, (s.after (.propagate object)).frame
        = { s.frame with propagated := s.frame.propagated.insert object.id } := by
      intro s
      show (s.propagate object).2.frame = _
      unfold propagate
      dsimp only
      split
      next => rfl
      next => rw [frame_touch]; rfl
    rw [hmark, hmark, h]
  | flagAspect aspect object =>
    show (s.flagAspect aspect object).frame = (s'.flagAspect aspect object).frame
    unfold flagAspect
    rw [frame_touch, frame_touch, h]
  | setCallback object token =>
    show (s.setCallback object token).frame = (s'.setCallback object token).frame
    unfold setCallback
    rw [frame_touch, frame_touch, h]
  | defer key action =>
    have hdefer : ∀ s : Staging κ π, (s.after (.defer key action)).frame
        = (s.frame.defer key action).2.frame := by
      intro s
      show (s.defer key action).2.frame = _
      unfold defer
      rw [show s.frame.claimedKeys = s.claimedKeys from rfl]
      split <;> rfl
    rw [hdefer, hdefer, h]
  | disableLog =>
    show { s.frame with logEnabled := false } = { s'.frame with logEnabled := false }
    rw [h]
  | describeEdges type d =>
    show { s.frame with schema := s.frame.schema.register type d }
      = { s'.frame with schema := s'.frame.schema.register type d }
    rw [h]
  | clear =>
    show s.frame.clear = s'.frame.clear
    rw [h]

/-- No recording changes the options. -/
theorem options_after (s : Staging κ π) (m : Mutation κ π) : (s.after m).options = s.options :=
  options_across.after s m

end Staging

/-! ## Silent records and touches -/

/-- Whether the change is more than an audit entry. -/
def RecordChange.isSilent (c : RecordChange) : Bool := c.entry?.isNone

/-- The touch without its audit entries. -/
def Touch.silent (x : Touch κ) : Touch κ :=
  { x with changes := x.changes.filter RecordChange.isSilent }

/-- The records without their audit entries. -/
def RecordTable.silent (b : RecordTable κ) : RecordTable κ :=
  ⟨b.records.map Record.dropPushes, b.nextTick⟩

/-- Without audit entries, a change that is one has no effect, and any other has
    its own. -/
theorem Record.dropPushes_apply (r : Record κ) (c : RecordChange) :
    (r.apply c).dropPushes = if c.isSilent then r.dropPushes.apply c else r.dropPushes := by
  cases c with
  | changeRef event key other =>
    show (r.changeRef event key other).dropPushes = r.dropPushes.changeRef event key other
    rw [changeRef_eq, changeRef_eq]
    rfl
  | _ => rfl

/-- So of several changes those are left that are more than audit entries. -/
theorem Record.dropPushes_applyAll (r : Record κ) (cs : List RecordChange) :
    (r.applyAll cs).dropPushes = r.dropPushes.applyAll (cs.filter RecordChange.isSilent) := by
  induction cs generalizing r with
  | nil => rfl
  | cons c rest ih =>
    rw [show r.applyAll (c :: rest) = (r.apply c).applyAll rest from rfl, ih, dropPushes_apply,
      List.filter_cons]
    cases c.isSilent <;> rfl

namespace RecordTable

/-- The records without their audit entries are found as before. -/
theorem find?_silent (b : RecordTable κ) (id : ObjectId) :
    b.silent.find? id = (b.find? id).map Record.dropPushes := by
  show findRecord id (b.records.map Record.dropPushes) = _
  unfold findRecord
  rw [List.find?_map]
  rfl

theorem contains_silent (b : RecordTable κ) (id : ObjectId) :
    b.silent.contains id = b.contains id := by
  unfold contains
  rw [find?_silent, Option.isSome_map]

/-- Dropping the audit entries before or after a touch makes no difference. -/
theorem silent_touch (b : RecordTable κ) (x : Touch κ) :
    (b.touch x).silent = b.silent.touch x.silent := by
  unfold touch
  rw [find?_silent, Option.isSome_map, show x.silent.object = x.object from rfl]
  split
  next =>
    -- The entries are dropped from each record by itself.
    show (⟨(b.records.map _).map Record.dropPushes, b.nextTick⟩ : RecordTable κ)
      = ⟨(b.records.map Record.dropPushes).map _, b.nextTick⟩
    rw [List.map_map, List.map_map]
    congr 2
    funext r
    show (if r.id = x.object.id then r.applyAll x.changes else r).dropPushes
      = if r.id = x.object.id then r.dropPushes.applyAll x.silent.changes else r.dropPushes
    split
    next => exact r.dropPushes_applyAll x.changes
    next => rfl
  next =>
    show (⟨(b.records ++ [x.opened b.nextTick]).map Record.dropPushes, _⟩ : RecordTable κ)
      = ⟨b.records.map Record.dropPushes ++ [x.silent.opened b.nextTick], _⟩
    rw [List.map_append]
    unfold Touch.opened
    rw [List.map_singleton, Record.dropPushes_applyAll]
    rfl

/-- Several touches may be stripped of their entries one by one. -/
theorem silent_touchAll (b : RecordTable κ) (xs : List (Touch κ)) :
    (b.touchAll xs).silent = b.silent.touchAll (xs.map Touch.silent) := by
  induction xs generalizing b with
  | nil => rfl
  | cons x rest ih =>
    rw [List.map_cons, touchAll_cons, touchAll_cons, ih, silent_touch]

end RecordTable

/-! ## The touches of a recording, without audit entries -/

/-- Both end nodes of an edge, if these can be resolved. -/
def Edge.ends (edge : Edge κ) : List (Tracked κ) :=
  match edge.source?, edge.target? with
  | some source, some target => [source, target]
  | _, _ => []

/-- The objects that audit entries of an edge event are added to: the edge and
    both its end nodes, if these can be resolved. -/
def Edge.audited (edge : Edge κ) : List (Tracked κ) :=
  match edge.source?, edge.target? with
  | some source, some target => [edge.object, source, target]
  | _, _ => []

/-- The objects that only auditing touches in a recording. -/
def Mutation.audited : Mutation κ π → List (Tracked κ)
  | .createEdge _ edge | .deleteEdge _ edge _ => edge.audited
  | _ => []

/-- The end nodes in a recording of an edge event, if these can be resolved. -/
def Mutation.ends : Mutation κ π → List (Tracked κ)
  | .createEdge _ edge | .deleteEdge _ edge _ => edge.ends
  | _ => []

/-- Both ends of an edge are audited, if both can be resolved. -/
theorem Edge.mem_audited_of_mem_ends {edge : Edge κ} {o : Tracked κ} (h : o ∈ edge.ends) :
    o ∈ edge.audited := by
  revert h
  unfold Edge.ends Edge.audited
  cases edge.source? <;> cases edge.target? <;> first | exact id | exact List.mem_cons_of_mem _

/-- Beside the ends, only the edge itself is audited. -/
theorem Edge.mem_ends_of_mem_audited {edge : Edge κ} {o : Tracked κ} (h : o ∈ edge.audited) :
    o = edge.object ∨ o ∈ edge.ends := by
  revert h
  unfold Edge.ends Edge.audited
  cases edge.source? <;> cases edge.target? <;> first | exact .inr | exact List.mem_cons.mp

theorem Mutation.mem_audited_of_mem_ends {m : Mutation κ π} {o : Tracked κ} (h : o ∈ m.ends) :
    o ∈ m.audited := by
  cases m with
  | createEdge user edge => exact Edge.mem_audited_of_mem_ends h
  | deleteEdge user edge passive => exact Edge.mem_audited_of_mem_ends h
  | _ => cases h

/-- What auditing touches is an end of the edge, or the edge, which is touched
    anyway. -/
theorem Mutation.mem_ends_of_mem_audited {m : Mutation κ π} {o : Tracked κ} (h : o ∈ m.audited)
    (s : Staging κ π) : o ∈ m.ends ∨ ∃ x ∈ m.touches s, x.object = o := by
  cases m with
  | createEdge user edge =>
    cases Edge.mem_ends_of_mem_audited h with
    | inl hedge => exact .inr ⟨_, List.mem_cons_self, hedge.symm⟩
    | inr hend => exact .inl hend
  | deleteEdge user edge passive =>
    cases Edge.mem_ends_of_mem_audited h with
    | inl hedge => exact .inr ⟨_, List.mem_cons_self, hedge.symm⟩
    | inr hend => exact .inl hend
  | _ => cases h

/-- A recording that has ends is one of an edge event, and drops nothing. -/
theorem Mutation.not_isClear_of_mem_ends {m : Mutation κ π} {o : Tracked κ} (h : o ∈ m.ends) :
    m.isClear = false := by
  cases m <;> first | rfl | cases h

/-- A touch that opens a record if need be, and changes nothing. -/
def Touch.bare (object : Tracked κ) : Touch κ := ⟨object, .modify, []⟩

namespace RecordTable

/-- A bare touch of an object that has a record changes nothing. -/
theorem touch_bare (b : RecordTable κ) (object : Tracked κ) (h : b.contains object.id = true) :
    b.touch (Touch.bare object) = b := by
  have hsame :
      updateRecord object.id (fun r : Record κ => r.applyAll []) b.records = b.records := by
    unfold updateRecord
    conv => rhs; rw [← List.map_id b.records]
    refine List.map_congr_left fun r _ => ?_
    exact ite_self r
  show (if b.contains object.id = true then
      ⟨updateRecord object.id (fun r : Record κ => r.applyAll []) b.records, b.nextTick⟩
    else _) = b
  rw [if_pos h, hsame]

/-- Bare touches of objects that have records change nothing. -/
theorem touchAll_bare (b : RecordTable κ) (objects : List (Tracked κ))
    (h : ∀ o ∈ objects, b.contains o.id = true) : b.touchAll (objects.map Touch.bare) = b := by
  induction objects with
  | nil => rfl
  | cons o rest ih =>
    rw [List.map_cons, touchAll_cons, touch_bare b o (h o List.mem_cons_self)]
    exact ih fun o' ho' => h o' (List.mem_cons_of_mem _ ho')

end RecordTable

namespace Staging

/-- The staging area with auditing off. -/
def hushed (s : Staging κ π) : Staging κ π :=
  { s with options := { s.options with auditEnabled := false, userAuditEnabled := false } }

/-- An audit entry does not outlast the stripping. -/
theorem filter_auditChanges (s : Staging κ π) (user : Option Principal) (entry : AuditEntry) :
    (s.auditChanges user entry).filter RecordChange.isSilent = [] := by
  unfold auditChanges
  split <;> rfl

theorem silent_endTouches (event : EdgeEvent) (tracked : Bool) (d : EndDescription)
    (node other : Tracked κ) :
    (endTouches event tracked d node other).map Touch.silent =
      endTouches event tracked d node other := by
  unfold endTouches
  dsimp only
  cases tracked <;> rfl

/-- No audit entry is among what is written or flagged at the ends. -/
theorem silent_foldTouches (s : Staging κ π) (event : EdgeEvent) (type? : Option EdgeType)
    (source target : Tracked κ) :
    (s.foldTouches event type? source target).map Touch.silent =
      s.foldTouches event type? source target := by
  unfold foldTouches
  cases type? with
  | none => rfl
  | some type =>
    dsimp only
    cases type.aspect? with
    | some aspect => rfl
    | none =>
      dsimp only
      cases s.schema.describe? type with
      | none => rfl
      | some d =>
        dsimp only
        rw [List.map_append]
        cases d.source? <;> cases d.target? <;> simp only [silent_endTouches] <;> rfl

/-- Without audit entries, what follows an edge event is what follows it without
    auditing, and three bare touches. -/
theorem silent_followTouches (s : Staging κ π) (event : EdgeEvent) (user : Option Principal)
    (edge : Edge κ) :
    (s.followTouches event user edge).map Touch.silent =
      s.hushed.followTouches event user edge ++
        if s.options.anyAudit then edge.audited.map Touch.bare else [] := by
  unfold followTouches Edge.audited
  cases edge.source? with
  | none => exact (ite_self []).symm
  | some source =>
    cases edge.target? with
    | none => exact (ite_self []).symm
    | some target =>
      dsimp only
      rw [List.map_append, silent_foldTouches, show s.hushed.options.anyAudit = false from rfl,
        if_neg Bool.false_ne_true, List.append_nil]
      -- Without its entry, each of the three audit touches is bare.
      refine congrArg (s.foldTouches event edge.type? source target ++ ·) ?_
      cases s.options.anyAudit <;> rfl

/-- Without audit entries, a recording makes the touches that it would make
    without auditing, and bare ones if auditing is on. -/
theorem touches_silent (s : Staging κ π) (m : Mutation κ π) :
    (m.touches s).map Touch.silent =
      m.touches s.hushed ++ if s.options.anyAudit then m.audited.map Touch.bare else [] := by
  -- All recordings but those of edge events are audited in the touch that they
  -- make anyway.
  have hplain : ∀ xs : List (Touch κ),
      xs ++ (if s.options.anyAudit then ([] : List (Tracked κ)).map Touch.bare else []) = xs := by
    intro xs
    rw [List.map_nil, ite_self, List.append_nil]
  cases m with
  | create user object =>
    refine Eq.trans ?_ (hplain _).symm
    show [Touch.silent ⟨object, .create, _ :: _⟩] = [_]
    unfold Touch.silent
    rw [List.filter_cons_of_pos rfl, filter_auditChanges]
    rfl
  | modify user object key previous new =>
    refine Eq.trans ?_ (hplain _).symm
    show [Touch.silent ⟨object, .modify, _ ++ _⟩] = [_]
    unfold Touch.silent
    rw [List.filter_append, filter_auditChanges]
    rfl
  | delete user object passive =>
    refine Eq.trans ?_ (hplain _).symm
    show [Touch.silent ⟨object, .modify, _ :: _⟩] = [_]
    unfold Touch.silent
    rw [List.filter_cons_of_pos rfl, filter_auditChanges]
    rfl
  | createEdge user edge => exact congrArg (_ :: ·) (silent_followTouches s .created user edge)
  | deleteEdge user edge passive =>
    exact congrArg (_ :: ·) (silent_followTouches s .deleted user edge)
  | propagate object =>
    refine Eq.trans ?_ (hplain _).symm
    show List.map Touch.silent (if s.propagated.contains object.id || s.contains object.id then []
      else [⟨object, .propagated, [.propagate]⟩]) = _
    split
    next hseen => exact (if_pos hseen).symm
    next hseen => exact (if_neg hseen).symm
  | flagAspect aspect object => exact (hplain _).symm
  | setCallback object token => exact (hplain _).symm
  | _ => exact (hplain _).symm

/-- The records after a recording, without audit entries. -/
theorem silent_table_after (s : Staging κ π) (m : Mutation κ π) :
    (s.after m).table.silent =
      if m.isClear then ⟨[], s.nextTick⟩
      else (s.table.silent.touchAll (m.touches s.hushed)).touchAll
        (if s.options.anyAudit then m.audited.map Touch.bare else []) := by
  rw [table_after]
  split
  next => rfl
  next => rw [RecordTable.silent_touchAll, touches_silent, RecordTable.touchAll_append]

end Staging

end ChangeLedger
