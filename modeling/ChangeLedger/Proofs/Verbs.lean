/-
  ChangeLedger.Proofs.Verbs — what recordings do to the verb of a record.

  A verb changes as its object is created, deleted and written.  What comes of
  a list of changes has a simple form: the first deletion decides; without one,
  a creation at any place does; without either, it matters only whether
  anything was written.

  So for the verbs three questions are enough about a recording: whether it
  deletes an object, whether it creates it, and whether it writes to it.

  Main results:
    * `RecordChange.foldl_verbAfter` — the verb after a list of changes.
    * `Mutation.deletion?_touches`, `Mutation.creates_touches`,
      `Mutation.writesTo_touches` — the answers to the three questions.
-/
import ChangeLedger.Proofs.Covering
import ChangeLedger.Proofs.Replay
import ChangeLedger.Proofs.TouchOrder

namespace ChangeLedger

variable {κ π : Type}

/-! ## The verb after a list of changes -/

/-- The verb of an object that was deleted. -/
def ChangeVerb.ofDeletion (passive : Bool) : ChangeVerb :=
  if passive then .passiveDelete else .delete

namespace RecordChange

/-- The passive flag of a deletion. -/
def deletion? : RecordChange → Option Bool
  | delete passive => some passive
  | _ => none

/-- Whether the change is a creation. -/
def isCreation : RecordChange → Bool
  | create => true
  | _ => false

/-- Whether the change alters a property, a reference or an aspect. -/
def isAlteration : RecordChange → Bool
  | modify .. | changeRef .. | flagAspect _ => true
  | _ => false

/-- Nothing follows a deletion. -/
theorem foldl_verbAfter_of_isDeletion {v : ChangeVerb} (hv : v.isDeletion = true)
    (cs : List RecordChange) : cs.foldl verbAfter v = v := by
  induction cs with
  | nil => rfl
  | cons c rest ih =>
    have hsame : verbAfter v c = v := by
      cases v with
      | delete | passiveDelete => cases c <;> rfl
      | _ => cases hv
    rw [List.foldl_cons, hsame, ih]

/-- Of changes without a deletion, a creation decides, and else it matters
    whether there is any alteration. -/
theorem foldl_verbAfter_of_no_deletion {v : ChangeVerb} (hv : v.isDeletion = false)
    {cs : List RecordChange} (hd : cs.findSome? deletion? = none) :
    cs.foldl verbAfter v =
      if cs.any isCreation then .create else if cs.any isAlteration then v.afterWrite else v := by
  induction cs generalizing v with
  | nil => rfl
  | cons c rest ih =>
    obtain ⟨hc, hrest⟩ : c.deletion? = none ∧ rest.findSome? deletion? = none := by
      rw [List.findSome?_cons] at hd
      cases hc : c.deletion? with
      | none => rw [hc] at hd; exact ⟨rfl, hd⟩
      | some passive => rw [hc] at hd; cases hd
    rw [List.foldl_cons, List.any_cons, List.any_cons]
    cases c with
    | delete passive => cases hc
    | create =>
      -- Later alterations keep the verb, and so do later creations.
      have hverb : verbAfter v create = .create := by
        cases v <;> first | rfl | cases hv
      rw [hverb, ih rfl hrest]
      cases rest.any isCreation <;> cases rest.any isAlteration <;> rfl
    | modify | changeRef | flagAspect =>
      have hwrite : v.afterWrite.isDeletion = false := by
        cases v <;> first | rfl | cases hv
      show rest.foldl verbAfter v.afterWrite = _
      rw [ih hwrite hrest, ChangeVerb.afterWrite_afterWrite]
      cases rest.any isCreation <;> cases rest.any isAlteration <;> rfl
    | propagate | setCallback | push => exact ih hv hrest

/-- The verb after a list of changes: the first deletion decides. -/
theorem foldl_verbAfter {v : ChangeVerb} (hv : v.isDeletion = false) (cs : List RecordChange) :
    cs.foldl verbAfter v =
      match cs.findSome? deletion? with
      | some passive => .ofDeletion passive
      | none =>
        if cs.any isCreation then .create
        else if cs.any isAlteration then v.afterWrite else v := by
  cases hd : cs.findSome? deletion? with
  | none => exact foldl_verbAfter_of_no_deletion hv hd
  | some passive =>
    obtain ⟨before, c, after, rfl, hc, hbefore⟩ := List.findSome?_eq_some_iff.mp hd
    -- Whatever came before the deletion, the object was not deleted then.
    have hnot : (before.foldl verbAfter v).isDeletion = false := by
      rw [foldl_verbAfter_of_no_deletion hv (List.findSome?_eq_none_iff.mpr hbefore)]
      split
      · rfl
      · split
        · cases v <;> first | rfl | cases hv
        · exact hv
    rw [List.foldl_append, List.foldl_cons]
    cases c with
    | delete passive' =>
      obtain rfl : passive' = passive := Option.some.inj hc
      have hverb : verbAfter (before.foldl verbAfter v) (delete passive')
          = .ofDeletion passive' := by
        show ChangeVerb.afterDelete _ passive' = _
        unfold ChangeVerb.afterDelete
        rw [hnot]
        rfl
      rw [hverb]
      refine foldl_verbAfter_of_isDeletion ?_ after
      cases passive' <;> rfl
    | _ => cases hc

end RecordChange

theorem Record.verb_applyAll (r : Record κ) (cs : List RecordChange) :
    (r.applyAll cs).verb = cs.foldl RecordChange.verbAfter r.verb := by
  induction cs generalizing r with
  | nil => rfl
  | cons c rest ih =>
    show ((r.apply c).applyAll rest).verb = _
    rw [ih, verb_apply, List.foldl_cons]

/-! ## What a recording does to an object -/

/-- The ends at which an edge shows, if both are in reach. -/
def Staging.shownNodes (s : Staging κ π) (edge : Edge κ) : List (Tracked κ) :=
  match edge.source?, edge.target? with
  | some source, some target => s.shownEnds edge.type? source target
  | _, _ => []

namespace Mutation

/-- The passive flag, if the recording deletes the object. -/
def deletion? (id : ObjectId) : Mutation κ π → Option Bool
  | .delete _ object passive => if object.id = id then some passive else none
  | .deleteEdge _ edge passive => if edge.object.id = id then some passive else none
  | _ => none

/-- Whether the recording creates the object. -/
def creates (id : ObjectId) : Mutation κ π → Bool
  | .create _ object => object.id = id
  | .createEdge _ edge => edge.object.id = id
  | _ => false

/-- Whether the recording writes to the object: a property or an aspect of it,
    or an edge event that shows in it. -/
def writesTo (s : Staging κ π) (id : ObjectId) : Mutation κ π → Bool
  | .modify _ object .. | .flagAspect _ object => object.id = id
  | .createEdge _ edge | .deleteEdge _ edge _ => (s.shownNodes edge).any fun node => node.id = id
  | _ => false

/-- Whether the recording is a mark. -/
def isMark : Mutation κ π → Bool
  | .propagate _ => true
  | _ => false

/-- Whether the recording touches the object. -/
def reaches (s : Staging κ π) (id : ObjectId) (m : Mutation κ π) : Bool :=
  (m.touchOrder s).any fun object => object.id = id

end Mutation

/-! ## Touches that alter, create and delete -/

theorem any_changesTo (id : ObjectId) (p : RecordChange → Bool) (xs : List (Touch κ)) :
    (changesTo id xs).any p = xs.any fun x => x.concerns id && x.changes.any p := by
  unfold changesTo
  rw [List.any_flatMap, List.any_filter]

namespace Staging

theorem any_alters_endTouches (event : EdgeEvent) (tracked : Bool) (d : EndDescription)
    (node other : Tracked κ) (id : ObjectId) :
    (changesTo id (endTouches event tracked d node other)).any RecordChange.isAlteration =
      decide (node.id = id) := by
  rw [any_changesTo]
  unfold endTouches
  cases tracked with
  | false =>
    show (decide (node.id = id) && true || false) = _
    rw [Bool.and_true, Bool.or_false]
  | true =>
    show (decide (node.id = id) && true || (decide (node.id = id) && true || false)) = _
    rw [Bool.and_true, Bool.or_false, Bool.or_self]

theorem any_alters_foldTouches (s : Staging κ π) (event : EdgeEvent) (type? : Option EdgeType)
    (source target : Tracked κ) (id : ObjectId) :
    (changesTo id (s.foldTouches event type? source target)).any RecordChange.isAlteration =
      (s.shownEnds type? source target).any fun node => node.id = id := by
  unfold foldTouches shownEnds
  cases type? with
  | none => rfl
  | some type =>
    dsimp only
    cases type.aspect? with
    | some aspect =>
      rw [any_changesTo, if_pos (by simp)]
      show (decide (source.id = id) && true || (decide (target.id = id) && true || false)) = _
      rw [Bool.and_true, Bool.and_true]
      rfl
    | none =>
      dsimp only
      rw [if_neg (by simp)]
      cases s.schema.describe? type with
      | none => rfl
      | some d =>
        dsimp only
        rw [changesTo_append, List.any_append, List.any_append]
        congr 1
        · cases d.source? with
          | none => rfl
          | some described =>
            rw [any_alters_endTouches, if_pos (by simp), List.any_cons, List.any_nil, Bool.or_false]
        · cases d.target? with
          | none => rfl
          | some described =>
            rw [any_alters_endTouches, if_pos (by simp), List.any_cons, List.any_nil, Bool.or_false]

/-- An edge event alters the ends at which it shows. -/
theorem any_alters_followTouches (s : Staging κ π) (event : EdgeEvent) (user : Option Principal)
    (edge : Edge κ) (id : ObjectId) :
    (changesTo id (s.followTouches event user edge)).any RecordChange.isAlteration =
      (s.shownNodes edge).any fun node => node.id = id := by
  unfold followTouches shownNodes
  cases edge.source? with
  | none => rfl
  | some source =>
    cases edge.target? with
    | none => rfl
    | some target =>
      dsimp only
      rw [changesTo_append, List.any_append, any_alters_foldTouches]
      -- An audit entry alters nothing.
      have haudit : (changesTo id (if s.options.anyAudit then
          s.auditTouches event user edge source target else [])).any RecordChange.isAlteration
          = false := by
        rw [any_changesTo]
        split
        · unfold auditTouches
          simp [RecordChange.isAlteration]
        · rfl
      rw [haudit, Bool.or_false]

end Staging

/-! ## What the touches of a recording do to an object -/

namespace Staging

@[simp] theorem findSome?_deletion?_auditChanges (s : Staging κ π) (user : Option Principal)
    (entry : AuditEntry) :
    (s.auditChanges user entry).findSome? RecordChange.deletion? = none := by
  unfold auditChanges
  split <;> rfl

@[simp] theorem any_isCreation_auditChanges (s : Staging κ π) (user : Option Principal)
    (entry : AuditEntry) : (s.auditChanges user entry).any RecordChange.isCreation = false := by
  unfold auditChanges
  split <;> rfl

@[simp] theorem any_isAlteration_auditChanges (s : Staging κ π) (user : Option Principal)
    (entry : AuditEntry) : (s.auditChanges user entry).any RecordChange.isAlteration = false := by
  unfold auditChanges
  split <;> rfl

/-- What tells of an edge event is no deletion and no creation. -/
theorem deletion?_isCreation_of_tellsOfEdge {c : RecordChange} (hc : c.tellsOfEdge = true) :
    c.deletion? = none ∧ ¬ c.isCreation = true := by
  cases c with
  | modify | changeRef | flagAspect | push => exact ⟨rfl, Bool.false_ne_true⟩
  | _ => cases hc

/-- The changes that follow an edge event tell of it. -/
theorem tellsOfEdge_changesTo {s : Staging κ π} {event : EdgeEvent} {user : Option Principal}
    {edge : Edge κ} {id : ObjectId} {c : RecordChange}
    (hc : c ∈ changesTo id (s.followTouches event user edge)) : c.tellsOfEdge = true := by
  obtain ⟨x, hx, hcx⟩ := List.mem_flatMap.mp hc
  obtain ⟨source, target, -, -, htells⟩ := tellsOfEdge_followTouches (List.mem_of_mem_filter hx)
  exact htells.changes_tell c hcx

/-- An edge event deletes no other object than the edge. -/
theorem deletion?_followTouches (s : Staging κ π) (event : EdgeEvent) (user : Option Principal)
    (edge : Edge κ) (id : ObjectId) :
    (changesTo id (s.followTouches event user edge)).findSome? RecordChange.deletion? = none :=
  List.findSome?_eq_none_iff.mpr fun _ hc =>
    (deletion?_isCreation_of_tellsOfEdge (tellsOfEdge_changesTo hc)).1

/-- An edge event creates no other object than the edge. -/
theorem any_isCreation_followTouches (s : Staging κ π) (event : EdgeEvent)
    (user : Option Principal) (edge : Edge κ) (id : ObjectId) :
    (changesTo id (s.followTouches event user edge)).any RecordChange.isCreation = false :=
  List.any_eq_false.mpr fun _ hc =>
    (deletion?_isCreation_of_tellsOfEdge (tellsOfEdge_changesTo hc)).2

end Staging

namespace Mutation

/-- No touch opens a deleted record, and one that opens a created record creates
    the object too. -/
theorem opening_of_mem_touches {s : Staging κ π} {m : Mutation κ π} {x : Touch κ}
    (hx : x ∈ m.touches s) :
    x.initial.isDeletion = false ∧
      (x.initial = .create → x.changes.any RecordChange.isCreation = true) := by
  by_cases hm : ∃ object, m = .propagate object
  · obtain ⟨object, rfl⟩ := hm
    rw [touches] at hx
    split at hx
    · cases hx
    · rw [List.mem_singleton.mp hx]
      exact ⟨rfl, fun heq => by cases heq⟩
  · cases Staging.isPlain_touches (fun object heq => hm ⟨object, heq⟩) hx with
    | inl hmodify =>
      rw [hmodify]
      exact ⟨rfl, fun heq => by cases heq⟩
    | inr hcreate =>
      obtain ⟨hinitial, rest, hchanges⟩ := hcreate
      rw [hinitial, hchanges]
      exact ⟨rfl, fun _ => rfl⟩

/-- A recording deletes an object if its touches do. -/
theorem deletion?_touches (s : Staging κ π) (id : ObjectId) (m : Mutation κ π) :
    (changesTo id (m.touches s)).findSome? RecordChange.deletion? = m.deletion? id := by
  cases m with
  | create user object =>
    rw [touches, changesTo_singleton]
    split
    · exact s.findSome?_deletion?_auditChanges user _
    · rfl
  | modify user object key previous new =>
    rw [touches, changesTo_singleton]
    split
    · rw [List.findSome?_append, s.findSome?_deletion?_auditChanges]
      rfl
    · rfl
  | delete user object passive =>
    rw [touches, changesTo_singleton]
    unfold deletion?
    dsimp only
    split <;> rfl
  | createEdge user edge =>
    show (changesTo id ([⟨edge.object, .create, [.create]⟩] ++
      s.followTouches .created user edge)).findSome? _ = _
    rw [changesTo_append, changesTo_singleton, List.findSome?_append, s.deletion?_followTouches]
    split <;> rfl
  | deleteEdge user edge passive =>
    show (changesTo id ([⟨edge.object, .modify, [.delete passive]⟩] ++
      s.followTouches .deleted user edge)).findSome? _ = _
    rw [changesTo_append, changesTo_singleton, List.findSome?_append, s.deletion?_followTouches]
    unfold deletion?
    dsimp only
    split <;> rfl
  | propagate object =>
    rw [touches]
    split
    · rfl
    · rw [changesTo_singleton]
      split <;> rfl
  | flagAspect aspect object | setCallback object token =>
    rw [touches, changesTo_singleton]
    split <;> rfl
  | defer | disableLog | describeEdges | clear => rfl

/-- A recording creates an object if its touches do. -/
theorem creates_touches (s : Staging κ π) (id : ObjectId) (m : Mutation κ π) :
    (changesTo id (m.touches s)).any RecordChange.isCreation = m.creates id := by
  cases m with
  | create user object =>
    rw [touches, changesTo_singleton]
    unfold creates
    split
    next hid => exact (decide_eq_true hid).symm
    next hid => exact (decide_eq_false hid).symm
  | modify user object key previous new =>
    rw [touches, changesTo_singleton]
    split
    · rw [List.any_append, s.any_isCreation_auditChanges]
      rfl
    · rfl
  | delete user object passive =>
    rw [touches, changesTo_singleton]
    split
    · exact s.any_isCreation_auditChanges user _
    · rfl
  | createEdge user edge =>
    show (changesTo id ([⟨edge.object, .create, [.create]⟩] ++
      s.followTouches .created user edge)).any _ = _
    rw [changesTo_append, changesTo_singleton, List.any_append, s.any_isCreation_followTouches,
      Bool.or_false]
    unfold creates
    split
    next hid => exact (decide_eq_true hid).symm
    next hid => exact (decide_eq_false hid).symm
  | deleteEdge user edge passive =>
    show (changesTo id ([⟨edge.object, .modify, [.delete passive]⟩] ++
      s.followTouches .deleted user edge)).any _ = _
    rw [changesTo_append, changesTo_singleton, List.any_append, s.any_isCreation_followTouches,
      Bool.or_false]
    split <;> rfl
  | propagate object =>
    rw [touches]
    split
    · rfl
    · rw [changesTo_singleton]
      split <;> rfl
  | flagAspect aspect object | setCallback object token =>
    rw [touches, changesTo_singleton]
    split <;> rfl
  | defer | disableLog | describeEdges | clear => rfl

/-- A recording writes to an object if its touches alter it. -/
theorem writesTo_touches (s : Staging κ π) (id : ObjectId) (m : Mutation κ π) :
    (changesTo id (m.touches s)).any RecordChange.isAlteration = m.writesTo s id := by
  cases m with
  | create user object | delete user object passive =>
    rw [touches, changesTo_singleton]
    split
    · exact s.any_isAlteration_auditChanges user _
    · rfl
  | modify user object key previous new =>
    rw [touches, changesTo_singleton]
    unfold writesTo
    split
    next hid =>
      rw [List.any_append, s.any_isAlteration_auditChanges]
      exact (decide_eq_true hid).symm
    next hid => exact (decide_eq_false hid).symm
  | createEdge user edge =>
    show (changesTo id ([⟨edge.object, .create, [.create]⟩] ++
      s.followTouches .created user edge)).any _ = _
    rw [changesTo_append, changesTo_singleton, List.any_append, s.any_alters_followTouches]
    split <;> rfl
  | deleteEdge user edge passive =>
    show (changesTo id ([⟨edge.object, .modify, [.delete passive]⟩] ++
      s.followTouches .deleted user edge)).any _ = _
    rw [changesTo_append, changesTo_singleton, List.any_append, s.any_alters_followTouches]
    split <;> rfl
  | propagate object =>
    rw [touches]
    split
    · rfl
    · rw [changesTo_singleton]
      split <;> rfl
  | flagAspect aspect object =>
    rw [touches, changesTo_singleton]
    unfold writesTo
    split
    next hid => exact (decide_eq_true hid).symm
    next hid => exact (decide_eq_false hid).symm
  | setCallback object token =>
    rw [touches, changesTo_singleton]
    split <;> rfl
  | defer | disableLog | describeEdges | clear => rfl

end Mutation

end ChangeLedger
