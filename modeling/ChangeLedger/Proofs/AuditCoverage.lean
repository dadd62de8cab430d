/-
  ChangeLedger.Proofs.AuditCoverage — which calls leave a line in a log.

  With auditing on, creating, writing and deleting an object each leave one
  line in the log of that object.  So do creating and deleting an edge, as long
  as both its end nodes can be resolved.  An edge with an unresolved end leaves
  no line anywhere, though its record says what happened to it.

  Main results:
    * `Staging.objectLogOf_after` — a step: the lines that a recording adds to
      the log of an object.
    * `Mutation.countP_linesFor` — how many of them have which verb.
    * `Staging.objectLogOf_afterAll` — a run of recordings.
    * `Staging.resolved_calls_are_audited` — every call of the five.
-/
import ChangeLedger.Proofs.DrainExactness
import ChangeLedger.Proofs.Silence

namespace ChangeLedger

variable {κ π : Type}

/-! ## Calls and their lines -/

/-- Whether the verb tells what was done to the object itself, rather than to
    an edge at it. -/
def AuditVerb.isOwn : AuditVerb → Bool
  | create | change | delete => true
  | link | unlink => false

/-- Whether both end nodes of the edge can be resolved. -/
def Edge.isResolved (edge : Edge κ) : Bool := edge.source?.isSome && edge.target?.isSome

namespace Mutation

/-- The object that an audited recording is called on, and the verb of the line
    that it is to leave. -/
def calledOn : Mutation κ π → Option (Tracked κ × AuditVerb)
  | .create _ object => some (object, .create)
  | .modify _ object .. => some (object, .change)
  | .delete _ object _ => some (object, .delete)
  | .createEdge _ edge => some (edge.object, .create)
  | .deleteEdge _ edge _ => some (edge.object, .delete)
  | _ => none

/-- Whether the recording is about no edge with an unresolved end. -/
def isResolved : Mutation κ π → Bool
  | .createEdge _ edge | .deleteEdge _ edge _ => edge.isResolved
  | _ => true

/-- Whether the recording leaves a line with this verb in the log of this
    object. -/
def leavesLine (m : Mutation κ π) (id : ObjectId) (verb : AuditVerb) : Bool :=
  m.isResolved && m.calledOn.any fun c => c.1.id = id ∧ c.2 = verb

/-- The lines that a recording adds to the log of an object. -/
def linesFor (s : Staging κ π) (m : Mutation κ π) (id : ObjectId) : List AuditLine :=
  (addressedTo id (m.added s)).map fun p => p.entry.objectLine p.user

end Mutation

namespace Staging

/-- The text that waits for the log of an object. -/
def objectLogOf (s : Staging κ π) (id : ObjectId) : String :=
  ((s.find? id).map Record.objectLog).getD ""

/-- The lines that a run of recordings adds to the log of an object. -/
def linesAlong (s : Staging κ π) (id : ObjectId) : List (Mutation κ π) → List AuditLine
  | [] => []
  | m :: rest => m.linesFor s id ++ (s.after m).linesAlong id rest

theorem objectLogOf_eq (s : Staging κ π) (id : ObjectId) :
    s.objectLogOf id = linesText ((s.pushesOf id).map fun p => p.entry.objectLine p.user) := by
  unfold objectLogOf Staging.pushesOf RecordTable.pushesOf
  show ((s.find? id).map _).getD "" = linesText (List.map _ (((s.find? id).map _).getD []))
  cases s.find? id with
  | none => rfl
  | some r => exact r.objectLog_eq

/-- **A step.**  A recording adds its lines to the log of every object. -/
theorem objectLogOf_after (s : Staging κ π) {m : Mutation κ π} (hm : m.isClear = false)
    (id : ObjectId) :
    (s.after m).objectLogOf id = s.objectLogOf id ++ linesText (m.linesFor s id) := by
  have hpushes : (s.after m).pushesOf id = s.pushesOf id ++ addressedTo id (m.added s) := by
    unfold Staging.pushesOf
    rw [table_after_touches s hm, RecordTable.pushesOf_touchAll]
    rfl
  rw [objectLogOf_eq, objectLogOf_eq, hpushes, List.map_append, linesText_append]
  rfl

end Staging

/-! ## What a recording adds -/

namespace Staging

variable {s : Staging κ π}

/-- Showing an edge event on the end nodes adds no entry. -/
theorem addressed_foldTouches (s : Staging κ π) (event : EdgeEvent) (type? : Option EdgeType)
    (source target : Tracked κ) :
    (s.foldTouches event type? source target).flatMap Touch.addressed = [] := by
  have hend : ∀ (tracked : Bool) (d : EndDescription) (node other : Tracked κ),
      (endTouches event tracked d node other).flatMap Touch.addressed = [] := by
    intro tracked d node other
    cases tracked <;> rfl
  unfold foldTouches
  cases type? with
  | none => rfl
  | some type =>
    dsimp only
    cases type.aspect? with
    | some aspect => rfl
    | none =>
      dsimp only
      cases s.schema.describe? type with
      | none => rfl
      | some d =>
        dsimp only
        rw [List.flatMap_append]
        cases d.source? <;> cases d.target? <;> simp only [hend] <;> rfl

end Staging

namespace Mutation

variable {s : Staging κ π} {m : Mutation κ π}

/-- An edge event with an unresolved end touches the edge and nothing else. -/
theorem followTouches_of_unresolved (s : Staging κ π) (event : EdgeEvent)
    (user : Option Principal) {edge : Edge κ} (hedge : edge.isResolved = false) :
    s.followTouches event user edge = [] := by
  unfold Edge.isResolved at hedge
  unfold Staging.followTouches
  cases hs : edge.source? with
  | none => rfl
  | some source =>
    cases ht : edge.target? with
    | none => rfl
    | some target =>
      rw [hs, ht] at hedge
      cases hedge

theorem added_of_unresolved (s : Staging κ π) (hm : m.isResolved = false) : m.added s = [] := by
  cases m with
  | createEdge user edge =>
    show (_ :: s.followTouches .created user edge).flatMap Touch.addressed = []
    rw [followTouches_of_unresolved s .created user hm]
    rfl
  | deleteEdge user edge passive =>
    show (_ :: s.followTouches .deleted user edge).flatMap Touch.addressed = []
    rw [followTouches_of_unresolved s .deleted user hm]
    rfl
  | _ => cases hm

/-- Recordings that are no audited calls add no entry. -/
theorem added_of_not_called (s : Staging κ π) (hm : m.calledOn = none) : m.added s = [] := by
  cases m with
  | propagate object =>
    show (if s.propagated.contains object.id || s.contains object.id then []
      else [(⟨object, .propagated, [.propagate]⟩ : Touch κ)]).flatMap Touch.addressed = []
    split <;> rfl
  | create user object => cases hm
  | modify user object key previous new => cases hm
  | delete user object passive => cases hm
  | createEdge user edge => cases hm
  | deleteEdge user edge passive => cases hm
  | _ => rfl

/-- With auditing on, an edge event adds one entry to the edge itself; those of
    the end nodes tell of the edge. -/
theorem addressed_followTouches (hon : s.options.anyAudit = true) (event : EdgeEvent)
    (user : Option Principal) {edge : Edge κ} (hedge : edge.isResolved = true) :
    ∃ own others, (s.followTouches event user edge).flatMap Touch.addressed
        = (edge.object.id, own) :: others ∧
      own.entry.verb = event.edgeVerb ∧ ∀ a ∈ others, a.2.entry.verb.isOwn = false := by
  obtain ⟨hs, ht⟩ := Bool.and_eq_true_iff.mp hedge
  obtain ⟨source, hs⟩ := Option.isSome_iff_exists.mp hs
  obtain ⟨target, ht⟩ := Option.isSome_iff_exists.mp ht
  have hnode : event.nodeVerb.isOwn = false := by
    cases event <;> rfl
  unfold Staging.followTouches
  rw [hs, ht]
  dsimp only
  rw [if_pos hon, List.flatMap_append, Staging.addressed_foldTouches]
  refine ⟨_, [(source.id, _), (target.id, _)], rfl, rfl, ?_⟩
  intro a ha
  rcases List.mem_cons.mp ha with rfl | ha
  · exact hnode
  · rw [List.mem_singleton.mp ha]
    exact hnode

/-- With auditing on, an audited call adds one entry with its verb to the object
    that it is called on; the others that it adds tell of an edge. -/
theorem added_of_calledOn (hon : s.options.anyAudit = true) (hresolved : m.isResolved = true)
    {object : Tracked κ} {verb : AuditVerb} (hm : m.calledOn = some (object, verb)) :
    ∃ own others, m.added s = (object.id, own) :: others ∧ own.entry.verb = verb ∧
      ∀ a ∈ others, a.2.entry.verb.isOwn = false := by
  have haudit : ∀ user entry, s.auditChanges user entry = [.push user entry] :=
    fun user entry => if_pos hon
  cases m with
  | create user object' =>
    obtain ⟨rfl, rfl⟩ := Prod.mk.inj (Option.some.inj hm)
    unfold added touches
    dsimp only
    rw [haudit]
    exact ⟨_, [], rfl, rfl, fun a ha => nomatch ha⟩
  | modify user object' key previous new =>
    obtain ⟨rfl, rfl⟩ := Prod.mk.inj (Option.some.inj hm)
    unfold added touches
    dsimp only
    rw [haudit]
    exact ⟨_, [], rfl, rfl, fun a ha => nomatch ha⟩
  | delete user object' passive =>
    obtain ⟨rfl, rfl⟩ := Prod.mk.inj (Option.some.inj hm)
    unfold added touches
    dsimp only
    rw [haudit]
    exact ⟨_, [], rfl, rfl, fun a ha => nomatch ha⟩
  | createEdge user edge =>
    obtain ⟨rfl, rfl⟩ := Prod.mk.inj (Option.some.inj hm)
    exact addressed_followTouches hon .created user hresolved
  | deleteEdge user edge passive =>
    obtain ⟨rfl, rfl⟩ := Prod.mk.inj (Option.some.inj hm)
    exact addressed_followTouches hon .deleted user hresolved
  | _ => cases hm

/-- Lines with a verb are entries with that verb. -/
theorem countP_linesFor_eq (s : Staging κ π) (m : Mutation κ π) (id : ObjectId)
    (verb : AuditVerb) :
    (m.linesFor s id).countP (·.verb = verb)
      = (m.added s).countP fun a => a.1 = id ∧ a.2.entry.verb = verb := by
  unfold linesFor addressedTo
  rw [List.countP_map, List.countP_map, List.countP_filter]
  refine List.countP_congr fun a _ => ?_
  have hverb : (a.2.entry.objectLine a.2.user).verb = a.2.entry.verb := rfl
  simp [hverb, and_comm]

/-- With auditing on, a recording adds one line with a given verb to the log of
    the object that it is called on, if that verb is its own and no end of an
    edge is unresolved, and none to any other log. -/
theorem countP_linesFor (hon : s.options.anyAudit = true) (m : Mutation κ π) (id : ObjectId)
    {verb : AuditVerb} (hown : verb.isOwn = true) :
    (m.linesFor s id).countP (·.verb = verb) = if m.leavesLine id verb then 1 else 0 := by
  rw [countP_linesFor_eq]
  unfold leavesLine
  cases hresolved : m.isResolved with
  | false =>
    rw [added_of_unresolved s hresolved]
    rfl
  | true =>
    cases hcalled : m.calledOn with
    | none =>
      rw [added_of_not_called s hcalled]
      rfl
    | some call =>
      obtain ⟨object, verb'⟩ := call
      obtain ⟨own, others, hadded, rfl, hothers⟩ := added_of_calledOn hon hresolved hcalled
      -- The entries at the end nodes have other verbs.
      have hnone : others.countP (fun a => a.1 = id ∧ a.2.entry.verb = verb) = 0 := by
        refine List.countP_eq_zero.mpr fun a ha h => ?_
        have hverb := (of_decide_eq_true h).2
        have hedge := hothers a ha
        rw [hverb, hown] at hedge
        cases hedge
      rw [hadded, List.countP_cons, hnone, Nat.zero_add]
      rfl

end Mutation

/-! ## Runs and single calls -/

namespace Staging

variable {s : Staging κ π}

/-- **A run.**  A run of recordings adds the lines of all of them to the log of
    every object; those with a verb of its own are as many as the calls that
    leave one. -/
theorem objectLogOf_afterAll (hon : s.options.anyAudit = true) {ms : List (Mutation κ π)}
    (hms : ∀ m ∈ ms, m.isClear = false) (id : ObjectId) :
    (s.afterAll ms).objectLogOf id = s.objectLogOf id ++ linesText (s.linesAlong id ms) ∧
    ∀ verb, verb.isOwn = true → (s.linesAlong id ms).countP (·.verb = verb)
      = ms.countP fun m => m.leavesLine id verb := by
  induction ms generalizing s with
  | nil => exact ⟨String.append_empty.symm, fun _ _ => rfl⟩
  | cons m rest ih =>
    obtain ⟨hm, hrest⟩ := List.forall_mem_cons.mp hms
    have hon' : (s.after m).options.anyAudit = true := by
      rw [options_after]
      exact hon
    obtain ⟨htext, hcount⟩ := ih hon' hrest
    constructor
    · show ((s.after m).afterAll rest).objectLogOf id = _
      rw [htext, objectLogOf_after s hm, String.append_assoc, ← linesText_append]
      rfl
    · intro verb hown
      show (m.linesFor s id ++ (s.after m).linesAlong id rest).countP _ = _
      rw [List.countP_append, hcount verb hown, Mutation.countP_linesFor hon m id hown,
        List.countP_cons, Nat.add_comm]

/-- **Calls are audited, but for unresolved edges.**  With auditing on, in every
    staging area, each call that creates, writes or deletes an object, or that
    creates or deletes an edge, adds lines to the log of the object that it is
    called on.  Exactly one of them has the verb of the call, unless the call is
    about an edge with an unresolved end: then no line is added to any log. -/
theorem resolved_calls_are_audited (s : Staging κ π) (hon : s.options.anyAudit = true)
    (m : Mutation κ π) {object : Tracked κ} {verb : AuditVerb}
    (hm : m.calledOn = some (object, verb)) :
    (∃ lines, (s.after m).objectLogOf object.id = s.objectLogOf object.id ++ linesText lines ∧
      lines.countP (·.verb = verb) = if m.isResolved then 1 else 0) ∧
    (m.isResolved = false → ∀ id, (s.after m).objectLogOf id = s.objectLogOf id) := by
  have hclear : m.isClear = false := by
    cases m with
    | clear => cases hm
    | _ => rfl
  have hown : verb.isOwn = true := by
    cases m with
    | create => obtain ⟨-, rfl⟩ := Prod.mk.inj (Option.some.inj hm); rfl
    | modify => obtain ⟨-, rfl⟩ := Prod.mk.inj (Option.some.inj hm); rfl
    | delete => obtain ⟨-, rfl⟩ := Prod.mk.inj (Option.some.inj hm); rfl
    | createEdge => obtain ⟨-, rfl⟩ := Prod.mk.inj (Option.some.inj hm); rfl
    | deleteEdge => obtain ⟨-, rfl⟩ := Prod.mk.inj (Option.some.inj hm); rfl
    | _ => cases hm
  refine ⟨⟨m.linesFor s object.id, objectLogOf_after s hclear object.id, ?_⟩, ?_⟩
  · rw [Mutation.countP_linesFor hon m object.id hown]
    unfold Mutation.leavesLine
    rw [hm]
    simp
  · intro hunresolved id
    rw [objectLogOf_after s hclear, Mutation.linesFor, Mutation.added_of_unresolved s hunresolved]
    exact String.append_empty

/-- An edge from a node, whose target may be unresolved. -/
def danglingEdge (target? : Option (Tracked Unit)) : Edge Unit :=
  ⟨⟨⟨.edge, 3⟩, "r-3", ()⟩, some ⟨"KNOWS"⟩, some ⟨⟨.node, 1⟩, "n-1", ()⟩, target?⟩

/-- The creation of an edge between two nodes leaves its line. -/
theorem resolved_calls_are_audited_of_edge :
    let s : Staging Unit Unit := new { auditEnabled := true } ∅
    let edge := danglingEdge (some ⟨⟨.node, 2⟩, "n-2", ()⟩)
    ∃ lines, (s.after (.createEdge none edge)).objectLogOf edge.object.id = linesText lines ∧
      lines.countP (·.verb = .create) = 1 := by
  intro s edge
  obtain ⟨⟨lines, htext, hcount⟩, -⟩ :=
    resolved_calls_are_audited s rfl (.createEdge none edge) rfl
  exact ⟨lines, htext.trans String.empty_append, hcount⟩

/-- Not every call is audited: the creation of an edge whose target cannot be
    resolved leaves a record of the edge, and no line. -/
theorem unresolved_calls_are_not_audited :
    (((new { auditEnabled := true } ∅ : Staging Unit Unit).after
      (.createEdge none (danglingEdge none))).find? ⟨.edge, 3⟩).isSome = true ∧
    ¬ ∀ (s : Staging Unit Unit) (m : Mutation Unit Unit) (object : Tracked Unit)
        (verb : AuditVerb), s.options.anyAudit = true → m.calledOn = some (object, verb) →
      ∃ lines, (s.after m).objectLogOf object.id = s.objectLogOf object.id ++ linesText lines ∧
        lines.countP (·.verb = verb) = 1 := by
  refine ⟨rfl, fun hall => ?_⟩
  obtain ⟨lines, htext, hcount⟩ := hall (new { auditEnabled := true } ∅)
    (.createEdge none (danglingEdge none)) _ _ rfl rfl
  cases lines with
  | nil => cases hcount
  | cons line rest =>
    refine linesText_ne_empty line rest ?_
    rw [← String.empty_append (s := linesText (line :: rest))]
    exact htext.symm

end Staging

end ChangeLedger
