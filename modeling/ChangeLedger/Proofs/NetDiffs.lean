/-
  ChangeLedger.Proofs.NetDiffs — the net difference of a property, read off its writes.

  A property is written by recordings that say so, and by edge events that show
  at an end.  However many writes there are, the record keeps one difference:
  the value before the first write and the value after the last one.  Beside
  it the record lists which properties came into being and which went away;
  these lists say nothing that the differences do not say.

  Main results:
    * `isSome_netDiff?_iff`, `netDiff?_concat` — when there is a difference, and
      how one more write changes it.
    * `Record.modified_applyAll`, `Record.Listed.applyAll` — the differences and
      the two lists after changes of a record.
    * `Transaction.net_diffs_merge_writes` — the differences and the lists of
      every record at every moment.
-/
import ChangeLedger.Proofs.References
import ChangeLedger.Proofs.Replay

namespace ChangeLedger

variable {κ π σ : Type}

/-! ## Writes and their net difference -/

/-- A write of one property of one object. -/
structure PropertyWrite where
  /-- The identity of the object. -/
  owner : ObjectId
  /-- The property. -/
  key : PropertyKey
  /-- The value that the write takes to have been there. -/
  previous : Option Value
  /-- The value that it leaves. -/
  new : Option Value

/-- Whether the write is one of this property of this object. -/
def PropertyWrite.isOf (id : ObjectId) (key : PropertyKey) (w : PropertyWrite) : Bool :=
  w.owner = id ∧ w.key = key

/-- The net difference that writes make to a property: from before the first
    one to after the last one. -/
def netDiff? (id : ObjectId) (key : PropertyKey) (writes : List PropertyWrite) :
    Option PropertyDiff :=
  let own := writes.filter (PropertyWrite.isOf id key)
  match own.head?, own.getLast? with
  | some first, some last => some ⟨first.previous, last.new⟩
  | _, _ => none

/-- A property has a difference if it was written. -/
theorem isSome_netDiff?_iff (id : ObjectId) (key : PropertyKey) (writes : List PropertyWrite) :
    (netDiff? id key writes).isSome = true ↔ ∃ w ∈ writes, w.owner = id ∧ w.key = key := by
  have hown : (netDiff? id key writes).isSome = true ↔
      writes.filter (PropertyWrite.isOf id key) ≠ [] := by
    unfold netDiff?
    cases writes.filter (PropertyWrite.isOf id key) with
    | nil => exact iff_of_false Bool.false_ne_true fun hne => hne rfl
    | cons first rest =>
      dsimp only
      rw [List.head?_cons, List.getLast?_cons]
      exact iff_of_true rfl (List.cons_ne_nil first rest)
  rw [hown, ne_eq, List.filter_eq_nil_iff]
  simp only [PropertyWrite.isOf, decide_eq_true_iff, not_forall, not_not, exists_prop]

/-- A difference after one more write. -/
def PropertyWrite.merge (w : PropertyWrite) (diff? : Option PropertyDiff) : PropertyDiff :=
  ⟨match diff? with
    | some diff => diff.previous
    | none => w.previous, w.new⟩

/-- One more write changes the difference of its own property, and no other. -/
theorem netDiff?_concat (id : ObjectId) (key : PropertyKey) (writes : List PropertyWrite)
    (w : PropertyWrite) :
    netDiff? id key (writes ++ [w]) =
      if w.isOf id key then some (w.merge (netDiff? id key writes))
      else netDiff? id key writes := by
  unfold netDiff?
  rw [List.filter_append, List.filter_singleton]
  cases hw : w.isOf id key with
  | false =>
    rw [if_neg Bool.false_ne_true, cond_false, List.append_nil]
  | true =>
    rw [if_pos rfl, cond_true]
    -- Either the write is the first one of the property, or only the last.
    cases writes.filter (PropertyWrite.isOf id key) with
    | nil => rfl
    | cons first rest =>
      dsimp only
      rw [List.getLast?_concat, List.getLast?_cons]
      rfl

namespace PropertyDiff

/-- The value of a property that came into being. -/
def created? : PropertyDiff → Option Value
  | ⟨none, some value⟩ => some value
  | _ => none

/-- The value of a property that went away. -/
def removed? : PropertyDiff → Option Value
  | ⟨some value, none⟩ => some value
  | _ => none

/-- A difference tells of a property that came into being if there was no value
    before and there is one now. -/
theorem created?_eq_some_iff (d : PropertyDiff) (value : Value) :
    d.created? = some value ↔ d = ⟨none, some value⟩ := by
  obtain ⟨previous, new⟩ := d
  cases previous <;> cases new <;> simp [created?]

/-- It tells of one that went away if there was a value before and there is none
    now. -/
theorem removed?_eq_some_iff (d : PropertyDiff) (value : Value) :
    d.removed? = some value ↔ d = ⟨some value, none⟩ := by
  obtain ⟨previous, new⟩ := d
  cases previous <;> cases new <;> simp [removed?]

end PropertyDiff

/-! ## Changes of a record -/

/-- The list with this value for a property, or without the property. -/
def valuesWith (m : SortedMap PropertyKey Value) (key : PropertyKey) (value? : Option Value) :
    SortedMap PropertyKey Value :=
  match value? with
  | some value => (m.erase key).insert key value
  | none => m.erase key

theorem get?_valuesWith (m : SortedMap PropertyKey Value) (key q : PropertyKey)
    (value? : Option Value) :
    (valuesWith m key value?).get? q = if q = key then value? else m.get? q := by
  unfold valuesWith
  cases value? with
  | none => exact SortedMap.get?_erase m key q
  | some value =>
    dsimp only
    rw [SortedMap.get?_insert, SortedMap.get?_erase]
    split <;> rfl

/-- The write that a change makes to the record of `id`, if it makes one. -/
def RecordChange.write? (id : ObjectId) : RecordChange → Option PropertyWrite
  | .modify key previous new => some ⟨id, key, previous, new⟩
  | _ => none

namespace Record

/-- A write of a property merges into its difference, and the two lists follow
    the new difference. -/
theorem modify_eq (r : Record κ) (key : PropertyKey) (previous new : Option Value) :
    r.modify key previous new =
      let diff := (PropertyWrite.mk r.id key previous new).merge (r.modified.get? key)
      { r.touch with
        modified := r.modified.insert key diff
        created := valuesWith r.created key diff.created?
        removed := valuesWith r.removed key diff.removed? } := by
  unfold modify PropertyWrite.merge
  dsimp only
  rw [show r.touch.modified = r.modified from rfl]
  cases r.modified.get? key with
  | none => cases previous <;> cases new <;> rfl
  | some diff =>
    obtain ⟨first, last⟩ := diff
    cases first <;> cases new <;> rfl

/-- A change of a record merges its write, if it is one, into the difference of
    the property. -/
theorem modified_apply (r : Record κ) (c : RecordChange) (key : PropertyKey) :
    (r.apply c).modified.get? key =
      match c.write? r.id with
      | some w =>
        if w.isOf r.id key then some (w.merge (r.modified.get? key)) else r.modified.get? key
      | none => r.modified.get? key := by
  cases c with
  | modify k previous new =>
    show (r.modify k previous new).modified.get? key = _
    rw [modify_eq]
    dsimp only
    rw [SortedMap.get?_insert]
    by_cases hk : key = k
    · subst hk
      rw [if_pos rfl]
      exact (if_pos (decide_eq_true ⟨rfl, rfl⟩)).symm
    · rw [if_neg hk]
      exact (if_neg (ne_true_of_eq_false (decide_eq_false fun h => hk h.2.symm))).symm
  | changeRef event k other =>
    show (r.changeRef event k other).modified.get? key = _
    rw [changeRef_eq]
    rfl
  | _ => rfl

/-- Changes of a record merge their writes into its differences. -/
theorem modified_applyAll {r : Record κ} {writes : List PropertyWrite}
    (h : ∀ key, r.modified.get? key = netDiff? r.id key writes) (cs : List RecordChange)
    (key : PropertyKey) :
    (r.applyAll cs).modified.get? key =
      netDiff? r.id key (writes ++ cs.filterMap (RecordChange.write? r.id)) := by
  induction cs generalizing r writes with
  | nil =>
    rw [List.filterMap_nil, List.append_nil]
    exact h key
  | cons c rest ih =>
    have hid : (r.apply c).id = r.id := congrArg Tracked.id (object_apply r c)
    rw [← hid]
    cases hc : c.write? r.id with
    | none =>
      rw [List.filterMap_cons_none (by rw [hid, hc])]
      refine ih fun q => ?_
      rw [modified_apply, hc, hid]
      exact h q
    | some w =>
      rw [List.filterMap_cons_some (by rw [hid, hc]), List.append_cons]
      refine ih fun q => ?_
      rw [modified_apply, hc, hid, netDiff?_concat, ← h q]

/-- The two lists say of each property what its difference says. -/
def Listed (r : Record κ) : Prop :=
  ∀ key, r.created.get? key = (r.modified.get? key).bind PropertyDiff.created? ∧
    r.removed.get? key = (r.modified.get? key).bind PropertyDiff.removed?

theorem Listed.modify {r : Record κ} (h : r.Listed) (key : PropertyKey)
    (previous new : Option Value) : (r.modify key previous new).Listed := by
  intro q
  rw [modify_eq]
  dsimp only
  rw [get?_valuesWith, get?_valuesWith, SortedMap.get?_insert]
  split
  · exact ⟨rfl, rfl⟩
  · exact h q

theorem Listed.apply {r : Record κ} (h : r.Listed) (c : RecordChange) : (r.apply c).Listed := by
  cases c with
  | modify key previous new => exact h.modify key previous new
  | changeRef event key other =>
    show (r.changeRef event key other).Listed
    rw [changeRef_eq]
    exact h
  | _ => exact h

/-- Changes of a record keep its lists in step with its differences. -/
theorem Listed.applyAll {r : Record κ} (h : r.Listed) (cs : List RecordChange) :
    (r.applyAll cs).Listed := by
  induction cs generalizing r with
  | nil => exact h
  | cons c rest ih => exact ih (h.apply c)

end Record

/-! ## The writes of recordings -/

/-- The write in which an edge event shows at a described end: a collection is
    touched, and a scalar is set to the other node or loses it. -/
def EndDescription.writeAt (d : EndDescription) (event : EdgeEvent) (node other : Tracked κ) :
    PropertyWrite :=
  match d.cardinality, event with
  | .collection, _ => ⟨node.id, d.key, none, some (.list [])⟩
  | .scalar, .created => ⟨node.id, d.key, none, some (.ref other.uuid)⟩
  | .scalar, .deleted => ⟨node.id, d.key, some (.ref other.uuid), none⟩

@[simp] theorem EndDescription.key_writeAt (d : EndDescription) (event : EdgeEvent)
    (node other : Tracked κ) : (d.writeAt event node other).key = d.key := by
  unfold writeAt
  cases d.cardinality <;> cases event <;> rfl

/-- The writes in which an edge event shows, that of the source first.  Both
    ends have to be in reach, and the type must not be a well-known one. -/
def Schema.edgeWrites (schema : Schema) (event : EdgeEvent) (edge : Edge κ) : List PropertyWrite :=
  match edge.type?, edge.source?, edge.target? with
  | some type, some source, some target =>
    match type.aspect?, schema.describe? type with
    | none, some d =>
      (d.source?.map fun described => described.writeAt event source target).toList ++
        (d.target?.map fun described => described.writeAt event target source).toList
    | _, _ => []
  | _, _, _ => []

/-- The writes that a recording in a staging area makes, in order. -/
def Mutation.propertyWrites (s : Staging κ π) : Mutation κ π → List PropertyWrite
  | .modify _ object key previous new => [⟨object.id, key, previous, new⟩]
  | .createEdge _ edge => s.schema.edgeWrites .created edge
  | .deleteEdge _ edge _ => s.schema.edgeWrites .deleted edge
  | _ => []

/-- The writes of a history, in order. -/
def writesIn (past : List (Recorded κ π)) : List PropertyWrite :=
  past.flatMap fun p => p.2.propertyWrites p.1

/-- The writes of a touch. -/
def Touch.propertyWrites (x : Touch κ) : List PropertyWrite :=
  x.changes.filterMap (RecordChange.write? x.object.id)

namespace Staging

/-- An edge event writes one property at each described end. -/
theorem propertyWrites_endTouches (event : EdgeEvent) (tracked : Bool) (d : EndDescription)
    (node other : Tracked κ) :
    (endTouches event tracked d node other).flatMap Touch.propertyWrites =
      [d.writeAt event node other] := by
  have hwrite : d.writeAt event node other
      = ⟨node.id, d.key, (d.written event other.uuid).1, (d.written event other.uuid).2⟩ := by
    unfold EndDescription.writeAt EndDescription.written
    cases d.cardinality <;> cases event <;> rfl
  rw [hwrite]
  unfold endTouches
  -- A reference is no property.
  cases tracked <;> rfl

/-- Its writes are those of the described ends, the source first. -/
theorem propertyWrites_foldTouches (s : Staging κ π) (event : EdgeEvent) (edge : Edge κ)
    {source target : Tracked κ} (hs : edge.source? = some source)
    (ht : edge.target? = some target) :
    (s.foldTouches event edge.type? source target).flatMap Touch.propertyWrites =
      s.schema.edgeWrites event edge := by
  unfold foldTouches Schema.edgeWrites
  rw [hs, ht]
  cases edge.type? with
  | none => rfl
  | some type =>
    dsimp only
    cases type.aspect? with
    | some aspect => rfl
    | none =>
      dsimp only
      cases s.schema.describe? type with
      | none => rfl
      | some d =>
        dsimp only
        rw [List.flatMap_append]
        congr 1
        · cases d.source? with
          | none => rfl
          | some described => exact propertyWrites_endTouches event _ described source target
        · cases d.target? with
          | none => rfl
          | some described => exact propertyWrites_endTouches event _ described target source

/-- The audit entries that follow it write nothing. -/
theorem propertyWrites_followTouches (s : Staging κ π) (event : EdgeEvent)
    (user : Option Principal) (edge : Edge κ) :
    (s.followTouches event user edge).flatMap Touch.propertyWrites =
      s.schema.edgeWrites event edge := by
  unfold followTouches
  cases hs : edge.source? with
  | none =>
    unfold Schema.edgeWrites
    rw [hs]
    cases edge.type? <;> rfl
  | some source =>
    cases ht : edge.target? with
    | none =>
      unfold Schema.edgeWrites
      rw [hs, ht]
      cases edge.type? <;> rfl
    | some target =>
      dsimp only
      rw [List.flatMap_append, propertyWrites_foldTouches s event edge hs ht]
      -- Audit entries write no properties.
      cases s.options.anyAudit <;> exact List.append_nil _

theorem propertyWrites_auditChanges (s : Staging κ π) (user : Option Principal)
    (entry : AuditEntry) (id : ObjectId) :
    (s.auditChanges user entry).filterMap (RecordChange.write? id) = [] := by
  unfold auditChanges
  split <;> rfl

/-- The properties that a recording writes are those that its touches write. -/
theorem propertyWrites_touches (s : Staging κ π) (m : Mutation κ π) :
    (m.touches s).flatMap Touch.propertyWrites = m.propertyWrites s := by
  cases m with
  | create user object =>
    show List.filterMap _ (_ :: s.auditChanges user _) ++ [] = []
    rw [List.filterMap_cons_none rfl, propertyWrites_auditChanges]
    rfl
  | modify user object key previous new =>
    show List.filterMap _ (s.auditChanges user _ ++ [_]) ++ [] = [_]
    rw [List.filterMap_append, propertyWrites_auditChanges]
    rfl
  | delete user object passive =>
    show List.filterMap _ (_ :: s.auditChanges user _) ++ [] = []
    rw [List.filterMap_cons_none rfl, propertyWrites_auditChanges]
    rfl
  | createEdge user edge => exact propertyWrites_followTouches s .created user edge
  | deleteEdge user edge passive => exact propertyWrites_followTouches s .deleted user edge
  | propagate object =>
    show List.flatMap Touch.propertyWrites (if s.propagated.contains object.id ||
      s.contains object.id then [] else [⟨object, .propagated, [.propagate]⟩]) = []
    split <;> rfl
  | _ => rfl

end Staging

/-! ## The writes of a history -/

/-- A write belongs to the record that is changed. -/
theorem RecordChange.owner_of_write? {c : RecordChange} {id : ObjectId} {w : PropertyWrite}
    (h : c.write? id = some w) : w.owner = id := by
  cases c with
  | modify key previous new => rw [← Option.some.inj h]
  | _ => cases h

/-- The difference of a property depends on the touches of its owner alone. -/
theorem netDiff?_changesTo (id : ObjectId) (key : PropertyKey) (xs : List (Touch κ)) :
    netDiff? id key ((changesTo id xs).filterMap (RecordChange.write? id)) =
      netDiff? id key (xs.flatMap Touch.propertyWrites) := by
  have hown : ((changesTo id xs).filterMap (RecordChange.write? id)).filter
      (PropertyWrite.isOf id key)
      = (xs.flatMap Touch.propertyWrites).filter (PropertyWrite.isOf id key) := by
    induction xs with
    | nil => rfl
    | cons x rest ih =>
      rw [changesTo_cons, List.filterMap_append, List.filter_append, ih, List.flatMap_cons,
        List.filter_append]
      congr 1
      unfold Touch.propertyWrites
      cases hx : x.concerns id with
      | true =>
        have hid : x.object.id = id := of_decide_eq_true hx
        rw [if_pos rfl, hid]
      | false =>
        -- The writes belong to another object.
        have hid : ¬ x.object.id = id := of_decide_eq_false hx
        rw [if_neg Bool.false_ne_true, List.filterMap_nil, List.filter_nil, eq_comm,
          List.filter_eq_nil_iff]
        intro w hw hof
        obtain ⟨c, -, hc⟩ := List.mem_filterMap.mp hw
        exact hid ((RecordChange.owner_of_write? hc).symm.trans (of_decide_eq_true hof).1)
  unfold netDiff?
  rw [hown]

/-- The writes of a history are those of its touches, one after the other. -/
theorem propertyWrites_touchesIn (past : List (Recorded κ π)) :
    (touchesIn past).flatMap Touch.propertyWrites = writesIn past := by
  unfold touchesIn writesIn
  rw [List.flatMap_assoc]
  exact congrArg (List.flatMap · past) (funext fun p => Staging.propertyWrites_touches p.1 p.2)

/-- The differences of a record merge the writes of the history, and its two
    lists say the same as the differences. -/
theorem Staging.Replayed.netDiff {s : Staging κ π} {past : List (Recorded κ π)}
    (hs : s.Replayed past) {id : ObjectId} {r : Record κ} (hr : s.find? id = some r) :
    (∀ key, r.modified.get? key = netDiff? id key (writesIn past)) ∧ r.Listed := by
  obtain ⟨x, hx, hcontent⟩ := hs.content_eq hr
  -- The record that the first touch opened had no differences yet.
  let opened := Record.opened x.object 0 x.initial
  have hid : opened.id = id := by
    have hconcerns := List.find?_some hx
    exact of_decide_eq_true hconcerns
  constructor
  · intro key
    have hnone : ∀ key, opened.modified.get? key = netDiff? opened.id key [] := fun _ => rfl
    have hmerged := Record.modified_applyAll hnone (changesTo id (touchesIn past)) key
    show r.content.modified.get? key = _
    rw [hcontent]
    show (opened.applyAll (changesTo id (touchesIn past))).modified.get? key = _
    rw [hmerged, List.nil_append, hid, netDiff?_changesTo, propertyWrites_touchesIn]
  · have hlisted : opened.Listed := fun _ => ⟨rfl, rfl⟩
    show r.content.Listed
    rw [hcontent]
    exact hlisted.applyAll (changesTo id (touchesIn past))

namespace Transaction

/-- At every moment of every reachable ledger, between any two recordings, also
    those of one inner hook: a record has a difference of exactly those
    properties that were written, and it goes from before the first write to
    after the last one.  The properties that came into being are exactly those
    with a difference from none to some value, and those that went away exactly
    those with a difference from some value to none. -/
theorem net_diffs_merge_writes (h : Hooks κ π σ) (script : InnerScript κ π σ)
    (plan : InnerPlan κ π σ) (depth : Nat) (sink : Sink σ) (options : Options) (schema : Schema)
    (world : σ) (moves : List (Move κ π σ)) (s : Staging κ π) (past : List (Recorded κ π))
    (hm : (reached (h.nested script plan sink depth) sink options schema world moves).Moment
      s past) :
    ∀ r ∈ s.records, ∀ key,
      (r.modified.contains key = true ↔ ∃ w ∈ writesIn past, w.owner = r.id ∧ w.key = key) ∧
      r.modified.get? key = netDiff? r.id key (writesIn past) ∧
      (∀ value, r.created.get? key = some value ↔
        r.modified.get? key = some ⟨none, some value⟩) ∧
      ∀ value, r.removed.get? key = some value ↔
        r.modified.get? key = some ⟨some value, none⟩ := by
  have hboth : KeptAlong fun (s : Staging κ π) past => s.Ordered ∧ s.Replayed past :=
    keptAlong_ordered.and keptAlong_replayed
  obtain ⟨hordered, hreplayed⟩ := hboth.atMoments h script plan depth sink
    ⟨ordered_new options schema, replayed_new options schema⟩ world moves hm
  intro r hr key
  obtain ⟨hdiffs, hlisted⟩ := hreplayed.netDiff (hordered.find?_of_mem hr)
  refine ⟨?_, hdiffs key, fun value => ?_, fun value => ?_⟩
  · unfold SortedMap.contains
    rw [hdiffs key]
    exact isSome_netDiff?_iff r.id key (writesIn past)
  · rw [(hlisted key).1, Option.bind_eq_some_iff]
    simp only [PropertyDiff.created?_eq_some_iff, exists_eq_right]
  · rw [(hlisted key).2, Option.bind_eq_some_iff]
    simp only [PropertyDiff.removed?_eq_some_iff, exists_eq_right]

/-- A node has one other node that it knows best, and the other way round any
    number of them. -/
def favouriteSchema : Schema :=
  Schema.empty.register ⟨"KNOWS"⟩
    ⟨some ⟨.plain "favourite", .scalar⟩, some ⟨.plain "admirers", .collection⟩⟩

/-- The edge between the nodes goes, and the property that showed it is written
    once more. -/
def partingMoves : List (Move Unit Unit MemoryLog) :=
  [.record (.deleteEdge none (acquaintance 3 ada bob) false),
    .record (.modify none ada (.plain "favourite") (some .null) none)]

/-- What was there before the edge went is what the property lost. -/
theorem net_diffs_merge_writes_parting :
    let t := reached (idleHooks.nested idleScript idlePlan MemoryLog.sink 0) MemoryLog.sink
      {} favouriteSchema ∅ partingMoves
    ∃ r ∈ t.staging.records, r.id = ada.id ∧
      r.removed.get? (.plain "favourite") = some (.ref "n-2") := by
  intro t
  have hdiffs := net_diffs_merge_writes idleHooks idleScript idlePlan 0 MemoryLog.sink {}
    favouriteSchema ∅ partingMoves _ _ .now
  obtain ⟨r, hr, hid⟩ : ∃ r ∈ t.staging.records, r.id = ada.id :=
    ⟨_, List.mem_cons_of_mem _ List.mem_cons_self, rfl⟩
  obtain ⟨-, hdiff, -, hremoved⟩ := hdiffs r hr (.plain "favourite")
  refine ⟨r, hr, hid, (hremoved _).mpr (hdiff.trans ?_)⟩
  rw [hid]
  rfl

end Transaction

end ChangeLedger
