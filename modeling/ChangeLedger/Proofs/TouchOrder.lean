/-
  ChangeLedger.Proofs.TouchOrder — the records are the touched objects, in the order of first touch.

  Every recording touches its objects in a known order: the object itself, or
  an edge, then the ends that show it, then, if audits are on, the edge and
  both ends.  An object whose identity is new gets a record with the next tick
  at the end of the records; no other touch adds a record or moves one.

  So the records are determined by the history: they are the objects that it
  touches, each as it was when its identity first occurred, and their ticks
  count up from the one at which the history began.

  Main results:
    * `Staging.newcomers_touches` — the order in which a recording touches.
    * `RecordTable.stamps_touchAll` — the records that touches add.
    * `Staging.FirstTouches.after`, `keptAlong_firstTouches` — the records of a
      history.
-/
import ChangeLedger.Proofs.CommitProtocol
import ChangeLedger.Proofs.History
import ChangeLedger.Proofs.Reordering
import ChangeLedger.Proofs.Ticks

namespace ChangeLedger

variable {κ π σ : Type}

/-! ## The order of touches -/

namespace Staging

/-- The ends of an edge that show it, in order: both if the type is well known,
    and those that the schema describes otherwise. -/
def shownEnds (s : Staging κ π) (type? : Option EdgeType) (source target : Tracked κ) :
    List (Tracked κ) :=
  match type? with
  | none => []
  | some type =>
    if type.aspect?.isSome then [source, target]
    else match s.schema.describe? type with
      | none => []
      | some d =>
        (if d.source?.isSome then [source] else []) ++ if d.target?.isSome then [target] else []

/-- The objects that an edge event touches after the edge, in order. -/
def followOrder (s : Staging κ π) (edge : Edge κ) : List (Tracked κ) :=
  match edge.source?, edge.target? with
  | some source, some target =>
    s.shownEnds edge.type? source target ++
      if s.options.anyAudit then [edge.object, source, target] else []
  | _, _ => []

end Staging

/-- The objects that a recording touches, in order. -/
def Mutation.touchOrder (s : Staging κ π) : Mutation κ π → List (Tracked κ)
  | .create _ object | .modify _ object .. | .delete _ object _ | .propagate object
  | .flagAspect _ object | .setCallback object _ => [object]
  | .createEdge _ edge | .deleteEdge _ edge _ => edge.object :: s.followOrder edge
  | .defer .. | .disableLog | .describeEdges .. | .clear => []

/-! ## First occurrences -/

/-- Of the objects, those whose identity nothing in `seen` has, each as it is
    when the identity first occurs. -/
def newcomers (seen : List (Tracked κ)) : List (Tracked κ) → List (Tracked κ)
  | [] => []
  | object :: rest =>
    if seen.any fun o => o.id = object.id then newcomers seen rest
    else object :: newcomers (seen ++ [object]) rest

/-- The newcomers of a run are those of its first part, and then those that the
    first part has not seen. -/
theorem newcomers_append (seen xs ys : List (Tracked κ)) :
    newcomers seen (xs ++ ys) = newcomers seen xs ++ newcomers (seen ++ newcomers seen xs) ys := by
  induction xs generalizing seen with
  | nil => rw [List.nil_append, newcomers, List.nil_append, List.append_nil]
  | cons x rest ih =>
    rw [List.cons_append, newcomers, newcomers]
    split
    · exact ih seen
    · rw [ih, List.cons_append, List.append_assoc, List.singleton_append]

/-- The identities that occur at all are those that were seen and those of the
    newcomers. -/
theorem any_newcomers (seen xs : List (Tracked κ)) (id : ObjectId) :
    ((seen ++ newcomers seen xs).any fun o => o.id = id) =
      (seen.any (fun o => o.id = id) || xs.any fun o => o.id = id) := by
  induction xs generalizing seen with
  | nil => rw [newcomers, List.append_nil, List.any_nil, Bool.or_false]
  | cons x rest ih =>
    rw [newcomers]
    split
    next hseen =>
      rw [ih, List.any_cons]
      -- If the head has the identity, then so has something that was seen.
      by_cases hx : x.id = id
      · rw [← hx, hseen]
        rfl
      · rw [decide_eq_false hx, Bool.false_or]
    next =>
      have hrest := ih (seen ++ [x])
      rw [List.append_assoc, List.singleton_append] at hrest
      rw [hrest, List.any_append, List.any_cons, List.any_cons, List.any_nil, Bool.or_false,
        Bool.or_assoc]

/-- The same identities occur for the first time in the same order, whatever
    was seen before. -/
def SameNewcomers (xs ys : List (Tracked κ)) : Prop :=
  ∀ seen, newcomers seen xs = newcomers seen ys

namespace SameNewcomers

variable {xs xs' ys ys' : List (Tracked κ)}

theorem refl (xs : List (Tracked κ)) : SameNewcomers xs xs := fun _ => rfl

/-- Lists with the same newcomers may be joined. -/
theorem append (h : SameNewcomers xs xs') (h' : SameNewcomers ys ys') :
    SameNewcomers (xs ++ ys) (xs' ++ ys') := by
  intro seen
  rw [newcomers_append, newcomers_append, h, h']

/-- An object that occurs twice in a row might as well occur once. -/
theorem twice (x : Tracked κ) : SameNewcomers [x, x] [x] := by
  intro seen
  have hseen : ((seen ++ newcomers seen [x]).any fun o => o.id = x.id) = true := by
    rw [any_newcomers, List.any_cons, decide_eq_true rfl, Bool.true_or, Bool.or_true]
  have hagain : newcomers (seen ++ newcomers seen [x]) [x] = [] := by
    rw [newcomers, if_pos hseen, newcomers]
  rw [show [x, x] = [x] ++ [x] from rfl, newcomers_append, hagain, List.append_nil]

end SameNewcomers

/-! ## The touches of a recording come in that order -/

namespace RecordTable

/-- The objects of the records. -/
def objects (b : RecordTable κ) : List (Tracked κ) := b.records.map Record.object

theorem contains_eq_any (b : RecordTable κ) (id : ObjectId) :
    b.contains id = b.objects.any fun o => o.id = id := by
  unfold contains find? findRecord objects
  rw [List.any_map, List.isSome_find?]
  rfl

end RecordTable

namespace Staging

/-- A described end is touched once, or twice in a row. -/
theorem sameNewcomers_endTouches (event : EdgeEvent) (tracked : Bool) (d : EndDescription)
    (node other : Tracked κ) :
    SameNewcomers ((endTouches event tracked d node other).map Touch.object) [node] := by
  unfold endTouches
  cases tracked with
  | true => exact .twice node
  | false => exact .refl [node]

/-- What an edge event folds into its ends brings the ends, the source first, if
    it folds anything. -/
theorem sameNewcomers_foldTouches (s : Staging κ π) (event : EdgeEvent) (type? : Option EdgeType)
    (source target : Tracked κ) :
    SameNewcomers ((s.foldTouches event type? source target).map Touch.object)
      (s.shownEnds type? source target) := by
  unfold foldTouches shownEnds
  cases type? with
  | none => exact .refl []
  | some type =>
    dsimp only
    cases type.aspect? with
    | some aspect => exact .refl [source, target]
    | none =>
      dsimp only
      rw [if_neg (by simp)]
      cases s.schema.describe? type with
      | none => exact .refl []
      | some d =>
        dsimp only
        rw [List.map_append]
        -- Each end is shown for itself, the source first.
        refine .append ?_ ?_
        · cases d.source? with
          | none => exact .refl []
          | some described => exact sameNewcomers_endTouches event _ described source target
        · cases d.target? with
          | none => exact .refl []
          | some described => exact sameNewcomers_endTouches event _ described target source

theorem sameNewcomers_followTouches (s : Staging κ π) (event : EdgeEvent)
    (user : Option Principal) (edge : Edge κ) :
    SameNewcomers ((s.followTouches event user edge).map Touch.object) (s.followOrder edge) := by
  unfold followTouches followOrder
  cases edge.source? with
  | none => exact .refl []
  | some source =>
    cases edge.target? with
    | none => exact .refl []
    | some target =>
      dsimp only
      rw [List.map_append]
      refine .append (s.sameNewcomers_foldTouches event edge.type? source target) ?_
      cases s.options.anyAudit with
      | true => exact .refl [edge.object, source, target]
      | false => exact .refl []

/-- Every marked identity has a record. -/
def MarksRecorded (s : Staging κ π) : Prop := ∀ id, s.isPropagated id = true → s.contains id = true

/-- A recording brings the newcomers among the objects that it touches, in
    their order.  A mark touches no object that is marked already; but then the
    object is no newcomer. -/
theorem newcomers_touches {s : Staging κ π} (hs : s.MarksRecorded) (m : Mutation κ π) :
    newcomers s.table.objects ((m.touches s).map Touch.object) =
      newcomers s.table.objects (m.touchOrder s) := by
  cases m with
  | createEdge user edge =>
    exact SameNewcomers.append (.refl [edge.object])
      (s.sameNewcomers_followTouches .created user edge) s.table.objects
  | deleteEdge user edge passive =>
    exact SameNewcomers.append (.refl [edge.object])
      (s.sameNewcomers_followTouches .deleted user edge) s.table.objects
  | propagate object =>
    show newcomers s.table.objects (List.map Touch.object (if s.propagated.contains object.id ||
      s.contains object.id then [] else [⟨object, .propagated, [.propagate]⟩])) = _
    cases hc : s.contains object.id with
    | true =>
      rw [Bool.or_true, if_pos rfl]
      show newcomers s.table.objects [] = newcomers s.table.objects [object]
      rw [newcomers, newcomers, ← RecordTable.contains_eq_any, ← contains_table, hc, if_pos rfl,
        newcomers]
    | false =>
      have hmark : s.propagated.contains object.id = false := by
        cases hp : s.propagated.contains object.id with
        | false => rfl
        | true => exact absurd (hs object.id hp) (by rw [hc]; exact Bool.false_ne_true)
      rw [hmark, Bool.or_false, if_neg Bool.false_ne_true]
      rfl
  | _ => rfl

/-- A recording that drops nothing marks what it is asked to mark, and nothing
    else. -/
theorem propagated_after {s : Staging κ π} {m : Mutation κ π} (hm : m.isClear = false) :
    (s.after m).propagated = (marks m).foldl SortedSet.insert s.propagated := by
  cases hop : m.isOperation with
  | true => exact propagated_after_operation hop
  | false =>
    cases m with
    | defer key action =>
      show (s.defer key action).2.propagated = _
      unfold defer
      split <;> rfl
    | disableLog => rfl
    | describeEdges type d => rfl
    | clear => cases hm
    | _ => cases hop

/-- After a recording that drops nothing, those objects are marked that were
    marked before, and those that the recording marks. -/
theorem isPropagated_after_iff {s : Staging κ π} {m : Mutation κ π} (hm : m.isClear = false)
    {id : ObjectId} :
    (s.after m).isPropagated id = true ↔ id ∈ marks m ∨ s.isPropagated id = true := by
  unfold isPropagated
  rw [propagated_after hm, SortedSet.contains_foldl_insert]

/-- A recording that drops nothing keeps every record. -/
theorem contains_after_of_contains {s : Staging κ π} {m : Mutation κ π} (hm : m.isClear = false)
    {id : ObjectId} (hid : s.contains id = true) : (s.after m).contains id = true := by
  rw [contains_table, table_after_touches s hm, RecordTable.contains_touchAll, ← contains_table,
    hid, Bool.true_or]

/-- A recording keeps every marked object in the records. -/
theorem MarksRecorded.after {s : Staging κ π} (hs : s.MarksRecorded) {m : Mutation κ π}
    (hm : m.isClear = false) : (s.after m).MarksRecorded := by
  intro id hid
  by_cases hc : s.contains id = true
  · exact contains_after_of_contains hm hc
  · -- An object without a record was not marked, so that marking it touches it.
    have hp : ¬ s.isPropagated id = true := fun hp => hc (hs id hp)
    have hmark := ((isPropagated_after_iff hm).mp hid).resolve_right hp
    cases m with
    | propagate object =>
      have hobject : id = object.id := List.mem_singleton.mp hmark
      subst hobject
      unfold isPropagated at hp
      rw [contains_table, table_after_touches s hm, RecordTable.contains_touchAll,
        Mutation.touches, eq_false_of_ne_true hc, eq_false_of_ne_true hp, Bool.or_false,
        if_neg Bool.false_ne_true, List.any_cons, decide_eq_true rfl, Bool.true_or, Bool.or_true]
    | _ => cases hmark

end Staging

/-! ## New records -/

namespace RecordTable

theorem objects_eq_stamps (b : RecordTable κ) : b.objects = b.stamps.map Prod.fst := by
  unfold objects stamps
  rw [List.map_map]
  rfl

/-- A touch adds its object at the end, if it has no record. -/
theorem objects_touch (b : RecordTable κ) (x : Touch κ) :
    (b.touch x).objects = b.objects ++ if b.contains x.object.id then [] else [x.object] := by
  rw [objects_eq_stamps, stamps_touch, List.map_append, ← objects_eq_stamps]
  split <;> rfl

/-- The objects that touches add to the records. -/
def arrivals (b : RecordTable κ) (xs : List (Touch κ)) : List (Tracked κ) :=
  newcomers b.objects (xs.map Touch.object)

/-- The first touch decides whether its object arrives with it. -/
theorem arrivals_cons (b : RecordTable κ) (x : Touch κ) (xs : List (Touch κ)) :
    b.arrivals (x :: xs) =
      (if b.contains x.object.id then [] else [x.object]) ++ (b.touch x).arrivals xs := by
  unfold arrivals
  rw [List.map_cons, newcomers, objects_touch, ← contains_eq_any]
  split
  · rw [List.append_nil, List.nil_append]
  · rfl

/-- Touches add the stamps of the objects that arrive, with ticks that count
    up. -/
theorem stamps_touchAll (b : RecordTable κ) (xs : List (Touch κ)) :
    (b.touchAll xs).stamps = b.stamps ++ (b.arrivals xs).zipIdx b.nextTick ∧
      (b.touchAll xs).nextTick = b.nextTick + (b.arrivals xs).length := by
  induction xs generalizing b with
  | nil => exact ⟨(List.append_nil _).symm, rfl⟩
  | cons x rest ih =>
    obtain ⟨hstamps, hticks⟩ := ih (b.touch x)
    rw [touchAll_cons, hstamps, hticks, arrivals_cons, stamps_touch, nextTick_touch]
    split
    · exact ⟨by rw [List.append_nil, List.nil_append, Nat.add_zero],
        by rw [List.nil_append, Nat.add_zero]⟩
    · refine ⟨?_, ?_⟩
      · rw [List.append_assoc, List.singleton_append, List.singleton_append, List.zipIdx_cons]
      · rw [List.singleton_append, List.length_cons]
        omega

end RecordTable

namespace Staging

/-- A recording that drops nothing adds the stamps of its newcomers. -/
theorem stamps_after {s : Staging κ π} (hs : s.MarksRecorded) {m : Mutation κ π}
    (hm : m.isClear = false) :
    (s.after m).table.stamps =
        s.table.stamps ++ (newcomers s.table.objects (m.touchOrder s)).zipIdx s.nextTick ∧
      (s.after m).nextTick =
        s.nextTick + (newcomers s.table.objects (m.touchOrder s)).length := by
  rw [← newcomers_touches hs m]
  show (s.after m).table.stamps = _ ∧ (s.after m).table.nextTick = _
  rw [table_after_touches s hm]
  exact s.table.stamps_touchAll (m.touches s)

end Staging

/-! ## The records of a history -/

/-- The objects that the recordings of a history touch, in order. -/
def touchedIn (past : List (Recorded κ π)) : List (Tracked κ) :=
  past.flatMap fun p => p.2.touchOrder p.1

/-- Those objects, each when its identity first occurs. -/
def firstTouched (past : List (Recorded κ π)) : List (Tracked κ) := newcomers [] (touchedIn past)

/-- A history is extended by its newcomers. -/
theorem firstTouched_append (past later : List (Recorded κ π)) :
    firstTouched (past ++ later) =
      firstTouched past ++ newcomers (firstTouched past) (touchedIn later) := by
  unfold firstTouched touchedIn
  rw [List.flatMap_append, newcomers_append, List.nil_append]

/-- An identity was touched in the history if one of its recordings touches an
    object of that identity. -/
theorem any_firstTouched (past : List (Recorded κ π)) (id : ObjectId) :
    ((firstTouched past).any fun o => o.id = id) = true ↔
      ∃ p ∈ past, ∃ object ∈ p.2.touchOrder p.1, object.id = id := by
  have hany := any_newcomers [] (touchedIn past) id
  rw [List.nil_append, List.any_nil, Bool.false_or] at hany
  unfold firstTouched
  rw [hany, List.any_eq_true]
  simp only [touchedIn, List.mem_flatMap, decide_eq_true_iff]
  constructor
  · rintro ⟨object, ⟨p, hp, hobject⟩, hid⟩
    exact ⟨p, hp, object, hobject, hid⟩
  · rintro ⟨p, hp, object, hobject, hid⟩
    exact ⟨object, ⟨p, hp, hobject⟩, hid⟩

namespace Staging

/-- The tick at which a history began, if this is the staging area after it. -/
def startTick (s : Staging κ π) : List (Recorded κ π) → Nat
  | [] => s.nextTick
  | (first, _) :: _ => first.nextTick

/-- The records are the objects that were touched in the history, in the order
    of their first touch, and their ticks count up. -/
structure FirstTouches (s : Staging κ π) (past : List (Recorded κ π)) : Prop where
  stamps : s.table.stamps = (firstTouched past).zipIdx (s.startTick past)
  nextTick : s.nextTick = s.startTick past + (firstTouched past).length
  marks : s.MarksRecorded

/-- Where nothing is staged, a history begins. -/
theorem IsVacant.firstTouches {s : Staging κ π} (hs : s.IsVacant) : s.FirstTouches [] := by
  have hnone : s.table.stamps = [] := by
    unfold RecordTable.stamps
    rw [show s.table.records = [] from hs.records, List.map_nil]
  refine ⟨hnone, rfl, fun id hid => ?_⟩
  unfold isPropagated at hid
  rw [hs.propagated] at hid
  cases hid

namespace FirstTouches

variable {s s' : Staging κ π} {past : List (Recorded κ π)}

theorem objects (hs : s.FirstTouches past) : s.table.objects = firstTouched past := by
  rw [RecordTable.objects_eq_stamps, hs.stamps, List.zipIdx_map_fst]

/-- Only the stamps, the next tick and the marks matter. -/
theorem congr (hs : s.FirstTouches past) (hstamps : s'.table.stamps = s.table.stamps)
    (hticks : s'.nextTick = s.nextTick) (hmarks : s'.propagated = s.propagated) :
    s'.FirstTouches past := by
  have hstart : s'.startTick past = s.startTick past := by
    cases past with
    | nil => exact hticks
    | cons p rest => rfl
  refine ⟨?_, ?_, fun id hid => ?_⟩
  · rw [hstamps, hstart, hs.stamps]
  · rw [hticks, hstart, hs.nextTick]
  · unfold isPropagated at hid
    rw [hmarks] at hid
    have hc := hs.marks id hid
    rw [contains_table, RecordTable.contains_eq_any, RecordTable.objects_eq_stamps] at hc ⊢
    rw [hstamps]
    exact hc

/-- **A step.** A recording adds its newcomers to the records, in order. -/
theorem after (hs : s.FirstTouches past) (m : Mutation κ π) :
    (s.after m).FirstTouches (s.historyAfter m past) := by
  unfold historyAfter
  cases hm : m.isClear with
  | true =>
    -- The history begins anew.
    cases m with
    | clear => exact s.isVacant_clear.firstTouches
    | _ => cases hm
  | false =>
    rw [if_neg Bool.false_ne_true]
    obtain ⟨hstamps, hticks⟩ := stamps_after hs.marks hm
    have hstart : (s.after m).startTick (past ++ [(s, m)]) = s.startTick past := by
      cases past with
      | nil => rfl
      | cons p rest => rfl
    have hfirst : firstTouched (past ++ [(s, m)])
        = firstTouched past ++ newcomers s.table.objects (m.touchOrder s) := by
      rw [firstTouched_append, hs.objects]
      unfold touchedIn
      rw [List.flatMap_singleton]
    refine ⟨?_, ?_, hs.marks.after hm⟩
    · rw [hstamps, hs.stamps, hstart, hfirst, List.zipIdx_append, hs.nextTick]
    · rw [hticks, hstart, hfirst, hs.nextTick, List.length_append, Nat.add_assoc]

end FirstTouches

end Staging

/-! ## What else happens to a staging area -/

namespace Staging

theorem stamps_clearDirty (s : Staging κ π) (id : ObjectId) :
    (s.update id Record.clearDirty).table.stamps = s.table.stamps := by
  have hstamp : ∀ r : Record κ, r.clearDirty.stamp = r.stamp := fun _ => rfl
  exact RecordTable.stamps_updateRecord hstamp id s.records

theorem stamps_dropPushes (s : Staging κ π) : s.dropPushes.table.stamps = s.table.stamps := by
  show (s.records.map Record.dropPushes).map Record.stamp = s.records.map Record.stamp
  rw [List.map_map]
  rfl

end Staging

/-- Every recording keeps the records those of the history. -/
theorem keptAlong_firstTouches :
    KeptAlong fun (s : Staging κ π) past => s.FirstTouches past where
  recorded m hs := hs.after m
  cleaned id hs := hs.congr (Staging.stamps_clearDirty _ id) rfl rfl
  counted f hs := by
    refine hs.congr ?_ (Staging.nextTick_count _ f) (Staging.propagated_count _ f)
    rw [Staging.table_count]
  taken hs := hs.congr rfl rfl rfl
  drained hs := hs.congr (Staging.stamps_dropPushes _) rfl rfl

theorem firstTouches_new (options : Options) (schema : Schema) :
    (Staging.new options schema : Staging κ π).FirstTouches [] := by
  have hvacant : (Staging.new options schema : Staging κ π).IsVacant := ⟨rfl, rfl, rfl, rfl, rfl⟩
  exact hvacant.firstTouches

end ChangeLedger
