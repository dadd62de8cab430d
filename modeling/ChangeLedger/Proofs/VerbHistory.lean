/-
  ChangeLedger.Proofs.VerbHistory — the verb of a record, read off its history.

  The first deletion in a history decides on the verb of its object; without
  one, a creation at any time does; without either, an object that a mark was
  the first to touch counts as propagated until something is written to it, and
  every other one as modified.

  Nothing else changes a verb: no token, no audit entry, no mark that comes
  late, and no phase.

  Main results:
    * `keptAlong_traced` — every record is traced to the history, and so is
      what opened it.
    * `Staging.verb?_of_remarks`, `Transaction.settle_verbs` — what leaves the
      verbs alone.
    * `Transaction.verbs_follow_history` — the verb of every record at every
      moment.
-/
import ChangeLedger.Proofs.References
import ChangeLedger.Proofs.Verbs

namespace ChangeLedger

variable {κ π σ : Type}

/-! ## What a history does to an object -/

/-- A history deletes an object as its first deletion does. -/
theorem deletion?_touchesIn (id : ObjectId) (past : List (Recorded κ π)) :
    (changesTo id (touchesIn past)).findSome? RecordChange.deletion? =
      past.findSome? fun p => p.2.deletion? id := by
  induction past with
  | nil => rfl
  | cons p rest ih =>
    show (changesTo id (p.2.touches p.1 ++ touchesIn rest)).findSome? _ = _
    rw [changesTo_append, List.findSome?_append, ih, Mutation.deletion?_touches,
      List.findSome?_cons]
    cases p.2.deletion? id <;> rfl

/-- A history makes some change if one of its recordings does. -/
theorem any_touchesIn {id : ObjectId} {f : RecordChange → Bool} {g : Recorded κ π → Bool}
    (h : ∀ p : Recorded κ π, (changesTo id (p.2.touches p.1)).any f = g p)
    (past : List (Recorded κ π)) : (changesTo id (touchesIn past)).any f = past.any g := by
  induction past with
  | nil => rfl
  | cons p rest ih =>
    show (changesTo id (p.2.touches p.1 ++ touchesIn rest)).any f = _
    rw [changesTo_append, List.any_append, ih, h, List.any_cons]

/-- Whether a mark is the first recording that touches the object. -/
def openedByMark (past : List (Recorded κ π)) (id : ObjectId) : Bool :=
  (past.find? fun p => p.2.reaches p.1 id).any fun p => p.2.isMark

/-- The verb of an object that was touched, read off the history. -/
def verbIn (past : List (Recorded κ π)) (id : ObjectId) : ChangeVerb :=
  match past.findSome? fun p => p.2.deletion? id with
  | some passive => .ofDeletion passive
  | none =>
    if past.any fun p => p.2.creates id then .create
    else if openedByMark past id && !past.any fun p => p.2.writesTo p.1 id then .propagated
    else .modify

namespace Staging

/-- Of the recordings that touch an object without a record, the marks open it
    as propagated. -/
theorem opensAsMarked_touches {s : Staging κ π} (hs : s.MarksRecorded) {id : ObjectId}
    (hnew : s.contains id = false) (m : Mutation κ π) :
    ((m.touches s).find? (Touch.concerns id)).any (fun x => x.initial = .propagated) =
      (m.reaches s id && m.isMark) := by
  by_cases hm : ∃ object, m = .propagate object
  · obtain ⟨object, rfl⟩ := hm
    have hreaches : (Mutation.propagate object).reaches s id = (decide (object.id = id) || false) :=
      rfl
    have hconcerns : (⟨object, .propagated, [.propagate]⟩ : Touch κ).concerns id
      = decide (object.id = id) := rfl
    rw [Mutation.touches, hreaches]
    by_cases hid : object.id = id
    · subst hid
      -- It is not marked either, for else it would have a record.
      have hmark : s.propagated.contains object.id = false :=
        eq_false_of_ne_true fun hp =>
          absurd (hs object.id hp) (by rw [hnew]; exact Bool.false_ne_true)
      rw [decide_eq_true rfl] at hconcerns
      rw [hmark, hnew, Bool.or_false, if_neg Bool.false_ne_true, decide_eq_true rfl,
        List.find?_cons_of_pos hconcerns]
      rfl
    · rw [decide_eq_false hid] at hconcerns ⊢
      split
      · rfl
      · rw [List.find?_cons_of_neg (ne_true_of_eq_false hconcerns)]
        rfl
  · have hmark : m.isMark = false := by
      cases m with
      | propagate object => exact absurd ⟨object, rfl⟩ hm
      | _ => rfl
    rw [hmark, Bool.and_false]
    cases hx : (m.touches s).find? (Touch.concerns id) with
    | none => rfl
    | some x =>
      -- Other recordings open modified and created records only.
      have hplain : x.IsPlain :=
        isPlain_touches (fun object heq => hm ⟨object, heq⟩) (List.mem_of_find?_eq_some hx)
      cases hplain with
      | inl hmodify => rw [Option.any_some, hmodify]; rfl
      | inr hcreate => rw [Option.any_some, hcreate.1]; rfl

/-- The records say what the history replays; they are the objects that it
    touches; and those that it opened as propagated are those that a mark was
    the first to touch. -/
structure Traced (s : Staging κ π) (past : List (Recorded κ π)) : Prop where
  replayed : s.Replayed past
  firstTouches : s.FirstTouches past
  opensAsMarked : ∀ id, ((touchesIn past).find? (Touch.concerns id)).any
    (fun x => x.initial = .propagated) = openedByMark past id

namespace Traced

variable {s : Staging κ π} {past : List (Recorded κ π)}

/-- An object has a record if the history has a touch of it. -/
theorem contains_iff_touched (hs : s.Traced past) (id : ObjectId) :
    s.contains id = ((touchesIn past).find? (Touch.concerns id)).isSome := by
  have hid := congrArg Option.isSome (hs.replayed id)
  unfold replay at hid
  rw [Option.isSome_map, Option.isSome_map, Option.isSome_map] at hid
  exact hid

/-- An object has a record if a recording reaches it. -/
theorem contains_iff_reached (hs : s.Traced past) (id : ObjectId) :
    s.contains id = (past.find? fun p => p.2.reaches p.1 id).isSome := by
  rw [contains_table, RecordTable.contains_eq_any, hs.firstTouches.objects, Bool.eq_iff_iff,
    any_firstTouched, List.find?_isSome]
  simp only [Mutation.reaches, List.any_eq_true, decide_eq_true_iff]

theorem after (hs : s.Traced past) (m : Mutation κ π) :
    (s.after m).Traced (s.historyAfter m past) := by
  refine ⟨hs.replayed.after m, hs.firstTouches.after m, fun id => ?_⟩
  unfold historyAfter
  cases m.isClear with
  | true => rfl
  | false =>
    rw [if_neg Bool.false_ne_true, touchesIn_append, List.find?_append]
    unfold openedByMark
    rw [List.find?_append]
    have htouched := hs.contains_iff_touched id
    have hreached := hs.contains_iff_reached id
    cases hc : s.contains id with
    | true =>
      -- The object was touched before, and that stays the first touch.
      rw [hc] at htouched hreached
      rw [Option.or_of_isSome htouched.symm, Option.or_of_isSome hreached.symm]
      exact hs.opensAsMarked id
    | false =>
      rw [hc, eq_comm, Option.isSome_eq_false_iff, Option.isNone_iff_eq_none] at htouched hreached
      rw [htouched, hreached, Option.none_or, Option.none_or]
      unfold touchesIn
      rw [List.flatMap_singleton, opensAsMarked_touches hs.firstTouches.marks hc,
        List.find?_singleton]
      cases m.reaches s id <;> rfl

end Traced

end Staging

/-- Every recording keeps the records traced to the history. -/
theorem keptAlong_traced :
    KeptAlong fun (s : Staging κ π) (past : List (Recorded κ π)) => s.Traced past where
  recorded m hs := hs.after m
  cleaned id hs := ⟨keptAlong_replayed.cleaned id hs.replayed,
    keptAlong_firstTouches.cleaned id hs.firstTouches, hs.opensAsMarked⟩
  counted f hs := ⟨keptAlong_replayed.counted f hs.replayed,
    keptAlong_firstTouches.counted f hs.firstTouches, hs.opensAsMarked⟩
  taken hs := ⟨keptAlong_replayed.taken hs.replayed,
    keptAlong_firstTouches.taken hs.firstTouches, hs.opensAsMarked⟩
  drained hs := ⟨keptAlong_replayed.drained hs.replayed,
    keptAlong_firstTouches.drained hs.firstTouches, hs.opensAsMarked⟩

theorem traced_new (options : Options) (schema : Schema) :
    (Staging.new options schema : Staging κ π).Traced [] :=
  ⟨replayed_new options schema, firstTouches_new options schema, fun _ => rfl⟩

/-- The verb of a record that is traced to a history is the one that is read
    off the history. -/
theorem Staging.Traced.verb_eq {s : Staging κ π} {past : List (Recorded κ π)}
    (hs : s.Traced past) {id : ObjectId} {r : Record κ} (hr : s.find? id = some r) :
    r.verb = verbIn past id := by
  obtain ⟨x, hx, hcontent⟩ := hs.replayed.content_eq hr
  obtain ⟨p, hp, hxp⟩ := List.mem_flatMap.mp (List.mem_of_find?_eq_some hx)
  have hverb : r.verb = (changesTo id (touchesIn past)).foldl RecordChange.verbAfter x.initial := by
    have hcontentVerb := congrArg Record.verb hcontent
    exact hcontentVerb.trans (Record.verb_applyAll _ _)
  have hmarked := hs.opensAsMarked id
  rw [hx, Option.any_some] at hmarked
  obtain ⟨hnot, hopening⟩ := Mutation.opening_of_mem_touches hxp
  have hcreated : x.initial = .create →
      (changesTo id (touchesIn past)).any RecordChange.isCreation = true := by
    intro hinitial
    rw [any_changesTo, List.any_eq_true]
    refine ⟨x, List.mem_of_find?_eq_some hx, ?_⟩
    rw [List.find?_some hx, hopening hinitial]
    rfl
  rw [hverb, RecordChange.foldl_verbAfter hnot, deletion?_touchesIn,
    any_touchesIn fun p => Mutation.writesTo_touches p.1 id p.2]
  rw [any_touchesIn fun p => Mutation.creates_touches p.1 id p.2] at hcreated ⊢
  unfold verbIn
  rw [← hmarked]
  cases past.findSome? fun p => p.2.deletion? id with
  | some passive => rfl
  | none =>
    dsimp only
    cases hc : past.any fun p => p.2.creates id with
    | true => rfl
    | false =>
      cases hi : x.initial with
      | create => exact absurd (hcreated hi) (by rw [hc]; exact Bool.false_ne_true)
      | delete | passiveDelete => rw [hi] at hnot; cases hnot
      | modify | propagated => cases past.any fun p => p.2.writesTo p.1 id <;> rfl

/-! ## What leaves verbs alone -/

/-- Whether the change is a remark beside the record: neither a creation nor a
    deletion nor an alteration. -/
def RecordChange.isRemark : RecordChange → Bool
  | propagate | setCallback _ | push .. => true
  | _ => false

theorem RecordChange.foldl_verbAfter_of_remarks {cs : List RecordChange}
    (h : ∀ c ∈ cs, c.isRemark = true) (v : ChangeVerb) : cs.foldl verbAfter v = v := by
  induction cs with
  | nil => rfl
  | cons c rest ih =>
    have hsame : verbAfter v c = v := by
      have hc := h c List.mem_cons_self
      cases c with
      | propagate | setCallback | push => rfl
      | _ => cases hc
    rw [List.foldl_cons, hsame, ih fun c' hc' => h c' (List.mem_cons_of_mem c hc')]

namespace Staging

/-- The verb of an object, if it was touched. -/
def verb? (s : Staging κ π) (id : ObjectId) : Option ChangeVerb := (s.find? id).map Record.verb

/-- The verbs of all records. -/
def verbs (s : Staging κ π) : List (ObjectId × ChangeVerb) := s.records.map fun r => (r.id, r.verb)

/-- Touches that only remark something leave the verbs of the records that are
    there alone. -/
theorem verb?_of_remarks {s s' : Staging κ π} {xs : List (Touch κ)}
    (htable : s'.table = s.table.touchAll xs)
    (hxs : ∀ x ∈ xs, ∀ c ∈ x.changes, c.isRemark = true) {id : ObjectId}
    (hid : s.contains id = true) : s'.verb? id = s.verb? id := by
  obtain ⟨r, hr⟩ := Option.isSome_iff_exists.mp hid
  have hcontent := s.table.content_touchAll xs id
  rw [← htable, show s.table.find? id = some r from hr] at hcontent
  obtain ⟨r', hr', hsame⟩ := Option.map_eq_some_iff.mp hcontent
  have hverb : r'.content.verb = (r.applyAll (changesTo id xs)).content.verb :=
    congrArg Record.verb hsame
  unfold verb?
  rw [hr, show s'.find? id = some r' from hr']
  refine congrArg some ?_
  show r'.content.verb = r.verb
  rw [hverb]
  show (r.applyAll (changesTo id xs)).verb = r.verb
  rw [Record.verb_applyAll]
  refine RecordChange.foldl_verbAfter_of_remarks (fun c hc => ?_) r.verb
  obtain ⟨x, hx, hcx⟩ := List.mem_flatMap.mp hc
  exact hxs x (List.mem_of_mem_filter hx) c hcx

/-- A token leaves the verbs alone. -/
theorem verb?_setCallback {s : Staging κ π} {id : ObjectId} (hid : s.contains id = true)
    (object : Tracked κ) (token : String) :
    (s.after (.setCallback object token)).verb? id = s.verb? id := by
  refine verb?_of_remarks (s.table_after_touches rfl) (fun x hx c hc => ?_) hid
  rw [List.mem_singleton.mp hx] at hc
  rw [List.mem_singleton.mp hc]
  rfl

/-- A mark leaves the verbs of the records that are there alone. -/
theorem verb?_propagate {s : Staging κ π} {id : ObjectId} (hid : s.contains id = true)
    (object : Tracked κ) : (s.after (.propagate object)).verb? id = s.verb? id := by
  refine verb?_of_remarks (s.table_after_touches rfl) (fun x hx c hc => ?_) hid
  rw [Mutation.touches] at hx
  split at hx
  · cases hx
  · rw [List.mem_singleton.mp hx] at hc
    rw [List.mem_singleton.mp hc]
    rfl

/-- Audit entries leave the verbs of the records that are there alone. -/
theorem verb?_auditEdge {s : Staging κ π} {id : ObjectId} (hid : s.contains id = true)
    (event : EdgeEvent) (user : Option Principal) (edge : Edge κ) (source target : Tracked κ) :
    (s.auditEdge event user edge source target).verb? id = s.verb? id := by
  refine verb?_of_remarks (s.table_auditEdge event user edge source target)
    (fun x hx c hc => ?_) hid
  unfold auditTouches at hx
  simp only [List.mem_cons, List.not_mem_nil, or_false] at hx
  rcases hx with rfl | rfl | rfl <;> rw [List.mem_singleton.mp hc] <;> rfl

theorem verbs_map (s : Staging κ π) {f : Record κ → Record κ} (hid : ∀ r, (f r).id = r.id)
    (hverb : ∀ r, (f r).verb = r.verb) :
    verbs { s with records := s.records.map f } = s.verbs := by
  show (s.records.map f).map (fun r => (r.id, r.verb)) = s.records.map fun r => (r.id, r.verb)
  rw [List.map_map]
  refine List.map_congr_left fun r _ => ?_
  rw [Function.comp_apply, hid, hverb]

end Staging

namespace Transaction

/-- The first phase leaves the verbs as the inner hooks leave them. -/
theorem settle_verbs {h : Hooks κ π σ}
    (hinner : ∀ object ctx t, (h.inner object ctx t).2.staging.verbs = t.staging.verbs)
    (user : Option Principal) (t : Transaction κ π σ) :
    (settle h user t).2.staging.verbs = t.staging.verbs := by
  refine settle_keeps (P := fun t' => t'.staging.verbs = t.staging.verbs)
    (fun r t' ht' _ _ => ?_) (fun f t' ht' => ?_) t rfl
  · have hi := hinner r.object ⟨user, r.verb, r.callback⟩ t'
    unfold visit
    revert hi
    obtain ⟨answer, t''⟩ := h.inner r.object ⟨user, r.verb, r.callback⟩ t'
    intro hi
    cases answer with
    | error e => exact hi.trans ht'
    | ok _ =>
      dsimp only
      split
      · exact hi.trans ht'
      · -- Marking a record clean is no change of its verb.
        refine (t''.staging.verbs_map (fun r => ?_) fun r => ?_).trans (hi.trans ht')
        · split <;> rfl
        · split <;> rfl
  · unfold Staging.verbs at ht' ⊢
    rw [show (t'.stage (·.count f)).staging.records = t'.staging.records from
      Staging.records_count t'.staging f]
    exact ht'

/-- The drain leaves the verbs alone. -/
theorem drainLogsOn_verbs (pool : Pool) (sink : Sink σ) (t : Transaction κ π σ) :
    (drainLogsOn pool sink t).2.staging.verbs = t.staging.verbs := by
  by_cases hon : (t.staging.logEnabled && t.staging.options.anyAudit) = true
  · have hrecords : (drainLogsOn pool sink t).2.staging.records = t.staging.dropPushes.records :=
      congrArg RecordTable.records (drainLogsOn_staging pool sink hon)
    unfold Staging.verbs
    rw [hrecords]
    exact t.staging.verbs_map (f := Record.dropPushes) (fun _ => rfl) fun _ => rfl
  · rw [drainLogsOn_off pool sink hon]

/-- At every moment of every reachable ledger, between any two recordings, also
    those of one inner hook, the verb of every record is the one that is read
    off the history.  Tokens, audit entries and marks do not change the verbs of
    the records that are there, and no phase changes a verb, unless an inner
    hook does. -/
theorem verbs_follow_history (h : Hooks κ π σ) (script : InnerScript κ π σ)
    (plan : InnerPlan κ π σ) (depth : Nat) (sink : Sink σ) (options : Options) (schema : Schema)
    (world : σ) (moves : List (Move κ π σ)) (s : Staging κ π) (past : List (Recorded κ π))
    (hm : (reached (h.nested script plan sink depth) sink options schema world moves).Moment
      s past) :
    (∀ r ∈ s.records, r.verb = verbIn past r.id) ∧
    (∀ id, s.contains id = true →
      (∀ object token, (s.after (.setCallback object token)).verb? id = s.verb? id) ∧
      (∀ event user edge source target,
        (s.auditEdge event user edge source target).verb? id = s.verb? id) ∧
      ∀ object, (s.after (.propagate object)).verb? id = s.verb? id) ∧
    ∀ (h' : Hooks κ π σ) (user : Option Principal) (t : Transaction κ π σ),
      ((∀ object ctx t', (h'.inner object ctx t').2.staging.verbs = t'.staging.verbs) →
        (settle h' user t).2.staging.verbs = t.staging.verbs) ∧
      (∀ validating, (validate h' validating t).2.staging.verbs = t.staging.verbs) ∧
      (runDeferred h' user t).2.staging.verbs = t.staging.verbs ∧
      (notify h' user t).2.staging.verbs = t.staging.verbs ∧
      ∀ pool, (drainLogsOn pool sink t).2.staging.verbs = t.staging.verbs := by
  have hboth : KeptAlong fun (s : Staging κ π) past => s.Ordered ∧ s.Traced past :=
    keptAlong_ordered.and keptAlong_traced
  obtain ⟨hordered, htraced⟩ := hboth.atMoments h script plan depth sink
    ⟨ordered_new options schema, traced_new options schema⟩ world moves hm
  refine ⟨fun r hr => htraced.verb_eq (hordered.find?_of_mem hr), fun id hid => ⟨?_, ?_, ?_⟩,
    fun h' user t => ⟨fun hinner => settle_verbs hinner user t, fun validating => ?_, ?_, ?_, ?_⟩⟩
  · exact fun object token => Staging.verb?_setCallback hid object token
  · exact fun event user edge source target =>
      Staging.verb?_auditEdge hid event user edge source target
  · exact fun object => Staging.verb?_propagate hid object
  · exact congrArg (List.map fun r => (r.id, r.verb)) (validate_records h' validating t)
  · exact congrArg (List.map fun r => (r.id, r.verb)) (runDeferred_records h' user t)
  · exact congrArg (List.map fun r => (r.id, r.verb)) (notify_records h' user t)
  · exact fun pool => drainLogsOn_verbs pool sink t

/-- A mark was the first to touch the node; between the two recordings of its
    hook, when it got to know another node, it counts as modified. -/
theorem verbs_follow_history_between :
    let t := reached (idleHooks.nested briefScript idlePlan MemoryLog.sink 0) MemoryLog.sink
      {} (acquaintanceSchema "friends" "friends") ∅ [.record (.propagate ada), .settle none]
    ∃ s past, t.Moment s past ∧ openedByMark past ada.id = true ∧
      ∃ r ∈ s.records, r.id = ada.id ∧ r.verb = .modify := by
  intro t
  let before : Staging Unit Unit :=
    ((Staging.new {} (acquaintanceSchema "friends" "friends")).propagate ada).2
  let first : Mutation Unit Unit := .createEdge none (acquaintance 3 ada bob)
  let second : Mutation Unit Unit := .deleteEdge none (acquaintance 3 ada bob) false
  have hevents : t.events = t.events.take 1 ++
      .inner before ada ⟨none, .propagated, none⟩ ([first] ++ [second]) true :: t.events.drop 2 :=
    rfl
  have hm : t.Moment (before.afterAll [first])
      (before.historyAfterAll [first] (historyOf (t.events.take 1))) := .during hevents rfl
  have hverbs := verbs_follow_history idleHooks briefScript idlePlan 0 MemoryLog.sink {}
    (acquaintanceSchema "friends" "friends") ∅ [.record (.propagate ada), .settle none] _ _ hm
  obtain ⟨r, hr, hid⟩ : ∃ r ∈ (before.afterAll [first]).records, r.id = ada.id :=
    ⟨_, List.mem_cons_self, rfl⟩
  refine ⟨_, _, hm, rfl, r, hr, hid, (hverbs.1 r hr).trans ?_⟩
  rw [hid]
  rfl

end Transaction

end ChangeLedger
