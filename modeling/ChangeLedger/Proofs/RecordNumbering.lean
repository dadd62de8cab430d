/-
  ChangeLedger.Proofs.RecordNumbering — the records that a ledger ever opens are numbered.

  Dropping everything staged drops the records, but the ticks go on.  Written
  down one after the other, whatever is dropped in between, the records that a
  ledger opens have the ticks 0, 1, 2 and so on: no tick is left out, and none
  is used twice.

  Main results:
    * `Staging.Numbered.after` — a recording numbers the records that it opens.
    * `kept_numbered` — so does every event.
    * `Transaction.records_are_first_touches` — what the listing shows at every
      moment, what of it never changes, and that no tick is used twice.
-/
import ChangeLedger.Proofs.MapListing
import ChangeLedger.Proofs.References
import ChangeLedger.Proofs.TouchOrder

namespace ChangeLedger

variable {κ π σ : Type}

/-! ## The records that are opened -/

namespace Staging

/-- The stamps of the records that a recording opens. -/
def openings (s : Staging κ π) (m : Mutation κ π) : List (Tracked κ × Nat) :=
  (s.after m).table.stamps.drop s.size

/-- The stamps of the records that recordings open, in order. -/
def openingsAll (s : Staging κ π) : List (Mutation κ π) → List (Tracked κ × Nat)
  | [] => []
  | m :: rest => s.openings m ++ (s.after m).openingsAll rest

theorem openingsAll_append (s : Staging κ π) (ms ms' : List (Mutation κ π)) :
    s.openingsAll (ms ++ ms') = s.openingsAll ms ++ (s.afterAll ms).openingsAll ms' := by
  induction ms generalizing s with
  | nil => rfl
  | cons m rest ih =>
    show s.openings m ++ (s.after m).openingsAll (rest ++ ms') = _
    rw [ih, ← List.append_assoc]
    rfl

/-- Where everything is dropped no record is left, and the ticks go on. -/
theorem stamps_after_clear (s : Staging κ π) {m : Mutation κ π} (hm : m.isClear = true) :
    (s.after m).table.stamps = [] ∧ (s.after m).nextTick = s.nextTick := by
  have htable := table_after s m
  rw [hm, if_pos rfl] at htable
  refine ⟨?_, congrArg RecordTable.nextTick htable⟩
  rw [htable]
  rfl

/-- A recording that drops nothing opens records for the objects that arrive. -/
theorem openings_eq (s : Staging κ π) {m : Mutation κ π} (hm : m.isClear = false) :
    s.openings m = (s.table.arrivals (m.touches s)).zipIdx s.nextTick := by
  have hsize : s.table.stamps.length = s.size := List.length_map ..
  unfold openings
  rw [table_after_touches s hm, (s.table.stamps_touchAll (m.touches s)).1, ← hsize, List.drop_left]
  rfl

theorem stamps_after_openings (s : Staging κ π) {m : Mutation κ π} (hm : m.isClear = false) :
    (s.after m).table.stamps = s.table.stamps ++ s.openings m ∧
      (s.after m).nextTick = s.nextTick + (s.table.arrivals (m.touches s)).length := by
  rw [s.openings_eq hm]
  show (s.after m).table.stamps = _ ∧ (s.after m).table.nextTick = _
  rw [table_after_touches s hm]
  exact s.table.stamps_touchAll (m.touches s)

end Staging

/-- The stamps of the records that are opened in an event. -/
def Event.openings (e : Event κ π) : List (Tracked κ × Nat) :=
  match e.run? with
  | some (before, ms) => before.openingsAll ms
  | none => []

/-- The stamps of all records that are opened in some events, in order. -/
def openingsIn (es : List (Event κ π)) : List (Tracked κ × Nat) := es.flatMap Event.openings

theorem openingsIn_concat (es : List (Event κ π)) (e : Event κ π) :
    openingsIn (es ++ [e]) = openingsIn es ++ e.openings := by
  unfold openingsIn
  rw [List.flatMap_append, List.flatMap_singleton]

/-! ## Their ticks -/

namespace Staging

/-- The records opened so far are numbered, the next one has the next number,
    and the records of the staging area are among them. -/
structure Numbered (s : Staging κ π) (used : List (Tracked κ × Nat)) : Prop where
  ticks : used.map Prod.snd = List.range s.nextTick
  stamps : s.table.stamps ⊆ used

namespace Numbered

variable {s s' : Staging κ π} {used : List (Tracked κ × Nat)}

theorem congr (hs : s.Numbered used) (hstamps : s'.table.stamps = s.table.stamps)
    (hticks : s'.nextTick = s.nextTick) : s'.Numbered used := by
  refine ⟨?_, ?_⟩
  · rw [hticks]
    exact hs.ticks
  · rw [hstamps]
    exact hs.stamps

/-- The records that a recording opens take the next numbers. -/
theorem after (hs : s.Numbered used) (m : Mutation κ π) :
    (s.after m).Numbered (used ++ s.openings m) := by
  cases hm : m.isClear with
  | true =>
    obtain ⟨hnone, hticks⟩ := s.stamps_after_clear hm
    have hopened : s.openings m = [] := by
      unfold openings
      rw [hnone, List.drop_nil]
    rw [hopened, List.append_nil]
    refine ⟨hticks.symm ▸ hs.ticks, ?_⟩
    rw [hnone]
    exact List.nil_subset _
  | false =>
    obtain ⟨hstamps, hticks⟩ := s.stamps_after_openings hm
    refine ⟨?_, ?_⟩
    · show (used ++ s.openings m).map Prod.snd = _
      have hnext := @List.range'_append 0 s.nextTick (s.table.arrivals (m.touches s)).length 1
      rw [Nat.zero_add, Nat.one_mul] at hnext
      rw [List.map_append, hs.ticks, s.openings_eq hm, List.zipIdx_map_snd, hticks,
        List.range_eq_range', List.range_eq_range', hnext]
    · rw [hstamps]
      exact List.append_subset.mpr ⟨List.subset_append_of_subset_left _ hs.stamps,
        List.subset_append_right _ _⟩

theorem afterAll (hs : s.Numbered used) (ms : List (Mutation κ π)) :
    (s.afterAll ms).Numbered (used ++ s.openingsAll ms) := by
  induction ms generalizing s used with
  | nil =>
    show s.Numbered (used ++ [])
    rw [List.append_nil]
    exact hs
  | cons m rest ih =>
    show ((s.after m).afterAll rest).Numbered
      (used ++ (s.openings m ++ (s.after m).openingsAll rest))
    rw [← List.append_assoc]
    exact ih (hs.after m)

end Numbered

end Staging

/-- Every event numbers the records that it opens. -/
theorem kept_numbered : Kept fun (s : Staging κ π) es => s.Numbered (openingsIn es) := by
  constructor
  case recorded =>
    intro s es m hs
    rw [openingsIn_concat]
    exact hs.afterAll [m]
  case passed =>
    intro s es object ctx ms hs
    rw [openingsIn_concat]
    exact (hs.afterAll ms).congr (Staging.stamps_clearDirty _ object.id) rfl
  case failed =>
    intro s es object ctx ms hs
    rw [openingsIn_concat]
    exact hs.afterAll ms
  case bystander =>
    intro s es e he hs
    have hnone : e.openings = [] := by
      cases e with
      | recorded before m => cases he
      | inner before object ctx ms passed => cases he
      | _ => rfl
    rw [openingsIn_concat, hnone, List.append_nil]
    exact hs
  case counted =>
    intro s es f hs
    refine hs.congr ?_ (Staging.nextTick_count s f)
    rw [Staging.table_count]
  case taken => exact fun hs => hs.congr rfl rfl
  case drained =>
    intro s es hs
    rw [openingsIn_concat, show (Event.drained : Event κ π).openings = [] from rfl, List.append_nil]
    exact hs.congr s.stamps_dropPushes rfl
  case closed =>
    intro s es hs
    rw [openingsIn_concat, show (Event.closed : Event κ π).openings = [] from rfl, List.append_nil]
    exact ⟨hs.ticks, List.nil_subset _⟩

theorem numbered_new (options : Options) (schema : Schema) :
    (Staging.new options schema : Staging κ π).Numbered [] := ⟨rfl, List.nil_subset _⟩

/-! ## What the listing shows -/

/-- After a history, the listing shows the touched objects: exactly those, each
    once, in the order of their first touch.  Their ticks ascend, a look-up
    under an identity finds the record of that identity, and the listing is the
    same in whatever order a map that holds the records is iterated. -/
structure Staging.ListsFirstTouches (s : Staging κ π) (past : List (Recorded κ π)) : Prop where
  objects : s.snapshots.map (fun v => (v.id, v.uuid)) =
    (firstTouched past).map fun object => (object.id, object.uuid)
  touched : ∀ id, id ∈ s.snapshots.map Snapshot.id ↔
    ∃ p ∈ past, ∃ object ∈ p.2.touchOrder p.1, object.id = id
  once : (s.snapshots.map Snapshot.id).Nodup
  ascending : s.snapshots.Pairwise fun v v' => v.firstTouch < v'.firstTouch
  keyed : ∀ id r, s.find? id = some r ↔ r ∈ s.records ∧ r.id = id
  unordered : ∀ keys, keys.Nodup → (∀ id, id ∈ keys ↔ s.contains id = true) →
    s.listing keys = s.snapshots

namespace Staging

theorem ids_snapshots (s : Staging κ π) : s.snapshots.map Snapshot.id = s.ids := by
  unfold snapshots ids
  rw [List.map_map]
  rfl

/-- Records in order that are those of the history are listed as such. -/
theorem FirstTouches.lists {s : Staging κ π} {past : List (Recorded κ π)}
    (hs : s.FirstTouches past) (hordered : s.Ordered) : s.ListsFirstTouches past where
  objects := by
    rw [← hs.objects]
    unfold snapshots RecordTable.objects
    rw [List.map_map, List.map_map]
    rfl
  touched id := by
    rw [ids_snapshots, hordered.mem_ids_iff, ← any_firstTouched, ← hs.objects, contains_table,
      RecordTable.contains_eq_any]
  once := by
    rw [ids_snapshots]
    exact hordered.nodup
  ascending := by
    unfold snapshots
    rw [List.pairwise_map]
    exact hordered.ascend
  keyed id r := hordered.mem_records_iff
  unordered keys hnodup hkeys := hordered.listing_eq hnodup hkeys

/-- What was touched stays listed, with the same object and the same tick, as
    long as the history goes on. -/
theorem FirstTouches.stamps_grow {s s' : Staging κ π} {past later : List (Recorded κ π)}
    (hs : s.FirstTouches past) (hs' : s'.FirstTouches (past ++ later)) :
    s.table.stamps <+: s'.table.stamps := by
  cases past with
  | nil =>
    -- Nothing is listed before the first touch.
    rw [hs.stamps]
    exact List.nil_prefix
  | cons p rest =>
    -- Both histories begin with the same recording, so at the same tick.
    rw [hs.stamps, hs'.stamps, firstTouched_append, List.zipIdx_append]
    exact List.prefix_append ..

end Staging

namespace Transaction

/-- What is listed at any moment is among the records that the ledger opened. -/
theorem Moment.stamps_subset {t : Transaction κ π (Watched κ π σ)}
    (hnow : t.staging.Numbered (openingsIn t.events))
    (hstarts : Kept.AtStarts (fun s es => s.Numbered (openingsIn es)) t.events)
    {s : Staging κ π} {past : List (Recorded κ π)} (hm : t.Moment s past) :
    s.table.stamps ⊆ openingsIn t.events := by
  cases hm with
  | now => exact hnow.stamps
  | during hevents hrun =>
    rename_i earlier later e before made rest
    have hstart := hstarts earlier e later before hevents (Event.start?_of_run? hrun)
    have hopened : e.openings = before.openingsAll (made ++ rest) := by
      unfold Event.openings
      rw [hrun]
    -- The recordings made so far are the first of those of the event.
    have hall : openingsIn t.events = openingsIn earlier ++ (before.openingsAll made ++
        (before.afterAll made).openingsAll rest) ++ openingsIn later := by
      rw [hevents, ← Staging.openingsAll_append, ← hopened, ← openingsIn_concat]
      unfold openingsIn
      rw [← List.flatMap_append, List.append_assoc]
      rfl
    rw [hall, ← List.append_assoc, List.append_assoc _ _ (openingsIn later)]
    exact List.subset_append_of_subset_left _ (hstart.afterAll made).stamps

/-- **The records are the objects that were touched, in the order of first
    touch.**  At every moment of every reachable ledger, also between two
    recordings of one inner hook, the listing shows the touches of the history.
    As long as the history goes on, what is listed keeps its object and its
    tick, and its place.  And of all records that are opened in the life of the
    ledger, whatever was dropped in between, no two have the same tick. -/
theorem records_are_first_touches (h : Hooks κ π σ) (script : InnerScript κ π σ)
    (plan : InnerPlan κ π σ) (depth : Nat) (sink : Sink σ) (options : Options) (schema : Schema)
    (world : σ) (moves : List (Move κ π σ)) :
    let hooks := h.nested script plan sink depth
    let t := reached hooks sink options schema world moves
    (∀ s past, t.Moment s past → s.ListsFirstTouches past) ∧
    (∀ s past more s' later, t.Moment s past →
      (t.makeAll hooks sink more).Moment s' (past ++ later) →
        s.table.stamps <+: s'.table.stamps) ∧
    (openingsIn t.events).map Prod.snd = List.range t.staging.nextTick ∧
    (∀ s past, t.Moment s past → s.table.stamps ⊆ openingsIn t.events) := by
  intro hooks t
  have hfirst : ∀ (moves : List (Move κ π σ)) s past,
      (reached hooks sink options schema world moves).Moment s past → s.FirstTouches past :=
    fun moves _ _ hm => keptAlong_firstTouches.atMoments h script plan depth sink
      (firstTouches_new options schema) world moves hm
  have hordered : ∀ s past, t.Moment s past → s.Ordered :=
    fun _ _ hm => keptAlong_ordered.atMoments h script plan depth sink
      (ordered_new options schema) world moves hm
  have hk := (kept_numbered (κ := κ) (π := π)).always
  obtain ⟨hnow, hstarts⟩ := hk.reached h script _ sink (hk.planned h script sink plan depth)
    ⟨numbered_new options schema, Kept.atStarts_nil _⟩ world moves
  refine ⟨fun s past hm => (hfirst moves s past hm).lists (hordered s past hm), ?_, hnow.ticks,
    fun s past hm => hm.stamps_subset hnow hstarts⟩
  intro s past more s' later hm hm'
  have hlater : t.makeAll hooks sink more
      = reached hooks sink options schema world (moves ++ more) := (List.foldl_append ..).symm
  rw [hlater] at hm'
  exact (hfirst moves s past hm).stamps_grow (hfirst (moves ++ more) s' (past ++ later) hm')

/-- An edge is created whose target node is described, with audits on: the edge
    is touched first, then the target, and the source last.  Another node that
    is marked afterwards comes at the end. -/
theorem records_are_first_touches_of_edge :
    let hooks := idleHooks.nested idleScript idlePlan MemoryLog.sink 0
    let described : Schema :=
      Schema.empty.register ⟨"KNOWS"⟩ ⟨none, some ⟨.plain "friends", .collection⟩⟩
    let t := reached hooks MemoryLog.sink { auditEnabled := true } described ∅
      [.record (.createEdge none (acquaintance 3 ada bob))]
    let t' := t.makeAll hooks MemoryLog.sink [.record (.propagate ⟨⟨.node, 4⟩, "n-4", ()⟩)]
    t.staging.ListsFirstTouches (historyOf t.events) ∧
      t.staging.snapshots.map Snapshot.id = [⟨.edge, 3⟩, bob.id, ada.id] ∧
      t.staging.table.stamps <+: t'.staging.table.stamps := by
  intro hooks described t t'
  obtain ⟨hlists, hgrows, -, -⟩ := records_are_first_touches idleHooks idleScript idlePlan 0
    MemoryLog.sink { auditEnabled := true } described ∅
    [.record (.createEdge none (acquaintance 3 ada bob))]
  have hlater : historyOf t'.events = historyOf t.events ++
      [(t.staging, .propagate ⟨⟨.node, 4⟩, "n-4", ()⟩)] := rfl
  have hnow : t'.Moment t'.staging (historyOf t.events ++
      [(t.staging, .propagate ⟨⟨.node, 4⟩, "n-4", ()⟩)]) := hlater ▸ .now
  exact ⟨hlists _ _ .now, rfl, hgrows _ _ _ _ _ .now hnow⟩

end Transaction

end ChangeLedger
