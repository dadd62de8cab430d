/-
  ChangeLedger.Proofs.MapListing — the listing does not depend on how a map is iterated.

  Records can be kept in a map from identities, which may be iterated in any
  order.  A listing then collects the ticks and the identities of all records,
  sorts them, and looks the records up again.  As ticks ascend along the
  records and no identity has two of them, every order of iteration gives the
  same listing: the records as they were opened.

  Main results:
    * `Staging.Ordered.mem_records_iff` — a look-up by identity, and the records.
    * `Staging.Ordered.listing_eq` — the listing, whatever the order of iteration.
-/
import ChangeLedger.Proofs.FirstTouch

namespace ChangeLedger

variable {κ π : Type}

/-! ## The order of the listing -/

/-- The order of the listing: by ticks, and by identities if those are the
    same. -/
def listingOrder : Nat × ObjectId → Nat × ObjectId → Ordering :=
  compareLex (compareOn Prod.fst) (compareOn Prod.snd)

instance : Std.TransCmp listingOrder :=
  inferInstanceAs (Std.TransCmp (compareLex (compareOn Prod.fst) (compareOn Prod.snd)))

instance : Std.LawfulEqCmp listingOrder where
  eq_of_compare heq := by
    obtain ⟨hfst, hsnd⟩ := Ordering.then_eq_eq.mp heq
    exact Prod.ext (Std.compare_eq_iff_eq.mp hfst) (Std.compare_eq_iff_eq.mp hsnd)

/-- Whether the first comes before the second in the listing. -/
def comesFirst (e e' : Nat × ObjectId) : Bool := (listingOrder e e').isLE

theorem comesFirst_trans (a b c : Nat × ObjectId) (hab : comesFirst a b = true)
    (hbc : comesFirst b c = true) : comesFirst a c = true := Std.TransCmp.isLE_trans hab hbc

theorem comesFirst_total (a b : Nat × ObjectId) : (comesFirst a b || comesFirst b a) = true := by
  unfold comesFirst
  rw [show listingOrder b a = (listingOrder a b).swap from Std.OrientedCmp.eq_swap]
  cases listingOrder a b <;> rfl

theorem comesFirst_antisymm {a b : Nat × ObjectId} (hab : comesFirst a b = true)
    (hba : comesFirst b a = true) : a = b :=
  Std.LawfulEqCmp.eq_of_compare (Std.OrientedCmp.isLE_antisymm hab hba)

/-- The earlier tick comes first. -/
theorem comesFirst_of_lt {a b : Nat × ObjectId} (h : a.1 < b.1) : comesFirst a b = true := by
  unfold comesFirst listingOrder compareLex compareOn
  rw [Nat.compare_eq_lt.mpr h]
  rfl

namespace Staging

/-- The listing of records that are kept in a map from identities and come in
    the order `keys` if the map is iterated. -/
def listing (s : Staging κ π) (keys : List ObjectId) : List Snapshot :=
  let found := keys.filterMap s.find?
  let sorted := (found.map fun r => (r.firstTouch, r.id)).mergeSort comesFirst
  (sorted.filterMap fun e => s.find? e.2).map Record.snapshot

variable {s : Staging κ π}

/-! ## Look-ups -/

/-- What is found under an identity is a record of that identity, and every
    record is found under its own. -/
theorem Ordered.mem_records_iff (hs : s.Ordered) {id : ObjectId} {r : Record κ} :
    s.find? id = some r ↔ r ∈ s.records ∧ r.id = id := by
  constructor
  · intro hfind
    exact ⟨List.mem_of_find?_eq_some hfind, id_of_findRecord hfind⟩
  · rintro ⟨hr, rfl⟩
    exact hs.find?_of_mem hr

theorem Ordered.mem_ids_iff (hs : s.Ordered) {id : ObjectId} :
    id ∈ s.ids ↔ s.contains id = true := by
  unfold ids contains
  rw [List.mem_map, Option.isSome_iff_exists]
  exact exists_congr fun r => hs.mem_records_iff.symm

/-- The look-ups of the identities of the records find the records again. -/
theorem Ordered.found_records (hs : s.Ordered) :
    s.records.filterMap (fun r => s.find? r.id) = s.records := by
  have hself : ∀ r ∈ s.records, s.find? r.id = some r := fun r hr => hs.find?_of_mem hr
  rw [List.filterMap_congr hself, List.filterMap_some]

/-! ## Listings -/

/-- The ticks and the identities of the records are sorted as they stand. -/
theorem Ordered.pairwise_comesFirst (hs : s.Ordered) :
    (s.records.map fun r => (r.firstTouch, r.id)).Pairwise fun e e' => comesFirst e e' = true := by
  rw [List.pairwise_map]
  exact hs.ascend.imp fun hlt => comesFirst_of_lt hlt

/-- The listing shows the records in the order in which they were opened,
    whatever the order in which a map that holds them is iterated. -/
theorem Ordered.listing_eq (hs : s.Ordered) {keys : List ObjectId} (hnodup : keys.Nodup)
    (hkeys : ∀ id, id ∈ keys ↔ s.contains id = true) : s.listing keys = s.snapshots := by
  have hperm : keys.Perm s.ids :=
    (List.perm_ext_iff_of_nodup hnodup hs.nodup).mpr fun id => (hkeys id).trans hs.mem_ids_iff.symm
  have hfound : (keys.filterMap s.find?).Perm s.records := by
    have hids : s.ids.filterMap s.find? = s.records := by
      unfold ids
      rw [List.filterMap_map]
      exact hs.found_records
    rw [← hids]
    exact hperm.filterMap _
  -- Sorting brings the records into the only order in which they are sorted.
  have hsorted : ((keys.filterMap s.find?).map fun r => (r.firstTouch, r.id)).mergeSort comesFirst
      = s.records.map fun r => (r.firstTouch, r.id) := by
    refine List.Perm.eq_of_pairwise (fun a b _ _ hab hba => comesFirst_antisymm hab hba)
      (List.pairwise_mergeSort comesFirst_trans comesFirst_total _) hs.pairwise_comesFirst ?_
    exact (List.mergeSort_perm _ _).trans (hfound.map _)
  unfold listing snapshots
  dsimp only
  rw [hsorted, List.filterMap_map]
  exact congrArg (List.map Record.snapshot) hs.found_records

end Staging

end ChangeLedger
