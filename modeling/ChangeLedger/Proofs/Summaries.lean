/-
  ChangeLedger.Proofs.Summaries — what a summary shows of a record.

  A record is kept by property key and read by property name, so that several
  keys may share an entry of its summary.  Each part of a summary is entered in
  key order, and a later key replaces what an earlier one of its name entered:
  what is shown is the value of the greatest key that has one.

  For values that is all there is to say: whatever the lists of created and
  removed properties enter, the differences enter after them.  For references
  it is too little where the keys of a name refer to different objects, for
  then the greatest key hides what the others list.

  Main results:
    * `get?_enterByName` — entering values by name, and every look-up.
    * `showsGreatest_enterByName` — the entries of a map, entered by name.
    * `Record.summary_lists_all_references` — what summaries show of references,
      and where that is all of them.
    * `Transaction.summaries_follow_net_diffs` — what they show of values.
-/
import ChangeLedger.Proofs.NetDiffs
import Mathlib.Data.List.Induction

namespace ChangeLedger

variable {κ π σ α β : Type}

namespace PropertyKey

/-- Among the keys of a name, the one without synchronization comes first. -/
theorem isLE_plain (key : PropertyKey) : (compare (plain key.name) key).isLE = true := by
  obtain ⟨name, sync⟩ := key
  show ((compare name name).then (compare none sync)).isLE = true
  rw [Std.compare_self]
  cases sync <;> rfl

end PropertyKey

/-! ## Entering values by name -/

/-- The value of a key, if it has one and this name. -/
def valueNamed? (name : String) (e : PropertyKey × Option β) : Option β :=
  if e.1.name = name then e.2 else none

/-- What keys with values show under a name: the value of the last of them
    that has one. -/
def lastNamed? (name : String) (entries : List (PropertyKey × Option β)) : Option β :=
  (entries.filterMap (valueNamed? name)).getLast?

theorem valueNamed?_eq_some_iff (name : String) (e : PropertyKey × Option β) (v : β) :
    valueNamed? name e = some v ↔ e.1.name = name ∧ e.2 = some v := by
  unfold valueNamed?
  split
  next hname => exact ⟨fun h => ⟨hname, h⟩, And.right⟩
  next hname => exact ⟨fun h => (nomatch h), fun h => absurd h.1 hname⟩

theorem lastNamed?_concat (name : String) (entries : List (PropertyKey × Option β))
    (e : PropertyKey × Option β) :
    lastNamed? name (entries ++ [e]) =
      (valueNamed? name e).or (lastNamed? name entries) := by
  unfold lastNamed?
  rw [List.filterMap_append]
  cases h : valueNamed? name e with
  | none => rw [List.filterMap_cons_none h, List.filterMap_nil, List.append_nil]; rfl
  | some v => rw [List.filterMap_cons_some h, List.filterMap_nil, List.getLast?_concat]; rfl

/-- Something is shown under a name if a key of that name has a value. -/
theorem isSome_lastNamed?_iff (name : String) (entries : List (PropertyKey × Option β)) :
    (lastNamed? name entries).isSome = true ↔
      ∃ e ∈ entries, e.1.name = name ∧ e.2.isSome = true := by
  unfold lastNamed?
  rw [List.getLast?_isSome]
  constructor
  · intro hne
    obtain ⟨v, hv⟩ := List.exists_mem_of_ne_nil _ hne
    obtain ⟨e, he, hvalue⟩ := List.mem_filterMap.mp hv
    obtain ⟨hname, hsome⟩ := (valueNamed?_eq_some_iff name e v).mp hvalue
    exact ⟨e, he, hname, Option.isSome_of_eq_some hsome⟩
  · rintro ⟨e, he, hname, hsome⟩
    obtain ⟨v, hv⟩ := Option.isSome_iff_exists.mp hsome
    exact List.ne_nil_of_mem
      (List.mem_filterMap.mpr ⟨e, he, (valueNamed?_eq_some_iff name e v).mpr ⟨hname, hv⟩⟩)

/-- The last key enters its value, if it has one. -/
theorem enterByName_concat (entries : List (PropertyKey × Option β)) (e : PropertyKey × Option β)
    (m : SortedMap String β) :
    enterByName (entries ++ [e]) m =
      e.2.elim (enterByName entries m) ((enterByName entries m).insert e.1.name) := by
  refine (List.foldl_concat ..).trans ?_
  cases e.2 <;> rfl

/-- Values that are entered by name show what their last key says, and leave
    the other names as they were. -/
theorem get?_enterByName (entries : List (PropertyKey × Option β)) (m : SortedMap String β)
    (name : String) :
    (enterByName entries m).get? name = (lastNamed? name entries).or (m.get? name) := by
  induction entries using List.reverseRecOn with
  | nil => rfl
  | append_singleton entries e ih =>
    rw [enterByName_concat, lastNamed?_concat, Option.or_assoc, ← ih]
    unfold valueNamed?
    cases e.2 with
    | none =>
      rw [ite_self]
      rfl
    | some v =>
      rw [Option.elim_some, SortedMap.get?_insert]
      by_cases hname : e.1.name = name
      · rw [if_pos hname, if_pos hname.symm]
        rfl
      · rw [if_neg hname, if_neg fun h => hname h.symm]
        rfl

theorem get?_enterByName_empty (entries : List (PropertyKey × Option β)) (name : String) :
    (enterByName entries ∅).get? name = lastNamed? name entries :=
  (get?_enterByName entries ∅ name).trans Option.or_none

/-! ## The greatest key of a name -/

/-- Of the keys with a name, the greatest one that has a value has this one. -/
def IsGreatestValue (value? : PropertyKey → Option β) (name : String) (v : β) : Prop :=
  ∃ key, key.name = name ∧ value? key = some v ∧
    ∀ key', key'.name = name → (value? key').isSome = true → (compare key' key).isLE = true

theorem IsGreatestValue.unique {value? : PropertyKey → Option β} {name : String} {v v' : β}
    (h : IsGreatestValue value? name v) (h' : IsGreatestValue value? name v') : v = v' := by
  obtain ⟨key, hname, hv, hgreatest⟩ := h
  obtain ⟨key', hname', hv', hgreatest'⟩ := h'
  have hle := hgreatest key' hname' (Option.isSome_of_eq_some hv')
  have hge := hgreatest' key hname (Option.isSome_of_eq_some hv)
  have hkeys : key = key' := Std.LawfulEqCmp.eq_of_compare (Std.OrientedCmp.isLE_antisymm hge hle)
  rw [hkeys, hv'] at hv
  exact (Option.some.inj hv).symm

/-- Under a name, a map shows the value of the greatest key of that name that
    has one, and nothing if none has. -/
structure ShowsGreatest (shown : SortedMap String β) (name : String)
    (value? : PropertyKey → Option β) : Prop where
  /-- When anything is shown. -/
  present : shown.contains name = true ↔ ∃ key, key.name = name ∧ (value? key).isSome = true
  /-- What is shown. -/
  greatest : ∀ v, shown.get? name = some v ↔ IsGreatestValue value? name v

/-- In an ascending list, the last key of a name is the greatest. -/
theorem exists_greatest_of_lastNamed? {entries : List (PropertyKey × Option β)}
    (hascend : KeysAscend entries) {name : String} {v : β}
    (h : lastNamed? name entries = some v) :
    ∃ key, (key, some v) ∈ entries ∧ key.name = name ∧
      ∀ e ∈ entries, e.1.name = name → e.2.isSome = true → (compare e.1 key).isLE = true := by
  induction entries using List.reverseRecOn with
  | nil => cases h
  | append_singleton entries e ih =>
    obtain ⟨hinit, -, hlast⟩ := List.pairwise_append.mp hascend
    rw [lastNamed?_concat] at h
    cases hown : valueNamed? name e with
    | some v' =>
      -- The last entry has the name and a value, and all others come before it.
      rw [hown] at h
      obtain rfl : v' = v := Option.some.inj h
      obtain ⟨hname, hv⟩ := (valueNamed?_eq_some_iff name e v').mp hown
      refine ⟨e.1, by rw [← hv]; exact List.mem_concat_self, hname, fun e' he' _ _ => ?_⟩
      rcases List.mem_append.mp he' with he' | he'
      · rw [hlast e' he' e (List.mem_singleton_self e)]
        rfl
      · rw [List.mem_singleton.mp he', Std.compare_self]
        rfl
    | none =>
      rw [hown, Option.none_or] at h
      obtain ⟨key, hmem, hname, hgreatest⟩ := ih hinit h
      refine ⟨key, List.mem_append_left _ hmem, hname, fun e' he' hname' hsome => ?_⟩
      rcases List.mem_append.mp he' with he' | he'
      · exact hgreatest e' he' hname' hsome
      · obtain ⟨v', hv'⟩ := Option.isSome_iff_exists.mp hsome
        rw [List.mem_singleton.mp he'] at hname' hv'
        rw [(valueNamed?_eq_some_iff name e v').mpr ⟨hname', hv'⟩] at hown
        cases hown

/-- The keys of a map, in their order, each with what is read off its entry. -/
def readings (m : SortedMap PropertyKey α) (read : α → Option β) : List (PropertyKey × Option β) :=
  m.entries.map fun e => (e.1, read e.2)

theorem mem_readings_iff (m : SortedMap PropertyKey α) (read : α → Option β) (key : PropertyKey)
    (v? : Option β) :
    (key, v?) ∈ readings m read ↔ ∃ a, m.get? key = some a ∧ read a = v? := by
  unfold readings
  rw [List.mem_map]
  constructor
  · rintro ⟨e, he, heq⟩
    obtain ⟨rfl, rfl⟩ := Prod.mk.inj heq
    exact ⟨e.2, (SortedMap.mem_entries_iff m e.1 e.2).mp he, rfl⟩
  · rintro ⟨a, hget, rfl⟩
    exact ⟨(key, a), (SortedMap.mem_entries_iff m key a).mpr hget, rfl⟩

theorem keysAscend_readings (m : SortedMap PropertyKey α) (read : α → Option β) :
    KeysAscend (readings m read) := List.pairwise_map.mpr m.ascend

/-- Something is shown of a map if there is something to read at a key. -/
theorem isSome_lastNamed?_readings (m : SortedMap PropertyKey α) (read : α → Option β)
    (name : String) :
    (lastNamed? name (readings m read)).isSome = true ↔
      ∃ key, key.name = name ∧ ((m.get? key).bind read).isSome = true := by
  rw [isSome_lastNamed?_iff]
  constructor
  · rintro ⟨e, he, hname, hsome⟩
    obtain ⟨a, hget, hread⟩ := (mem_readings_iff m read e.1 e.2).mp he
    exact ⟨e.1, hname, by rw [hget, Option.bind_some, hread, hsome]⟩
  · rintro ⟨key, hname, hsome⟩
    obtain ⟨v, hv⟩ := Option.isSome_iff_exists.mp hsome
    obtain ⟨a, hget, hread⟩ := Option.bind_eq_some_iff.mp hv
    exact ⟨(key, some v), (mem_readings_iff m read key _).mpr ⟨a, hget, hread⟩, hname, rfl⟩

/-- The last reading of a name is that of its greatest key. -/
theorem isGreatestValue_of_lastNamed? {m : SortedMap PropertyKey α} {read : α → Option β}
    {name : String} {v : β} (h : lastNamed? name (readings m read) = some v) :
    IsGreatestValue (fun key => (m.get? key).bind read) name v := by
  obtain ⟨key, hmem, hname, hgreatest⟩ :=
    exists_greatest_of_lastNamed? (keysAscend_readings m read) h
  obtain ⟨a, hget, hread⟩ := (mem_readings_iff m read key _).mp hmem
  have hv : (m.get? key).bind read = some v := by rw [hget, Option.bind_some, hread]
  refine ⟨key, hname, hv, fun key' hname' hsome => ?_⟩
  obtain ⟨v', hv'⟩ := Option.isSome_iff_exists.mp hsome
  obtain ⟨a', hget', hread'⟩ := Option.bind_eq_some_iff.mp hv'
  have hmem := (mem_readings_iff m read key' _).mpr ⟨a', hget', hread'⟩
  exact hgreatest (key', some v') hmem hname' rfl

/-- A map that is entered by name shows what is read at its greatest keys. -/
theorem showsGreatest_enterByName (m : SortedMap PropertyKey α) (read : α → Option β)
    (name : String) :
    ShowsGreatest (enterByName (readings m read) ∅) name fun key => (m.get? key).bind read := by
  constructor
  · unfold SortedMap.contains
    rw [get?_enterByName_empty]
    exact isSome_lastNamed?_readings m read name
  · intro v
    rw [get?_enterByName_empty]
    constructor
    · exact isGreatestValue_of_lastNamed?
    · intro hgreatest
      obtain ⟨key, hname, hv, -⟩ := id hgreatest
      obtain ⟨v', hv'⟩ := Option.isSome_iff_exists.mp
        ((isSome_lastNamed?_readings m read name).mpr ⟨key, hname, Option.isSome_of_eq_some hv⟩)
      rw [hv', hgreatest.unique (isGreatestValue_of_lastNamed? hv')]

/-- Entering a list first changes nothing, if there is something to read at each
    of its keys. -/
theorem enterByName_listed {m : SortedMap PropertyKey α} {listed : SortedMap PropertyKey β}
    {read : α → Option β}
    (h : ∀ key value, listed.get? key = some value → ((m.get? key).bind read).isSome = true) :
    enterByName (readings m read) (enterByName (readings listed some) ∅) =
      enterByName (readings m read) ∅ := by
  refine SortedMap.ext_get? fun name => ?_
  rw [get?_enterByName, get?_enterByName_empty, get?_enterByName_empty]
  cases hlast : lastNamed? name (readings m read) with
  | some v => rfl
  | none =>
    -- Were the name on the list, there would be something to read.
    rw [Option.none_or]
    refine Option.not_isSome_iff_eq_none.mp fun hshown => ?_
    obtain ⟨key, hname, hsome⟩ := (isSome_lastNamed?_readings listed some name).mp hshown
    obtain ⟨value, hvalue⟩ := Option.isSome_iff_exists.mp hsome
    rw [Option.bind_fun_some] at hvalue
    have hread := (isSome_lastNamed?_readings m read name).mpr ⟨key, hname, h key value hvalue⟩
    rw [hlast] at hread
    cases hread

/-! ## References -/

/-- Under a name, a map lists the references of all keys of that name, and
    nothing if there is no such key. -/
def ListsAll (shown : SortedMap String (SortedSet ObjectId)) (name : String) (t : RefTable) :
    Prop :=
  (shown.contains name = true ↔ ∃ key, key.name = name ∧ t.contains key = true) ∧
  ∀ refs, shown.get? name = some refs → ∀ other,
    refs.contains other = true ↔ ∃ key, key.name = name ∧ t.has key other = true

/-- The greatest key of a name has all references of the other keys, too. -/
def RefTable.GreatestHasAll (t : RefTable) (name : String) : Prop :=
  ∀ refs, IsGreatestValue t.get? name refs → ∀ key other, key.name = name →
    t.has key other = true → refs.contains other = true

/-- The references of the greatest keys are all of them just if these keys hide
    nothing. -/
theorem ShowsGreatest.listsAll_iff {shown : SortedMap String (SortedSet ObjectId)} {name : String}
    {t : RefTable} (h : ShowsGreatest shown name t.get?) :
    ListsAll shown name t ↔ t.GreatestHasAll name := by
  constructor
  · intro hall refs hgreatest key other hname hhas
    exact (hall.2 refs ((h.greatest refs).mpr hgreatest) other).mpr ⟨key, hname, hhas⟩
  · intro hall
    refine ⟨h.present, fun refs hshown other => ⟨fun hcontains => ?_, ?_⟩⟩
    · obtain ⟨key, hname, hget, -⟩ := (h.greatest refs).mp hshown
      exact ⟨key, hname, (RefTable.has_of_get? hget other).trans hcontains⟩
    · rintro ⟨key, hname, hhas⟩
      exact hall refs ((h.greatest refs).mp hshown) key other hname hhas

theorem showsGreatest_refs (t : RefTable) (name : String) :
    ShowsGreatest (enterByName (readings t some) ∅) name t.get? := by
  have hread : (fun key => (t.get? key).bind some) = t.get? :=
    funext fun key => Option.bind_fun_some (t.get? key)
  rw [← hread]
  exact showsGreatest_enterByName t some name

/-- **What summaries show of references.**  Under each name, a summary lists the
    references gained under the greatest key of that name, and nothing if there
    is no such key; so it does with those lost.  These are the references of all
    keys of the name just if the greatest of them has all that the others have. -/
theorem Record.summary_lists_all_references (r : Record κ) (name : String) :
    ShowsGreatest r.summary.added name r.addedRefs.get? ∧
    ShowsGreatest r.summary.removed name r.removedRefs.get? ∧
    (ListsAll r.summary.added name r.addedRefs ↔ r.addedRefs.GreatestHasAll name) ∧
    (ListsAll r.summary.removed name r.removedRefs ↔ r.removedRefs.GreatestHasAll name) :=
  have hadded := showsGreatest_refs r.addedRefs name
  have hremoved := showsGreatest_refs r.removedRefs name
  ⟨hadded, hremoved, hadded.listsAll_iff, hremoved.listsAll_iff⟩

namespace Transaction

/-- A third node. -/
def carol : Tracked Unit := ⟨⟨.node, 5⟩, "n-5", ()⟩

/-- An edge that says that one node works with another. -/
def employment : Edge Unit :=
  ⟨⟨⟨.edge, 4⟩, "r-4", ()⟩, some ⟨"WORKS_WITH"⟩, some ada, some carol⟩

/-- Whom a node knows and whom it works with have one name; only the latter is
    to be synchronized. -/
def friendsSchema : Schema :=
  (acquaintanceSchema "friends" "admirers").register ⟨"WORKS_WITH"⟩
    ⟨some ⟨⟨"friends", some "team"⟩, .collection⟩, some ⟨.plain "colleagues", .collection⟩⟩

/-- A node gets to know one node and to work with another: its summary lists
    only the second. -/
theorem summary_loses_references :
    let t := reached (idleHooks.nested idleScript idlePlan MemoryLog.sink 0) MemoryLog.sink
      {} friendsSchema ∅
      [.record (.createEdge none (acquaintance 3 ada bob)), .record (.createEdge none employment)]
    ∃ r ∈ t.staging.records, r.id = ada.id ∧
      r.addedRefs.has (.plain "friends") bob.id = true ∧
      (r.summary.added.get? "friends").map SortedSet.toList = some [carol.id] ∧
      ¬ ListsAll r.summary.added "friends" r.addedRefs := by
  intro t
  refine ⟨_, List.mem_cons_of_mem _ List.mem_cons_self, rfl, rfl, rfl, fun hall => ?_⟩
  -- The summary would have to list the first node as well.
  have hbob := (hall.2 _ rfl bob.id).mpr ⟨.plain "friends", rfl, rfl⟩
  cases hbob

end Transaction

/-! ## Values -/

namespace Record

variable {r : Record κ}

/-- The values before are those of the differences. -/
theorem Listed.before_eq (h : r.Listed) :
    r.summary.before = enterByName (readings r.modified PropertyDiff.previous) ∅ := by
  refine enterByName_listed fun key value hremoved => ?_
  rw [(h key).2] at hremoved
  obtain ⟨diff, hdiff, hvalue⟩ := Option.bind_eq_some_iff.mp hremoved
  rw [hdiff, (PropertyDiff.removed?_eq_some_iff diff value).mp hvalue]
  rfl

/-- The values after are those of the differences. -/
theorem Listed.after_eq (h : r.Listed) :
    r.summary.after = enterByName (readings r.modified PropertyDiff.new) ∅ := by
  refine enterByName_listed fun key value hcreated => ?_
  rw [(h key).1] at hcreated
  obtain ⟨diff, hdiff, hvalue⟩ := Option.bind_eq_some_iff.mp hcreated
  rw [hdiff, (PropertyDiff.created?_eq_some_iff diff value).mp hvalue]
  rfl

/-- The two lists of a record add nothing to its summary. -/
theorem Listed.summary_eq (h : r.Listed) :
    ({ r with created := ∅, removed := ∅ } : Record κ).summary = r.summary := by
  have hbefore := h.before_eq
  have hafter := h.after_eq
  unfold summary at hbefore hafter ⊢
  dsimp only at hbefore hafter ⊢
  rw [hbefore, hafter]
  rfl

end Record

namespace Transaction

/-- **Summaries of values follow the net differences alone.**  At every moment
    of every reachable ledger, the summary of a record shows under each name the
    previous value of the greatest key of that name whose difference has one,
    and no value before if there is no such key; so it does with the new values.
    The keys of a name are ordered by synchronization key, the one without
    first.  The lists of created and removed properties add nothing: without
    them the summary would be the same. -/
theorem summaries_follow_net_diffs (h : Hooks κ π σ) (script : InnerScript κ π σ)
    (plan : InnerPlan κ π σ) (depth : Nat) (sink : Sink σ) (options : Options) (schema : Schema)
    (world : σ) (moves : List (Move κ π σ)) (s : Staging κ π) (past : List (Recorded κ π))
    (hm : (reached (h.nested script plan sink depth) sink options schema world moves).Moment
      s past) :
    (∀ key : PropertyKey, (compare (PropertyKey.plain key.name) key).isLE = true) ∧
    ∀ r ∈ s.records,
      (∀ name,
        ShowsGreatest r.summary.before name
          (fun key => (r.modified.get? key).bind PropertyDiff.previous) ∧
        ShowsGreatest r.summary.after name
          (fun key => (r.modified.get? key).bind PropertyDiff.new)) ∧
      ({ r with created := ∅, removed := ∅ } : Record κ).summary = r.summary := by
  have hboth : KeptAlong fun (s : Staging κ π) past => s.Ordered ∧ s.Replayed past :=
    keptAlong_ordered.and keptAlong_replayed
  obtain ⟨hordered, hreplayed⟩ := hboth.atMoments h script plan depth sink
    ⟨ordered_new options schema, replayed_new options schema⟩ world moves hm
  refine ⟨PropertyKey.isLE_plain, fun r hr => ?_⟩
  obtain ⟨-, hlisted⟩ := hreplayed.netDiff (hordered.find?_of_mem hr)
  refine ⟨fun name => ⟨?_, ?_⟩, hlisted.summary_eq⟩
  · rw [hlisted.before_eq]
    exact showsGreatest_enterByName r.modified PropertyDiff.previous name
  · rw [hlisted.after_eq]
    exact showsGreatest_enterByName r.modified PropertyDiff.new name

/-- One name, two properties: one loses its value and the other, which is to be
    synchronized, gets one. -/
def recolouringMoves : List (Move Unit Unit MemoryLog) :=
  [.record (.modify none ada ⟨"colour", some "paint"⟩ none (some (.str "blue"))),
    .record (.modify none ada (.plain "colour") (some (.str "red")) none)]

/-- The value before is that of the one property, and the value after that of
    the other. -/
theorem summaries_follow_net_diffs_of_shared_name :
    let t := reached (idleHooks.nested idleScript idlePlan MemoryLog.sink 0) MemoryLog.sink
      {} ∅ ∅ recolouringMoves
    ∃ r ∈ t.staging.records,
      r.summary.before.get? "colour" = some (.str "red") ∧
      IsGreatestValue (fun key => (r.modified.get? key).bind PropertyDiff.previous) "colour"
        (.str "red") ∧
      r.summary.after.get? "colour" = some (.str "blue") ∧
      IsGreatestValue (fun key => (r.modified.get? key).bind PropertyDiff.new) "colour"
        (.str "blue") := by
  intro t
  obtain ⟨-, hall⟩ := summaries_follow_net_diffs idleHooks idleScript idlePlan 0 MemoryLog.sink {}
    ∅ ∅ recolouringMoves _ _ .now
  obtain ⟨hbefore, hafter⟩ := (hall _ List.mem_cons_self).1 "colour"
  exact ⟨_, List.mem_cons_self, rfl, (hbefore.greatest _).mp rfl, rfl, (hafter.greatest _).mp rfl⟩

end Transaction

end ChangeLedger
