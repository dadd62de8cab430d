/-
  ChangeLedger.Collections.SortedMap — finite maps kept in key order.

  A map is a list of entries whose keys ascend strictly.  The order is a
  field of the type, so two maps with the same lookups are the same list,
  and every listing of a map comes out sorted.

  Main results:
    * `SortedMap.get?_insert`, `SortedMap.get?_erase` — what a write does
      to every lookup.
    * `SortedMap.mem_entries_iff` — the entries of a map are its lookups.
    * `SortedMap.ext_get?` — a map is determined by its lookups.
-/

namespace ChangeLedger

variable {α β : Type} [Ord α]

/-! ## Entry lists -/

/-- Entries whose keys ascend strictly, so that no key occurs twice. -/
def KeysAscend (l : List (α × β)) : Prop :=
  l.Pairwise fun a b => compare a.1 b.1 = .lt

/-- Writes one entry into an ascending list: replaces the value of a
    present key, and puts a new key at its place in the order. -/
def insertEntry (k : α) (v : β) : List (α × β) → List (α × β)
  | [] => [(k, v)]
  | (k', v') :: rest =>
    match compare k k' with
    | .lt => (k, v) :: (k', v') :: rest
    | .eq => (k, v) :: rest
    | .gt => (k', v') :: insertEntry k v rest

/-- The value of the first entry with key `k`. -/
def lookupEntry (k : α) : List (α × β) → Option β
  | [] => none
  | (k', v) :: rest => if compare k k' = .eq then some v else lookupEntry k rest

/-- Drops the entries with key `k`. -/
def eraseEntry (k : α) : List (α × β) → List (α × β)
  | [] => []
  | (k', v) :: rest =>
    if compare k k' = .eq then eraseEntry k rest else (k', v) :: eraseEntry k rest

theorem mem_of_mem_insertEntry {k : α} {v : β} {l : List (α × β)} {e : α × β}
    (h : e ∈ insertEntry k v l) : e = (k, v) ∨ e ∈ l := by
  induction l with
  | nil => simpa [insertEntry] using h
  | cons e' rest ih =>
    obtain ⟨k', v'⟩ := e'
    simp only [insertEntry] at h
    split at h
    · simpa using h
    · rcases List.mem_cons.mp h with h | h
      · exact .inl h
      · exact .inr (List.mem_cons_of_mem _ h)
    · rcases List.mem_cons.mp h with h | h
      · exact .inr (h ▸ List.mem_cons_self)
      · rcases ih h with h | h
        · exact .inl h
        · exact .inr (List.mem_cons_of_mem _ h)

theorem mem_of_mem_eraseEntry {k : α} {l : List (α × β)} {e : α × β}
    (h : e ∈ eraseEntry k l) : e ∈ l := by
  induction l with
  | nil => simp [eraseEntry] at h
  | cons e' rest ih =>
    obtain ⟨k', v'⟩ := e'
    simp only [eraseEntry] at h
    split at h
    · exact List.mem_cons_of_mem _ (ih h)
    · rcases List.mem_cons.mp h with h | h
      · exact h ▸ List.mem_cons_self
      · exact List.mem_cons_of_mem _ (ih h)

theorem keysAscend_insertEntry [Std.TransOrd α] {k : α} {v : β} {l : List (α × β)}
    (h : KeysAscend l) : KeysAscend (insertEntry k v l) := by
  induction l with
  | nil => exact List.pairwise_singleton _ _
  | cons e rest ih =>
    obtain ⟨k', v'⟩ := e
    have hhead := (List.pairwise_cons.mp h).1
    have htail := (List.pairwise_cons.mp h).2
    simp only [insertEntry]
    split
    · next hlt =>
      refine List.pairwise_cons.mpr ⟨fun e he => ?_, h⟩
      rcases List.mem_cons.mp he with he | he
      · exact he ▸ hlt
      · exact Std.TransCmp.lt_trans hlt (hhead e he)
    · next heq =>
      refine List.pairwise_cons.mpr ⟨fun e he => ?_, htail⟩
      exact Std.TransCmp.lt_of_eq_of_lt heq (hhead e he)
    · next hgt =>
      refine List.pairwise_cons.mpr ⟨fun e he => ?_, ih htail⟩
      rcases mem_of_mem_insertEntry he with he | he
      · exact he ▸ Std.OrientedCmp.gt_iff_lt.mp hgt
      · exact hhead e he

theorem keysAscend_eraseEntry {k : α} {l : List (α × β)} (h : KeysAscend l) :
    KeysAscend (eraseEntry k l) := by
  induction l with
  | nil => exact List.Pairwise.nil
  | cons e rest ih =>
    obtain ⟨k', v'⟩ := e
    have hhead := (List.pairwise_cons.mp h).1
    have htail := (List.pairwise_cons.mp h).2
    simp only [eraseEntry]
    split
    · exact ih htail
    · exact List.pairwise_cons.mpr ⟨fun e he => hhead e (mem_of_mem_eraseEntry he), ih htail⟩

/-! ## The map -/

/-- A finite map from `α` to `β`, listed in ascending order of its keys. -/
structure SortedMap (α β : Type) [Ord α] where
  /-- The entries, in ascending order of their keys. -/
  entries : List (α × β)
  /-- No key occurs twice, and the listing is sorted. -/
  ascend : KeysAscend entries

namespace SortedMap

/-- The map without entries. -/
def empty : SortedMap α β := ⟨[], List.Pairwise.nil⟩

instance : EmptyCollection (SortedMap α β) := ⟨empty⟩
instance : Inhabited (SortedMap α β) := ⟨empty⟩

/-- The value at `k`, if there is one. -/
def get? (m : SortedMap α β) (k : α) : Option β := lookupEntry k m.entries

/-- The value at `k`, or `fallback`. -/
def getD (m : SortedMap α β) (k : α) (fallback : β) : β := (m.get? k).getD fallback

/-- Whether the map has a value at `k`. -/
def contains (m : SortedMap α β) (k : α) : Bool := (m.get? k).isSome

/-- Number of entries. -/
def size (m : SortedMap α β) : Nat := m.entries.length

/-- Whether the map has no entry. -/
def isEmpty (m : SortedMap α β) : Bool := m.entries.isEmpty

/-- The keys, ascending. -/
def keys (m : SortedMap α β) : List α := m.entries.map (·.1)

/-- Sets the value at `k`. -/
def insert [Std.TransOrd α] (m : SortedMap α β) (k : α) (v : β) : SortedMap α β :=
  ⟨insertEntry k v m.entries, keysAscend_insertEntry m.ascend⟩

/-- Removes the value at `k`. -/
def erase (m : SortedMap α β) (k : α) : SortedMap α β :=
  ⟨eraseEntry k m.entries, keysAscend_eraseEntry m.ascend⟩

/-- The map that a list of writes leaves behind; a later write to the
    same key wins. -/
def ofList [Std.TransOrd α] (l : List (α × β)) : SortedMap α β :=
  l.foldl (fun m e => m.insert e.1 e.2) empty

/-! ## Lookups -/

@[simp] theorem get?_empty (k : α) : (empty : SortedMap α β).get? k = none := rfl

theorem lookupEntry_cons (k k' : α) (v : β) (l : List (α × β)) :
    lookupEntry k ((k', v) :: l) = if compare k k' = .eq then some v else lookupEntry k l := rfl

theorem lookupEntry_insertEntry [Std.TransOrd α] [Std.LawfulEqOrd α] [DecidableEq α]
    (k q : α) (v : β) (l : List (α × β)) :
    lookupEntry q (insertEntry k v l) = if q = k then some v else lookupEntry q l := by
  induction l with
  | nil =>
    simp only [insertEntry, lookupEntry, Std.compare_eq_iff_eq]
  | cons e rest ih =>
    obtain ⟨k', v'⟩ := e
    simp only [insertEntry]
    split
    · simp only [lookupEntry, Std.compare_eq_iff_eq]
    · next heq =>
      have hk : k = k' := Std.compare_eq_iff_eq.mp heq
      subst hk
      simp only [lookupEntry, Std.compare_eq_iff_eq]
      split <;> rfl
    · next hgt =>
      have hk : k' ≠ k := by
        intro h
        subst h
        simp [Std.compare_self] at hgt
      simp only [lookupEntry, Std.compare_eq_iff_eq, ih]
      by_cases hq : q = k'
      · subst hq
        simp [hk]
      · simp [hq]

theorem lookupEntry_eraseEntry [Std.LawfulEqOrd α] [DecidableEq α]
    (k q : α) (l : List (α × β)) :
    lookupEntry q (eraseEntry k l) = if q = k then none else lookupEntry q l := by
  induction l with
  | nil => simp [eraseEntry, lookupEntry]
  | cons e rest ih =>
    obtain ⟨k', v'⟩ := e
    simp only [eraseEntry, Std.compare_eq_iff_eq]
    by_cases hk : k = k'
    · subst hk
      simp only [if_true, ih, lookupEntry, Std.compare_eq_iff_eq]
      split <;> rfl
    · by_cases hq : q = k'
      · subst hq
        simp [lookupEntry, hk, Ne.symm hk]
      · simp [lookupEntry, ih, hk, hq]

/-- A write changes the lookup of its own key and of no other. -/
theorem get?_insert [Std.TransOrd α] [Std.LawfulEqOrd α] [DecidableEq α]
    (m : SortedMap α β) (k q : α) (v : β) :
    (m.insert k v).get? q = if q = k then some v else m.get? q :=
  lookupEntry_insertEntry k q v m.entries

/-- An erasure removes the lookup of its own key and of no other. -/
theorem get?_erase [Std.LawfulEqOrd α] [DecidableEq α] (m : SortedMap α β)
    (k q : α) : (m.erase k).get? q = if q = k then none else m.get? q :=
  lookupEntry_eraseEntry k q m.entries

theorem lookupEntry_of_lt [Std.LawfulEqOrd α] {k : α} {l : List (α × β)}
    (h : ∀ e ∈ l, compare k e.1 = .lt) : lookupEntry k l = none := by
  induction l with
  | nil => rfl
  | cons e rest ih =>
    have hne : ¬ compare k e.1 = .eq := by simp [h e List.mem_cons_self]
    simp only [lookupEntry, if_neg hne]
    exact ih fun e he => h e (List.mem_cons_of_mem _ he)

/-- The look-ups of an ascending list are its entries. -/
theorem lookupEntry_eq_some_iff [Std.TransOrd α] [Std.LawfulEqOrd α] {l : List (α × β)}
    (h : KeysAscend l) (k : α) (v : β) : lookupEntry k l = some v ↔ (k, v) ∈ l := by
  induction l with
  | nil => simp [lookupEntry]
  | cons e rest ih =>
    obtain ⟨k', v'⟩ := e
    obtain ⟨hhead, htail⟩ := List.pairwise_cons.mp h
    rw [lookupEntry_cons]
    by_cases hk : k = k'
    · subst hk
      rw [if_pos Std.compare_self, List.mem_cons]
      constructor
      · intro hv
        exact .inl (by rw [Option.some.inj hv])
      · intro hmem
        cases hmem with
        | inl heq => rw [(Prod.mk.inj heq).2]
        | inr hrest =>
          -- the key cannot occur once more behind itself
          have hlt := hhead (k, v) hrest
          rw [Std.compare_self] at hlt
          cases hlt
    · rw [if_neg fun heq => hk (Std.compare_eq_iff_eq.mp heq), ih htail, List.mem_cons]
      constructor
      · exact .inr
      · intro hmem
        cases hmem with
        | inl heq => exact absurd (Prod.mk.inj heq).1 hk
        | inr hrest => exact hrest

/-- The entries of a map are its look-ups. -/
theorem mem_entries_iff [Std.TransOrd α] [Std.LawfulEqOrd α] (m : SortedMap α β) (k : α) (v : β) :
    (k, v) ∈ m.entries ↔ m.get? k = some v := (lookupEntry_eq_some_iff m.ascend k v).symm

/-- The keys of a map are those that it contains. -/
theorem mem_keys_iff [Std.TransOrd α] [Std.LawfulEqOrd α] (m : SortedMap α β) (k : α) :
    k ∈ m.keys ↔ m.contains k = true := by
  unfold keys contains
  rw [List.mem_map, Option.isSome_iff_exists]
  constructor
  · rintro ⟨e, he, rfl⟩
    exact ⟨e.2, (mem_entries_iff m e.1 e.2).mp he⟩
  · rintro ⟨v, hv⟩
    exact ⟨(k, v), (mem_entries_iff m k v).mpr hv, rfl⟩

/-- No key is listed twice. -/
theorem nodup_keys [Std.TransOrd α] (m : SortedMap α β) : m.keys.Nodup := by
  unfold keys
  refine List.pairwise_map.mpr (m.ascend.imp ?_)
  intro e e' hlt heq
  rw [heq, Std.compare_self] at hlt
  cases hlt

/-- Ascending lists with the same lookups are the same list. -/
theorem eq_of_lookupEntry_eq [Std.TransOrd α] [Std.LawfulEqOrd α] {l₁ l₂ : List (α × β)}
    (h₁ : KeysAscend l₁) (h₂ : KeysAscend l₂)
    (h : ∀ k, lookupEntry k l₁ = lookupEntry k l₂) : l₁ = l₂ := by
  induction l₁ generalizing l₂ with
  | nil =>
    cases l₂ with
    | nil => rfl
    | cons e rest => simpa [lookupEntry] using h e.1
  | cons e₁ rest₁ ih =>
    cases l₂ with
    | nil => simpa [lookupEntry] using h e₁.1
    | cons e₂ rest₂ =>
      have head₁ := (List.pairwise_cons.mp h₁).1
      have head₂ := (List.pairwise_cons.mp h₂).1
      have hk : e₁.1 = e₂.1 := by
        cases hc : compare e₁.1 e₂.1 with
        | eq => exact Std.compare_eq_iff_eq.mp hc
        | lt =>
          have none₂ : lookupEntry e₁.1 (e₂ :: rest₂) = none :=
            lookupEntry_of_lt fun e he => by
              rcases List.mem_cons.mp he with he | he
              · exact he ▸ hc
              · exact Std.TransCmp.lt_trans hc (head₂ e he)
          have := h e₁.1
          rw [none₂] at this
          simp [lookupEntry] at this
        | gt =>
          have hc' := Std.OrientedCmp.gt_iff_lt.mp hc
          have none₁ : lookupEntry e₂.1 (e₁ :: rest₁) = none :=
            lookupEntry_of_lt fun e he => by
              rcases List.mem_cons.mp he with he | he
              · exact he ▸ hc'
              · exact Std.TransCmp.lt_trans hc' (head₁ e he)
          have := h e₂.1
          rw [none₁] at this
          simp [lookupEntry] at this
      have hv : e₁.2 = e₂.2 := by
        have := h e₁.1
        simpa [lookupEntry, ← hk] using this
      have he : e₁ = e₂ := Prod.ext hk hv
      subst he
      congr 1
      refine ih (List.pairwise_cons.mp h₁).2 (List.pairwise_cons.mp h₂).2 fun k => ?_
      by_cases hq : compare k e₁.1 = .eq
      · have hq := Std.compare_eq_iff_eq.mp hq
        subst hq
        rw [lookupEntry_of_lt head₁, lookupEntry_of_lt head₂]
      · have := h k
        simpa [lookupEntry, hq] using this

/-- A map is determined by its lookups. -/
theorem ext_get? [Std.TransOrd α] [Std.LawfulEqOrd α] {m n : SortedMap α β}
    (h : ∀ k, m.get? k = n.get? k) : m = n := by
  obtain ⟨l₁, h₁⟩ := m
  obtain ⟨l₂, h₂⟩ := n
  have : l₁ = l₂ := eq_of_lookupEntry_eq h₁ h₂ h
  subst this
  rfl

end SortedMap

end ChangeLedger
