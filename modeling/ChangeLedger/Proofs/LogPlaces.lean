/-
  ChangeLedger.Proofs.LogPlaces — which logs stand in each other's way.

  A long ASCII identifier lies below folders that are named after its first
  pairs of characters; every other identifier lies right in the folder of its
  kind.  The two sorts share that folder.  So a log named by two ASCII
  characters and a log whose identifier starts with these two need the same
  name there, one for a file and one for a folder, and whichever comes first
  keeps the other out.  Nothing else is ever in the way of a log.

  Main results:
    * `LogName.clashes_iff` — the two ways to see a clash.
    * `FileTree.Mirrors.appendLog` — a directory that holds what a list of
      appends has made answers the next one by `LogName.verdict`.
    * `FileTree.logs_wait_only_for_clashes` — from an empty directory, every
      append of every run; all succeed just if no two of the logs clash.
-/
import ChangeLedger.Audit.FileTree

namespace ChangeLedger

/-! ## Names in the folder of a kind -/

namespace LogName

/-- Whether a log lies below folders of its own. -/
def isSharded (name : LogName) : Bool := !(shards name.id).isEmpty

/-- What a log takes up in the folder of its kind: the first of its folders,
    or itself. -/
def entry (name : LogName) : String := (shards name.id).headD name.id

/-- The file of `a` stands where `b` needs a folder. -/
def StandsIn (a b : LogName) : Prop := a.kind = b.kind ∧ (shards b.id).head? = some a.id

/-- Two logs that need one place, for a file and for a folder. -/
def Clashes (a b : LogName) : Prop := a.StandsIn b ∨ b.StandsIn a

instance (a b : LogName) : Decidable (a.StandsIn b) :=
  inferInstanceAs (Decidable (_ ∧ _))

instance (a b : LogName) : Decidable (a.Clashes b) :=
  inferInstanceAs (Decidable (_ ∨ _))

/-- Whether an identifier is long enough for folders, in bytes, and ASCII. -/
def IsLongAscii (id : String) : Prop :=
  6 ≤ id.utf8ByteSize ∧ ∀ c ∈ id.toList, c.toNat < 128

instance (id : String) : Decidable (IsLongAscii id) := inferInstanceAs (Decidable (_ ∧ _))

theorem utf8ByteSize_of_ascii {cs : List Char} (h : ∀ c ∈ cs, c.toNat < 128) :
    (String.ofList cs).utf8ByteSize = cs.length := by
  induction cs with
  | nil => rfl
  | cons c rest ih =>
    obtain ⟨hc, hrest⟩ := List.forall_mem_cons.mp h
    have hsize : c.utf8Size = 1 :=
      Char.utf8Size_eq_one_iff.mpr (UInt32.le_iff_toNat_le.mpr (Nat.le_of_lt_succ hc))
    rw [String.ofList_cons, String.utf8ByteSize_append, ih hrest]
    simp [hsize, Nat.add_comm]

/-- Two characters of a byte each. -/
def IsPair (s : String) : Prop := s.toList.length = 2 ∧ s.utf8ByteSize = 2

/-- The shards of an identifier are its first three pairs of characters, or
    there are none. -/
theorem shards_spec (id : String) :
    ¬ IsLongAscii id ∧ shards id = [] ∨
      IsLongAscii id ∧ ∃ a b c rest, shards id = [a, b, c] ∧ id = a ++ b ++ c ++ rest ∧
        IsPair a ∧ IsPair b ∧ IsPair c := by
  by_cases hascii : ∀ c ∈ id.toList, c.toNat < 128
  · have hsize : id.utf8ByteSize = id.toList.length := by
      rw [← utf8ByteSize_of_ascii hascii, String.ofList_toList]
    have hpair : ∀ x ∈ id.toList, ∀ y ∈ id.toList, IsPair (String.ofList [x, y]) := by
      intro x hx y hy
      rw [IsPair, String.toList_ofList,
        utf8ByteSize_of_ascii (by simp [hascii x hx, hascii y hy])]
      exact ⟨rfl, rfl⟩
    unfold shards
    split
    · next a b c d e f rest heq =>
      rw [heq] at hascii hpair hsize
      rw [if_pos (List.all_eq_true.mpr fun ch hch => decide_eq_true (hascii ch hch))]
      refine .inr ⟨⟨by rw [hsize]; simp, heq ▸ hascii⟩, _, _, _, String.ofList rest, rfl, ?_,
        hpair a (by simp) b (by simp), hpair c (by simp) d (by simp),
        hpair e (by simp) f (by simp)⟩
      rw [← String.toList_inj, heq]
      simp
    · next hshort =>
      refine .inl ⟨fun hlong => ?_, rfl⟩
      have hsix := hsize ▸ hlong.1
      match hchars : id.toList, hsix with
      | a :: b :: c :: d :: e :: f :: rest, _ => exact hshort _ _ _ _ _ _ _ hchars
  · refine .inl ⟨fun hlong => hascii hlong.2, ?_⟩
    unfold shards
    split
    · next a b c d e f rest heq =>
      rw [if_neg]
      rw [heq] at hascii
      simpa using hascii
    · rfl

/-- There are no shards, or three of two bytes each, and a shard has none
    of its own. -/
theorem shards_cases (id : String) :
    shards id = [] ∨ ∃ a b c, shards id = [a, b, c] ∧ shards a = [] ∧
      a.utf8ByteSize = 2 ∧ b.utf8ByteSize = 2 ∧ c.utf8ByteSize = 2 := by
  rcases shards_spec id with ⟨-, hnone⟩ | ⟨-, a, b, c, rest, heq, -, ha, hb, hc⟩
  · exact .inl hnone
  · refine .inr ⟨a, b, c, heq, ?_, ha.2, hb.2, hc.2⟩
    rcases shards_spec a with ⟨-, hnone⟩ | ⟨⟨hsix, -⟩, -⟩
    · exact hnone
    · rw [ha.2] at hsix
      exact absurd hsix (by decide)

theorem entry_of_flat {name : LogName} (h : name.isSharded = false) : name.entry = name.id := by
  simp only [isSharded, Bool.not_eq_false', List.isEmpty_iff] at h
  simp [entry, h]

/-- The entry of a log below folders is a name of two bytes without shards. -/
theorem entry_of_sharded {name : LogName} (h : name.isSharded = true) :
    (shards name.id).head? = some name.entry ∧ shards name.entry = [] ∧
      name.entry.utf8ByteSize = 2 := by
  rcases shards_cases name.id with hnone | ⟨a, b, c, heq, hflat, ha, -, -⟩
  · simp [isSharded, hnone] at h
  · simp [entry, heq, hflat, ha]

/-- Two logs clash just if they share their entry and only one of them lies
    below it. -/
theorem clashes_iff (a b : LogName) :
    a.Clashes b ↔ a.kind = b.kind ∧ a.entry = b.entry ∧ a.isSharded ≠ b.isSharded := by
  have hstands : ∀ a b : LogName, a.StandsIn b ↔
      a.kind = b.kind ∧ a.entry = b.entry ∧ a.isSharded = false ∧ b.isSharded = true := by
    intro a b
    constructor
    · rintro ⟨hkind, hhead⟩
      have hb : b.isSharded = true := by
        cases hs : shards b.id with
        | nil => simp [hs] at hhead
        | cons => simp [isSharded, hs]
      obtain ⟨hentry, hflat, -⟩ := entry_of_sharded hb
      have hid : b.entry = a.id := Option.some.inj (hentry.symm.trans hhead)
      have ha : a.isSharded = false := by simp [isSharded, ← hid, hflat]
      exact ⟨hkind, by rw [entry_of_flat ha, hid], ha, hb⟩
    · rintro ⟨hkind, hentry, ha, hb⟩
      exact ⟨hkind, by rw [(entry_of_sharded hb).1, ← hentry, entry_of_flat ha]⟩
  unfold Clashes
  rw [hstands, hstands]
  cases a.isSharded <;> cases b.isSharded <;> simp [eq_comm]

/-- The folders above a log, from the folder of its kind. -/
def folders (name : LogName) : FilePath := name.kind.folder :: shards name.id

theorem components_eq (name : LogName) : name.components = name.folders ++ [name.id] := rfl

theorem folder_injective {a b : LogKind} (h : a.folder = b.folder) : a = b := by
  revert h
  cases a <;> cases b <;> decide

/-- A log lies right in the folder of its kind, or below three more. -/
theorem folders_length (name : LogName) :
    name.folders.length = if name.isSharded then 4 else 1 := by
  rcases shards_cases name.id with hnone | ⟨a, b, c, heq, -⟩
  · simp [folders, isSharded, hnone]
  · simp [folders, isSharded, heq]

/-- A log takes up its entry as a file if it has no folders. -/
theorem entry_eq_components {name : LogName} (kind : LogKind) (entry : String) :
    [kind.folder, entry] = name.components ↔
      name.isSharded = false ∧ name.kind = kind ∧ name.entry = entry := by
  rcases shards_cases name.id with hnone | ⟨a, b, c, heq, -⟩
  · simp only [components, isSharded, LogName.entry, hnone]
    constructor
    · intro h
      injection h with hkind hrest
      injection hrest with hid
      exact ⟨rfl, (folder_injective hkind).symm, hid.symm⟩
    · rintro ⟨-, rfl, rfl⟩
      rfl
  · simp [components, isSharded, heq]

/-! ## The verdict on an append -/

/-- The first log with a safe identifier of this kind and with this entry. -/
def firstAt (earlier : List LogName) (kind : LogKind) (entry : String) : Option LogName :=
  earlier.find? fun name => isSafeId name.id && name.kind = kind && name.entry = entry

/-- What is in the way of a log after the appends to some other logs, on a file
    system with this limit on names.  The first log at an entry says whether it
    is a file or a folder. -/
def obstacle (nameLimit : Option Nat) (earlier : List LogName) (name : LogName) :
    Option IoCause :=
  if (firstAt earlier name.kind name.entry).any (·.isSharded != name.isSharded) then
    some (if name.isSharded then .notADirectory else .isADirectory)
  else if (FileTree.bare nameLimit).takes name.id then none
  else some .nameTooLong

/-- How an append ends after the appends to some other logs. -/
def verdict (root : String) (nameLimit : Option Nat) (earlier : List LogName) (name : LogName) :
    Except Failure Unit :=
  if isSafeId name.id then
    match obstacle nameLimit earlier name with
    | none => .ok ()
    | some cause => .error (.auditIo (name.path root) cause)
  else .error (.invalidArgument name.refusal)

/-- How the appends to some logs end, one after the other. -/
def verdicts (root : String) (nameLimit : Option Nat) :
    List LogName → List LogName → List (Except Failure Unit)
  | _, [] => []
  | earlier, name :: rest =>
    verdict root nameLimit earlier name :: verdicts root nameLimit (earlier ++ [name]) rest

theorem firstAt_concat (earlier : List LogName) (name : LogName) (kind : LogKind)
    (entry : String) :
    firstAt (earlier ++ [name]) kind entry = (firstAt earlier kind entry).or
      (if isSafeId name.id ∧ name.kind = kind ∧ name.entry = entry then some name
      else none) := by
  simp only [firstAt, List.find?_append, List.find?_cons, List.find?_nil]
  congr 1
  by_cases h : isSafeId name.id ∧ name.kind = kind ∧ name.entry = entry
  · simp [h]
  · have hfalse : (isSafeId name.id && decide (name.kind = kind) &&
        decide (name.entry = entry)) = false := by
      simpa [and_assoc] using h
    simp [hfalse, h]

theorem firstAt_spec {earlier : List LogName} {kind : LogKind} {entry : String} {name : LogName}
    (h : firstAt earlier kind entry = some name) :
    name ∈ earlier ∧ name.kind = kind ∧ name.entry = entry := by
  have hp := List.find?_some h
  simp only [Bool.and_eq_true, decide_eq_true_eq] at hp
  exact ⟨List.mem_of_find?_eq_some h, hp.1.2, hp.2⟩

theorem verdict_eq_ok_iff {root : String} {nameLimit : Option Nat} {earlier : List LogName}
    {name : LogName} (hsafe : isSafeId name.id = true)
    (htakes : (FileTree.bare nameLimit).takes name.id = true) :
    verdict root nameLimit earlier name = .ok () ↔
      (firstAt earlier name.kind name.entry).any (·.isSharded != name.isSharded) = false := by
  unfold verdict obstacle
  rw [if_pos hsafe]
  cases (firstAt earlier name.kind name.entry).any (·.isSharded != name.isSharded) <;>
    simp [htakes]

theorem not_clashes_self (name : LogName) : ¬ name.Clashes name := by
  simp [clashes_iff]

theorem Clashes.symm {a b : LogName} (h : a.Clashes b) : b.Clashes a := h.elim .inr .inl

/-- Among logs that do not clash, the first at an entry speaks for all. -/
theorem verdict_eq_ok_iff_of_no_clash {root : String} {nameLimit : Option Nat}
    {earlier : List LogName} {name : LogName} (hsafe : isSafeId name.id = true)
    (htakes : (FileTree.bare nameLimit).takes name.id = true)
    (hearlier : ∀ a ∈ earlier, isSafeId a.id = true)
    (hclash : ∀ a ∈ earlier, ∀ b ∈ earlier, ¬ a.Clashes b) :
    verdict root nameLimit earlier name = .ok () ↔ ∀ a ∈ earlier, ¬ a.Clashes name := by
  rw [verdict_eq_ok_iff hsafe htakes]
  cases hfirst : firstAt earlier name.kind name.entry with
  | none =>
    simp only [Option.any_none, true_iff]
    intro a ha hclashes
    obtain ⟨hkind, hentry, -⟩ := (clashes_iff a name).mp hclashes
    have hnone := List.find?_eq_none.mp hfirst a ha
    simp [hearlier a ha, hkind, hentry] at hnone
  | some first =>
    obtain ⟨hmem, hkind, hentry⟩ := firstAt_spec hfirst
    simp only [Option.any_some, bne_eq_false_iff_eq]
    constructor
    · intro hsame a ha hclashes
      obtain ⟨hk, he, hs⟩ := (clashes_iff a name).mp hclashes
      refine hclash first hmem a ha ((clashes_iff first a).mpr ⟨?_, ?_, ?_⟩)
      · rw [hkind, hk]
      · rw [hentry, he]
      · rw [hsame]
        exact Ne.symm hs
    · intro hnone
      refine Decidable.byContradiction fun hdiffer => ?_
      exact hnone first hmem ((clashes_iff first name).mpr ⟨hkind, hentry, hdiffer⟩)

/-- All the logs that come after some that do not clash are let in just if
    there is still no clash. -/
theorem verdicts_ok_iff {root : String} {nameLimit : Option Nat} {earlier names : List LogName}
    (hsafe : ∀ a ∈ names, isSafeId a.id = true ∧ (FileTree.bare nameLimit).takes a.id = true)
    (hearlier : ∀ a ∈ earlier, isSafeId a.id = true)
    (hclash : ∀ a ∈ earlier, ∀ b ∈ earlier, ¬ a.Clashes b) :
    (∀ answer ∈ verdicts root nameLimit earlier names, answer = .ok ()) ↔
      ∀ a ∈ earlier ++ names, ∀ b ∈ earlier ++ names, ¬ a.Clashes b := by
  induction names generalizing earlier with
  | nil => simpa [verdicts] using hclash
  | cons name rest ih =>
    obtain ⟨⟨hname, htakes⟩, hrest⟩ := List.forall_mem_cons.mp hsafe
    rw [verdicts, List.forall_mem_cons,
      verdict_eq_ok_iff_of_no_clash hname htakes hearlier hclash]
    have hstep : (∀ a ∈ earlier, ¬ a.Clashes name) →
        ((∀ answer ∈ verdicts root nameLimit (earlier ++ [name]) rest, answer = .ok ()) ↔
          ∀ a ∈ earlier ++ name :: rest, ∀ b ∈ earlier ++ name :: rest, ¬ a.Clashes b) := by
      intro hfree
      rw [List.append_cons earlier name rest]
      refine ih hrest (fun a ha => ?_) fun a ha b hb => ?_
      · rcases List.mem_append.mp ha with ha | ha
        · exact hearlier a ha
        · rwa [List.mem_singleton.mp ha]
      · simp only [List.mem_append, List.mem_singleton] at ha hb
        rcases ha with ha | rfl <;> rcases hb with hb | rfl
        · exact hclash a ha b hb
        · exact hfree a ha
        · exact fun hclashes => hfree b hb hclashes.symm
        · exact not_clashes_self _
    constructor
    · rintro ⟨hfree, hothers⟩
      exact (hstep hfree).mp hothers
    · intro hnone
      have hfree : ∀ a ∈ earlier, ¬ a.Clashes name := fun a ha =>
        hnone a (List.mem_append_left _ ha) name (by simp)
      exact ⟨hfree, (hstep hfree).mpr hnone⟩

end LogName

/-! ## Creating the folders of a log -/

namespace FileTree

variable {t : FileTree} {here p : FilePath} {x : String}

/-- The places on the way from a folder along some names. -/
def placesFrom : FilePath → List String → List FilePath
  | _, [] => []
  | here, name :: rest => (here ++ [name]) :: placesFrom (here ++ [name]) rest

/-- No file lies on the way from a folder along some names, all of which the
    file system takes. -/
def ClearFrom (t : FileTree) (here : FilePath) (names : List String) : Prop :=
  (∀ name ∈ names, t.takes name = true) ∧ ∀ q ∈ placesFrom here names, t.files.get? q = none

theorem ancestors_eq (p : FilePath) : ancestors p = placesFrom [] p := by
  have hfrom : ∀ (rest : List String) (here : FilePath),
      (List.range rest.length).map (fun n => here ++ rest.take (n + 1)) = placesFrom here rest := by
    intro rest
    induction rest with
    | nil => exact fun _ => rfl
    | cons name rest ih =>
      intro here
      rw [placesFrom, ← ih (here ++ [name]), List.length_cons, List.range_succ_eq_map]
      simp
  simpa [ancestors] using hfrom p []

theorem isFolder_concat (t : FileTree) (p : FilePath) (name : String) :
    t.isFolder (p ++ [name]) = t.folders.contains (p ++ [name]) := by
  simp [isFolder]

/-- A clear way leads along folders, or ends where a folder is missing. -/
theorem walk_of_clear {names : List String} (h : t.ClearFrom here names) :
    t.walk here names = .missing ∨
      t.walk here names = .folder ∧ ∀ q ∈ placesFrom here names, t.folders.contains q = true := by
  induction names generalizing here with
  | nil => exact .inr ⟨rfl, by simp [placesFrom]⟩
  | cons name rest ih =>
    obtain ⟨htakes, hfree⟩ := h
    have hname := htakes name List.mem_cons_self
    have hplace := hfree (here ++ [name]) List.mem_cons_self
    rw [walk, if_pos hname]
    simp only [hplace, isFolder_concat]
    by_cases hfolder : t.folders.contains (here ++ [name]) = true
    · rw [if_pos hfolder]
      refine (ih ⟨fun n hn => htakes n (List.mem_cons_of_mem _ hn),
        fun q hq => hfree q (List.mem_cons_of_mem _ hq)⟩).imp_right fun hrest => ⟨hrest.1, ?_⟩
      intro q hq
      rcases List.mem_cons.mp hq with rfl | hq
      · exact hfolder
      · exact hrest.2 q hq
    · rw [if_neg hfolder]
      exact .inl rfl

/-- Along folders, a walk gets to the last of them. -/
theorem walk_append {names : List String} (h : t.ClearFrom here names)
    (hfolders : ∀ q ∈ placesFrom here names, t.folders.contains q = true) (more : List String) :
    t.walk here (names ++ more) = t.walk (here ++ names) more := by
  induction names generalizing here with
  | nil => simp
  | cons name rest ih =>
    obtain ⟨htakes, hfree⟩ := h
    have hfolder := hfolders (here ++ [name]) List.mem_cons_self
    rw [List.cons_append, walk, if_pos (htakes name List.mem_cons_self)]
    simp only [hfree (here ++ [name]) List.mem_cons_self, isFolder_concat, if_pos hfolder]
    rw [ih ⟨fun n hn => htakes n (List.mem_cons_of_mem _ hn),
      fun q hq => hfree q (List.mem_cons_of_mem _ hq)⟩
      (fun q hq => hfolders q (List.mem_cons_of_mem _ hq)), List.append_assoc,
      List.singleton_append]

/-- The directory with a folder and those above it. -/
def withFolders (t : FileTree) (p : FilePath) : FileTree :=
  { t with folders := (ancestors p).foldl SortedSet.insert t.folders }

theorem contains_withFolders (t : FileTree) (p q : FilePath) :
    (t.withFolders p).folders.contains q = (decide (q ∈ ancestors p) || t.folders.contains q) := by
  rw [Bool.eq_iff_iff, Bool.or_eq_true, decide_eq_true_iff]
  exact SortedSet.contains_foldl_insert (ancestors p) t.folders q

theorem withFolders_eq_self (h : ∀ q ∈ ancestors p, t.folders.contains q = true) :
    t.withFolders p = t := by
  have hfolders : (t.withFolders p).folders = t.folders := by
    refine SortedSet.ext_contains fun q => ?_
    rw [contains_withFolders]
    by_cases hq : q ∈ ancestors p
    · simp [hq, h q hq]
    · simp [hq]
  exact congrArg (fun folders => { t with folders := folders }) hfolders

theorem makeFolders_of_clear (h : t.ClearFrom [] p) : t.makeFolders p = .ok (t.withFolders p) := by
  unfold makeFolders find
  rcases walk_of_clear h with hwalk | ⟨hwalk, hfolders⟩
  · rw [hwalk]
    rfl
  · rw [hwalk, withFolders_eq_self (by rwa [ancestors_eq])]

/-- A file whose way is clear is found missing, as a file or as a folder once
    its folders are there. -/
theorem find_of_clear (h : t.ClearFrom [] p) :
    (t.withFolders p).find (p ++ [x]) =
      if t.takes x then
        match t.files.get? (p ++ [x]) with
        | some old => .file old
        | none => if (t.withFolders p).folders.contains (p ++ [x]) then .folder else .missing
      else .blocked .nameTooLong := by
  have hclear : (t.withFolders p).ClearFrom [] p := h
  have hfolders : ∀ q ∈ placesFrom [] p, (t.withFolders p).folders.contains q = true := by
    intro q hq
    rw [contains_withFolders, ancestors_eq, decide_eq_true hq, Bool.true_or]
  rw [find, walk_append hclear hfolders, List.nil_append, walk]
  simp only [isFolder_concat, walk]
  rfl

/-- What an append does to a file whose way is clear. -/
theorem appendFile_of_clear (h : t.ClearFrom [] p) (text : String) :
    t.appendFile (p ++ [x]) text =
      if t.takes x then
        match t.files.get? (p ++ [x]) with
        | some old =>
          (.ok (), { t.withFolders p with files := t.files.insert (p ++ [x]) (old ++ text) })
        | none =>
          if (t.withFolders p).folders.contains (p ++ [x]) then
            (.error .isADirectory, t.withFolders p)
          else (.ok (), { t.withFolders p with files := t.files.insert (p ++ [x]) text })
      else (.error .nameTooLong, t.withFolders p) := by
  unfold appendFile
  rw [List.dropLast_concat, makeFolders_of_clear h]
  simp only [find_of_clear h]
  by_cases htakes : t.takes x = true
  · simp only [htakes, if_true]
    cases t.files.get? (p ++ [x]) with
    | some old => rfl
    | none =>
      cases (t.withFolders p).folders.contains (p ++ [x]) <;> rfl
  · simp only [htakes]
    rfl

/-- The answer of an append to a file whose way is clear. -/
theorem appendFile_answer (h : t.ClearFrom [] p) (text : String) :
    (t.appendFile (p ++ [x]) text).1 =
      if t.takes x then
        if (t.files.get? (p ++ [x])).isNone && (t.withFolders p).folders.contains (p ++ [x]) then
          .error .isADirectory
        else .ok ()
      else .error .nameTooLong := by
  rw [appendFile_of_clear h]
  by_cases htakes : t.takes x = true
  · simp only [htakes, if_true]
    cases t.files.get? (p ++ [x]) with
    | some old => rfl
    | none => cases (t.withFolders p).folders.contains (p ++ [x]) <;> rfl
  · simp only [htakes]
    rfl

/-- What stands where after an append to a file whose way is clear: the
    folders are there in any case, and the file if the append succeeded. -/
theorem appendFile_leaves (h : t.ClearFrom [] p) (text : String) :
    (t.appendFile (p ++ [x]) text).2.nameLimit = t.nameLimit ∧
    (t.appendFile (p ++ [x]) text).2.folders = (t.withFolders p).folders ∧
    ∀ q, ((t.appendFile (p ++ [x]) text).2.files.get? q).isSome = ((t.files.get? q).isSome ||
      (decide (q = p ++ [x]) && (t.appendFile (p ++ [x]) text).1.toBool)) := by
  rw [appendFile_of_clear h]
  by_cases htakes : t.takes x = true
  · simp only [htakes, if_true]
    cases hold : t.files.get? (p ++ [x]) with
    | some old =>
      refine ⟨rfl, rfl, fun q => ?_⟩
      simp only [SortedMap.get?_insert, Except.toBool, Bool.and_true]
      by_cases hq : q = p ++ [x] <;> simp [hq]
    | none =>
      cases (t.withFolders p).folders.contains (p ++ [x]) with
      | true => exact ⟨rfl, rfl, fun q => by simp [withFolders, Except.toBool]⟩
      | false =>
        refine ⟨rfl, rfl, fun q => ?_⟩
        simp only [SortedMap.get?_insert, Except.toBool, Bool.and_true, Bool.false_eq_true,
          if_false]
        by_cases hq : q = p ++ [x] <;> simp [hq]
  · simp only [htakes]
    exact ⟨rfl, rfl, fun q => by simp [withFolders, Except.toBool]⟩

/-! ## The folders above a log -/

/-- A log has its entry for a folder if it lies below folders. -/
theorem entry_mem_ancestors (name : LogName) (kind : LogKind) (entry : String) :
    [kind.folder, entry] ∈ ancestors name.folders ↔
      name.isSharded = true ∧ name.kind = kind ∧ name.entry = entry := by
  rw [ancestors_eq]
  rcases LogName.shards_cases name.id with hnone | ⟨a, b, c, heq, -⟩
  · simp [LogName.folders, LogName.isSharded, hnone, placesFrom]
  · simp only [LogName.folders, LogName.isSharded, LogName.entry, heq, placesFrom]
    constructor
    · intro h
      simp only [List.nil_append, List.cons_append, List.mem_cons, List.cons.injEq] at h
      simp at h
      exact ⟨rfl, (LogName.folder_injective h.1).symm, h.2.symm⟩
    · rintro ⟨-, rfl, rfl⟩
      simp

theorem kindFolder_mem_ancestors (name : LogName) :
    [name.kind.folder] ∈ ancestors name.folders := by
  simp [ancestors_eq, LogName.folders, placesFrom]

theorem length_le_of_mem_ancestors {q : FilePath} (h : q ∈ ancestors p) : q.length ≤ p.length := by
  obtain ⟨n, -, rfl⟩ := List.mem_map.mp h
  exact List.length_take_le' _ _

/-! ## A directory of logs -/

/-- A directory holds what the appends to some logs have made: at an entry
    stands what the first log there needs. -/
structure Mirrors (t : FileTree) (earlier : List LogName) : Prop where
  /-- Files lie in the folder of a kind or below three more folders. -/
  fileDepth : ∀ q, (t.files.get? q).isSome = true → q.length = 2 ∨ q.length = 5
  /-- No folder lies as deep as the file of a log with folders. -/
  folderDepth : ∀ q, t.folders.contains q = true → q.length ≤ 4
  /-- A kind with logs has its folder. -/
  kindFolder : ∀ kind entry, (LogName.firstAt earlier kind entry).isSome = true →
    t.folders.contains [kind.folder] = true
  /-- A file stands at an entry just if the first log there has no folders,
      and its name is taken. -/
  file_iff : ∀ kind entry, (t.files.get? [LogKind.folder kind, entry]).isSome =
    ((LogName.firstAt earlier kind entry).any (!·.isSharded) && t.takes entry)
  /-- A folder stands at an entry just if the first log there has folders. -/
  folder_iff : ∀ kind entry, t.folders.contains [LogKind.folder kind, entry] =
    (LogName.firstAt earlier kind entry).any (·.isSharded)

theorem takes_bare (t : FileTree) (name : String) :
    (bare t.nameLimit).takes name = t.takes name := rfl

theorem mirrors_bare (nameLimit : Option Nat) : Mirrors (bare nameLimit) [] where
  fileDepth _ h := by cases h
  folderDepth _ h := by cases h
  kindFolder _ _ h := by cases h
  file_iff _ _ := rfl
  folder_iff _ _ := rfl

namespace Mirrors

variable {earlier : List LogName} {name : LogName}

/-- A log whose entry is settled already leaves the mirror as it is. -/
theorem concat_of_first (h : Mirrors t earlier)
    (hfirst : ∀ kind entry, LogName.firstAt (earlier ++ [name]) kind entry =
      LogName.firstAt earlier kind entry) : Mirrors t (earlier ++ [name]) where
  fileDepth := h.fileDepth
  folderDepth := h.folderDepth
  kindFolder kind entry := by
    rw [hfirst]
    exact h.kindFolder kind entry
  file_iff kind entry := by
    rw [hfirst]
    exact h.file_iff kind entry
  folder_iff kind entry := by
    rw [hfirst]
    exact h.folder_iff kind entry

theorem get?_none_of_length (h : Mirrors t earlier) {q : FilePath} (h2 : q.length ≠ 2)
    (h5 : q.length ≠ 5) : t.files.get? q = none := by
  rw [← Option.not_isSome_iff_eq_none]
  intro hq
  rcases h.fileDepth q hq with hq | hq
  · exact h2 hq
  · exact h5 hq

/-- The file system takes the names of the folders of kinds and of shards. -/
theorem takes_of_le_two (hlimit : ∀ n ∈ t.nameLimit, 2 ≤ n) (hx : x.utf8ByteSize ≤ 2) :
    t.takes x = true := by
  unfold takes
  cases hn : t.nameLimit with
  | none => rfl
  | some n => exact decide_eq_true (Nat.le_trans hx (hlimit n hn))

/-- The way to a log is clear, unless a file came first where it needs a folder. -/
theorem clear (h : Mirrors t earlier) (hlimit : ∀ n ∈ t.nameLimit, 2 ≤ n)
    (hopen : name.isSharded = true →
      (LogName.firstAt earlier name.kind name.entry).any (!·.isSharded) = false) :
    t.ClearFrom [] name.folders := by
  have hkind : t.takes name.kind.folder = true := by
    refine takes_of_le_two hlimit ?_
    cases name.kind <;> decide
  rcases LogName.shards_cases name.id with hnone | ⟨a, b, c, heq, -, ha, hb, hc⟩
  · simp only [ClearFrom, LogName.folders, hnone, placesFrom, List.nil_append,
      List.forall_mem_singleton]
    exact ⟨hkind, h.get?_none_of_length (by simp) (by simp)⟩
  · have hentry : t.files.get? [name.kind.folder, a] = none := by
      have hsharded : name.isSharded = true := by simp [LogName.isSharded, heq]
      have hname : name.entry = a := by simp [LogName.entry, heq]
      rw [← Option.not_isSome_iff_eq_none, ← hname, h.file_iff, hopen hsharded]
      simp
    have htakes : ∀ y, y.utf8ByteSize = 2 → t.takes y = true := fun y hy =>
      takes_of_le_two hlimit (Nat.le_of_eq hy)
    have hbetween : t.files.get? [name.kind.folder, a, b] = none ∧
        t.files.get? [name.kind.folder, a, b, c] = none :=
      ⟨h.get?_none_of_length (by simp) (by simp), h.get?_none_of_length (by simp) (by simp)⟩
    have htop : t.files.get? [name.kind.folder] = none :=
      h.get?_none_of_length (by simp) (by simp)
    simp [ClearFrom, LogName.folders, heq, placesFrom, hkind, htakes a ha, htakes b hb,
      htakes c hc, htop, hentry, hbetween]

/-- What an append answers if the way to its log is clear. -/
theorem answer (h : Mirrors t earlier) (hlimit : ∀ n ∈ t.nameLimit, 2 ≤ n)
    (hopen : name.isSharded = true →
      (LogName.firstAt earlier name.kind name.entry).any (!·.isSharded) = false)
    (text : String) :
    (t.appendFile name.components text).1 =
      match LogName.obstacle t.nameLimit earlier name with
      | none => .ok ()
      | some cause => .error cause := by
  have hdeep : name.components ∉ ancestors name.folders := by
    intro hmem
    have hlength := length_le_of_mem_ancestors hmem
    rw [LogName.components_eq, List.length_append] at hlength
    exact absurd hlength (Nat.not_succ_le_self _)
  have hanswer := appendFile_answer (x := name.id) (h.clear hlimit hopen) text
  rw [← LogName.components_eq, contains_withFolders, decide_eq_false hdeep, Bool.false_or]
    at hanswer
  rw [hanswer, LogName.obstacle, takes_bare]
  cases hs : name.isSharded with
  | true =>
    -- the file lies below the last folder that a log can need
    have hplace : t.folders.contains name.components = false := by
      refine Bool.eq_false_iff.mpr fun hfolder => ?_
      have hlength := h.folderDepth _ hfolder
      simp [LogName.components_eq, LogName.folders_length, hs] at hlength
    have hfirst := hopen hs
    simp only [Bool.bne_true, hfirst, hplace, Bool.and_false, Bool.false_eq_true, if_false]
    cases t.takes name.id <;> rfl
  | false =>
    have hplace : [name.kind.folder, name.entry] = name.components :=
      (LogName.entry_eq_components _ _).mpr ⟨hs, rfl, rfl⟩
    have hfile := h.file_iff name.kind name.entry
    have hfolder := h.folder_iff name.kind name.entry
    rw [hplace] at hfile hfolder
    have hid := LogName.entry_of_flat hs
    rw [hfolder, ← Option.not_isSome, hfile, hid]
    cases hfirst : LogName.firstAt earlier name.kind name.id with
    | none => cases t.takes name.id <;> rfl
    | some first =>
      cases hf : first.isSharded with
      | false => cases t.takes name.id <;> simp [hf]
      | true =>
        -- folders have names of two bytes, so the name of the file is taken
        have hentry := (LogName.firstAt_spec hfirst).2.2
        have htakes : t.takes name.id = true :=
          takes_of_le_two hlimit (Nat.le_of_eq (hentry ▸ (LogName.entry_of_sharded hf).2.2))
        simp [hf, htakes]

/-- Which entries are files after an append whose way is clear. -/
theorem file_iff_concat (h : Mirrors t earlier) (hsafe : LogName.isSafeId name.id = true)
    (kind : LogKind) (entry : String) :
    ((t.files.get? [kind.folder, entry]).isSome || (decide ([kind.folder, entry] = name.components)
        && (LogName.obstacle t.nameLimit earlier name).isNone)) =
      ((LogName.firstAt (earlier ++ [name]) kind entry).any (!·.isSharded) && t.takes entry) := by
  rw [h.file_iff, LogName.firstAt_concat]
  simp only [LogName.entry_eq_components]
  by_cases hname : name.kind = kind ∧ name.entry = entry
  · obtain ⟨rfl, rfl⟩ := hname
    simp only [hsafe, and_self, and_true, if_true, LogName.obstacle]
    cases hs : name.isSharded with
    | true => cases LogName.firstAt earlier name.kind name.entry <;> simp [hs]
    | false =>
      -- the log is the file, if nothing stands there yet or a file does
      rw [LogName.entry_of_flat hs]
      cases LogName.firstAt earlier name.kind name.id with
      | none => cases htaken : t.takes name.id <;> simp [hs, takes_bare, htaken]
      | some first =>
        cases hf : first.isSharded <;> cases htaken : t.takes name.id <;>
          simp [hf, takes_bare, htaken]
  · simp [hname]

/-- Which entries are folders after an append whose way is clear. -/
theorem folder_iff_concat (h : Mirrors t earlier) (hsafe : LogName.isSafeId name.id = true)
    (hopen : name.isSharded = true →
      (LogName.firstAt earlier name.kind name.entry).any (!·.isSharded) = false)
    (kind : LogKind) (entry : String) :
    (t.withFolders name.folders).folders.contains [kind.folder, entry] =
      (LogName.firstAt (earlier ++ [name]) kind entry).any (·.isSharded) := by
  rw [contains_withFolders, h.folder_iff, LogName.firstAt_concat]
  simp only [entry_mem_ancestors]
  by_cases hname : name.kind = kind ∧ name.entry = entry
  · obtain ⟨rfl, rfl⟩ := hname
    simp only [hsafe, and_self, and_true, if_true]
    cases hs : name.isSharded with
    | true =>
      have hfirst := hopen hs
      cases hf : LogName.firstAt earlier name.kind name.entry with
      | none => simp [hs]
      | some first =>
        rw [hf] at hfirst
        simpa using hfirst
    | false => cases LogName.firstAt earlier name.kind name.entry <;> simp [hs]
  · simp [hname]

/-- After an append whose way is clear, the directory mirrors the log as well. -/
theorem concat_of_clear (h : Mirrors t earlier) (hlimit : ∀ n ∈ t.nameLimit, 2 ≤ n)
    (hsafe : LogName.isSafeId name.id = true)
    (hopen : name.isSharded = true →
      (LogName.firstAt earlier name.kind name.entry).any (!·.isSharded) = false)
    (text : String) :
    Mirrors (t.appendFile name.components text).2 (earlier ++ [name]) := by
  obtain ⟨hsame, hfolders, hfiles⟩ :=
    appendFile_leaves (x := name.id) (h.clear hlimit hopen) text
  have hok : (t.appendFile name.components text).1.toBool =
      (LogName.obstacle t.nameLimit earlier name).isNone := by
    rw [h.answer hlimit hopen]
    cases LogName.obstacle t.nameLimit earlier name <;> rfl
  have htakes : (t.appendFile name.components text).2.takes = t.takes := by
    funext x
    simp only [takes, LogName.components_eq, hsame]
  rw [← LogName.components_eq] at hfolders hfiles
  rw [hok] at hfiles
  refine ⟨fun q hq => ?_, fun q hq => ?_, fun kind entry hsome => ?_, fun kind entry => ?_,
    fun kind entry => ?_⟩
  · rw [hfiles, Bool.or_eq_true, Bool.and_eq_true, decide_eq_true_eq] at hq
    rcases hq with hq | ⟨rfl, -⟩
    · exact h.fileDepth q hq
    · rw [LogName.components_eq, List.length_append, LogName.folders_length]
      cases name.isSharded <;> simp
  · rw [hfolders, contains_withFolders, Bool.or_eq_true, decide_eq_true_eq] at hq
    rcases hq with hq | hq
    · refine Nat.le_trans (length_le_of_mem_ancestors hq) ?_
      rw [LogName.folders_length]
      cases name.isSharded <;> simp
    · exact h.folderDepth q hq
  · rw [LogName.firstAt_concat, Option.isSome_or, Bool.or_eq_true] at hsome
    rw [hfolders, contains_withFolders]
    rcases hsome with hsome | hsome
    · rw [h.kindFolder kind entry hsome, Bool.or_true]
    · split at hsome
      · next hname =>
        rw [← hname.2.1, decide_eq_true (kindFolder_mem_ancestors name), Bool.true_or]
      · cases hsome
  · rw [hfiles, htakes, h.file_iff_concat hsafe]
  · rw [hfolders, h.folder_iff_concat hsafe hopen]

/-- A file that came first keeps a log out that needs a folder in its place. -/
theorem appendFile_of_file (h : Mirrors t earlier) (hlimit : ∀ n ∈ t.nameLimit, 2 ≤ n)
    (hs : name.isSharded = true)
    (hfile : (LogName.firstAt earlier name.kind name.entry).any (!·.isSharded) = true)
    (text : String) :
    t.appendFile name.components text = (.error .notADirectory, t) := by
  have hkind : t.takes name.kind.folder = true := by
    refine takes_of_le_two hlimit ?_
    cases name.kind <;> decide
  have htop : t.files.get? [name.kind.folder] = none := h.get?_none_of_length (by simp) (by simp)
  have hfolder : t.folders.contains [name.kind.folder] = true := by
    refine h.kindFolder name.kind name.entry ?_
    cases hf : LogName.firstAt earlier name.kind name.entry with
    | none => simp [hf] at hfile
    | some => rfl
  have hentry : t.takes name.entry = true :=
    takes_of_le_two hlimit (Nat.le_of_eq (LogName.entry_of_sharded hs).2.2)
  obtain ⟨old, hold⟩ : ∃ old, t.files.get? [name.kind.folder, name.entry] = some old := by
    refine Option.isSome_iff_exists.mp ?_
    rw [h.file_iff, hfile, hentry, Bool.true_and]
  have hblocked : t.find name.folders = .blocked .notADirectory := by
    rcases LogName.shards_cases name.id with hnone | ⟨a, b, c, heq, -⟩
    · simp [LogName.isSharded, hnone] at hs
    · have hname : name.entry = a := by simp [LogName.entry, heq]
      rw [hname] at hentry hold
      simp [find, walk, LogName.folders, heq, hkind, htop, isFolder, hfolder, hentry, hold]
  unfold appendFile makeFolders
  rw [LogName.components_eq, List.dropLast_concat, hblocked]

/-- **A step.** An append to a mirrored directory ends with the verdict, and
    the directory mirrors the log as well. -/
theorem appendLog (h : Mirrors t earlier) (hlimit : ∀ n ∈ t.nameLimit, 2 ≤ n)
    (root text : String) :
    (t.appendLog root name text).1 = LogName.verdict root t.nameLimit earlier name ∧
      Mirrors (t.appendLog root name text).2 (earlier ++ [name]) := by
  unfold FileTree.appendLog LogName.verdict
  cases hsafe : LogName.isSafeId name.id with
  | false =>
    refine ⟨rfl, h.concat_of_first fun kind entry => ?_⟩
    simp [LogName.firstAt_concat, hsafe]
  | true =>
    simp only [if_true]
    by_cases hopen : name.isSharded = true →
        (LogName.firstAt earlier name.kind name.entry).any (!·.isSharded) = false
    · have hmirrors := h.concat_of_clear hlimit hsafe hopen text
      have hanswer := h.answer hlimit hopen text
      generalize t.appendFile name.components text = r at hanswer hmirrors
      obtain ⟨result, t'⟩ := r
      subst hanswer
      cases LogName.obstacle t.nameLimit earlier name with
      | none => exact ⟨rfl, hmirrors⟩
      | some cause => exact ⟨rfl, hmirrors⟩
    · obtain ⟨hs, hfile⟩ := Classical.not_imp.mp hopen
      rw [Bool.not_eq_false] at hfile
      rw [h.appendFile_of_file hlimit hs hfile text]
      cases hfirst : LogName.firstAt earlier name.kind name.entry with
      | none => simp [hfirst] at hfile
      | some first =>
        have hflat : first.isSharded = false := by simpa [hfirst] using hfile
        refine ⟨by simp [LogName.obstacle, hfirst, hflat, hs], ?_⟩
        refine h.concat_of_first fun kind entry => ?_
        rw [LogName.firstAt_concat]
        split
        · next hname => rw [← hname.2.1, ← hname.2.2, hfirst, Option.or_some]; rfl
        · rw [Option.or_none]

end Mirrors

/-! ## Runs of appends -/

/-- Appends one text after the other and lists the answers. -/
def appendAll (root : String) : List (LogName × String) → FileTree →
    List (Except Failure Unit) × FileTree
  | [], t => ([], t)
  | (name, text) :: rest, t =>
    let (answer, t) := t.appendLog root name text
    let (answers, t) := appendAll root rest t
    (answer :: answers, t)

theorem makeFolders_nameLimit {t' : FileTree} (h : t.makeFolders p = .ok t') :
    t'.nameLimit = t.nameLimit := by
  unfold makeFolders at h
  split at h <;> cases h <;> rfl

theorem appendLog_nameLimit (root : String) (t : FileTree) (name : LogName) (text : String) :
    (t.appendLog root name text).2.nameLimit = t.nameLimit := by
  have hfile : (t.appendFile name.components text).2.nameLimit = t.nameLimit := by
    unfold appendFile
    split
    · rfl
    · next t' hfolders =>
      rw [← makeFolders_nameLimit hfolders]
      split <;> rfl
  unfold appendLog
  split
  · split
    · next heq => rwa [heq] at hfile
    · next heq => rwa [heq] at hfile
  · rfl

/-- **A run.** Every append of a run on a mirrored directory ends with the
    verdict. -/
theorem Mirrors.appendAll {earlier : List LogName} (h : Mirrors t earlier)
    (hlimit : ∀ n ∈ t.nameLimit, 2 ≤ n) (root : String) (run : List (LogName × String)) :
    (t.appendAll root run).1 = LogName.verdicts root t.nameLimit earlier (run.map (·.1)) := by
  induction run generalizing t earlier with
  | nil => rfl
  | cons e rest ih =>
    obtain ⟨name, text⟩ := e
    obtain ⟨hanswer, hmirrors⟩ := h.appendLog hlimit root text
    have hsame := appendLog_nameLimit root t name text
    have hrest := ih hmirrors (hsame ▸ hlimit)
    rw [hsame] at hrest
    simp only [FileTree.appendAll, List.map_cons, LogName.verdicts]
    rw [hanswer, hrest]

/-- **Logs wait only for clashes.**  Appends to an empty directory, on a file
    system that takes names of two bytes at least, end one by one with their
    verdicts.  If all identifiers are safe and none is too long, then every
    append succeeds just if no two of the logs clash. -/
theorem logs_wait_only_for_clashes (root : String) (nameLimit : Option Nat)
    (hlimit : ∀ n ∈ nameLimit, 2 ≤ n) (run : List (LogName × String)) :
    ((bare nameLimit).appendAll root run).1 =
        LogName.verdicts root nameLimit [] (run.map (·.1)) ∧
      ((∀ e ∈ run, LogName.isSafeId e.1.id = true ∧ (bare nameLimit).takes e.1.id = true) →
        ((∀ answer ∈ ((bare nameLimit).appendAll root run).1, answer = .ok ()) ↔
          ∀ a ∈ run, ∀ b ∈ run, ¬ a.1.Clashes b.1)) := by
  have hrun : ((bare nameLimit).appendAll root run).1 =
      LogName.verdicts root nameLimit [] (run.map (·.1)) :=
    (mirrors_bare nameLimit).appendAll hlimit root run
  refine ⟨hrun, fun hsafe => ?_⟩
  rw [hrun, LogName.verdicts_ok_iff (List.forall_mem_map.mpr hsafe) (by simp) (by simp)]
  simp

/-- Two users whose logs lie apart, one of them below folders. -/
theorem logs_wait_only_for_clashes_of_apart :
    ((bare none).appendAll "logs"
      [(⟨.user, "ab"⟩, "1\n"), (⟨.user, "acdefg"⟩, "2\n")]).1 = [.ok (), .ok ()] := by
  obtain ⟨hverdicts, hclashes⟩ := logs_wait_only_for_clashes "logs" none (by simp)
    [(⟨.user, "ab"⟩, "1\n"), (⟨.user, "acdefg"⟩, "2\n")]
  show _ = List.replicate 2 (Except.ok ())
  refine List.eq_replicate_iff.mpr ⟨?_, (hclashes ?_).mpr ?_⟩
  · rw [hverdicts]
    rfl
  · decide
  · decide

/-- The logs of the users `ab` and `abcdef`, in either order: the second append
    fails although both identifiers are safe. -/
theorem logs_block_each_other :
    (LogName.isSafeId "ab" = true ∧ LogName.isSafeId "abcdef" = true) ∧
    ((bare none).appendAll "logs" [(⟨.user, "ab"⟩, "1\n"), (⟨.user, "abcdef"⟩, "2\n")]).1 =
      [.ok (), .error (.auditIo ((LogName.mk .user "abcdef").path "logs") .notADirectory)] ∧
    ((bare none).appendAll "logs" [(⟨.user, "abcdef"⟩, "2\n"), (⟨.user, "ab"⟩, "1\n")]).1 =
      [.ok (), .error (.auditIo ((LogName.mk .user "ab").path "logs") .isADirectory)] := by
  refine ⟨by decide, ?_, ?_⟩
  · rw [(mirrors_bare none).appendAll (by decide)]
    rfl
  · rw [(mirrors_bare none).appendAll (by decide)]
    rfl

end FileTree

end ChangeLedger
