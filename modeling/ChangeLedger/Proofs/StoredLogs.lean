/-
  ChangeLedger.Proofs.StoredLogs — a directory holds what was appended to it.

  The directory of a sink need not be empty at first, and appends to it fail
  where something is in the way.  Whatever happens, the file of a log holds
  what it held at first and then the texts of the appends to that log that
  succeeded; no append, be it to another log or one that fails, shows in it.
  Reading changes nothing, so that reads may come at any point of a run.

  A directory is a tree as a file system has it: `FileTree.IsTree`.  Appends
  keep it one, and in a tree a look-up finds exactly the files.

  Main results:
    * `FileTree.IsTree.find_file_iff` — what a look-up finds in a tree.
    * `FileTree.IsTree.texts_appendLog` — a step: one append, and every log.
    * `FileTree.IsTree.texts_appendAll` — a run of appends.
    * `FileTree.stored_logs_concatenate` — what reads answer after every run.
-/
import ChangeLedger.Proofs.DrainExactness
import ChangeLedger.Proofs.LogPlaces
import Mathlib.Data.List.Induction

namespace ChangeLedger

namespace LogName

/-- No two logs lie in the same place. -/
theorem components_injective {a b : LogName} (h : a.components = b.components) : a = b := by
  rw [components_eq, components_eq] at h
  obtain ⟨hfolders, hid⟩ := List.append_inj' h rfl
  have hkind : a.kind = b.kind := folder_injective (List.cons.inj hfolders).1
  have hid : a.id = b.id := List.singleton_inj.mp hid
  cases a
  cases b
  subst hkind hid
  rfl

end LogName

namespace FileTree

variable {t : FileTree} {here p q : FilePath} {x : String}

/-! ## Trees -/

/-- A directory as a file system has it: what lies in it lies in folders and
    has a name that is taken, and no file stands where a folder stands. -/
structure IsTree (t : FileTree) : Prop where
  /-- A file lies in a folder. -/
  fileIn : ∀ p x, (t.files.get? (p ++ [x])).isSome = true → t.isFolder p = true
  /-- A folder lies in a folder. -/
  folderIn : ∀ p x, t.isFolder (p ++ [x]) = true → t.isFolder p = true
  /-- A folder is no file. -/
  apart : ∀ p, t.isFolder p = true → t.files.get? p = none
  /-- Files and folders have names that the file system takes. -/
  named : ∀ p x, (t.files.get? (p ++ [x])).isSome = true ∨ t.isFolder (p ++ [x]) = true →
    t.takes x = true
  /-- Names of two bytes are taken. -/
  short : ∀ n ∈ t.nameLimit, 2 ≤ n

theorem isTree_bare {nameLimit : Option Nat} (hlimit : ∀ n ∈ nameLimit, 2 ≤ n) :
    IsTree (bare nameLimit) where
  short := hlimit
  fileIn _ _ h := by cases h
  folderIn p x h := by
    rw [isFolder_concat] at h
    cases h
  apart _ _ := rfl
  named p x h := by
    rw [isFolder_concat] at h
    exact h.elim (fun h => nomatch h) fun h => nomatch h

namespace IsTree

theorem isFolder_of_append (ht : t.IsTree) (more : List String)
    (h : t.isFolder (p ++ more) = true) : t.isFolder p = true := by
  induction more using List.reverseRecOn with
  | nil => rwa [List.append_nil] at h
  | append_singleton more x ih =>
    rw [← List.append_assoc] at h
    exact ih (ht.folderIn _ x h)

/-- What lies above a file is a folder. -/
theorem isFolder_of_file (ht : t.IsTree) {more : List String} (hmore : more ≠ [])
    (h : (t.files.get? (p ++ more)).isSome = true) : t.isFolder p = true := by
  obtain ⟨init, x, rfl⟩ : ∃ init x, more = init ++ [x] :=
    ⟨more.dropLast, more.getLast hmore, (List.dropLast_append_getLast hmore).symm⟩
  rw [← List.append_assoc] at h
  exact ht.isFolder_of_append init (ht.fileIn _ x h)

/-! ## Looking up a place in a tree -/

/-- The first name on the way to a file is taken, and belongs to a folder if
    it is not that of the file. -/
theorem first_on_way (ht : t.IsTree) {name : String} {rest : List String}
    (h : (t.files.get? (here ++ name :: rest)).isSome = true) :
    t.takes name = true ∧ (rest = [] ∨ t.isFolder (here ++ [name]) = true) := by
  rw [List.append_cons] at h
  cases rest with
  | nil =>
    rw [List.append_nil] at h
    exact ⟨ht.named here name (.inl h), .inl rfl⟩
  | cons y rest =>
    have hfolder := ht.isFolder_of_file (List.cons_ne_nil y rest) h
    exact ⟨ht.named here name (.inr hfolder), .inr hfolder⟩

/-- A walk through a tree finds exactly the files. -/
theorem walk_file_iff (ht : t.IsTree) (rest : List String) (hhere : t.isFolder here = true)
    (text : String) :
    t.walk here rest = .file text ↔ t.files.get? (here ++ rest) = some text := by
  induction rest generalizing here with
  | nil => simp [walk, ht.apart here hhere]
  | cons name rest ih =>
    have hway := fun h : t.files.get? (here ++ name :: rest) = some text =>
      ht.first_on_way (Option.isSome_iff_exists.mpr ⟨text, h⟩)
    rw [walk]
    by_cases htakes : t.takes name = true
    · rw [if_pos htakes]
      cases hplace : t.files.get? (here ++ [name]) with
      | some old =>
        cases rest with
        | nil => simp [hplace]
        | cons y rest =>
          -- a file does not lie below a file
          refine ⟨fun h => (by cases h), fun h => ?_⟩
          have hfolder := ((hway h).2).resolve_left (List.cons_ne_nil y rest)
          rw [ht.apart _ hfolder] at hplace
          cases hplace
      | none =>
        by_cases hfolder : t.isFolder (here ++ [name]) = true
        · rw [List.append_cons here name rest, ← ih hfolder]
          simp [hfolder]
        · simp only [if_neg hfolder]
          refine ⟨fun h => (by cases h), fun h => ?_⟩
          obtain rfl := (hway h).2.resolve_right hfolder
          rw [hplace] at h
          cases h
    · rw [if_neg htakes]
      exact ⟨fun h => (by cases h), fun h => absurd (hway h).1 htakes⟩

/-- A look-up in a tree finds exactly the files. -/
theorem find_file_iff (ht : t.IsTree) (p : FilePath) (text : String) :
    t.find p = .file text ↔ t.files.get? p = some text :=
  ht.walk_file_iff p rfl text

/-! ## What an append leaves of a tree -/

theorem exists_of_mem_placesFrom {rest : List String} (h : q ∈ placesFrom here rest) :
    ∃ more, more ≠ [] ∧ q = here ++ more := by
  induction rest generalizing here with
  | nil => cases h
  | cons name rest ih =>
    rcases List.mem_cons.mp h with rfl | h
    · exact ⟨[name], by simp, rfl⟩
    · obtain ⟨more, -, rfl⟩ := ih h
      exact ⟨name :: more, by simp, (List.append_cons here name more).symm⟩

/-- Where a walk ends at a folder, or at nothing, no file is on the way. -/
theorem clear_of_walk (ht : t.IsTree) {rest : List String} (hhere : t.isFolder here = true)
    (htakes : ∀ name ∈ rest, t.takes name = true)
    (hwalk : t.walk here rest = .folder ∨ t.walk here rest = .missing) :
    t.ClearFrom here rest := by
  refine ⟨htakes, ?_⟩
  induction rest generalizing here with
  | nil => intro q hq; cases hq
  | cons name rest ih =>
    rw [walk, if_pos (htakes name List.mem_cons_self)] at hwalk
    cases hplace : t.files.get? (here ++ [name]) with
    | some old =>
      rw [hplace] at hwalk
      cases rest <;> simp at hwalk
    | none =>
      intro q hq
      rcases List.mem_cons.mp hq with rfl | hq
      · exact hplace
      by_cases hfolder : t.isFolder (here ++ [name]) = true
      · refine ih hfolder (fun n hn => htakes n (List.mem_cons_of_mem _ hn)) ?_ q hq
        simpa [hplace, hfolder] using hwalk
      · -- with no folder here, nothing lies below
        obtain ⟨more, hmore, rfl⟩ := exists_of_mem_placesFrom hq
        rw [← Option.not_isSome_iff_eq_none]
        exact fun hfile => hfolder (ht.isFolder_of_file hmore hfile)

/-- Folders can be made in a tree, unless there is something in the way. -/
theorem makeFolders_error_or_clear (ht : t.IsTree) (htakes : ∀ name ∈ p, t.takes name = true) :
    (∃ cause, t.makeFolders p = .error cause) ∨ t.ClearFrom [] p := by
  have hclear : t.walk [] p = .folder ∨ t.walk [] p = .missing → t.ClearFrom [] p :=
    ht.clear_of_walk rfl htakes
  unfold makeFolders find
  cases hwalk : t.walk [] p with
  | file text => exact .inl ⟨_, rfl⟩
  | blocked cause => exact .inl ⟨_, rfl⟩
  | folder => exact .inr (hclear (.inl hwalk))
  | missing => exact .inr (hclear (.inr hwalk))

theorem of_concat_mem_placesFrom {rest : List String} (h : q ++ [x] ∈ placesFrom here rest) :
    x ∈ rest ∧ (q = here ∨ q ∈ placesFrom here rest) := by
  induction rest generalizing here with
  | nil => cases h
  | cons name rest ih =>
    rcases List.mem_cons.mp h with heq | h
    · obtain ⟨rfl, hx⟩ := List.append_inj' heq rfl
      exact ⟨List.singleton_inj.mp hx ▸ List.mem_cons_self, .inl rfl⟩
    · obtain ⟨hx, hq⟩ := ih h
      exact ⟨List.mem_cons_of_mem _ hx, .inr (List.mem_cons.mpr hq)⟩

theorem isFolder_withFolders (t : FileTree) (p q : FilePath) :
    (t.withFolders p).isFolder q = (decide (q ∈ ancestors p) || t.isFolder q) := by
  unfold isFolder
  rw [contains_withFolders]
  cases q.isEmpty <;> simp

theorem isFolder_withFolders_self (t : FileTree) (p : FilePath) :
    (t.withFolders p).isFolder p = true := by
  have hlast : ∀ (rest : List String) (here : FilePath), rest ≠ [] →
      here ++ rest ∈ placesFrom here rest := by
    intro rest
    induction rest with
    | nil => exact fun _ h => absurd rfl h
    | cons name rest ih =>
      intro here _
      rw [List.append_cons]
      by_cases hrest : rest = []
      · subst hrest
        rw [List.append_nil]
        exact List.mem_cons_self
      · exact List.mem_cons_of_mem _ (ih _ hrest)
  rw [isFolder_withFolders, ancestors_eq]
  by_cases hp : p = []
  · subst hp
    rfl
  · have hmem : p ∈ placesFrom [] p := hlast p [] hp
    rw [decide_eq_true hmem, Bool.true_or]

/-- Making folders on a clear way leaves a tree. -/
theorem withFolders (ht : t.IsTree) (hclear : t.ClearFrom [] p) : (t.withFolders p).IsTree where
  short := ht.short
  fileIn q x h := by
    rw [isFolder_withFolders, ht.fileIn q x h, Bool.or_true]
  folderIn q x h := by
    simp only [isFolder_withFolders, ancestors_eq, Bool.or_eq_true, decide_eq_true_eq] at h ⊢
    rcases h with h | h
    · rcases (of_concat_mem_placesFrom h).2 with rfl | hq
      · exact .inr rfl
      · exact .inl hq
    · exact .inr (ht.folderIn q x h)
  apart q h := by
    simp only [isFolder_withFolders, ancestors_eq, Bool.or_eq_true, decide_eq_true_eq] at h
    exact h.elim (hclear.2 q) (ht.apart q)
  named q x h := by
    simp only [isFolder_withFolders, ancestors_eq, Bool.or_eq_true, decide_eq_true_eq] at h
    rcases h with h | h | h
    · exact ht.named q x (.inl h)
    · exact hclear.1 x (of_concat_mem_placesFrom h).1
    · exact ht.named q x (.inr h)

/-- Writing a file in a folder, with a name that is taken and that no folder
    has, leaves a tree. -/
theorem writeFile (ht : t.IsTree) (hin : t.isFolder p = true) (htakes : t.takes x = true)
    (hno : ¬ t.isFolder (p ++ [x]) = true) (text : String) :
    IsTree { t with files := t.files.insert (p ++ [x]) text } where
  short := ht.short
  fileIn q y h := by
    rw [SortedMap.get?_insert] at h
    split at h
    · next heq => exact (List.append_inj' heq rfl).1 ▸ hin
    · exact ht.fileIn q y h
  folderIn := ht.folderIn
  apart q h := by
    have hq : q ≠ p ++ [x] := by
      rintro rfl
      exact hno h
    rw [SortedMap.get?_insert, if_neg hq]
    exact ht.apart q h
  named q y h := by
    rw [SortedMap.get?_insert] at h
    split at h
    · next heq => exact List.singleton_inj.mp (List.append_inj' heq rfl).2 ▸ htakes
    · exact ht.named q y h

/-- An append leaves a tree, and changes the text of its file if it succeeds
    and no file otherwise. -/
theorem appendFile (ht : t.IsTree) (htakes : ∀ name ∈ p, t.takes name = true) (text : String) :
    (t.appendFile (p ++ [x]) text).2.IsTree ∧
    (t.appendFile (p ++ [x]) text).2.files = if (t.appendFile (p ++ [x]) text).1.toBool then
      t.files.insert (p ++ [x]) ((t.files.get? (p ++ [x])).getD "" ++ text) else t.files := by
  rcases ht.makeFolders_error_or_clear htakes with ⟨cause, herror⟩ | hclear
  · have hblocked : t.appendFile (p ++ [x]) text = (.error cause, t) := by
      unfold FileTree.appendFile
      rw [List.dropLast_concat, herror]
    rw [hblocked]
    exact ⟨ht, rfl⟩
  · have hfolders := ht.withFolders hclear
    have hin : (t.withFolders p).isFolder p = true := isFolder_withFolders_self t p
    rw [appendFile_of_clear hclear]
    by_cases hx : t.takes x = true
    · rw [if_pos hx]
      cases hold : t.files.get? (p ++ [x]) with
      | some old =>
        refine ⟨hfolders.writeFile hin hx (fun h => ?_) _, rfl⟩
        have hnone : t.files.get? (p ++ [x]) = none := hfolders.apart _ h
        rw [hold] at hnone
        cases hnone
      | none =>
        simp only [← isFolder_concat]
        by_cases hfolder : (t.withFolders p).isFolder (p ++ [x]) = true
        · rw [if_pos hfolder]
          exact ⟨hfolders, rfl⟩
        · rw [if_neg hfolder]
          refine ⟨hfolders.writeFile hin hx hfolder text, ?_⟩
          rw [Option.getD_none, String.empty_append]
          rfl
    · rw [if_neg hx]
      exact ⟨hfolders, rfl⟩

end IsTree

/-! ## The texts of logs -/

/-- The text of the file of a log. -/
def texts (t : FileTree) (name : LogName) : Option String := t.files.get? name.components

namespace IsTree

variable {name : LogName}

theorem takes_folders (ht : t.IsTree) (name : LogName) :
    ∀ folder ∈ name.folders, t.takes folder = true := by
  have hshort : ∀ x : String, x.utf8ByteSize ≤ 2 → t.takes x = true := fun x =>
    Mirrors.takes_of_le_two ht.short
  have hkind : name.kind.folder.utf8ByteSize ≤ 2 := by
    cases name.kind <;> decide
  unfold LogName.folders
  rcases LogName.shards_cases name.id with hnone | ⟨a, b, c, heq, -, ha, hb, hc⟩
  · simpa [hnone] using hshort _ hkind
  · simp [heq, hshort _ hkind, hshort a (Nat.le_of_eq ha), hshort b (Nat.le_of_eq hb),
      hshort c (Nat.le_of_eq hc)]

/-- A log is read just if its name is safe and it has a file. -/
theorem readLog_some_iff (ht : t.IsTree) (text : String) :
    t.readLog name = .ok (some text) ↔
      LogName.isSafeId name.id = true ∧ t.texts name = some text := by
  rw [texts, ← ht.find_file_iff, readLog]
  by_cases hsafe : LogName.isSafeId name.id = true
  · rw [if_pos hsafe]
    cases t.find name.components <;> simp [hsafe]
  · simp [hsafe]

/-- What is read without a failure is the text of the file, if there is one. -/
theorem texts_of_readLog (ht : t.IsTree) {found : Option String}
    (h : t.readLog name = .ok found) : t.texts name = found := by
  cases found with
  | some text => exact ((ht.readLog_some_iff text).mp h).2
  | none =>
    cases htext : t.texts name with
    | none => rfl
    | some text =>
      have hsafe : LogName.isSafeId name.id = true := by
        by_contra hrefused
        rw [readLog, if_neg hrefused] at h
        cases h
      rw [(ht.readLog_some_iff text).mpr ⟨hsafe, htext⟩] at h
      cases h

/-- **A step.**  An append leaves a tree.  If it succeeds, its log has the text
    in addition and the other logs are as before; if it fails, every file is. -/
theorem appendLog (ht : t.IsTree) (root : String) (name : LogName) (text : String) :
    (t.appendLog root name text).2.IsTree ∧
    (t.appendLog root name text).2.files = if (t.appendLog root name text).1.toBool then
      t.files.insert name.components ((t.texts name).getD "" ++ text) else t.files := by
  have hfile := ht.appendFile (x := name.id) (ht.takes_folders name) text
  rw [← LogName.components_eq] at hfile
  unfold FileTree.appendLog
  by_cases hsafe : LogName.isSafeId name.id = true
  · rw [if_pos hsafe]
    generalize t.appendFile name.components text = r at hfile
    obtain ⟨result | result, t'⟩ := r
    · exact hfile
    · exact hfile
  · rw [if_neg hsafe]
    exact ⟨ht, rfl⟩

theorem texts_appendLog (ht : t.IsTree) (root : String) (name : LogName) (text : String)
    (other : LogName) :
    (t.appendLog root name text).2.texts other =
      if (t.appendLog root name text).1.toBool = true ∧ name = other then
        some ((t.texts other).getD "" ++ text)
      else t.texts other := by
  unfold texts
  rw [(ht.appendLog root name text).2]
  by_cases hok : (t.appendLog root name text).1.toBool = true
  · rw [if_pos hok, SortedMap.get?_insert]
    by_cases hname : name = other
    · subst hname
      rw [if_pos rfl, if_pos ⟨hok, rfl⟩]
      rfl
    · rw [if_neg fun h => hname (LogName.components_injective h).symm, if_neg fun h => hname h.2]
  · rw [if_neg hok, if_neg fun h => hok h.1]

end IsTree

end FileTree

/-! ## What a log has gained -/

/-- The text of a log after some appends, given its text before them. -/
def textAfter (before : Option String) (appends : List (LogName × String)) (name : LogName) :
    Option String :=
  if appends.any (·.1 = name) then some (before.getD "" ++ textFor name appends) else before

theorem textFor_of_none {appends : List (LogName × String)} {name : LogName}
    (h : ¬ appends.any (·.1 = name) = true) : textFor name appends = "" := by
  have hfilter : appends.filter (fun c => c.1 = name) = [] := by
    rw [List.filter_eq_nil_iff]
    exact fun c hc hname => h (List.any_eq_true.mpr ⟨c, hc, hname⟩)
  rw [textFor, hfilter]
  rfl

theorem textAfter_eq_some {before : Option String} {appends : List (LogName × String)}
    {name : LogName} {text : String} (h : textAfter before appends name = some text) :
    text = before.getD "" ++ textFor name appends := by
  unfold textAfter at h
  by_cases hany : appends.any (·.1 = name) = true
  · rw [if_pos hany] at h
    exact (Option.some.inj h).symm
  · rw [if_neg hany] at h
    rw [h, textFor_of_none hany, String.append_empty, Option.getD_some]

theorem textAfter_eq_none_iff {before : Option String} {appends : List (LogName × String)}
    {name : LogName} : textAfter before appends name = none ↔
      before = none ∧ ∀ e ∈ appends, e.1 ≠ name := by
  unfold textAfter
  by_cases hany : appends.any (·.1 = name) = true
  · rw [if_pos hany]
    obtain ⟨e, he, hname⟩ := List.any_eq_true.mp hany
    exact ⟨(nomatch ·), fun h => absurd (of_decide_eq_true hname) (h.2 e he)⟩
  · rw [if_neg hany]
    refine ⟨fun h => ⟨h, fun e he hname => hany ?_⟩, And.left⟩
    exact List.any_eq_true.mpr ⟨e, he, decide_eq_true hname⟩

theorem textAfter_cons (before : Option String) (e : LogName × String)
    (rest : List (LogName × String)) (name : LogName) :
    textAfter before (e :: rest) name =
      textAfter (if e.1 = name then some (before.getD "" ++ e.2) else before) rest name := by
  unfold textAfter
  rw [List.any_cons, textFor_cons]
  by_cases he : e.1 = name
  · simp only [he, decide_true, Bool.true_or, if_true, Option.getD_some]
    by_cases hrest : rest.any (·.1 = name) = true
    · rw [if_pos hrest, String.append_assoc]
    · rw [if_neg hrest, textFor_of_none hrest, String.append_empty]
  · simp only [if_neg he, decide_eq_false he, Bool.false_or, String.empty_append]

/-- The memory store holds the texts of all appends to it. -/
theorem MemoryLog.get?_appendAll (m : MemoryLog) (appends : List (LogName × String))
    (name : LogName) :
    (MemoryLog.sink.appendAll appends m).2.get? name = textAfter (m.get? name) appends name := by
  induction appends generalizing m with
  | nil => rfl
  | cons e rest ih =>
    have hstep : (m.append e.1 e.2).get? name =
        if e.1 = name then some ((m.get? name).getD "" ++ e.2) else m.get? name := by
      rw [MemoryLog.get?_append]
      by_cases he : e.1 = name
      · rw [if_pos he.symm, if_pos he, he]
      · rw [if_neg fun h => he h.symm, if_neg he]
    rw [textAfter_cons, ← hstep, ← ih]
    rfl

namespace FileTree

variable {t : FileTree}

/-- The appends of a run that succeed. -/
def accepted (root : String) (run : List (LogName × String)) (t : FileTree) :
    List (LogName × String) :=
  ((run.zip (t.appendAll root run).1).filter (·.2.toBool)).map Prod.fst

theorem accepted_cons (root : String) (e : LogName × String) (rest : List (LogName × String))
    (t : FileTree) :
    t.accepted root (e :: rest) =
      if (t.appendLog root e.1 e.2).1.toBool then
        e :: (t.appendLog root e.1 e.2).2.accepted root rest
      else (t.appendLog root e.1 e.2).2.accepted root rest := by
  simp only [accepted, appendAll, List.zip_cons_cons, List.filter_cons]
  split <;> rfl

/-- **A run.**  After every run of appends, the tree is one still and each log
    has gained the texts of those that succeeded. -/
theorem IsTree.texts_appendAll (ht : t.IsTree) (root : String) (run : List (LogName × String)) :
    (t.appendAll root run).2.IsTree ∧
    ∀ name, (t.appendAll root run).2.texts name =
      textAfter (t.texts name) (t.accepted root run) name := by
  induction run generalizing t with
  | nil => exact ⟨ht, fun _ => rfl⟩
  | cons e rest ih =>
    obtain ⟨htree, htexts⟩ := ih (ht.appendLog root e.1 e.2).1
    refine ⟨htree, fun name => (htexts name).trans ?_⟩
    rw [ht.texts_appendLog, accepted_cons]
    by_cases hok : (t.appendLog root e.1 e.2).1.toBool = true
    · simp only [hok, true_and, if_true, textAfter_cons]
    · rw [if_neg hok, if_neg fun h => hok h.1]

/-- **Stored logs are the concatenation of the appends that succeeded.**
    Take a tree with any files in it and any run of appends, some of which fail.
    Of every log, the text that is read afterwards is its first text and then
    the texts of the successful appends to that very log, in their order; none
    is read only if there was no file and no such append, and a text is read
    whenever there was one or the other.  An append that fails leaves every file
    as it was and creates none; an unsafe name is refused by either operation,
    and changes nothing at all.  In a directory that was bare at first, all that
    is read agrees with a memory store that was given the successful appends. -/
theorem stored_logs_concatenate (root : String) (ht : t.IsTree)
    (run : List (LogName × String)) :
    (∀ name text, (t.appendAll root run).2.readLog name = .ok (some text) →
      text = (t.texts name).getD "" ++ textFor name (t.accepted root run)) ∧
    (∀ name, (t.appendAll root run).2.readLog name = .ok none →
      t.texts name = none ∧ ∀ e ∈ t.accepted root run, e.1 ≠ name) ∧
    (∀ name, LogName.isSafeId name.id = true →
      ((t.texts name).isSome ∨ ∃ e ∈ t.accepted root run, e.1 = name) →
      ∃ text, (t.appendAll root run).2.readLog name = .ok (some text)) ∧
    (∀ name text failure, ((t.appendAll root run).2.appendLog root name text).1 = .error failure →
      ((t.appendAll root run).2.appendLog root name text).2.files =
        (t.appendAll root run).2.files) ∧
    (∀ name, LogName.isSafeId name.id = false →
      (t.appendAll root run).2.readLog name = .error (.unsafeName name.refusal) ∧
      ∀ text, (t.appendAll root run).2.appendLog root name text =
        (.error (.invalidArgument name.refusal), (t.appendAll root run).2)) ∧
    (∀ nameLimit, t = bare nameLimit →
      ∀ name found, (t.appendAll root run).2.readLog name = .ok found →
        found = (MemoryLog.sink.appendAll (t.accepted root run) ∅).2.get? name) := by
  obtain ⟨hafter, htexts⟩ := ht.texts_appendAll root run
  refine ⟨fun name text h => ?_, fun name h => ?_, fun name hsafe hwritten => ?_,
    fun name text failure h => ?_, fun name hbad => ?_, fun nameLimit hbare name found h => ?_⟩
  · rw [← textAfter_eq_some ((htexts name).symm.trans (hafter.texts_of_readLog h))]
  · exact textAfter_eq_none_iff.mp ((htexts name).symm.trans (hafter.texts_of_readLog h))
  · have hsome : (t.appendAll root run).2.texts name ≠ none := by
      rw [htexts, Ne, textAfter_eq_none_iff]
      rintro ⟨hnone, hothers⟩
      rcases hwritten with hold | ⟨e, he, hname⟩
      · rw [hnone] at hold
        cases hold
      · exact hothers e he hname
    obtain ⟨text, htext⟩ := Option.ne_none_iff_exists'.mp hsome
    exact ⟨text, (hafter.readLog_some_iff text).mpr ⟨hsafe, htext⟩⟩
  · rw [(hafter.appendLog root name text).2, h]
    rfl
  · have hrefused : ¬ LogName.isSafeId name.id = true := by
      rw [hbad]
      exact Bool.false_ne_true
    exact ⟨if_neg hrefused, fun text => if_neg hrefused⟩
  · subst hbare
    rw [MemoryLog.get?_appendAll, ← hafter.texts_of_readLog h, htexts]
    rfl

/-- A directory with an old log of one user and a run in which the logs of two
    others stand in each other's way. -/
theorem stored_logs_concatenate_of_clash :
    ((((bare none).appendLog "logs" ⟨.user, "bob"⟩ "0\n").2.appendAll "logs"
      [(⟨.user, "ab"⟩, "1\n"), (⟨.user, "abcdef"⟩, "2\n"), (⟨.user, "bob"⟩, "3\n")]).2.readLog
        ⟨.user, "bob"⟩) = .ok (some "0\n3\n") := by
  have hbare : IsTree (bare none) := isTree_bare (by simp)
  have htree := (hbare.appendLog "logs" ⟨.user, "bob"⟩ "0\n").1
  obtain ⟨hsome, -, hread, -⟩ := stored_logs_concatenate "logs" htree
    [(⟨.user, "ab"⟩, "1\n"), (⟨.user, "abcdef"⟩, "2\n"), (⟨.user, "bob"⟩, "3\n")]
  obtain ⟨text, htext⟩ := hread ⟨.user, "bob"⟩ (by decide) (.inl (by decide))
  rw [htext, hsome _ _ htext]
  decide +kernel

end FileTree

end ChangeLedger
