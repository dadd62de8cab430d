/-
  ChangeLedger.Proofs.LogPaths — the log of a safe identifier stays in its folder.

  A path is a text, and where it leads shows only once it is cut at its
  separators: a piece may be lost, go up, or start over at the root.  A name is
  plain if it does none of this.  Pushed onto any path, a plain name is one step
  further down.  The folders of the kinds are plain, and so is a safe
  identifier with every part of it that is not empty and not a single dot; the
  folders above a log are such parts.

  These folders are slices by bytes, which have no value where an end falls
  inside a character.  Identifiers with such characters have no folders.

  Main results:
    * `PathStep.ofPath_push` — a plain name is one step into it.
    * `LogName.isPlain_of_infix` — the parts of a safe identifier are plain.
    * `LogName.slicedShards?_eq` — slicing by bytes has a value for every
      identifier.
    * `LogName.safe_logs_stay_in_their_folder` — where the paths of safe
      identifiers lead, and that no two of them lead to one place.
-/
import ChangeLedger.Proofs.StoredLogs

namespace ChangeLedger

/-! ## Plain names -/

/-- A name for one file or folder: not empty, without separators and NUL, and
    neither of the names that mean a folder already there. -/
structure IsPlain (name : String) : Prop where
  /-- It is not empty. -/
  ne_empty : name ≠ ""
  /-- It has no separator. -/
  slash : '/' ∉ name.toList
  /-- It has no separator of other systems. -/
  backslash : '\\' ∉ name.toList
  /-- It has no NUL. -/
  nul : '\x00' ∉ name.toList
  /-- It does not mean the folder itself. -/
  ne_dot : name ≠ "."
  /-- It does not mean the folder above. -/
  ne_dots : name ≠ ".."

namespace IsPlain

variable {name : String}

theorem toList_ne_nil (h : IsPlain name) : name.toList ≠ [] := fun heq =>
  h.ne_empty (String.toList_inj.mp heq)

theorem toList_ne_dot (h : IsPlain name) : name.toList ≠ ['.'] := fun heq =>
  h.ne_dot (String.toList_inj.mp heq)

theorem toList_ne_dots (h : IsPlain name) : name.toList ≠ ['.', '.'] := fun heq =>
  h.ne_dots (String.toList_inj.mp heq)

end IsPlain

theorem isPlain_folder (kind : LogKind) : IsPlain kind.folder := by
  cases kind <;> constructor <;> decide

namespace LogName

variable {path stem last name : String}

/-- A plain name is put after what is there, with a separator if there is none. -/
theorem push_of_plain (h : IsPlain name) :
    push path name = if path = "" ∨ ['/'] <:+ path.toList then path ++ name
      else path ++ "/" ++ name := by
  have hrelative : ¬ (name.startsWith "/" = true) := by
    rw [String.startsWith_string_iff]
    exact fun hstart => h.slash (hstart.subset (by simp))
  unfold push
  rw [if_neg hrelative]
  congr 1
  simp [← String.endsWith_toSlice]

/-- After a plain name comes a separator. -/
theorem push_concat_of_plain (hlast : IsPlain last) (h : IsPlain name) :
    push (stem ++ last) name = stem ++ last ++ "/" ++ name := by
  rw [push_of_plain h, if_neg]
  rintro (hempty | hslash)
  · exact hlast.ne_empty (String.append_eq_empty_iff.mp hempty).2
  · obtain ⟨front, hfront⟩ := hslash
    have hend : last.toList.getLast? = some '/' := by
      rw [← List.getLast?_append_of_ne_nil stem.toList hlast.toList_ne_nil,
        ← String.toList_append, ← hfront, List.getLast?_concat]
    exact hlast.slash (List.mem_of_getLast? hend)

/-- Plain names after a plain name come with a separator each. -/
theorem foldl_push_of_plain {names : List String} (hlast : IsPlain last)
    (h : ∀ n ∈ names, IsPlain n) :
    names.foldl push (stem ++ last) = String.join ((stem ++ last) :: names.map ("/" ++ ·)) := by
  induction names generalizing stem last with
  | nil => simp
  | cons name rest ih =>
    obtain ⟨hname, hrest⟩ := List.forall_mem_cons.mp h
    rw [List.foldl_cons, push_concat_of_plain hlast hname, ih hname hrest]
    simp [String.join_cons, String.append_assoc]

end LogName

/-! ## The steps of a path -/

/-- A step of a path. -/
inductive PathStep where
  /-- To the root, at the start of an absolute path. -/
  | root
  /-- To where one is, at the start of a path that says so. -/
  | here
  /-- To the folder above. -/
  | up
  /-- To what has this name. -/
  | into (name : String)
  deriving DecidableEq

namespace PathStep

/-- The step that a piece between separators stands for: none, if the piece is
    empty or a single dot. -/
def ofPiece (piece : List Char) : Option PathStep :=
  if piece = [] ∨ piece = ['.'] then none
  else if piece = ['.', '.'] then some up
  else some (into (String.ofList piece))

/-- The step at the start of a path of these pieces.  An absolute path has an
    empty piece before its first separator. -/
def start (pieces : List (List Char)) : List PathStep :=
  if pieces.head? = some [] ∧ pieces ≠ [[]] then [root]
  else if pieces.head? = some ['.'] then [here]
  else []

/-- The steps of a path of these pieces. -/
def ofPieces (pieces : List (List Char)) : List PathStep :=
  start pieces ++ pieces.filterMap ofPiece

/-- The steps of a path. -/
def ofPath (path : String) : List PathStep := ofPieces (path.toList.splitOn '/')

/-- Where a step leads from some place, which is given from the root down. -/
def next (place : FilePath) : PathStep → FilePath
  | root => []
  | here => place
  | up => place.dropLast
  | into name => place ++ [name]

/-- Where some steps lead, on a file system without links. -/
def follow (place : FilePath) (steps : List PathStep) : FilePath := steps.foldl next place

theorem follow_append (place : FilePath) (a b : List PathStep) :
    follow place (a ++ b) = follow (follow place a) b := List.foldl_append

/-- Steps into names lead down by these names. -/
theorem follow_map_into (place : FilePath) (names : List String) :
    follow place (names.map into) = place ++ names := by
  induction names generalizing place with
  | nil => simp [follow]
  | cons name rest ih =>
    rw [List.map_cons]
    show follow (place ++ [name]) (rest.map into) = _
    rw [ih, List.append_assoc]
    rfl

theorem ofPiece_of_plain {name : String} (h : IsPlain name) :
    ofPiece name.toList = some (into name) := by
  simp [ofPiece, h.toList_ne_nil, h.toList_ne_dot, h.toList_ne_dots]

theorem ofPieces_plain {name : String} (h : IsPlain name) :
    ofPieces [name.toList] = [into name] := by
  simp [ofPieces, start, h.toList_ne_nil, h.toList_ne_dot, ofPiece_of_plain h]

/-- A plain name in place of the empty piece after a last separator. -/
theorem ofPieces_replace {pieces : List (List Char)} (hne : pieces ≠ []) {name : String}
    (h : IsPlain name) :
    ofPieces (pieces ++ [name.toList]) = ofPieces (pieces ++ [[]]) ++ [into name] := by
  have hstart : start (pieces ++ [name.toList]) = start (pieces ++ [[]]) := by
    obtain ⟨first, rest, rfl⟩ := List.exists_cons_of_ne_nil hne
    simp [start]
  have hnothing : ofPiece [] = none := if_pos (.inl rfl)
  simp [ofPieces, hstart, ofPiece_of_plain h, hnothing]

/-- A plain name after the last piece of a path that is not empty. -/
theorem ofPieces_concat {pieces : List (List Char)} (hne : pieces ≠ []) (hpath : pieces ≠ [[]])
    {name : String} (h : IsPlain name) :
    ofPieces (pieces ++ [name.toList]) = ofPieces pieces ++ [into name] := by
  have hstart : start (pieces ++ [name.toList]) = start pieces := by
    obtain ⟨first, rest, rfl⟩ := List.exists_cons_of_ne_nil hne
    simp [start, hpath]
  simp [ofPieces, hstart, ofPiece_of_plain h]

/-- **A plain name is one step.**  Pushed onto any path, it adds the step into it. -/
theorem ofPath_push (path : String) {name : String} (h : IsPlain name) :
    ofPath (LogName.push path name) = ofPath path ++ [into name] := by
  have hpiece : name.toList.splitOn '/' = [name.toList] := List.splitOn_eq_singleton h.slash
  unfold ofPath
  rw [LogName.push_of_plain h]
  by_cases hempty : path = ""
  · subst hempty
    rw [if_pos (.inl rfl), String.empty_append, hpiece, ofPieces_plain h]
    rfl
  by_cases hslash : ['/'] <:+ path.toList
  · -- the separator at the end of the path is the one before the name
    obtain ⟨stem, hstem⟩ := hslash
    rw [if_pos (.inr ⟨stem, hstem⟩), String.toList_append, ← hstem, List.append_assoc,
      List.singleton_append, List.splitOn_append_cons_self, List.splitOn_append_cons_self,
      List.splitOn_nil, hpiece, ofPieces_replace (List.splitOn_ne_nil '/' stem) h]
  · have hpieces : path.toList.splitOn '/' ≠ [[]] := by
      intro heq
      have hjoin : ['/'].intercalate (path.toList.splitOn '/') = path.toList :=
        List.intercalate_splitOn '/'
      rw [heq] at hjoin
      exact hempty (String.toList_eq_nil_iff.mp hjoin.symm)
    rw [if_neg (by simp [hempty, hslash]), String.toList_append, String.toList_append,
      List.append_assoc]
    show ofPieces (List.splitOn '/' (path.toList ++ '/' :: name.toList)) = _
    rw [List.splitOn_append_cons_self, hpiece,
      ofPieces_concat (List.splitOn_ne_nil '/' _) hpieces h]

/-- Plain names, pushed one after the other, are as many steps. -/
theorem ofPath_foldl_push (path : String) {names : List String} (h : ∀ n ∈ names, IsPlain n) :
    ofPath (names.foldl LogName.push path) = ofPath path ++ names.map into := by
  induction names generalizing path with
  | nil => simp
  | cons name rest ih =>
    obtain ⟨hname, hrest⟩ := List.forall_mem_cons.mp h
    rw [List.foldl_cons, ih (LogName.push path name) hrest, ofPath_push path hname,
      List.append_assoc, List.map_cons, List.singleton_append]

end PathStep

/-! ## Safe identifiers -/

namespace LogName

theorem hasTwoDots_iff (cs : List Char) : hasTwoDots cs = true ↔ ['.', '.'] <:+: cs := by
  fun_induction hasTwoDots cs with
  | case1 rest => simpa using (List.prefix_append ['.', '.'] rest).isInfix
  | case2 c rest hpair ih =>
    rw [ih, List.infix_cons_iff]
    refine (or_iff_right fun hstart => ?_).symm
    obtain ⟨tail, htail⟩ := hstart
    injection htail with hc hrest
    exact hpair tail hc.symm hrest.symm
  | case3 => simp

/-- Every part of a safe identifier that is not empty and not a single dot is plain. -/
theorem isPlain_of_infix {id part : String} (hsafe : isSafeId id = true)
    (hpart : part.toList <:+: id.toList) (hempty : part ≠ "") (hdot : part ≠ ".") :
    IsPlain part := by
  simp only [isSafeId, Bool.and_eq_true, Bool.not_eq_true', List.contains_eq_mem,
    decide_eq_false_iff_not] at hsafe
  obtain ⟨⟨⟨⟨-, hslash⟩, hback⟩, hnul⟩, hdots⟩ := hsafe
  refine ⟨hempty, fun h => hslash (hpart.subset h), fun h => hback (hpart.subset h),
    fun h => hnul (hpart.subset h), hdot, ?_⟩
  rintro rfl
  have htwo := (hasTwoDots_iff id.toList).mpr hpart
  rw [hdots] at htwo
  cases htwo

theorem isPlain_id {id : String} (hsafe : isSafeId id = true) : IsPlain id := by
  refine isPlain_of_infix hsafe (List.infix_refl _) ?_ ?_
  · rintro rfl
    cases hsafe
  · rintro rfl
    cases hsafe

/-! ## The folders above a log -/

/-- The bytes of a text from one place to another, if these come in order and
    each lies between two characters or at an end. -/
def slice? (text : String) (start stop : Nat) : Option String :=
  if h : start ≤ stop ∧ (⟨start⟩ : String.Pos.Raw).IsValid text ∧
      (⟨stop⟩ : String.Pos.Raw).IsValid text then
    some (text.extract (text.pos ⟨start⟩ h.2.1) (text.pos ⟨stop⟩ h.2.2))
  else none

theorem slice?_append (a b c : String) :
    slice? (a ++ b ++ c) a.utf8ByteSize (a.utf8ByteSize + b.utf8ByteSize) = some b := by
  have hstart : (⟨a.utf8ByteSize⟩ : String.Pos.Raw).IsValid (a ++ b ++ c) := by
    rw [String.append_assoc]
    exact String.Pos.Raw.isValid_rawEndPos.append_right (b ++ c)
  have hstop : (⟨a.utf8ByteSize + b.utf8ByteSize⟩ : String.Pos.Raw).IsValid (a ++ b ++ c) := by
    rw [← String.utf8ByteSize_append]
    exact String.Pos.Raw.isValid_rawEndPos.append_right c
  rw [slice?, dif_pos ⟨Nat.le_add_right _ _, hstart, hstop⟩]
  congr 1
  rw [← String.toByteArray_inj, String.toByteArray_extract]
  calc (a ++ b ++ c).toByteArray.extract a.utf8ByteSize (a.utf8ByteSize + b.utf8ByteSize)
      = (a.toByteArray ++ (b.toByteArray ++ c.toByteArray)).extract (a.toByteArray.size + 0)
          (a.toByteArray.size + b.toByteArray.size) := by
        simp [ByteArray.append_assoc]
    _ = (b.toByteArray ++ c.toByteArray).extract 0 b.toByteArray.size :=
        ByteArray.extract_append_size_add
    _ = b.toByteArray := ByteArray.extract_append_eq_left rfl

/-- The folders of an identifier, sliced by bytes. -/
def slicedShards? (id : String) : Option (List String) :=
  if IsLongAscii id then
    [(0, 2), (2, 4), (4, 6)].mapM fun (start, stop) => slice? id start stop
  else some []

/-- No slice cuts inside a character, whatever the identifier is. -/
theorem slicedShards?_eq (id : String) : slicedShards? id = some (shards id) := by
  unfold slicedShards?
  obtain ⟨hlong, hshards⟩ | ⟨hlong, a, b, c, rest, hshards, hid, ⟨-, ha⟩, ⟨-, hb⟩, ⟨-, hc⟩⟩ :=
    shards_spec id
  · rw [if_neg hlong, hshards]
  · rw [if_pos hlong, hshards]
    have hfirst : slice? id 0 2 = some a := by
      have h := slice?_append "" a (b ++ (c ++ rest))
      rw [ha] at h
      simpa [hid, String.append_assoc] using h
    have hsecond : slice? id 2 4 = some b := by
      have h := slice?_append a b (c ++ rest)
      rw [ha, hb] at h
      simpa [hid, String.append_assoc] using h
    have hthird : slice? id 4 6 = some c := by
      have h := slice?_append (a ++ b) c rest
      rw [String.utf8ByteSize_append, ha, hb, hc] at h
      rwa [← hid] at h
    simp [hfirst, hsecond, hthird]

/-! ## Where the logs of safe identifiers lie -/

theorem join_shards {id : String} (h : shards id ≠ []) :
    String.join (shards id) = String.ofList (id.toList.take 6) := by
  obtain ⟨-, hnone⟩ | ⟨-, a, b, c, rest, hshards, hid, ⟨ha, -⟩, ⟨hb, -⟩, ⟨hc, -⟩⟩ :=
    shards_spec id
  · exact absurd hnone h
  · have hsix : 6 = (a ++ b ++ c).toList.length := by simp [ha, hb, hc]
    rw [hshards, hid, String.toList_append, hsix, List.take_left, String.ofList_toList]
    simp [String.join_cons, String.append_assoc]

/-- A shard is two characters of the identifier. -/
theorem mem_shards {id s : String} (hs : s ∈ shards id) :
    s.toList <:+: id.toList ∧ s.toList.length = 2 := by
  obtain ⟨-, hnone⟩ | ⟨-, a, b, c, rest, hshards, hid, ⟨ha, -⟩, ⟨hb, -⟩, ⟨hc, -⟩⟩ :=
    shards_spec id
  · rw [hnone] at hs
    cases hs
  · rw [hshards] at hs
    simp only [List.mem_cons, List.not_mem_nil, or_false] at hs
    rw [hid]
    rcases hs with rfl | rfl | rfl
    · exact ⟨⟨[], (b ++ c ++ rest).toList, by simp [String.append_assoc]⟩, ha⟩
    · exact ⟨⟨a.toList, (c ++ rest).toList, by simp [String.append_assoc]⟩, hb⟩
    · exact ⟨⟨(a ++ b).toList, rest.toList, by simp⟩, hc⟩

theorem isPlain_components {name : LogName} (hsafe : isSafeId name.id = true) :
    ∀ c ∈ name.components, IsPlain c := by
  have hshards : ∀ s ∈ shards name.id, IsPlain s := by
    intro s hs
    obtain ⟨hpart, htwo⟩ := mem_shards hs
    -- a pair is too long for a single dot, and no two dots follow each other
    refine isPlain_of_infix hsafe hpart ?_ ?_
    · rintro rfl
      cases htwo
    · rintro rfl
      cases htwo
  intro c hc
  rcases List.mem_cons.mp hc with rfl | hc
  · exact isPlain_folder name.kind
  · rcases List.mem_append.mp hc with hc | hc
    · exact hshards c hc
    · rw [List.mem_singleton.mp hc]
      exact isPlain_id hsafe

/-- Where the path of a log leads below a root.  The folder of its kind lies
    right below the root. -/
structure LiesInFolder (root : String) (name : LogName) : Prop where
  /-- The path is that of the folder, and a separator before each shard and
      before the identifier. -/
  text : name.path root = String.join
    (push root name.kind.folder :: (shards name.id ++ [name.id]).map ("/" ++ ·))
  /-- There are three shards or none. -/
  shards_length : (shards name.id).length = if IsLongAscii name.id then 3 else 0
  /-- The shards are the first six characters of the identifier. -/
  shards_join : shards name.id ≠ [] →
    String.join (shards name.id) = String.ofList (name.id.toList.take 6)
  /-- All that is added to the root are plain names. -/
  plain : ∀ c ∈ name.components, IsPlain c
  /-- The path goes the way to the root, and then down by these names. -/
  steps : PathStep.ofPath (name.path root) =
    PathStep.ofPath root ++ name.components.map PathStep.into
  /-- Once in the folder, the path never leaves it. -/
  stays : ∀ place way, PathStep.ofPath (push root name.kind.folder) <+: way →
    way <+: PathStep.ofPath (name.path root) →
    PathStep.follow place (PathStep.ofPath (push root name.kind.folder)) <+:
      PathStep.follow place way

theorem liesInFolder (root : String) {name : LogName} (hsafe : isSafeId name.id = true) :
    name.LiesInFolder root := by
  have hplain := isPlain_components hsafe
  have hfolder := isPlain_folder name.kind
  have hnames : ∀ c ∈ shards name.id ++ [name.id], IsPlain c := fun c hc =>
    hplain c (List.mem_cons_of_mem _ hc)
  refine ⟨?_, ?_, join_shards, hplain, PathStep.ofPath_foldl_push root hplain, ?_⟩
  · have hpush : ∃ stem, push root name.kind.folder = stem ++ name.kind.folder := by
      rw [push_of_plain hfolder]
      split
      · exact ⟨root, rfl⟩
      · exact ⟨root ++ "/", rfl⟩
    obtain ⟨stem, hstem⟩ := hpush
    show (shards name.id ++ [name.id]).foldl push (push root name.kind.folder) = _
    rw [hstem, foldl_push_of_plain hfolder hnames]
  · obtain ⟨hlong, hshards⟩ | ⟨hlong, a, b, c, rest, hshards, -⟩ := shards_spec name.id
    · rw [if_neg hlong, hshards]
      rfl
    · rw [if_pos hlong, hshards]
      rfl
  · rintro place way ⟨rest, rfl⟩ hway
    have hpath : PathStep.ofPath (name.path root) =
        PathStep.ofPath (push root name.kind.folder) ++
          (shards name.id ++ [name.id]).map PathStep.into :=
      PathStep.ofPath_foldl_push _ hnames
    rw [hpath, List.prefix_append_right_inj] at hway
    rw [PathStep.follow_append, List.prefix_iff_eq_take.mp hway, ← List.map_take,
      PathStep.follow_map_into]
    exact List.prefix_append _ _

/-- **Safe logs stay in their folder.**  Below every root, the path of a log
    with a safe identifier leads into the folder of its kind.  No two of these
    paths lead to one place, wherever they start from, so they are different
    texts as well.  The folders above a log are slices by bytes that never cut
    a character, whether the identifier is safe or not. -/
theorem safe_logs_stay_in_their_folder (root : String) :
    (∀ name : LogName, isSafeId name.id = true → name.LiesInFolder root) ∧
    (∀ a b : LogName, isSafeId a.id = true → isSafeId b.id = true → ∀ place,
      PathStep.follow place (PathStep.ofPath (a.path root)) =
        PathStep.follow place (PathStep.ofPath (b.path root)) → a = b) ∧
    ∀ id, slicedShards? id = some (shards id) := by
  refine ⟨fun name hsafe => liesInFolder root hsafe, fun a b ha hb place heq => ?_,
    slicedShards?_eq⟩
  rw [(liesInFolder root ha).steps, (liesInFolder root hb).steps, PathStep.follow_append,
    PathStep.follow_append, PathStep.follow_map_into, PathStep.follow_map_into] at heq
  exact components_injective (List.append_cancel_left heq)

/-- An identifier with dots wherever they are safe, below a root that ends in one. -/
theorem safe_logs_stay_in_their_folder_of_dots :
    let name : LogName := ⟨.user, ".a.b.c1"⟩
    isSafeId name.id = true ∧ name.path "logs/." = "logs/./u/.a/.b/.c/.a.b.c1" ∧
      PathStep.follow ["srv"] (PathStep.ofPath (name.path "logs/.")) =
        ["srv", "logs", "u", ".a", ".b", ".c", ".a.b.c1"] := by
  intro name
  have hsafe : isSafeId name.id = true := by decide
  have hlies := (safe_logs_stay_in_their_folder "logs/.").1 name hsafe
  refine ⟨hsafe, ?_, ?_⟩
  · have hfolder : push "logs/." name.kind.folder = "logs/./u" := by
      rw [push_of_plain (isPlain_folder name.kind), if_neg (by decide)]
      rfl
    rw [hlies.text, hfolder]
    decide
  · rw [hlies.steps, PathStep.follow_append, PathStep.follow_map_into]
    decide

end LogName

end ChangeLedger
