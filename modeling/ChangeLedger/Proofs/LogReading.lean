/-
  ChangeLedger.Proofs.LogReading — what a change log says can be read back.

  Audit lines are JSON objects with names in a fixed order.  The braces tell
  where a line begins and ends, the names which fields are present, and the
  values what they hold, up to their tags.  So a log is the text of one
  sequence of lines only.

  Main results:
    * `AuditLine.json_append_inj` — a line is read off the front of a text in
      one way.
    * `AuditLine.texts_eq_iff` — logs without floats.
-/
import ChangeLedger.Audit.Line
import ChangeLedger.Proofs.Readability

namespace ChangeLedger

/-! ## Lines -/

namespace AuditLine

/-- The line without the tags that the texts of its values do not show. -/
def untagged (line : AuditLine) : AuditLine :=
  { line with
    previous := line.previous.map Value.untagged
    value := line.value.map Value.untagged }

/-- Whether no float occurs in the values of a line. -/
def floatFree (line : AuditLine) : Bool :=
  line.previous.all Value.floatFree && line.value.all Value.floatFree

/-- The fields of a line and their values, present or not, in their order. -/
def slots (line : AuditLine) : List (String × Option Value) :=
  [ ("time", some (.int line.time)),
    ("userId", line.userId.map .str),
    ("userName", line.userName.map .str),
    ("objId", line.objectId.map .str),
    ("verb", some (.str line.verb.display)),
    ("rel", line.edgeType.map .str),
    ("relId", line.edgeId.map .str),
    ("relDir", line.direction.map fun d => .str d.display),
    ("source", line.source.map .str),
    ("target", line.target.map .str),
    ("key", line.key.map .str),
    ("prev", line.previous),
    ("val", line.value) ]

/-- The names of the fields, in their order. -/
def fieldNames : List String :=
  ["time", "userId", "userName", "objId", "verb", "rel", "relId", "relDir", "source", "target",
    "key", "prev", "val"]

theorem names_slots (line : AuditLine) : line.slots.map Prod.fst = fieldNames := rfl

/-- The fields that are present, and their values. -/
def present (slots : List (String × Option Value)) : List (String × Value) :=
  slots.filterMap fun f => f.2.map (f.1, ·)

/-- The text of a field that is present. -/
def memberText (m : String × Value) : String := "\"" ++ m.1 ++ "\":" ++ m.2.audit

theorem fields_eq (line : AuditLine) :
    line.fields = (present line.slots).map fun m => (m.1, m.2.audit) := by
  have hslots : line.fields =
      (line.slots.map fun f => (f.1, f.2.map Value.audit)).filterMap
        fun f => f.2.map (f.1, ·) := by
    unfold fields slots
    simp only [List.map_cons, List.map_nil, Option.map_map, Option.map_some]
    rfl
  rw [hslots, present, List.filterMap_map, List.map_filterMap]
  refine List.filterMap_congr fun f _ => ?_
  obtain ⟨name, slot⟩ := f
  cases slot <;> rfl

theorem json_eq (line : AuditLine) :
    line.json = "\x7b" ++ String.intercalate "," ((present line.slots).map memberText)
      ++ "\x7d" := by
  unfold json
  rw [fields_eq, List.map_map]
  rfl

theorem mem_fieldNames {line : AuditLine} {m : String × Value} (h : m ∈ present line.slots) :
    m.1 ∈ fieldNames := by
  obtain ⟨f, hf, hm⟩ := List.mem_filterMap.mp h
  obtain ⟨v, -, rfl⟩ := Option.map_eq_some_iff.mp hm
  rw [← names_slots line]
  exact List.mem_map_of_mem hf

/-- Names of fields need no escapes. -/
theorem quote_of_mem : ∀ name ∈ fieldNames, JsonString.quote name = "\"" ++ name ++ "\"" := by
  decide

theorem toList_memberText {m : String × Value} (h : m.1 ∈ fieldNames) (x : List Char) :
    (memberText m).toList ++ x =
      (JsonString.quote m.1).toList ++ (':' :: (m.2.audit.toList ++ x)) := by
  unfold memberText
  rw [quote_of_mem m.1 h]
  simp only [String.toList_append, List.append_assoc]
  rfl

/-- A field is read off the front of a text in one way. -/
theorem memberText_append_inj {m n : String × Value} (hm : m.1 ∈ fieldNames)
    (hn : n.1 ∈ fieldNames) (hmv : m.2.isPlain = true) (hnv : n.2.isPlain = true) {x y : List Char}
    (hx : EndsValue x) (hy : EndsValue y)
    (h : (memberText m).toList ++ x = (memberText n).toList ++ y) : m = n ∧ x = y := by
  rw [toList_memberText hm, toList_memberText hn] at h
  obtain ⟨hname, hrest⟩ := JsonString.quote_append_inj h
  obtain ⟨hvalue, hxy⟩ := Value.readAlone m.2 hmv n.2 x y hnv hx hy (List.cons.inj hrest).2
  exact ⟨Prod.ext hname hvalue, hxy⟩

/-- Which fields are present tells which are absent, if no name occurs twice. -/
theorem eq_of_present_eq {l l' : List (String × Option Value)}
    (hnames : l.map Prod.fst = l'.map Prod.fst) (hnodup : (l.map Prod.fst).Nodup)
    (h : present l = present l') : l = l' := by
  have hmem : ∀ (rest : List (String × Option Value)) {name v more},
      present rest = (name, v) :: more → name ∈ rest.map Prod.fst := by
    intro rest name v more hrest
    have hin : (name, v) ∈ present rest := hrest ▸ List.mem_cons_self
    obtain ⟨f, hf, hfv⟩ := List.mem_filterMap.mp hin
    obtain ⟨w, -, hw⟩ := Option.map_eq_some_iff.mp hfv
    exact (Prod.mk.inj hw).1 ▸ List.mem_map_of_mem hf
  induction l generalizing l' with
  | nil => exact (List.map_eq_nil_iff.mp hnames.symm).symm
  | cons f rest ih =>
    cases l' with
    | nil => cases hnames
    | cons f' rest' =>
      obtain ⟨name, slot⟩ := f
      obtain ⟨name', slot'⟩ := f'
      obtain ⟨hname, hrestNames⟩ := List.cons.inj hnames
      obtain rfl : name = name' := hname
      obtain ⟨hfresh, hrestNodup⟩ := List.nodup_cons.mp hnodup
      -- A field that only one side has would be found behind its place on the other.
      cases slot with
      | none =>
        cases slot' with
        | none => rw [ih hrestNames hrestNodup h]
        | some v' => exact absurd (hmem rest h) hfresh
      | some v =>
        cases slot' with
        | none => exact absurd (hmem rest' h.symm) (hrestNames ▸ hfresh)
        | some v' =>
          obtain ⟨hv, hrest⟩ := List.cons.inj h
          rw [ih hrestNames hrestNodup hrest, (Prod.mk.inj hv).2]

theorem display_verb_injective : Function.Injective AuditVerb.display := by
  intro v w
  cases v <;> cases w <;> decide

theorem display_direction_injective : Function.Injective Direction.display := by
  intro d e
  cases d <;> cases e <;> decide

/-- The values of its fields make up a line. -/
theorem slots_injective : Function.Injective slots := by
  intro line line' h
  have hstr : Function.Injective Value.str := fun _ _ h => Value.str.inj h
  have hdirection : Function.Injective fun d : Direction => Value.str d.display :=
    hstr.comp display_direction_injective
  cases line
  cases line'
  simp only [slots, List.cons.injEq, Prod.mk.injEq, Option.some.injEq, Value.int.injEq,
    Value.str.injEq, true_and, and_true, (Option.map_injective hstr).eq_iff,
    (Option.map_injective hdirection).eq_iff, display_verb_injective.eq_iff] at h
  simp only [h]

/-- All values of a line without floats and without tags are plain. -/
theorem isPlain_slots {line : AuditLine} (h : line.floatFree = true) :
    ∀ f ∈ line.untagged.slots, f.2.all Value.isPlain = true := by
  obtain ⟨hprevious, hvalue⟩ := Bool.and_eq_true_iff.mp h
  have hstr : ∀ o : Option String, (o.map Value.str).all Value.isPlain = true := by
    intro o
    cases o <;> rfl
  have hdirection : ∀ o : Option Direction,
      (o.map fun d => Value.str d.display).all Value.isPlain = true := by
    intro o
    cases o <;> rfl
  have huntagged : ∀ o : Option Value, o.all Value.floatFree = true →
      (o.map Value.untagged).all Value.isPlain = true := by
    intro o ho
    cases o with
    | none => rfl
    | some v => exact Value.isPlain_untagged v ho
  simp only [slots, List.forall_mem_cons, List.not_mem_nil, false_imp_iff, implies_true, and_true]
  exact ⟨rfl, hstr _, hstr _, hstr _, rfl, hstr _, hstr _, hdirection _, hstr _, hstr _, hstr _,
    huntagged _ hprevious, huntagged _ hvalue⟩

theorem isPlain_of_mem_present {line : AuditLine} (h : line.floatFree = true)
    {m : String × Value} (hm : m ∈ present line.untagged.slots) : m.2.isPlain = true := by
  obtain ⟨f, hf, hfm⟩ := List.mem_filterMap.mp hm
  obtain ⟨v, hv, rfl⟩ := Option.map_eq_some_iff.mp hfm
  have hplain := isPlain_slots h f hf
  rw [hv] at hplain
  exact hplain

/-- The tags do not show in the text of a line. -/
theorem json_untagged (line : AuditLine) : line.untagged.json = line.json := by
  unfold json fields untagged
  simp only [Option.map_map, Function.comp_def, Value.audit_untagged]

/-- A line is read off the front of a text in one way, but for the tags. -/
theorem json_append_inj {line line' : AuditLine} (h : line.floatFree = true)
    (h' : line'.floatFree = true) {x y : List Char}
    (htext : line.json.toList ++ x = line'.json.toList ++ y) :
    line.untagged = line'.untagged ∧ x = y := by
  have hjson : ∀ (line : AuditLine) (x : List Char), line.json.toList ++ x = '\x7b' ::
      ((String.intercalate "," ((present line.untagged.slots).map memberText)).toList
        ++ '\x7d' :: x) := by
    intro line x
    rw [← json_untagged, json_eq, String.toList_append, String.toList_append, List.append_assoc]
    rfl
  rw [hjson, hjson] at htext
  -- Every field starts with a quote, and so not with the closing brace.
  have hquote : ∀ m : String × Value, ∃ c rest, (memberText m).toList = c :: rest ∧
      c ≠ '\x7d' := by
    intro m
    refine ⟨'\x22', (m.1 ++ "\":" ++ m.2.audit).toList, ?_, by decide⟩
    unfold memberText
    simp only [String.toList_append]
    rfl
  obtain ⟨hsame, hxy⟩ := intercalate_append_inj (.inr (.inr rfl)) (by decide)
    (fun m hm n hn x y hx hy => memberText_append_inj (mem_fieldNames hm) (mem_fieldNames hn)
      (isPlain_of_mem_present h hm) (isPlain_of_mem_present h' hn) hx hy)
    (fun m _ => hquote m) (fun m _ => hquote m) (List.cons.inj htext).2
  have hnodup : (line.untagged.slots.map Prod.fst).Nodup := by
    rw [names_slots]
    decide
  exact ⟨slots_injective (eq_of_present_eq rfl hnodup hsame), hxy⟩

/-- The text of lines that are written one after the other. -/
def texts (lines : List AuditLine) : String := String.join (lines.map text)

theorem toList_texts_cons (line : AuditLine) (lines : List AuditLine) :
    (texts (line :: lines)).toList = line.json.toList ++ '\n' :: (texts lines).toList := by
  unfold texts text
  rw [List.map_cons, String.join_cons, String.toList_append, String.toList_append,
    List.append_assoc]
  rfl

/-- What is written about something is not empty. -/
theorem texts_cons_ne_nil (line : AuditLine) (lines : List AuditLine) :
    texts (line :: lines) ≠ texts [] := by
  intro h
  have hnil := congrArg String.toList h
  rw [toList_texts_cons] at hnil
  exact List.append_ne_nil_of_right_ne_nil _ (List.cons_ne_nil _ _) hnil

theorem texts_untagged (lines : List AuditLine) : texts (lines.map untagged) = texts lines := by
  unfold texts
  rw [List.map_map]
  refine congrArg String.join (List.map_congr_left fun line _ => ?_)
  show line.untagged.json ++ "\n" = line.json ++ "\n"
  rw [json_untagged]

/-- Two logs without floats have the same text exactly if they have the same
    lines, but for the tags of values: as many, and in each place lines that
    agree in every field, present or absent.  What an entry writes to the log
    of its object or of a user, `AuditEntry.objectLine` or `userLine`, is such a
    line. -/
theorem texts_eq_iff (lines lines' : List AuditLine) (h : ∀ line ∈ lines, line.floatFree = true)
    (h' : ∀ line ∈ lines', line.floatFree = true) :
    texts lines = texts lines' ↔ lines.map untagged = lines'.map untagged := by
  constructor
  · intro htexts
    induction lines generalizing lines' with
    | nil =>
      cases lines' with
      | nil => rfl
      | cons line' rest' => exact absurd htexts.symm (texts_cons_ne_nil line' rest')
    | cons line rest ih =>
      cases lines' with
      | nil => exact absurd htexts (texts_cons_ne_nil line rest)
      | cons line' rest' =>
        have hlists := congrArg String.toList htexts
        rw [toList_texts_cons, toList_texts_cons] at hlists
        obtain ⟨hline, hrest⟩ := json_append_inj (h line List.mem_cons_self)
          (h' line' List.mem_cons_self) hlists
        have hmore := ih rest' (fun l hl => h l (List.mem_cons_of_mem _ hl))
          (fun l hl => h' l (List.mem_cons_of_mem _ hl))
          (String.toList_inj.mp (List.cons.inj hrest).2)
        rw [List.map_cons, List.map_cons, hline, hmore]
  · intro hlines
    rw [← texts_untagged lines, hlines, texts_untagged]

/-- A line on a property write that has these values before and after. -/
def sampleLine (key : String) (previous value : Value) : AuditLine :=
  { time := 1700000000000, userId := some "u\"1", objectId := none, verb := .change,
    key := some key, previous := some previous, value := some value }

/-- Bytes and a list of numbers are written alike, and so are a reference and a
    string.  Quotes in a name cannot pass for the end of it. -/
theorem texts_eq_iff_of_samples :
    let tagged := sampleLine "a" (.date (-3)) (.list [.bytes [1, 2], .ref "x\"\n", .null])
    let plain := sampleLine "a" (.int (-3)) (.list [.list [.int 1, .int 2], .str "x\"\n", .null])
    let quoted := sampleLine "a\",\"prev\":-3" (.int (-3)) .null
    (∀ line ∈ [tagged, plain, quoted], line.floatFree = true) ∧
    texts [tagged, plain] = texts [plain, tagged] ∧
    texts [tagged, quoted] ≠ texts [tagged, plain] := by
  intro tagged plain quoted
  have hfree : ∀ line ∈ [tagged, plain, quoted], line.floatFree = true := by decide
  have htp : ∀ line ∈ [tagged, plain], line.floatFree = true := by decide
  have hpt : ∀ line ∈ [plain, tagged], line.floatFree = true := by decide
  have htq : ∀ line ∈ [tagged, quoted], line.floatFree = true := by decide
  refine ⟨hfree, (texts_eq_iff _ _ htp hpt).mpr rfl, ?_⟩
  intro h
  have hkeys := congrArg (List.map key) ((texts_eq_iff _ _ htq htp).mp h)
  exact absurd hkeys (by decide)

end AuditLine

end ChangeLedger
