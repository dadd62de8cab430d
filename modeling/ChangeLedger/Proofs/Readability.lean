/-
  ChangeLedger.Proofs.Readability — the audit text of a value can be read back.

  In a JSON text, what follows a value is a comma or a closing bracket.  Read
  from the left, each part ends at one place only: strings at the first quote
  that is not escaped, numbers before the first character that is none of
  theirs, lists at their own bracket.  So the text of a value is that of no
  other one, up to the tags, which JSON does not show.  Floats are left out.

  Main results:
    * `JsonString.quote_append_inj`, `toString_append_inj` — strings and whole
      numbers are read off the front of a text in one way.
    * `intercalate_append_inj` — so are sequences of parts that are.
    * `Value.readAlone` — and values.
-/
import ChangeLedger.Graph.Value
import Mathlib

namespace ChangeLedger

/-! ## Strings -/

namespace JsonString

/-- The value of a hexadecimal digit. -/
def digitValue (c : Char) : Nat := if c.isDigit then c.toNat - 48 else c.toNat - 87

/-- Reads one character of a JSON string.  At the closing quote there is
    none. -/
def readChar : List Char → Option (Char × List Char)
  | '\\' :: 'b' :: rest => some ('\x08', rest)
  | '\\' :: 't' :: rest => some ('\t', rest)
  | '\\' :: 'n' :: rest => some ('\n', rest)
  | '\\' :: 'f' :: rest => some ('\x0c', rest)
  | '\\' :: 'r' :: rest => some ('\r', rest)
  | '\\' :: 'u' :: '0' :: '0' :: a :: b :: rest =>
    some (Char.ofNat (16 * digitValue a + digitValue b), rest)
  | '\\' :: c :: rest => some (c, rest)
  | '\x22' :: _ => none
  | c :: rest => some (c, rest)
  | [] => none

theorem digitValue_digitChar : ∀ n < 16, digitValue (Nat.digitChar n) = n := by decide

/-- An escaped character is read back, whatever follows it. -/
theorem readChar_escapeChar (c : Char) (rest : List Char) :
    readChar (escapeChar c ++ rest) = some (c, rest) := by
  unfold escapeChar
  split_ifs with h₁ h₂ h₃ h₄ h₅ h₆ h₇ h₈
  · rw [h₁]; rfl
  · rw [h₂]; rfl
  · rw [h₃]; rfl
  · rw [h₄]; rfl
  · rw [h₅]; rfl
  · rw [h₆]; rfl
  · rw [h₇]; rfl
  · -- A control without a letter of its own is told by its code.
    show some (Char.ofNat (16 * digitValue (Nat.digitChar (c.toNat / 16))
      + digitValue (Nat.digitChar (c.toNat % 16))), rest) = _
    rw [digitValue_digitChar _ (by omega), digitValue_digitChar _ (by omega),
      Nat.div_add_mod, Char.ofNat_toNat]
  · show readChar (c :: rest) = _
    unfold readChar
    split <;> simp_all

/-- Up to the closing quote, the characters of a string are read in one way. -/
theorem escape_append_inj {cs ds x y : List Char}
    (h : escape cs ++ '\x22' :: x = escape ds ++ '\x22' :: y) : cs = ds ∧ x = y := by
  induction cs generalizing ds with
  | nil =>
    cases ds with
    | nil => exact ⟨rfl, (List.cons.inj h).2⟩
    | cons d ds =>
      -- No character starts with the closing quote.
      have hread := congrArg readChar h
      rw [escape, escape, List.flatMap_cons, List.append_assoc, readChar_escapeChar] at hread
      cases hread
  | cons c cs ih =>
    cases ds with
    | nil =>
      have hread := congrArg readChar h
      rw [escape, escape, List.flatMap_cons, List.append_assoc, readChar_escapeChar] at hread
      cases hread
    | cons d ds =>
      have hread := congrArg readChar h
      rw [escape, escape, List.flatMap_cons, List.flatMap_cons, List.append_assoc,
        List.append_assoc, readChar_escapeChar, readChar_escapeChar] at hread
      obtain ⟨hc, hrest⟩ := Prod.mk.inj (Option.some.inj hread)
      obtain ⟨hcs, hxy⟩ := ih hrest
      exact ⟨by rw [hc, hcs], hxy⟩

theorem toList_quote (s : String) : (quote s).toList = '\x22' :: (escape s.toList ++ ['\x22']) := by
  unfold quote
  rw [String.toList_ofList]
  rfl

/-- A quoted string is read off the front of a text in one way. -/
theorem quote_append_inj {s t : String} {x y : List Char}
    (h : (quote s).toList ++ x = (quote t).toList ++ y) : s = t ∧ x = y := by
  rw [toList_quote, toList_quote] at h
  simp only [List.cons_append, List.append_assoc, List.nil_append, List.cons.injEq, true_and] at h
  obtain ⟨hst, hxy⟩ := escape_append_inj h
  exact ⟨String.toList_inj.mp hst, hxy⟩

end JsonString

/-! ## Numbers -/

/-- Whether a text starts with what may follow a value: a comma, a closing
    bracket, or the end. -/
def EndsValue : List Char → Prop
  | [] => True
  | c :: _ => c = ',' ∨ c = ']' ∨ c = '\x7d'

/-- Whether a character can stand in a whole number. -/
def isNumeral (c : Char) : Bool := c.isDigit || c == '-'

/-- A whole number is written as its digits, after a sign if it is negative. -/
theorem toList_toString (n : Int) :
    (toString n).toList = (if n < 0 then ['-'] else []) ++ Nat.toDigits 10 n.natAbs := by
  rw [Int.toString_eq_repr]
  cases n with
  | ofNat m =>
    have hsign : ¬ Int.ofNat m < 0 := Int.not_lt.mpr (Int.natCast_nonneg m)
    rw [if_neg hsign]
    exact Nat.toList_repr
  | negSucc m =>
    rw [if_pos (Int.negSucc_lt_zero m)]
    show ("-" ++ m.succ.repr).toList = _
    rw [String.toList_append, Nat.toList_repr]
    rfl

theorem toList_toString_ne_nil (n : Int) : (toString n).toList ≠ [] := by
  rw [toList_toString]
  exact List.append_ne_nil_of_right_ne_nil _ Nat.toDigits_ne_nil

/-- A whole number is written with digits and a sign. -/
theorem isNumeral_of_mem_toString {n : Int} {c : Char} (h : c ∈ (toString n).toList) :
    isNumeral c = true := by
  unfold isNumeral
  rw [toList_toString] at h
  cases List.mem_append.mp h with
  | inl hsign =>
    split at hsign
    · rw [List.mem_singleton.mp hsign]; rfl
    · cases hsign
  | inr hdigit =>
    rw [Nat.isDigit_of_mem_toDigits (by decide) (by decide) hdigit]
    rfl

/-- What follows a number is told from it by its first character. -/
theorem takeWhile_isNumeral {n : Int} {x : List Char} (hx : EndsValue x) :
    ((toString n).toList ++ x).takeWhile isNumeral = (toString n).toList := by
  rw [List.takeWhile_append_of_pos fun c hc => isNumeral_of_mem_toString hc]
  have hstop : x.takeWhile isNumeral = [] := by
    cases x with
    | nil => rfl
    | cons c rest => rcases hx with rfl | rfl | rfl <;> rfl
  rw [hstop, List.append_nil]

/-- A whole number is read off the front of a text in one way. -/
theorem toString_append_inj {n m : Int} {x y : List Char} (hx : EndsValue x) (hy : EndsValue y)
    (h : (toString n).toList ++ x = (toString m).toList ++ y) : n = m ∧ x = y := by
  have hnm : (toString n).toList = (toString m).toList := by
    rw [← takeWhile_isNumeral hx, h, takeWhile_isNumeral hy]
  refine ⟨Int.repr_injective (String.toList_inj.mp hnm), ?_⟩
  rw [hnm] at h
  exact List.append_cancel_left h

/-! ## Parts between commas -/

/-- If each part of a sequence is read in one way, so is the whole sequence up
    to its closing bracket. -/
theorem intercalate_append_inj {α : Type} {text : α → String} {close : Char} {as bs : List α}
    (hclose : EndsValue [close]) (hcomma : close ≠ ',')
    (hpart : ∀ a ∈ as, ∀ b ∈ bs, ∀ x y, EndsValue x → EndsValue y →
      (text a).toList ++ x = (text b).toList ++ y → a = b ∧ x = y)
    (has : ∀ a ∈ as, ∃ c rest, (text a).toList = c :: rest ∧ c ≠ close)
    (hbs : ∀ b ∈ bs, ∃ c rest, (text b).toList = c :: rest ∧ c ≠ close) {x y : List Char}
    (h : (String.intercalate "," (as.map text)).toList ++ close :: x =
      (String.intercalate "," (bs.map text)).toList ++ close :: y) : as = bs ∧ x = y := by
  -- A part is followed by a comma, if there are more, and else by the bracket.
  have hcons : ∀ (a : α) (rest : List α) (z : List Char), ∃ z',
      (String.intercalate "," ((a :: rest).map text)).toList ++ close :: z
        = (text a).toList ++ z' ∧
      ((rest = [] ∧ z' = close :: z) ∨ (rest ≠ [] ∧
        z' = ',' :: ((String.intercalate "," (rest.map text)).toList ++ close :: z))) := by
    intro a rest z
    cases rest with
    | nil => exact ⟨close :: z, rfl, .inl ⟨rfl, rfl⟩⟩
    | cons b rest =>
      refine ⟨_, ?_, .inr ⟨List.cons_ne_nil _ _, rfl⟩⟩
      rw [List.map_cons, List.map_cons, String.intercalate_cons_cons, String.toList_append,
        String.toList_append, List.append_assoc, List.append_assoc]
      rfl
  have hends : ∀ {rest : List α} {z z' : List Char}, ((rest = [] ∧ z' = close :: z) ∨ (rest ≠ [] ∧
      z' = ',' :: ((String.intercalate "," (rest.map text)).toList ++ close :: z))) →
      EndsValue z' := by
    rintro rest z z' (⟨-, rfl⟩ | ⟨-, rfl⟩)
    · exact hclose
    · exact .inl rfl
  induction as generalizing bs with
  | nil =>
    cases bs with
    | nil => exact ⟨rfl, (List.cons.inj h).2⟩
    | cons b bs =>
      obtain ⟨c, rest, htext, hne⟩ := hbs b List.mem_cons_self
      obtain ⟨z, hz, -⟩ := hcons b bs y
      rw [hz, htext] at h
      exact absurd (List.cons.inj h).1.symm hne
  | cons a as ih =>
    cases bs with
    | nil =>
      obtain ⟨c, rest, htext, hne⟩ := has a List.mem_cons_self
      obtain ⟨z, hz, -⟩ := hcons a as x
      rw [hz, htext] at h
      exact absurd (List.cons.inj h).1 hne
    | cons b bs =>
      obtain ⟨z, hz, hcases⟩ := hcons a as x
      obtain ⟨z', hz', hcases'⟩ := hcons b bs y
      rw [hz, hz'] at h
      obtain ⟨hab, hzz⟩ := hpart a List.mem_cons_self b List.mem_cons_self z z' (hends hcases)
        (hends hcases') h
      -- Both go on, or both are at their end.
      rcases hcases with ⟨has', rfl⟩ | ⟨has', rfl⟩ <;> rcases hcases' with ⟨hbs', rfl⟩ | ⟨hbs', rfl⟩
      · exact ⟨by rw [hab, has', hbs'], (List.cons.inj hzz).2⟩
      · exact absurd (List.cons.inj hzz).1 hcomma
      · exact absurd (List.cons.inj hzz).1.symm hcomma
      · obtain ⟨hrest, hxy⟩ := ih
          (fun a ha b hb => hpart a (List.mem_cons_of_mem _ ha) b (List.mem_cons_of_mem _ hb))
          (fun a ha => has a (List.mem_cons_of_mem _ ha))
          (fun b hb => hbs b (List.mem_cons_of_mem _ hb)) (List.cons.inj hzz).2
        exact ⟨by rw [hab, hrest], hxy⟩

/-! ## Values -/

namespace Value

mutual

/-- The value without the tags that its audit text does not show. -/
def untagged : Value → Value
  | bytes bs => list (bs.map fun b => int b.toNat)
  | date days => int days
  | dateTime millis => int millis
  | ref uuid => str uuid
  | list items => list (untaggedItems items)
  | v => v

/-- The items without their tags. -/
def untaggedItems : List Value → List Value
  | [] => []
  | v :: vs => untagged v :: untaggedItems vs

end

mutual

/-- Whether no float occurs in a value, at any depth. -/
def floatFree : Value → Bool
  | float _ => false
  | list items => floatFreeItems items
  | _ => true

/-- Whether no float occurs in the items. -/
def floatFreeItems : List Value → Bool
  | [] => true
  | v :: vs => floatFree v && floatFreeItems vs

end

mutual

/-- Whether a value is one that JSON has: null, a truth value, a whole number,
    a string, or a list of such values. -/
def isPlain : Value → Bool
  | null | bool _ | int _ | str _ => true
  | list items => isPlainItems items
  | _ => false

/-- Whether all items are such values. -/
def isPlainItems : List Value → Bool
  | [] => true
  | v :: vs => isPlain v && isPlainItems vs

end

theorem isPlain_of_mem {v : Value} {vs : List Value} (h : isPlainItems vs = true) (hv : v ∈ vs) :
    v.isPlain = true := by
  induction vs with
  | nil => cases hv
  | cons w ws ih =>
    obtain ⟨hw, hws⟩ := Bool.and_eq_true_iff.mp h
    cases List.mem_cons.mp hv with
    | inl heq => rw [heq]; exact hw
    | inr hmem => exact ih hws hmem

theorem isPlainItems_ints (ns : List UInt8) :
    isPlainItems (ns.map fun b => int b.toNat) = true := by
  induction ns with
  | nil => rfl
  | cons n ns ih => exact ih

mutual

/-- Without its tags, a value free of floats is plain. -/
theorem isPlain_untagged : ∀ v : Value, v.floatFree = true → v.untagged.isPlain = true
  | null, _ | bool _, _ | int _, _ | str _, _ | date _, _ | dateTime _, _ | ref _, _ => rfl
  | bytes bs, _ => isPlainItems_ints bs
  | list items, h => isPlainItems_untagged items h

theorem isPlainItems_untagged :
    ∀ vs : List Value, floatFreeItems vs = true → isPlainItems (untaggedItems vs) = true
  | [], _ => rfl
  | v :: vs, h => by
    obtain ⟨hv, hvs⟩ := Bool.and_eq_true_iff.mp h
    exact Bool.and_eq_true_iff.mpr ⟨isPlain_untagged v hv, isPlainItems_untagged vs hvs⟩

end

/-- The items of a list are separated by commas. -/
theorem auditItems_eq (vs : List Value) :
    auditItems vs = String.intercalate "," (vs.map audit) := by
  induction vs with
  | nil => rfl
  | cons v vs ih =>
    cases vs with
    | nil => rfl
    | cons w ws =>
      rw [List.map_cons, List.map_cons, String.intercalate_cons_cons, ← List.map_cons, ← ih]
      rfl

/-- Bytes are written as a list of numbers. -/
theorem auditBytes_eq (bs : List UInt8) :
    auditBytes bs = auditItems (bs.map fun b => int b.toNat) := by
  induction bs with
  | nil => rfl
  | cons b bs ih =>
    cases bs with
    | nil => rfl
    | cons b' bs =>
      show toString b.toNat ++ "," ++ auditBytes (b' :: bs) = _
      rw [ih]
      rfl

mutual

/-- The tags do not show in the audit text. -/
theorem audit_untagged : ∀ v : Value, v.untagged.audit = v.audit
  | null | bool _ | int _ | float _ | str _ | date _ | dateTime _ | ref _ => rfl
  | bytes bs => by
    show "[" ++ auditItems (bs.map fun b => int b.toNat) ++ "]" = "[" ++ auditBytes bs ++ "]"
    rw [auditBytes_eq]
  | list items => by
    show "[" ++ auditItems (untaggedItems items) ++ "]" = "[" ++ auditItems items ++ "]"
    rw [auditItems_untagged items]

theorem auditItems_untagged : ∀ vs : List Value, auditItems (untaggedItems vs) = auditItems vs
  | [] => rfl
  | [v] => audit_untagged v
  | v :: w :: vs => by
    show audit (untagged v) ++ "," ++ auditItems (untaggedItems (w :: vs))
      = audit v ++ "," ++ auditItems (w :: vs)
    rw [audit_untagged v, auditItems_untagged (w :: vs)]

end

/-- What a plain value looks like. -/
inductive Shape where
  /-- The null value. -/
  | null
  /-- A truth value. -/
  | bool
  /-- A whole number. -/
  | number
  /-- A string. -/
  | string
  /-- A list. -/
  | list
  deriving DecidableEq

/-- The shape of a plain value. -/
def shape? : Value → Option Shape
  | null => some .null
  | bool _ => some .bool
  | int _ => some .number
  | str _ => some .string
  | list _ => some .list
  | _ => none

/-- The shape of the value whose text starts with a character. -/
def shapeOf (c : Char) : Option Shape :=
  if c = 'n' then some .null
  else if c = 't' ∨ c = 'f' then some .bool
  else if isNumeral c then some .number
  else if c = '\x22' then some .string
  else if c = '[' then some .list
  else none

/-- The first character of its text tells the shape of a value. -/
theorem exists_shapeOf {v : Value} (hv : v.isPlain = true) :
    ∃ c rest, v.audit.toList = c :: rest ∧ shapeOf c = v.shape? ∧ v.shape? ≠ none := by
  cases v with
  | null => exact ⟨'n', _, rfl, rfl, Option.some_ne_none _⟩
  | bool b => cases b <;> exact ⟨_, _, rfl, rfl, Option.some_ne_none _⟩
  | int n =>
    obtain ⟨c, rest, htext⟩ := List.exists_cons_of_ne_nil (toList_toString_ne_nil n)
    have hc : isNumeral c = true := isNumeral_of_mem_toString (htext ▸ List.mem_cons_self)
    refine ⟨c, rest, htext, ?_, Option.some_ne_none _⟩
    unfold shapeOf
    rw [if_neg, if_neg, if_pos hc]
    · rfl
    · rintro (rfl | rfl) <;> cases hc
    · rintro rfl; cases hc
  | str s => exact ⟨'\x22', _, JsonString.toList_quote s, rfl, Option.some_ne_none _⟩
  | list items =>
    refine ⟨'[', (auditItems items ++ "]").toList, ?_, rfl, Option.some_ne_none _⟩
    show ("[" ++ auditItems items ++ "]").toList = _
    rw [String.append_assoc, String.toList_append]
    rfl
  | float | bytes | date | dateTime | ref => cases hv

/-- No text of a value starts with a closing bracket. -/
theorem exists_ne_close {v : Value} (hv : v.isPlain = true) {close : Char}
    (hclose : shapeOf close = none) : ∃ c rest, v.audit.toList = c :: rest ∧ c ≠ close := by
  obtain ⟨c, rest, htext, hshape, hsome⟩ := exists_shapeOf hv
  refine ⟨c, rest, htext, ?_⟩
  rintro rfl
  exact hsome (hshape.symm.trans hclose)

/-- Values that can be read off one text are of one shape. -/
theorem shape?_eq_of_append {v w : Value} (hv : v.isPlain = true) (hw : w.isPlain = true)
    {x y : List Char} (h : v.audit.toList ++ x = w.audit.toList ++ y) : v.shape? = w.shape? := by
  obtain ⟨c, rest, hc, hshape, -⟩ := exists_shapeOf hv
  obtain ⟨d, rest', hd, hshape', -⟩ := exists_shapeOf hw
  rw [hc, hd] at h
  rw [← hshape, ← hshape', (List.cons.inj h).1]

/-- A list stands between brackets. -/
theorem toList_audit_list (items : List Value) (x : List Char) :
    (list items).audit.toList ++ x =
      '[' :: ((String.intercalate "," (items.map audit)).toList ++ ']' :: x) := by
  show ("[" ++ auditItems items ++ "]").toList ++ x = _
  rw [auditItems_eq, String.toList_append, String.toList_append, List.append_assoc]
  rfl

/-- The value is read off the front of a text in one way: no other plain value
    can be read there. -/
def ReadAlone (v : Value) : Prop :=
  ∀ (w : Value) (x y : List Char), w.isPlain = true → EndsValue x → EndsValue y →
    v.audit.toList ++ x = w.audit.toList ++ y → v = w ∧ x = y

theorem readAlone_null : ReadAlone null := by
  intro w x y hw _ _ h
  have hshape := shape?_eq_of_append rfl hw h
  cases w with
  | null => exact ⟨rfl, List.append_cancel_left h⟩
  | _ => cases hshape

/-- The two truth values differ in their first letter. -/
theorem readAlone_bool (b : Bool) : ReadAlone (bool b) := by
  intro w x y hw _ _ h
  have hshape := shape?_eq_of_append rfl hw h
  cases w with
  | bool b' =>
    cases b <;> cases b'
    · exact ⟨rfl, List.append_cancel_left h⟩
    · cases (List.cons.inj h).1
    · cases (List.cons.inj h).1
    · exact ⟨rfl, List.append_cancel_left h⟩
  | _ => cases hshape

/-- A number ends where its digits end. -/
theorem readAlone_int (n : Int) : ReadAlone (int n) := by
  intro w x y hw hx hy h
  have hshape := shape?_eq_of_append rfl hw h
  cases w with
  | int m =>
    obtain ⟨hnm, hxy⟩ := toString_append_inj hx hy h
    exact ⟨by rw [hnm], hxy⟩
  | _ => cases hshape

/-- A string ends at the first quote that is not escaped. -/
theorem readAlone_str (s : String) : ReadAlone (str s) := by
  intro w x y hw _ _ h
  have hshape := shape?_eq_of_append rfl hw h
  cases w with
  | str t =>
    obtain ⟨hst, hxy⟩ := JsonString.quote_append_inj h
    exact ⟨by rw [hst], hxy⟩
  | _ => cases hshape

/-- A list is read item by item up to the bracket. -/
theorem readAlone_list {items : List Value} (hplain : isPlainItems items = true)
    (hitems : ∀ v ∈ items, ReadAlone v) : ReadAlone (list items) := by
  intro w x y hw _ _ h
  have hshape := shape?_eq_of_append (v := list items) hplain hw h
  cases w with
  | list others =>
    rw [toList_audit_list, toList_audit_list] at h
    have hclose : shapeOf ']' = none := rfl
    obtain ⟨hsame, hxy⟩ := intercalate_append_inj (.inr (.inl rfl)) (by decide)
      (fun v hv w hmem x y => hitems v hv w x y (isPlain_of_mem hw hmem))
      (fun v hv => exists_ne_close (isPlain_of_mem hplain hv) hclose)
      (fun w hmem => exists_ne_close (isPlain_of_mem hw hmem) hclose) (List.cons.inj h).2
    exact ⟨by rw [hsame], hxy⟩
  | _ => cases hshape

mutual

/-- A plain value is read off the front of a text in one way. -/
theorem readAlone : ∀ v : Value, v.isPlain = true → ReadAlone v
  | null, _ => readAlone_null
  | bool b, _ => readAlone_bool b
  | int n, _ => readAlone_int n
  | str s, _ => readAlone_str s
  | list items, h => readAlone_list h (readAlone_items items h)

theorem readAlone_items : ∀ vs : List Value, isPlainItems vs = true → ∀ v ∈ vs, ReadAlone v
  | [], _ => fun _ hv => nomatch hv
  | v :: vs, h => by
    obtain ⟨hv, hvs⟩ := Bool.and_eq_true_iff.mp h
    intro w hw
    cases List.mem_cons.mp hw with
    | inl heq => rw [heq]; exact readAlone v hv
    | inr hmem => exact readAlone_items vs hvs w hmem

end

end Value

end ChangeLedger
