/-
  ChangeLedger.Pattern.Primitive — the smallest parts of a pattern.

  A pattern is a regular expression that stands between braces.  It holds no
  closing brace, so nothing that needs one can be complete: no counted
  repetition, no code point in braces and no named property.

  A pattern is about characters, or about bytes after the flag `-u`.  It is
  matched without tables of the properties of characters, and bytes must not
  match a part of a character.  So the classes that a letter names (`\d`, `\s`,
  `\w`), the ends of words and letters of either case are for bytes alone, and
  complements and the dot for characters alone.
-/
import ChangeLedger.Text.Blank
import ChangeLedger.Text.CodePoint

namespace ChangeLedger.Pattern

/-! ## Flags -/

/-- The flags that bear on what a pattern may hold. -/
structure Flags where
  /-- Whether letters stand for both of their cases. -/
  anyCase : Bool := false
  /-- Whether the pattern is about characters. -/
  unicode : Bool := true
  /-- Whether blanks and comments do not count. -/
  spaced : Bool := false

/-- The letters of all flags. -/
def flagLetters : List Char := ['i', 'm', 's', 'U', 'u', 'R', 'x']

/-- Turns the flag with a letter on or off. -/
def Flags.set (f : Flags) (letter : Char) (on : Bool) : Flags :=
  match letter with
  | 'i' => { f with anyCase := on }
  | 'u' => { f with unicode := on }
  | 'x' => { f with spaced := on }
  | _ => f

/-- Skips blanks and comments; `inComment` tells whether a comment has begun.
    A comment ends with its line. -/
def skipSpace (inComment : Bool) : List Char → List Char
  | [] => []
  | c :: rest =>
    if inComment then skipSpace (c ≠ '\n') rest
    else if Blank.isBlank c then skipSpace false rest
    else if c = '#' then skipSpace true rest
    else c :: rest

/-- Skips what does not count. -/
def Flags.skip (f : Flags) (cs : List Char) : List Char :=
  if f.spaced then skipSpace false cs else cs

/-! ## Primitives -/

/-- A part of a pattern that has no parts itself. -/
inductive Primitive where
  /-- A character, perhaps written as a byte of two hexadecimal digits. -/
  | literal (c : Char) (asByte : Bool)
  /-- The digits, the blanks or the word characters, or all but these. -/
  | shorthand (negated : Bool)
  /-- Any character. -/
  | anyOne
  /-- An end of the text or of a line. -/
  | edge
  /-- An end of a word, or a place that is none. -/
  | wordEdge

/-- Whether a primitive may stand in a pattern outside of brackets. -/
def Flags.allows (f : Flags) : Primitive → Bool
  | .literal c asByte => if f.unicode then !f.anyCase else !asByte || c.toNat < 0x80
  | .shorthand negated => !f.unicode && !negated
  | .anyOne => f.unicode
  | .edge => true
  | .wordEdge => !f.unicode

/-- Whether a primitive may stand in brackets. -/
def Flags.allowsMember (f : Flags) : Primitive → Bool
  | .literal c _ => if f.unicode then !f.anyCase else c.toNat < 0x80
  | .shorthand negated => !f.unicode && !negated
  | .anyOne | .edge | .wordEdge => false

/-- Whether the complement of a set may stand in a pattern. -/
def Flags.allowsComplement (f : Flags) : Bool := f.unicode

/-- Whether a named class, or its complement, may stand in brackets. -/
def Flags.allowsNamed (f : Flags) (negated : Bool) : Bool :=
  if f.unicode then !f.anyCase else !negated

/-! ## Reading them -/

/-- Reads a number of characters, skipping what does not count before each. -/
def Flags.take (f : Flags) : (count : Nat) → List Char → Option (List Char × List Char)
  | 0, cs => some ([], cs)
  | n + 1, cs =>
    match f.skip cs with
    | [] => none
    | c :: rest => (f.take n rest).map fun (taken, rest) => (c :: taken, rest)

/-- How many hexadecimal digits follow a letter after a backslash. -/
def hexCount? : Char → Option Nat
  | 'x' => some 2
  | 'u' => some 4
  | 'U' => some 8
  | _ => none

/-- The control that a letter after a backslash stands for. -/
def control? : Char → Option Char
  | 'a' => some '\x07'
  | 'f' => some '\x0c'
  | 't' => some '\t'
  | 'n' => some '\n'
  | 'r' => some '\r'
  | 'v' => some '\x0b'
  | _ => none

/-- The primitive that a character after a backslash stands for, unless digits
    follow it.  Punctuation and controls stand for themselves. -/
def escaped? (c : Char) : Option Primitive :=
  if ['d', 's', 'w'].contains c then some (.shorthand false)
  else if ['D', 'S', 'W'].contains c then some (.shorthand true)
  else if ['A', 'z'].contains c then some .edge
  else if ['b', 'B', '<', '>'].contains c then some .wordEdge
  else if c.toNat < 0x80 && !c.isAlphanum then some (.literal c false)
  else (control? c).map (.literal · false)

/-- Reads what follows a backslash. -/
def readEscaped (f : Flags) : List Char → Option (Primitive × List Char)
  | [] => none
  | c :: rest =>
    match hexCount? c with
    | some count => do
      let (digits, rest) ← f.take count rest
      let c ← CodePoint.ofHex? digits
      return (.literal c (count = 2), rest)
    | none => (escaped? c).map (·, rest)

end ChangeLedger.Pattern
