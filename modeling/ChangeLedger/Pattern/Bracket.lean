/-
  ChangeLedger.Pattern.Bracket — sets of characters in brackets.

  A set lists characters, ranges, named classes and other sets, and operators
  combine such lists.  What is read of a set is how deep its parts are nested.
-/
import ChangeLedger.Pattern.Primitive

namespace ChangeLedger.Pattern

/-- How deep a sequence of parts is nested; a part on its own is no sequence. -/
def depthOf : List Nat → Nat
  | [] => 0
  | [depth] => depth
  | depths => depths.foldl max 0 + 1

/-- The names of the named classes. -/
def classNames : List String :=
  ["alnum", "alpha", "ascii", "blank", "cntrl", "digit", "graph", "lower", "print", "punct",
    "space", "upper", "word", "xdigit"]

/-- Reads a named class after its opening bracket: a name between colons, with
    a circumflex for the complement, and the closing bracket. -/
def readNamed : List Char → Option (Bool × List Char)
  | ':' :: rest =>
    let negated : Bool := rest.head? = some '^'
    let rest := if negated then rest.drop 1 else rest
    match rest.span (· ≠ ':') with
    | (name, ':' :: ']' :: rest) =>
      if classNames.contains (String.ofList name) then some (negated, rest) else none
    | _ => none
  | _ => none

/-- Reads a character or an escape in brackets. -/
def readMember (f : Flags) : List Char → Option (Primitive × List Char)
  | [] => none
  | '\\' :: rest => readEscaped f rest
  | c :: rest => some (.literal c false, rest)

/-- The next character that counts.  It is only compared with a hyphen and a
    closing bracket, for which a number sign on the way makes no comment. -/
def Flags.peek (f : Flags) (cs : List Char) : Option Char :=
  if f.spaced then
    match cs.dropWhile Blank.isBlank with
    | '#' :: rest => (rest.dropWhile Blank.isBlank).head?
    | rest => rest.head?
  else cs.head?

/-- Reads a member of a set: a primitive, or a range between two characters. -/
def readRange (f : Flags) (cs : List Char) : Option (List Char) := do
  let (low, rest) ← readMember f cs
  let alone := if f.allowsMember low then some rest else none
  match f.skip rest with
  | '-' :: after =>
    -- a hyphen before a bracket is a member, and two of them are an operator
    if f.peek after = some ']' || f.peek after = some '-' then alone
    else
      let (high, rest) ← readMember f (f.skip after)
      match low, high with
      | .literal a _, .literal b _ =>
        if f.allowsMember low && f.allowsMember high && a ≤ b then some rest else none
      | _, _ => none
  | _ => alone

/-- Reads the hyphens with which a set may begin. -/
def readHyphens (f : Flags) : (fuel : Nat) → List Nat → List Char → List Nat × List Char
  | 0, members, cs => (members, cs)
  | fuel + 1, members, cs =>
    match f.skip cs with
    | '-' :: rest => readHyphens f fuel (0 :: members) rest
    | cs => (members, cs)

/-- Reads how a set begins, after its bracket: perhaps a circumflex, hyphens,
    and a closing bracket that stands for itself if it comes first. -/
def readOpening (f : Flags) (cs : List Char) : Option (List Nat × List Char) :=
  let cs := f.skip cs
  let negated : Bool := cs.head? = some '^'
  let (hyphens, rest) := readHyphens f cs.length [] (if negated then cs.drop 1 else cs)
  let (members, rest) := match hyphens, rest with
    | [], ']' :: rest => ([0], rest)
    | _, _ => (hyphens, rest)
  if (negated && !f.allowsComplement) || (!members.isEmpty && !f.allowsMember (.literal '-' false))
  then none
  else some (members, rest)

/-- How deep a set is nested whose last operator follows `left?`. -/
def setDepth (left? : Option Nat) (members : List Nat) : Nat :=
  match left? with
  | none => depthOf members
  | some left => max left (depthOf members) + 1

/-- Reads the members of a set up to its closing bracket.  The fuel bounds the
    number of members. -/
def readMembers (f : Flags) : (fuel : Nat) → (left? : Option Nat) → (members : List Nat) →
    List Char → Option (Nat × List Char)
  | 0, _, _, _ => none
  | fuel + 1, left?, members, cs =>
    match f.skip cs with
    | ']' :: rest => some (setDepth left? members, rest)
    | '&' :: '&' :: rest => readMembers f fuel (some (setDepth left? members)) [] rest
    | '-' :: '-' :: rest => readMembers f fuel (some (setDepth left? members)) [] rest
    | '~' :: '~' :: rest => readMembers f fuel (some (setDepth left? members)) [] rest
    | '[' :: rest =>
      match readNamed rest with
      | some (negated, rest) =>
        if f.allowsNamed negated then readMembers f fuel left? (0 :: members) rest else none
      | none => do
        let (inner, rest) ← readOpening f rest
        let (depth, rest) ← readMembers f fuel none inner rest
        readMembers f fuel left? ((depth + 1) :: members) rest
    | cs => do readMembers f fuel left? (0 :: members) (← readRange f cs)

/-- Reads a set after its opening bracket; the answer is how deep it is nested. -/
def readSet (f : Flags) (cs : List Char) : Option (Nat × List Char) := do
  let (members, rest) ← readOpening f cs
  let (depth, rest) ← readMembers f (cs.length + 1) none members rest
  return (depth + 1, rest)

end ChangeLedger.Pattern
