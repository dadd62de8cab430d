/-
  ChangeLedger.Pattern.Group — groups, alternatives and whole patterns.

  A pattern is read from left to right.  Of each group that is open, what is
  kept is how deep its parts are nested, for there is a limit to that, and
  which part a repetition would apply to.
-/
import ChangeLedger.Pattern.Bracket
import ChangeLedger.Text.Alphanumeric

namespace ChangeLedger.Pattern

/-! ## How groups begin -/

/-- Whether a character may stand in the name of a group. -/
def isNameChar (isFirst : Bool) (c : Char) : Bool :=
  c = '_' ||
    if isFirst then Alphanumeric.isLetter c
    else c = '.' || c = '[' || c = ']' || Alphanumeric.isAlphanumeric c

/-- Whether a text is the name of a group. -/
def isName : List Char → Bool
  | [] => false
  | c :: rest => isNameChar true c && rest.all (isNameChar false)

/-- Reads flags up to a colon or a closing parenthesis, which is part of the
    answer.  Those after a hyphen are turned off.  None may occur twice, and
    `seen` are those before, the last one first. -/
def readFlags (f : Flags) (seen : List Char) : List Char → Option (Flags × Char × List Char)
  | [] => none
  | c :: rest =>
    if c = ':' || c = ')' then
      if seen.head? = some '-' || (c = ')' && seen.isEmpty) then none else some (f, c, rest)
    else if seen.contains c || !('-' :: flagLetters).contains c then none
    else readFlags (f.set c (!seen.contains '-')) (c :: seen) rest

/-- What an opening parenthesis begins. -/
inductive Opening where
  /-- A group, which may have a name, with the flags inside of it. -/
  | group (name? : Option (List Char)) (inside : Flags)
  /-- No group, but a change of flags. -/
  | flags (after : Flags)

/-- Reads the name of a group up to its closing angle. -/
def readName (f : Flags) (cs : List Char) : Option (Opening × List Char) :=
  match cs.span (· ≠ '>') with
  | (name, '>' :: rest) => if isName name then some (.group (some name) f, rest) else none
  | _ => none

/-- Reads what follows an opening parenthesis. -/
def readParenthesis (f : Flags) (cs : List Char) : Option (Opening × List Char) :=
  match f.skip cs with
  | '?' :: 'P' :: '<' :: rest => readName f rest
  | '?' :: '<' :: rest => readName f rest
  | '?' :: rest =>
    (readFlags f [] rest).map fun (inside, last, rest) =>
      (if last = ')' then .flags inside else .group none inside, rest)
  | rest => some (.group none f, rest)

/-! ## Open groups -/

/-- A part of a sequence. -/
inductive Part where
  /-- A change of flags, which cannot be repeated. -/
  | flags
  /-- Anything else, and how deep it is nested. -/
  | nested (depth : Nat)

/-- How deep a part is nested. -/
def Part.depth : Part → Nat
  | flags => 0
  | nested depth => depth

/-- A group that is open. -/
structure OpenGroup where
  /-- How deep the alternatives before the present one are nested. -/
  alternatives : List Nat := []
  /-- The parts of the present alternative, the last one first. -/
  parts : List Part := []

namespace OpenGroup

/-- Adds a part. -/
def add (g : OpenGroup) (part : Part) : OpenGroup := { g with parts := part :: g.parts }

/-- Begins a new alternative. -/
def alternate (g : OpenGroup) : OpenGroup where
  alternatives := depthOf (g.parts.map Part.depth) :: g.alternatives

/-- Repeats the last part, if there is one that can be repeated. -/
def repeatLast (g : OpenGroup) : Option OpenGroup :=
  match g.parts with
  | .nested depth :: rest => some { g with parts := .nested (depth + 1) :: rest }
  | _ => none

/-- How deep the group is nested. -/
def depth (g : OpenGroup) : Nat := depthOf g.alternate.alternatives

end OpenGroup

/-! ## Whole patterns -/

/-- What is known of a pattern up to some place in it. -/
structure Reading where
  /-- The flags at that place. -/
  flags : Flags := {}
  /-- The names of groups so far. -/
  names : List (List Char) := []
  /-- The innermost open group. -/
  current : OpenGroup := {}
  /-- The groups around it, with their flags. -/
  outer : List (Flags × OpenGroup) := []

namespace Reading

/-- Adds a part to the innermost group. -/
def add (r : Reading) (part : Part) : Reading := { r with current := r.current.add part }

/-- Adds a primitive, if the flags allow it. -/
def addPrimitive (r : Reading) (p : Primitive) : Option Reading :=
  if r.flags.allows p then some (r.add (.nested 0)) else none

/-- Begins a group or changes the flags.  No two groups have the same name. -/
def enter (r : Reading) : Opening → Option Reading
  | .flags after => some { r.add .flags with flags := after }
  | .group name? inside =>
    if name?.any r.names.contains then none
    else some {
      flags := inside
      names := name?.toList ++ r.names
      outer := (r.flags, r.current) :: r.outer }

/-- Ends the innermost group. -/
def leave (r : Reading) : Option Reading :=
  match r.outer with
  | [] => none
  | (flags, around) :: outer =>
    some { r with flags, outer, current := around.add (.nested (r.current.depth + 1)) }

/-- Reads on from a character, with the rest of the pattern behind it. -/
def next (r : Reading) (c : Char) (rest : List Char) : Option (Reading × List Char) :=
  match c with
  | '(' => do
    let (opening, rest) ← readParenthesis r.flags rest
    return (← r.enter opening, rest)
  | ')' => r.leave.map (·, rest)
  | '|' => some ({ r with current := r.current.alternate }, rest)
  | '[' => do
    let (depth, rest) ← readSet r.flags rest
    return (r.add (.nested depth), rest)
  | '?' | '*' | '+' => do
    -- a question mark after a repetition makes it prefer few
    let rest := if rest.head? = some '?' then rest.drop 1 else rest
    return ({ r with current := ← r.current.repeatLast }, rest)
  | '\x7b' => none
  | '\\' => do
    let (p, rest) ← readEscaped r.flags rest
    return (← r.addPrimitive p, rest)
  | '.' => (r.addPrimitive .anyOne).map (·, rest)
  | '^' | '$' => (r.addPrimitive .edge).map (·, rest)
  | _ => (r.addPrimitive (.literal c false)).map (·, rest)

/-- Reads a pattern to its end.  The fuel bounds the number of its parts. -/
def run : (fuel : Nat) → Reading → List Char → Option Reading
  | 0, _, _ => none
  | fuel + 1, r, cs =>
    match r.flags.skip cs with
    | [] => some r
    | c :: rest => do
      let (r, rest) ← r.next c rest
      run fuel r rest

end Reading

/-- How deep a pattern may be nested. -/
def depthLimit : Nat := 250

/-- Whether a text is a pattern. -/
def isPattern (cs : List Char) : Bool :=
  (Reading.run (cs.length + 1) {} cs).any fun r => r.outer.isEmpty && r.current.depth ≤ depthLimit

end ChangeLedger.Pattern
