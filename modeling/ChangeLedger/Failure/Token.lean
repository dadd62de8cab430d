/-
  ChangeLedger.Failure.Token — business-rule violations and their buffer.

  Hooks, validators and deferred actions report violations as tokens in one
  shared buffer.  A phase remembers how full the buffer was before it called
  one of them, and reads off what was added since.

  Main results:
    * `ErrorBuffer.since_addAll` — the tokens added after a mark.
-/

namespace ChangeLedger

/-- One violation of a business rule. -/
structure ErrorToken where
  /-- The type or object the violation concerns. -/
  object : String
  /-- The offending property, if it is one property's fault. -/
  property : Option String
  /-- The machine-readable name of the violation. -/
  token : String
  deriving DecidableEq

/-- The text of a token. -/
def ErrorToken.display (t : ErrorToken) : String :=
  match t.property with
  | some property => t.object ++ "." ++ property ++ ": " ++ t.token
  | none => t.object ++ ": " ++ t.token

/-- The tokens of one failure, oldest first. -/
structure ErrorTokens where
  /-- The tokens. -/
  toList : List ErrorToken
  deriving DecidableEq

namespace ErrorTokens

/-- The field that a failure is attributed to: the property of its first
    token. -/
def field? (ts : ErrorTokens) : Option String := ts.toList.head?.bind ErrorToken.property

/-- The text of a failure's tokens. -/
def display (ts : ErrorTokens) : String :=
  match ts.toList with
  | [] => "rejected"
  | tokens => String.intercalate ", " (tokens.map ErrorToken.display)

end ErrorTokens

/-- The buffer that hooks, validators and actions add violations to. -/
structure ErrorBuffer where
  /-- All tokens so far, oldest first. -/
  tokens : List ErrorToken := []
  deriving DecidableEq

namespace ErrorBuffer

instance : EmptyCollection ErrorBuffer := ⟨⟨[]⟩⟩
instance : Inhabited ErrorBuffer := ⟨∅⟩

/-- Records a violation. -/
def add (b : ErrorBuffer) (t : ErrorToken) : ErrorBuffer := ⟨b.tokens ++ [t]⟩

/-- Records several violations, in order. -/
def addAll (b : ErrorBuffer) (ts : List ErrorToken) : ErrorBuffer := ⟨b.tokens ++ ts⟩

/-- Number of tokens. -/
def size (b : ErrorBuffer) : Nat := b.tokens.length

/-- Whether nothing was recorded. -/
def isEmpty (b : ErrorBuffer) : Bool := b.tokens.isEmpty

/-- The tokens recorded since the buffer had `mark` of them. -/
def since (b : ErrorBuffer) (mark : Nat) : ErrorTokens := ⟨b.tokens.drop mark⟩

/-- What was added after a mark is exactly what the reader sees. -/
theorem since_addAll (b : ErrorBuffer) (ts : List ErrorToken) :
    (b.addAll ts).since b.size = ⟨ts⟩ := by
  simp [since, addAll, size]

/-- Something was added after a mark exactly if there are more tokens now. -/
theorem since_ne_nil_iff (b : ErrorBuffer) (mark : Nat) :
    (b.since mark).toList ≠ [] ↔ mark < b.size := by
  rw [Ne, show (b.since mark).toList = b.tokens.drop mark from rfl, List.drop_eq_nil_iff]
  exact Nat.not_le

end ErrorBuffer

end ChangeLedger
