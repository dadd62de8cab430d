/-
  ChangeLedger.Graph.Value — property values and their texts.

  A value has a display text for people and an audit text for change logs.
  The audit text is JSON without tags: a date is a number, a reference a
  string, and bytes are an array of numbers.
-/
import ChangeLedger.Number.Layout
import ChangeLedger.Text.JsonString

namespace ChangeLedger

/-- A value of a property. -/
inductive Value where
  /-- The null value. -/
  | null
  /-- A truth value. -/
  | bool (b : Bool)
  /-- A whole number. -/
  | int (n : Int)
  /-- A binary64 number. -/
  | float (x : Binary64)
  /-- A string. -/
  | str (s : String)
  /-- A run of bytes. -/
  | bytes (bs : List UInt8)
  /-- A date, as days since the epoch. -/
  | date (days : Int)
  /-- A point in time, as milliseconds since the epoch. -/
  | dateTime (millis : Int)
  /-- A reference to another object by uuid. -/
  | ref (uuid : String)
  /-- A list of values. -/
  | list (items : List Value)

namespace Value

instance : Inhabited Value := ⟨null⟩

/-! ## Equality -/

mutual

/-- Equality of values: the tags agree and so do the contents, floats
    numerically. -/
def same : Value → Value → Bool
  | null, null => true
  | bool a, bool b => a == b
  | int a, int b => a == b
  | float a, float b => a.same b
  | str a, str b => a == b
  | bytes a, bytes b => a == b
  | date a, date b => a == b
  | dateTime a, dateTime b => a == b
  | ref a, ref b => a == b
  | list as, list bs => sameItems as bs
  | _, _ => false

/-- Equality of lists of values, item by item. -/
def sameItems : List Value → List Value → Bool
  | [], [] => true
  | a :: as, b :: bs => same a b && sameItems as bs
  | _, _ => false

end

/-! ## Texts -/

/-- The text of a value for people. -/
def display : Value → String
  | null => "null"
  | bool b => if b then "true" else "false"
  | int n => toString n
  | float x => FloatLayout.display.write x
  | str s => s
  | bytes bs => "bytes(len=" ++ toString bs.length ++ ")"
  | date days => "date(" ++ toString days ++ ")"
  | dateTime millis => "datetime(" ++ toString millis ++ ")"
  | ref uuid => "ref(" ++ uuid ++ ")"
  | list items => "list(len=" ++ toString items.length ++ ")"

/-- The audit text of a run of bytes, without the brackets. -/
def auditBytes : List UInt8 → String
  | [] => ""
  | [b] => toString b.toNat
  | b :: bs => toString b.toNat ++ "," ++ auditBytes bs

mutual

/-- The text of a value in an audit line. -/
def audit : Value → String
  | null => "null"
  | bool b => if b then "true" else "false"
  | int n => toString n
  | float x => FloatLayout.audit.write x
  | str s => JsonString.quote s
  | bytes bs => "[" ++ auditBytes bs ++ "]"
  | date days => toString days
  | dateTime millis => toString millis
  | ref uuid => JsonString.quote uuid
  | list items => "[" ++ auditItems items ++ "]"

/-- The audit text of the items of a list, without the brackets. -/
def auditItems : List Value → String
  | [] => ""
  | [v] => audit v
  | v :: vs => audit v ++ "," ++ auditItems vs

end

end Value

end ChangeLedger
