/-
  ChangeLedger.Toml.Scalar — numbers, truth values, dates and times.

  A scalar without quotes is a run of letters, digits, signs, dots and colons.
  A run stands for a datum only as a whole.
-/
import ChangeLedger.Toml.Datum

namespace ChangeLedger.Toml

/-! ## Digits -/

/-- Whether a character is a decimal digit. -/
def isDecimal (c : Char) : Bool := '0' ≤ c && c ≤ '9'

/-- The value of a digit in bases up to sixteen. -/
def digitValue (c : Char) : Nat :=
  if isDecimal c then c.toNat - 48
  else if 'a' ≤ c && c ≤ 'f' then c.toNat - 87
  else if 'A' ≤ c && c ≤ 'F' then c.toNat - 55
  else 16

/-- Whether a character is a digit in a base. -/
def isDigitIn (base : Nat) (c : Char) : Bool := digitValue c < base

/-- Whether a run holds digits only, with single underscores between them. -/
def areDigits (base : Nat) : List Char → Bool
  | [] => false
  | [c] => isDigitIn base c
  | c :: '_' :: rest => isDigitIn base c && areDigits base rest
  | c :: rest => isDigitIn base c && areDigits base rest

/-- The number that a run of digits stands for. -/
def digitsValue (base : Nat) (cs : List Char) : Nat :=
  (cs.filter (· ≠ '_')).foldl (fun n c => n * base + digitValue c) 0

/-- Whether a run is a decimal number without a sign or leading zeros. -/
def isWhole (cs : List Char) : Bool := areDigits 10 cs && (cs.length = 1 || cs.head? ≠ some '0')

/-- Splits off a sign; the flag is whether it is a minus. -/
def splitSign : List Char → Bool × List Char
  | '+' :: rest => (false, rest)
  | '-' :: rest => (true, rest)
  | cs => (false, cs)

/-! ## Numbers -/

/-- The integer with this sign and magnitude, if 64 bits hold it. -/
def int64? (negative : Bool) (n : Nat) : Option Datum :=
  if negative then if n ≤ Nat.pow 2 63 then some (.int (-n)) else none
  else if n < Nat.pow 2 63 then some (.int n) else none

/-- Reads an integer. -/
def integer? (cs : List Char) : Option Datum :=
  let based (base : Nat) (rest : List Char) :=
    if areDigits base rest then int64? false (digitsValue base rest) else none
  match cs with
  | '0' :: 'x' :: rest => based 16 rest
  | '0' :: 'o' :: rest => based 8 rest
  | '0' :: 'b' :: rest => based 2 rest
  | _ =>
    let (negative, rest) := splitSign cs
    if isWhole rest then int64? negative (digitsValue 10 rest) else none

/-- Whether `digits · 10 ^ exponent` rounds to infinity in binary64. -/
def overflows (digits : Nat) (exponent : Int) : Bool :=
  if digits = 0 then false
  else
    let lead := exponent + (toString digits).length
    if 400 < lead then true
    else if lead < 0 then false
    else (Nat.pow 2 1024 - Nat.pow 2 970) * Nat.pow 10 (-exponent).toNat
        ≤ digits * Nat.pow 10 exponent.toNat

/-- Reads a float.  A positive number must not be too great for binary64. -/
def float? (cs : List Char) : Option Datum :=
  let (negative, rest) := splitSign cs
  let datum := Datum.float (String.ofList cs)
  if rest = ['i', 'n', 'f'] || rest = ['n', 'a', 'n'] then some datum
  else
    let mantissa := rest.takeWhile fun c => c ≠ 'e' && c ≠ 'E'
    let exponent := rest.drop mantissa.length
    let whole := mantissa.takeWhile (· ≠ '.')
    let fraction := mantissa.drop whole.length
    let (down, power) := splitSign (exponent.drop 1)
    let fits := isWhole whole && (fraction.isEmpty || areDigits 10 (fraction.drop 1)) &&
      (exponent.isEmpty || areDigits 10 power) && !(fraction.isEmpty && exponent.isEmpty)
    if fits then
      let places := ((fraction.drop 1).filter (· ≠ '_')).length
      let scale : Int := digitsValue 10 power
      let digits := digitsValue 10 (whole ++ fraction.drop 1)
      if !negative && overflows digits ((if down then -scale else scale) - places) then none
      else some datum
    else none

/-! ## Dates and times -/

/-- Reads a number of exactly two digits in a range. -/
def twoDigits? (low high : Nat) : List Char → Option (Nat × List Char)
  | a :: b :: rest =>
    if isDecimal a && isDecimal b then
      let n := digitValue a * 10 + digitValue b
      if low ≤ n && n ≤ high then some (n, rest) else none
    else none
  | _ => none

/-- Reads a given character. -/
def char? (c : Char) : List Char → Option (List Char)
  | d :: rest => if c = d then some rest else none
  | [] => none

/-- The number of days of a month. -/
def daysOf (year month : Nat) : Nat :=
  if month = 2 then
    if year % 4 = 0 && (year % 100 ≠ 0 || year % 400 = 0) then 29 else 28
  else if month = 4 || month = 6 || month = 9 || month = 11 then 30
  else 31

/-- Reads a date. -/
def date? (cs : List Char) : Option (List Char) := do
  let (century, rest) ← twoDigits? 0 99 cs
  let (year, rest) ← twoDigits? 0 99 rest
  let rest ← char? '-' rest
  let (month, rest) ← twoDigits? 1 12 rest
  let rest ← char? '-' rest
  let (_, rest) ← twoDigits? 1 (daysOf (century * 100 + year) month) rest
  return rest

/-- Reads a time of day, perhaps with a fraction of a second. -/
def time? (cs : List Char) : Option (List Char) := do
  let (_, rest) ← twoDigits? 0 23 cs
  let rest ← char? ':' rest
  let (_, rest) ← twoDigits? 0 59 rest
  let rest ← char? ':' rest
  let (_, rest) ← twoDigits? 0 60 rest
  match rest with
  | '.' :: c :: rest => if isDecimal c then return rest.dropWhile isDecimal else none
  | _ => return rest

/-- Whether a run is empty or the offset of a time zone. -/
def isOffset (cs : List Char) : Bool :=
  match cs with
  | [] => true
  | ['Z'] | ['z'] => true
  | c :: rest =>
    (c = '+' || c = '-') && ((do
      let (_, rest) ← twoDigits? 0 23 rest
      let rest ← char? ':' rest
      let (_, rest) ← twoDigits? 0 59 rest
      return rest) == some [])

/-- Whether a run is a date, a time or both, and may have an offset only if
    it has both. -/
def isDateTime (cs : List Char) : Bool :=
  match date? cs with
  | some [] => true
  | some (c :: rest) => (c = 'T' || c = 't' || c = ' ') && (time? rest).any isOffset
  | none => time? cs == some []

/-! ## Runs -/

/-- Whether a character can be part of a scalar without quotes. -/
def isScalarChar (c : Char) : Bool :=
  c.isAlphanum || c = '_' || c = '+' || c = '-' || c = '.' || c = ':'

/-- The datum that a run stands for. -/
def ofRun? (cs : List Char) : Option Datum :=
  if cs = "true".toList then some (.bool true)
  else if cs = "false".toList then some (.bool false)
  else if isDateTime cs then some (.dateTime (String.ofList cs))
  else (integer? cs).orElse fun () => float? cs

/-- Reads a scalar without quotes.  A date may be followed by a space and a
    time. -/
def scalar? (cs : List Char) : Option (Datum × List Char) :=
  let run := cs.takeWhile isScalarChar
  let rest := cs.drop run.length
  match date? run, rest with
  | some [], ' ' :: c :: more =>
    if isDecimal c then
      let time := (c :: more).takeWhile isScalarChar
      (ofRun? (run ++ ' ' :: time)).map (·, (c :: more).drop time.length)
    else (ofRun? run).map (·, rest)
  | _, _ => (ofRun? run).map (·, rest)

end ChangeLedger.Toml
