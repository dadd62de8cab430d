/-
  ChangeLedger.Number.Layout — how the digits of a float are written.

  The digits are those of `Binary64.shortest`; everything else that two
  formats can disagree on is a field of one record.
-/
import ChangeLedger.Number.Shortest

namespace ChangeLedger

/-- The decisions of a text format for floats. -/
structure FloatLayout where
  /-- Whether a number with this power of ten at its leading digit is written
      without an exponent. -/
  isPlain : Int → Bool
  /-- What follows the digits of a whole number in plain writing. -/
  wholeSuffix : String
  /-- How a tie between two shortest decimals is broken. -/
  tie : TieRule
  /-- The text of a NaN. -/
  nan : String
  /-- The text of infinity. -/
  infinity : String
  /-- The text of minus infinity. -/
  minusInfinity : String

namespace FloatLayout

/-- A run of zeros. -/
def zeros (n : Nat) : String := String.ofList (List.replicate n '0')

/-- Digits with a decimal point; `lead` is the power of ten of the first. -/
def plain (layout : FloatLayout) (digits : String) (lead : Int) : String :=
  let after := digits.length - 1 - lead
  if after ≤ 0 then digits ++ zeros (-after).toNat ++ layout.wholeSuffix
  else if lead < 0 then "0." ++ zeros (-lead - 1).toNat ++ digits
  else
    let cs := digits.toList
    String.ofList (cs.take (lead.toNat + 1)) ++ "." ++ String.ofList (cs.drop (lead.toNat + 1))

/-- One digit, a fraction unless there are no more digits, and a signed
    power of ten. -/
def scientific (digits : String) (lead : Int) : String :=
  let mantissa := match digits.toList with
    | c :: d :: rest => String.ofList (c :: '.' :: d :: rest)
    | cs => String.ofList cs
  mantissa ++ (if lead < 0 then "e-" else "e+") ++ toString lead.natAbs

/-- The text of a magnitude. -/
def magnitude (layout : FloatLayout) (d : Decimal) : String :=
  let digits := toString d.digits
  let lead := d.exponent + digits.length - 1
  if layout.isPlain lead then layout.plain digits lead else scientific digits lead

/-- The text of a float. -/
def write (layout : FloatLayout) (x : Binary64) : String :=
  if x.isNaN then layout.nan
  else if x.isInfinite then
    if x.isNegative then layout.minusInfinity else layout.infinity
  else
    (if x.isNegative then "-" else "") ++
      if x.isZero then layout.magnitude ⟨0, 0⟩ else layout.magnitude (x.shortest layout.tie)

/-- Floats for people: never an exponent, and whole numbers without a point. -/
def display : FloatLayout where
  isPlain _ := true
  wholeSuffix := ""
  tie := .away
  nan := "NaN"
  infinity := "inf"
  minusInfinity := "-inf"

/-- Floats in audit lines: plain from `1e-5` up to `1e16`, with at least one
    digit after the point; what is no finite number is null. -/
def audit : FloatLayout where
  isPlain lead := -5 ≤ lead && lead < 16
  wholeSuffix := ".0"
  tie := .toEven
  nan := "null"
  infinity := "null"
  minusInfinity := "null"

end FloatLayout

end ChangeLedger
