/-
  ChangeLedger.Number.Numeral — texts that stand for a number.

  A numeral is a decimal with or without a point and an exponent, or the name
  of infinity or of a value that is not a number; a sign may come first.
-/

namespace ChangeLedger.Numeral

/-- The names that stand for a number; the case of their letters is free. -/
def names : List String := ["inf", "infinity", "nan"]

/-- A run without the sign before it, if there is one. -/
def withoutSign : List Char → List Char
  | '+' :: rest => rest
  | '-' :: rest => rest
  | cs => cs

/-- Whether a run holds nothing but decimal digits, and one at least. -/
def areDigits (cs : List Char) : Bool := !cs.isEmpty && cs.all Char.isDigit

/-- Whether a run is made of decimal digits, one at least, and perhaps a point
    before, between or after them. -/
def isDecimal (cs : List Char) : Bool :=
  match cs.dropWhile Char.isDigit with
  | '.' :: fraction => areDigits (cs.takeWhile Char.isDigit ++ fraction)
  | _ => areDigits cs

/-- Whether a run is empty or an exponent: a letter, perhaps a sign, digits. -/
def isExponent : List Char → Bool
  | [] => true
  | c :: rest => (c = 'e' || c = 'E') && areDigits (withoutSign rest)

/-- Whether a run stands for a number. -/
def isNumeral (cs : List Char) : Bool :=
  let rest := withoutSign cs
  let mantissa := rest.takeWhile fun c => c ≠ 'e' && c ≠ 'E'
  names.contains (String.ofList (rest.map Char.toLower)) ||
    (isDecimal mantissa && isExponent (rest.drop mantissa.length))

end ChangeLedger.Numeral
