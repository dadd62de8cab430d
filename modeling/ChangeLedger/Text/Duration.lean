/-
  ChangeLedger.Text.Duration — spans of time for people.

  A span of whole milliseconds is written in milliseconds below one second,
  and above in seconds with as many decimals as it needs.
-/

namespace ChangeLedger.Duration

/-- The decimals of a number of thousandths, without trailing zeros and with
    the point that leads them. -/
def decimals (thousandths : Nat) : String :=
  if thousandths = 0 then ""
  else
    let digits := (toString (1000 + thousandths)).toList.drop 1
    "." ++ String.ofList (digits.reverse.dropWhile (· = '0')).reverse

/-- The text of a span of milliseconds. -/
def display (millis : Nat) : String :=
  if millis = 0 then "0ns"
  else if millis < 1000 then toString millis ++ "ms"
  else toString (millis / 1000) ++ decimals (millis % 1000) ++ "s"

end ChangeLedger.Duration
