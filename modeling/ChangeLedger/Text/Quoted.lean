/-
  ChangeLedger.Text.Quoted — strings as messages quote them.

  A quoted string shows what it holds: quotes, backslashes and the usual
  controls get a backslash, and whatever else has no glyph of its own is
  written as its code point in hexadecimal.
-/
import ChangeLedger.Text.Invisible

namespace ChangeLedger.Quoted

/-- The text of one character inside a quoted string. -/
def escapeChar (c : Char) : List Char :=
  if c = '\x22' then ['\\', '\x22']
  else if c = '\\' then ['\\', '\\']
  else if c = '\t' then ['\\', 't']
  else if c = '\n' then ['\\', 'n']
  else if c = '\r' then ['\\', 'r']
  else if c.toNat = 0 then ['\\', '0']
  else if Invisible.isInvisible c then
    ['\\', 'u', '\x7b'] ++ Nat.toDigits 16 c.toNat ++ ['\x7d']
  else [c]

/-- A string with its quotes. -/
def quote (s : String) : String :=
  String.ofList ('\x22' :: s.toList.flatMap escapeChar ++ ['\x22'])

end ChangeLedger.Quoted
