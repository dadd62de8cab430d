/-
  ChangeLedger.Text.JsonString — strings as they stand in a JSON text.

  Only the quote, the backslash and the controls below U+0020 are escaped;
  every other character stands for itself.
-/

namespace ChangeLedger.JsonString

/-- The text of one character inside a JSON string. -/
def escapeChar (c : Char) : List Char :=
  if c = '\x22' then ['\\', '\x22']
  else if c = '\\' then ['\\', '\\']
  else if c = '\x08' then ['\\', 'b']
  else if c = '\t' then ['\\', 't']
  else if c = '\n' then ['\\', 'n']
  else if c = '\x0c' then ['\\', 'f']
  else if c = '\r' then ['\\', 'r']
  else if c.toNat < 32 then
    ['\\', 'u', '0', '0', Nat.digitChar (c.toNat / 16), Nat.digitChar (c.toNat % 16)]
  else [c]

/-- The text of a run of characters inside a JSON string. -/
def escape (cs : List Char) : List Char := cs.flatMap escapeChar

/-- A string with its quotes. -/
def quote (s : String) : String := String.ofList ('\x22' :: escape s.toList ++ ['\x22'])

end ChangeLedger.JsonString
