/-
  ChangeLedger.Toml.Quoting — white space, comments, strings and keys.
-/
import ChangeLedger.Text.CodePoint

namespace ChangeLedger.Toml

/-! ## White space and comments -/

/-- Whether a character is a space or a tab. -/
def isSpacing (c : Char) : Bool := c = ' ' || c = '\t'

/-- Whether a character may stand in a comment. -/
def isCommentChar (c : Char) : Bool := c = '\t' || (32 ≤ c.toNat && c.toNat ≠ 127)

/-- Skips spaces and tabs. -/
def skipSpacing (cs : List Char) : List Char := cs.dropWhile isSpacing

/-- What follows a line feed, perhaps after a carriage return. -/
def afterNewline? : List Char → Option (List Char)
  | '\n' :: rest => some rest
  | '\r' :: '\n' :: rest => some rest
  | _ => none

/-- What follows the end of a line: spacing, perhaps a comment, and then a new
    line or the end of the text. -/
def afterLine? (cs : List Char) : Option (List Char) :=
  let cs := skipSpacing cs
  let cs := match cs with
    | '#' :: rest => rest.dropWhile isCommentChar
    | _ => cs
  if cs.isEmpty then some [] else afterNewline? cs

/-- Skips spacing, new lines and comments; `inComment` tells whether a comment
    has begun.  A comment has to end with its line. -/
def skipTrivia (inComment : Bool) : List Char → Option (List Char)
  | [] => if inComment then none else some []
  | '\n' :: rest => skipTrivia false rest
  | '\r' :: '\n' :: rest => skipTrivia false rest
  | c :: rest =>
    if inComment then if isCommentChar c then skipTrivia true rest else none
    else if isSpacing c then skipTrivia false rest
    else if c = '#' then skipTrivia true rest
    else some (c :: rest)

/-! ## Strings -/

/-- Whether a character may stand in a string on one line. -/
def isStringChar (c : Char) : Bool := isCommentChar c

/-- The character that a letter after a backslash stands for. -/
def escaped? (c : Char) : Option Char :=
  if c = 'b' then some '\x08'
  else if c = 't' then some '\t'
  else if c = 'n' then some '\n'
  else if c = 'f' then some '\x0c'
  else if c = 'r' then some '\r'
  else if c = '\x22' then some '\x22'
  else if c = '\\' then some '\\'
  else none

/-- Puts a character in front of what was read. -/
def prepend (c : Char) (r : List Char × List Char) : List Char × List Char := (c :: r.1, r.2)

/-- Reads a string on one line, after its opening quote. -/
def basicString? : List Char → Option (List Char × List Char)
  | [] => none
  | '\x22' :: rest => some ([], rest)
  | '\\' :: 'u' :: a :: b :: c :: d :: rest =>
    (CodePoint.ofHex? [a, b, c, d]).bind fun ch => (basicString? rest).map (prepend ch)
  | '\\' :: 'U' :: a :: b :: c :: d :: e :: f :: g :: h :: rest =>
    (CodePoint.ofHex? [a, b, c, d, e, f, g, h]).bind fun ch => (basicString? rest).map (prepend ch)
  | '\\' :: c :: rest => (escaped? c).bind fun ch => (basicString? rest).map (prepend ch)
  | c :: rest =>
    if isStringChar c && c ≠ '\\' then (basicString? rest).map (prepend c) else none

/-- Reads a string without escapes on one line, after its opening quote. -/
def literalString? : List Char → Option (List Char × List Char)
  | [] => none
  | '\x27' :: rest => some ([], rest)
  | c :: rest => if isStringChar c then (literalString? rest).map (prepend c) else none

/-- Whether a backslash at the end of a line goes before this text. -/
def endsLine (cs : List Char) : Bool := (afterNewline? (skipSpacing cs)).isSome

/-- Reads a string over several lines, after its opening quotes.  While
    `trimming`, spacing and new lines are skipped, as they are after a
    backslash at the end of a line.  Up to two quotes may go before the
    closing ones. -/
def basicText? (trimming : Bool) : List Char → Option (List Char × List Char)
  | [] => none
  | '\x22' :: '\x22' :: '\x22' :: '\x22' :: '\x22' :: rest => some (['\x22', '\x22'], rest)
  | '\x22' :: '\x22' :: '\x22' :: '\x22' :: rest => some (['\x22'], rest)
  | '\x22' :: '\x22' :: '\x22' :: rest => some ([], rest)
  | '\n' :: rest =>
    if trimming then basicText? true rest else (basicText? false rest).map (prepend '\n')
  | '\r' :: '\n' :: rest =>
    if trimming then basicText? true rest else (basicText? false rest).map (prepend '\n')
  | '\\' :: 'u' :: a :: b :: c :: d :: rest =>
    (CodePoint.ofHex? [a, b, c, d]).bind fun ch => (basicText? false rest).map (prepend ch)
  | '\\' :: 'U' :: a :: b :: c :: d :: e :: f :: g :: h :: rest =>
    (CodePoint.ofHex? [a, b, c, d, e, f, g, h]).bind fun ch =>
      (basicText? false rest).map (prepend ch)
  | '\\' :: c :: rest =>
    if endsLine (c :: rest) then basicText? true (c :: rest)
    else (escaped? c).bind fun ch => (basicText? false rest).map (prepend ch)
  | c :: rest =>
    if trimming && isSpacing c then basicText? true rest
    else if isStringChar c && c ≠ '\\' then (basicText? false rest).map (prepend c)
    else none

/-- Reads a string without escapes over several lines, after its opening
    quotes. -/
def literalText? : List Char → Option (List Char × List Char)
  | [] => none
  | '\x27' :: '\x27' :: '\x27' :: '\x27' :: '\x27' :: rest => some (['\x27', '\x27'], rest)
  | '\x27' :: '\x27' :: '\x27' :: '\x27' :: rest => some (['\x27'], rest)
  | '\x27' :: '\x27' :: '\x27' :: rest => some ([], rest)
  | '\n' :: rest => (literalText? rest).map (prepend '\n')
  | '\r' :: '\n' :: rest => (literalText? rest).map (prepend '\n')
  | c :: rest => if isStringChar c then (literalText? rest).map (prepend c) else none

/-- Skips the new line that may follow the opening quotes of a string over
    several lines. -/
def skipFirstNewline (cs : List Char) : List Char := (afterNewline? cs).getD cs

/-- Reads a string of any of the four kinds. -/
def string? : List Char → Option (String × List Char)
  | '\x22' :: '\x22' :: '\x22' :: rest =>
    (basicText? false (skipFirstNewline rest)).map fun r => (String.ofList r.1, r.2)
  | '\x22' :: rest => (basicString? rest).map fun r => (String.ofList r.1, r.2)
  | '\x27' :: '\x27' :: '\x27' :: rest =>
    (literalText? (skipFirstNewline rest)).map fun r => (String.ofList r.1, r.2)
  | '\x27' :: rest => (literalString? rest).map fun r => (String.ofList r.1, r.2)
  | _ => none

/-! ## Keys -/

/-- Whether a character may stand in a key without quotes. -/
def isKeyChar (c : Char) : Bool := c.isAlphanum || c = '_' || c = '-'

/-- Reads one name of a key. -/
def keyName? : List Char → Option (String × List Char)
  | '\x22' :: rest => (basicString? rest).map fun r => (String.ofList r.1, r.2)
  | '\x27' :: rest => (literalString? rest).map fun r => (String.ofList r.1, r.2)
  | cs =>
    let name := cs.takeWhile isKeyChar
    if name.isEmpty then none else some (String.ofList name, cs.drop name.length)

/-- The number of names in a key, or of brackets within each other, that is
    too many. -/
def depthLimit : Nat := 80

/-- Reads a key, whose names are joined by dots, with the spacing around it.
    The fuel bounds the number of names. -/
def key? : (fuel : Nat) → List Char → Option (List String × List Char)
  | 0, _ => none
  | fuel + 1, cs =>
    (keyName? (skipSpacing cs)).bind fun r =>
      match skipSpacing r.2 with
      | '.' :: rest => (key? fuel rest).map fun more => (r.1 :: more.1, more.2)
      | rest => some ([r.1], rest)

end ChangeLedger.Toml
