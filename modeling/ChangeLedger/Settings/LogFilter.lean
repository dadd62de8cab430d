/-
  ChangeLedger.Settings.LogFilter — filters for diagnostic output.

  A filter is a list of directives that are joined by commas.  A directive is
  a level, or a target with a span in brackets, either of which may be left
  out, and perhaps a level after an equals sign.  The span may name a field in
  braces and the value it must have: a number, or a pattern for its text.

  The parts of a directive are found in its text without the blanks around it,
  but are cut out of the whole text at the same places.
-/
import ChangeLedger.Failure.Cause
import ChangeLedger.Number.Numeral
import ChangeLedger.Pattern.Group
import ChangeLedger.Text.Alphanumeric
import ChangeLedger.Text.Blank
import ChangeLedger.Text.Quoted

namespace ChangeLedger.LogFilter

/-- The names of the levels; the place of each in the list is its number. -/
def levels : List String := ["off", "error", "warn", "info", "debug", "trace"]

/-- Whether a text is a level: its name in letters of any case, or its number
    with any number of leading zeros and perhaps a plus sign. -/
def isLevel (cs : List Char) : Bool :=
  let digits := if cs.head? = some '+' then cs.drop 1 else cs
  levels.contains (String.ofList (cs.map Char.toLower)) ||
    (!digits.isEmpty && digits.all Char.isDigit &&
      digits.foldl (fun n c => n * 10 + (c.toNat - 48)) 0 < levels.length)

/-- Whether a target may begin with a character. -/
def startsTarget (c : Char) : Bool :=
  c = '-' || c = ':' || c = '_' || Alphanumeric.isAlphanumeric c

/-- Whether blanks surround a directive. -/
def isPadded (text : String) : Bool := Blank.trim text ≠ text

/-- Whether what is left of a directive can end it: nothing, or an equals sign
    that a level or nothing follows.  The level of a padded directive is not
    recognised, since it is cut out at the wrong place. -/
def isEnding (text : String) : List Char → Bool
  | [] => true
  | '=' :: level => !isPadded text && (level.isEmpty || isLevel level)
  | _ => false

/-- The part of a directive that lies, in bytes, where the trimmed directive
    has `part` with `after` behind it. -/
def cut? (text : String) (part after : List Char) : Option String :=
  let behind := (String.ofList after).utf8ByteSize
  let size := (String.ofList part).utf8ByteSize
  let start := (Blank.trim text).utf8ByteSize - behind - size
  String.fromUTF8? (text.toUTF8.extract start (start + size))

/-- Whether a text is a field: a name, and perhaps a value after an equals
    sign.  What follows a second equals sign does not matter. -/
def isField (text : String) : Bool :=
  match text.splitOn "=" with
  | _ :: value :: _ => Numeral.isNumeral value.toList || Pattern.isPattern value.toList
  | _ => true

/-- Whether what is left of a directive can follow the opening bracket of a
    span: the name of the span, perhaps a field in braces, and a closing
    bracket. -/
def isSpan (text : String) (cs : List Char) : Bool :=
  match cs.dropWhile fun c => c ≠ ']' && c ≠ '\x7b' with
  | '\x7b' :: rest =>
    match rest.span (· ≠ '\x7d') with
    | (c :: field, '\x7d' :: ']' :: rest) =>
      (cut? text (c :: field) ('\x7d' :: ']' :: rest)).any isField && isEnding text rest
    | _ => false
  | ']' :: rest => isEnding text rest
  | _ => false

/-- Whether a text is a directive.  Blanks may surround it. -/
def isDirective (text : String) : Bool :=
  match (Blank.trim text).toList with
  | [] => false
  | '[' :: rest => isSpan text rest
  | c :: rest =>
    startsTarget c &&
      match rest.dropWhile fun c => c ≠ '=' && c ≠ '[' with
      | '[' :: rest => isSpan text rest
      | rest => isEnding text rest

/-- Whether a text is a filter.  Empty directives are passed over. -/
def isFilter (text : String) : Bool :=
  ((text.splitOn ",").filter (!·.isEmpty)).all isDirective

/-- Installs a filter, unless one is `installed` already.  Blanks around the
    text do not count, and an empty text stands for the default filter. -/
def install (installed : Bool) (text : String) : Except Failure Unit :=
  let text := Blank.trim text
  if !isFilter text then
    .error (.invalidArgument ("invalid log filter " ++ Quoted.quote text))
  else if installed then
    .error (.invalidArgument "change queue logging already initialized")
  else .ok ()

end ChangeLedger.LogFilter
