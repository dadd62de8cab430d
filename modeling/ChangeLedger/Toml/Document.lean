/-
  ChangeLedger.Toml.Document — reading a TOML document.

  A document is a sequence of lines: headers, which open tables, and keys with
  their data.  A document with an error anywhere is no document.
-/
import ChangeLedger.Toml.Quoting
import ChangeLedger.Toml.Scalar

namespace ChangeLedger.Toml

/-! ## Data -/

mutual

/-- Reads a datum.  Brackets and braces may be nested less than `depthLimit`
    deep; `fuel` bounds the steps of reading. -/
def datum? : (fuel depth : Nat) → List Char → Option (Datum × List Char)
  | 0, _, _ => none
  | fuel + 1, depth, cs =>
    match cs with
    | '\x22' :: _ | '\x27' :: _ => (string? cs).map fun r => (.str r.1, r.2)
    | '[' :: rest =>
      if depth + 1 < depthLimit then
        (items? fuel (depth + 1) rest).map fun r => (.array r.1, r.2)
      else none
    | '\x7b' :: rest =>
      if depth + 1 < depthLimit then
        match skipSpacing rest with
        | '\x7d' :: rest => some (.table .inline [], rest)
        | rest => (pairs? fuel (depth + 1) [] rest).map fun r => (.table .inline r.1, r.2)
      else none
    | _ => scalar? cs

/-- Reads the items of an array, after its opening bracket or a comma. -/
def items? : (fuel depth : Nat) → List Char → Option (List Datum × List Char)
  | 0, _, _ => none
  | fuel + 1, depth, cs =>
    (skipTrivia false cs).bind fun cs =>
      match cs with
      | ']' :: rest => some ([], rest)
      | _ =>
        (datum? fuel depth cs).bind fun first =>
          (skipTrivia false first.2).bind fun cs =>
            match cs with
            | ',' :: rest =>
              (items? fuel depth rest).map fun more => (first.1 :: more.1, more.2)
            | ']' :: rest => some ([first.1], rest)
            | _ => none

/-- Reads the entries of a table in braces and adds them to `es`. -/
def pairs? : (fuel depth : Nat) → Entries → List Char → Option (Entries × List Char)
  | 0, _, _, _ => none
  | fuel + 1, depth, es, cs =>
    (key? (depthLimit - 1) cs).bind fun key =>
      (char? '=' key.2).bind fun cs =>
        (datum? fuel depth (skipSpacing cs)).bind fun d =>
          (es.define key.1 d.1 .inline).bind fun es =>
            match skipSpacing d.2 with
            | ',' :: rest => pairs? fuel depth es rest
            | '\x7d' :: rest => some (es, rest)
            | _ => none

end

/-! ## Lines -/

/-- What has been read of a document. -/
structure Reading where
  /-- The entries of the root table. -/
  root : Entries := []
  /-- The path of the table that the last header opened. -/
  current : List String := []

/-- Enters a datum in the table of the last header. -/
def Reading.define (r : Reading) (key : List String) (d : Datum) : Option Reading :=
  (Entries.descend false (Entries.define key d) r.current .header r.root).map fun root =>
    { r with root }

/-- Reads one line that is not empty. -/
def line? (fuel : Nat) (r : Reading) (cs : List Char) : Option (Reading × List Char) :=
  match cs with
  | '[' :: '[' :: rest => do
    let (path, rest) ← key? (depthLimit - 1) rest
    let rest ← char? ']' rest
    let rest ← char? ']' rest
    let rest ← afterLine? rest
    let root ← r.root.openElement path
    return ({ root, current := path }, rest)
  | '[' :: rest => do
    let (path, rest) ← key? (depthLimit - 1) rest
    let rest ← char? ']' rest
    let rest ← afterLine? rest
    let root ← r.root.openTable path
    return ({ root, current := path }, rest)
  | _ => do
    let (key, rest) ← key? (depthLimit - 1) cs
    let rest ← char? '=' rest
    let (d, rest) ← datum? fuel 0 (skipSpacing rest)
    let rest ← afterLine? rest
    let r ← r.define key d
    return (r, rest)

/-- Reads the lines of a document; `fuel` bounds their number. -/
def lines? : (fuel : Nat) → Reading → List Char → Option Entries
  | 0, _, _ => none
  | fuel + 1, r, cs =>
    match afterLine? cs with
    | some [] => some r.root
    | some rest => lines? fuel r rest
    | none => (line? (fuel + 1) r (skipSpacing cs)).bind fun next => lines? fuel next.1 next.2

/-- Reads a document, which may begin with a byte-order mark. -/
def document? (text : String) : Option Entries :=
  let cs := text.toList
  let cs := if cs.head? = some '\ufeff' then cs.drop 1 else cs
  -- every line takes at least one character, its line feed
  lines? (cs.length + 2) {} cs

end ChangeLedger.Toml
