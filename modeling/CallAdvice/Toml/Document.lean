import CallAdvice.Toml.Moment
import CallAdvice.Toml.Tree

/-! Documents. A document is a sequence of lines: headers, assignments, comments and empty lines.
Reading it gives its statements; carrying these out one after the other gives a table, or nothing if
two of them do not go together. Arrays and inline tables nest to a bounded depth, and a dotted key
has a bounded number of parts. -/
set_option autoImplicit false

namespace CallAdvice.Toml

/-- The number of arrays and inline tables that may lie inside each other, and of the parts that a
key may have. -/
def maxDepth : Nat := 79

/-! ## Keys -/

/-- A character of a key without quotes. -/
def isBare (c : Char) : Bool :=
  isDigit c || ('a' ≤ c && c ≤ 'z') || ('A' ≤ c && c ≤ 'Z') || c = '_' || c = '-'

/-- Reads one part of a key. -/
def keyPart : Reader String
  | '"' :: rest => lineText ('"' :: rest)
  | '\'' :: rest => lineText ('\'' :: rest)
  | cs =>
    match cs.takeWhile isBare with
    | [] => none
    | name => some (String.ofList name, cs.dropWhile isBare)

/-- Reads the parts of a key between dots, with blanks around each. There are at most `fuel`. -/
def keyParts : (fuel : Nat) → Reader (List String)
  | 0, _ => none
  | fuel + 1, cs =>
    (keyPart (skipBlanks cs)).bind fun (part, rest) =>
      match skipBlanks rest with
      | '.' :: rest => (keyParts fuel rest).map fun (parts, rest) => (part :: parts, rest)
      | rest => some ([part], rest)

/-- A key: the parts before the last, and the last. -/
structure Key where
  /-- The parts before the last. -/
  path : List String
  last : String
  deriving DecidableEq

/-- Reads a key. -/
def key : Reader Key := fun cs =>
  (keyParts maxDepth cs).bind fun (parts, rest) =>
    parts.getLast?.map fun last => (⟨parts.dropLast, last⟩, rest)

/-! ## Values -/

/-- Reads the further items of an array up to its bracket. `more` tells that a comma stands before,
so that an item may follow; `fuel` bounds the number of items. -/
def arrayItems (item : Reader Value) : (fuel : Nat) → (more : Bool) → Reader (List Value)
  | 0, _, _ => none
  | fuel + 1, more, cs =>
    (skipLayout? false cs).bind fun cs =>
      match cs with
      | ']' :: rest => some ([], rest)
      | cs =>
        if more then
          (item cs).bind fun (v, cs) =>
            (skipLayout? false cs).bind fun cs =>
              match cs with
              | ',' :: rest =>
                (arrayItems item fuel true rest).map fun (vs, rest) => (v :: vs, rest)
              | cs => (arrayItems item fuel false cs).map fun (vs, rest) => (v :: vs, rest)
        else none

/-- Reads an assignment of an inline table. -/
def inlinePair (item : Reader Value) : Reader (Key × Value) := fun cs =>
  (key cs).bind fun (k, cs) =>
    (expect? ['='] cs).bind fun cs =>
      (item (skipBlanks cs)).map fun (v, cs) => ((k, v), skipBlanks cs)

/-- Reads the assignments of an inline table, which are divided by commas, up to its brace. -/
def inlinePairs (item : Reader Value) : (fuel : Nat) → Entries → Reader Entries
  | 0, _, _ => none
  | fuel + 1, es, cs =>
    (inlinePair item cs).bind fun ((k, v), cs) =>
      (es.setValue k.path k.last v).bind fun es =>
        match cs with
        | ',' :: rest => inlinePairs item fuel es rest
        | '\x7d' :: rest => some (es, rest)
        | _ => none

/-- Reads an inline table after its opening brace. -/
def inlineTable (item : Reader Value) : Reader Value := fun cs =>
  match skipBlanks cs with
  | '\x7d' :: rest => some (.table [], rest)
  | _ => (inlinePairs item (cs.length + 1) [] cs).map fun (es, rest) =>
      (.table (finishEntries es), rest)

/-- Reads a number, a date or a time. -/
def numeral : Reader Value := fun cs =>
  ((moment cs).map fun (m, rest) => (.moment m, rest)) <|>
    ((real cs).map fun (r, rest) => (.real r, rest)) <|>
    ((integer cs).map fun (n, rest) => (.integer n, rest))

/-- Reads a value in which at most `depth` arrays and inline tables lie inside each other. -/
def value : (depth : Nat) → Reader Value
  | _, '"' :: rest => (text ('"' :: rest)).map fun (s, rest) => (.text s, rest)
  | _, '\'' :: rest => (text ('\'' :: rest)).map fun (s, rest) => (.text s, rest)
  | 0, '[' :: _ => none
  | depth + 1, '[' :: rest =>
    (arrayItems (value depth) (rest.length + 1) true rest).map fun (vs, rest) => (.array vs, rest)
  | 0, '\x7b' :: _ => none
  | depth + 1, '\x7b' :: rest => inlineTable (value depth) rest
  | _, 't' :: 'r' :: 'u' :: 'e' :: rest => some (.boolean true, rest)
  | _, 'f' :: 'a' :: 'l' :: 's' :: 'e' :: rest => some (.boolean false, rest)
  | _, cs => numeral cs

/-! ## Statements -/

/-- What a line says. -/
inductive Statement where
  /-- The header of a table. -/
  | header (k : Key)
  /-- The header of a further table in an array of tables. -/
  | item (k : Key)
  | assign (k : Key) (v : Value)

/-- Reads a header or an assignment with the rest of its line. -/
def statement : Reader Statement
  | '[' :: '[' :: cs => do
    let (k, cs) ← key cs
    let cs ← expect? [']', ']'] cs
    let rest ← finishLine? cs
    some (.item k, rest)
  | '[' :: cs => do
    let (k, cs) ← key cs
    let cs ← expect? [']'] cs
    let rest ← finishLine? cs
    some (.header k, rest)
  | cs => do
    let (k, cs) ← key cs
    let cs ← expect? ['='] cs
    let (v, cs) ← value maxDepth (skipBlanks cs)
    let rest ← finishLine? cs
    some (.assign k v, rest)

/-- Reads lines up to the end. Every line takes characters, so `fuel` can be their number. -/
def statements : (fuel : Nat) → List Char → Option (List Statement)
  | 0, _ => none
  | fuel + 1, cs =>
    match skipBlanks cs with
    | [] => some []
    | c :: cs =>
      if c = '#' || c = '\n' || c = '\r' then
        (finishLine? (c :: cs)).bind (statements fuel)
      else
        (statement (c :: cs)).bind fun (s, rest) => (statements fuel rest).map (s :: ·)

/-! ## Carrying statements out -/

/-- A document half read: all tables so far, and the path of the table that lines add to. -/
structure Draft where
  root : Entries
  /-- The path of the last header. -/
  current : List String

/-- Carries a statement out, unless it does not go with those before it. -/
def Draft.apply (d : Draft) : Statement → Option Draft
  | .header k =>
    (d.root.changeAt (Entries.openTable k.last) k.path).map (⟨·, k.path ++ [k.last]⟩)
  | .item k =>
    (d.root.changeAt (Entries.openItem k.last) k.path).map (⟨·, k.path ++ [k.last]⟩)
  | .assign k v =>
    (d.root.changeAt (Entries.setValue k.path k.last v) d.current).map (⟨·, d.current⟩)

/-- The rest after a byte order mark. -/
def dropMark : List Char → List Char
  | c :: cs => if c.toNat = 0xfeff then cs else c :: cs
  | [] => []

/-- The table that a text describes, if it is a document. -/
def parse? (text : String) : Option Table := do
  let cs := dropMark text.toList
  let lines ← statements (cs.length + 1) cs
  let draft ← lines.foldlM Draft.apply ⟨[], []⟩
  some (finishEntries draft.root)

end CallAdvice.Toml
