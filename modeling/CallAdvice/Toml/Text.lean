import CallAdvice.Toml.Layout

/-! Strings of documents: basic ones with escapes, literal ones without, and both over several
lines. A string over several lines may hold one or two of its quotes in a row, also right before the
closing three; a line feed right after the opening three does not count, and every line end is read
as a line feed. -/
set_option autoImplicit false

namespace CallAdvice.Toml

/-- The value of a hexadecimal digit. -/
def hexValue? (c : Char) : Option Nat :=
  if '0' ≤ c && c ≤ '9' then some (c.toNat - '0'.toNat)
  else if 'a' ≤ c && c ≤ 'f' then some (c.toNat - 'a'.toNat + 10)
  else if 'A' ≤ c && c ≤ 'F' then some (c.toNat - 'A'.toNat + 10)
  else none

/-- The number that hexadecimal digits stand for. -/
def hexNumber? (cs : List Char) : Option Nat :=
  (cs.mapM hexValue?).map fun ds => ds.foldl (fun n d => 16 * n + d) 0

/-- The character with a code point in hexadecimal digits; surrogates have none. -/
def hexChar? (cs : List Char) : Option Char :=
  (hexNumber? cs).bind fun n => if n.isValidChar then some (Char.ofNat n) else none

/-- The character that a letter stands for after a backslash. -/
def escaped? : Char → Option Char
  | 'b' => some '\x08'
  | 't' => some '\t'
  | 'n' => some '\n'
  | 'f' => some '\x0c'
  | 'r' => some '\r'
  | '"' => some '"'
  | '\\' => some '\\'
  | _ => none

/-- Puts a character in front of what a reader has read. -/
def prepend (c : Char) (r : Option (List Char × List Char)) : Option (List Char × List Char) :=
  r.map fun (text, rest) => (c :: text, rest)

/-! ## On one line -/

/-- The rest of a basic string, up to its quote. -/
def basicBody : Reader (List Char)
  | [] => none
  | '"' :: rest => some ([], rest)
  | '\\' :: 'u' :: a :: b :: c :: d :: rest =>
    (hexChar? [a, b, c, d]).bind fun x => prepend x (basicBody rest)
  | '\\' :: 'U' :: a :: b :: c :: d :: e :: f :: g :: h :: rest =>
    (hexChar? [a, b, c, d, e, f, g, h]).bind fun x => prepend x (basicBody rest)
  | '\\' :: c :: rest => (escaped? c).bind fun x => prepend x (basicBody rest)
  | c :: rest => if isInline c && c != '\\' then prepend c (basicBody rest) else none

/-- The rest of a literal string, up to its quote. -/
def literalBody : Reader (List Char)
  | [] => none
  | '\'' :: rest => some ([], rest)
  | c :: rest => if isInline c then prepend c (literalBody rest) else none

/-! ## Over several lines -/

/-- Takes the quotes that belong to a string although they stand right before its end: at most two.
-/
def closeQuotes (quote : Char) : Reader (List Char)
  | c :: d :: rest =>
    if c = quote && d = quote then some ([quote, quote], rest)
    else if c = quote then some ([quote], d :: rest)
    else some ([], c :: d :: rest)
  | [c] => if c = quote then some ([quote], []) else some ([], [c])
  | [] => some ([], [])

/-- Whether only blanks stand before the end of the line. -/
def lineIsOver (cs : List Char) : Bool := (lineEnd? (skipBlanks cs)).isSome

/-- The rest of a basic string over several lines. `skipping` tells that a backslash ended a line,
so that blanks and line ends do not count up to the next other character. -/
def basicLines : (skipping : Bool) → Reader (List Char)
  | _, [] => none
  | _, '"' :: '"' :: '"' :: rest => closeQuotes '"' rest
  | skipping, '\r' :: '\n' :: rest =>
    if skipping then basicLines true rest else prepend '\n' (basicLines false rest)
  | skipping, '\n' :: rest =>
    if skipping then basicLines true rest else prepend '\n' (basicLines false rest)
  | _, '\\' :: 'u' :: a :: b :: c :: d :: rest =>
    (hexChar? [a, b, c, d]).bind fun x => prepend x (basicLines false rest)
  | _, '\\' :: 'U' :: a :: b :: c :: d :: e :: f :: g :: h :: rest =>
    (hexChar? [a, b, c, d, e, f, g, h]).bind fun x => prepend x (basicLines false rest)
  | _, '\\' :: c :: rest =>
    if lineIsOver (c :: rest) then basicLines true (c :: rest)
    else (escaped? c).bind fun x => prepend x (basicLines false rest)
  | skipping, c :: rest =>
    if skipping && isBlank c then basicLines true rest
    else if isInline c && c != '\\' then prepend c (basicLines false rest)
    else none

/-- The rest of a literal string over several lines. -/
def literalLines : Reader (List Char)
  | [] => none
  | '\'' :: '\'' :: '\'' :: rest => closeQuotes '\'' rest
  | '\r' :: '\n' :: rest => prepend '\n' (literalLines rest)
  | '\n' :: rest => prepend '\n' (literalLines rest)
  | c :: rest => if isInline c then prepend c (literalLines rest) else none

/-- The rest after a line end that may stand right after three opening quotes. -/
def dropLineEnd (cs : List Char) : List Char := (lineEnd? cs).getD cs

/-- Reads a string on one line. -/
def lineText : Reader String
  | '"' :: rest => (basicBody rest).map fun (text, rest) => (String.ofList text, rest)
  | '\'' :: rest => (literalBody rest).map fun (text, rest) => (String.ofList text, rest)
  | _ => none

/-- Reads a string of any kind. -/
def text : Reader String
  | '"' :: '"' :: '"' :: rest =>
    (basicLines false (dropLineEnd rest)).map fun (text, rest) => (String.ofList text, rest)
  | '\'' :: '\'' :: '\'' :: rest =>
    (literalLines (dropLineEnd rest)).map fun (text, rest) => (String.ofList text, rest)
  | cs => lineText cs

end CallAdvice.Toml
