/-! JSON text: string literals, and documents of texts and objects laid out over several lines. A
literal escapes the quote, the backslash and the control characters, and nothing else. -/
set_option autoImplicit false

namespace CallAdvice.Json

/-- The hexadecimal digit of a number below 16. -/
def hexDigit (n : Nat) : Char := (Nat.toDigits 16 n).headD '0'

/-- One character inside a string literal. -/
def escapeChar (c : Char) : List Char :=
  if c = '"' then ['\\', '"']
  else if c = '\\' then ['\\', '\\']
  else if c.toNat = 8 then ['\\', 'b']
  else if c.toNat = 9 then ['\\', 't']
  else if c.toNat = 10 then ['\\', 'n']
  else if c.toNat = 12 then ['\\', 'f']
  else if c.toNat = 13 then ['\\', 'r']
  else if c.toNat < 32 then ['\\', 'u', '0', '0', hexDigit (c.toNat / 16), hexDigit (c.toNat % 16)]
  else [c]

/-- A text as a string literal. -/
def quote (text : String) : String :=
  String.ofList ('"' :: (text.toList.flatMap escapeChar ++ ['"']))

/-- A document made of texts and of objects whose fields have an order. -/
inductive Doc where
  | text (value : String)
  | object (fields : List (String × Doc))

namespace Doc

/-- The blanks in front of a line, two for each level. -/
def indent (level : Nat) : String := String.ofList (List.replicate (2 * level) ' ')

mutual

/-- The document's lines, the first one without its indentation, inside `level` objects. -/
def prettyAt (level : Nat) : Doc → String
  | .text value => quote value
  | .object [] => "\x7b\x7d"
  | .object ((name, value) :: fields) =>
    "\x7b\n" ++ indent (level + 1) ++ quote name ++ ": " ++ prettyAt (level + 1) value ++
      prettyFields level fields

/-- The further fields of an object and its closing brace. -/
def prettyFields (level : Nat) : List (String × Doc) → String
  | [] => "\n" ++ indent level ++ "\x7d"
  | (name, value) :: fields =>
    ",\n" ++ indent (level + 1) ++ quote name ++ ": " ++ prettyAt (level + 1) value ++
      prettyFields level fields

end

/-- A document with one field per line. -/
def pretty (d : Doc) : String := prettyAt 0 d

end Doc

end CallAdvice.Json
