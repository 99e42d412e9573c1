import CallAdvice.Text.Printable

/-! String literals for the log. Quotes, backslashes and the usual control characters have short
escapes; other characters that would not show, or would join the one before them, are written by
their code point. -/
set_option autoImplicit false

namespace CallAdvice.Text

/-- A character by its code point. -/
def codePoint (c : Char) : List Char :=
  ['\\', 'u', '\x7b'] ++ Nat.toDigits 16 c.toNat ++ ['\x7d']

/-- One character inside a string literal. -/
def literalChar (c : Char) : List Char :=
  if c = '"' then ['\\', '"']
  else if c = '\\' then ['\\', '\\']
  else if c = '\n' then ['\\', 'n']
  else if c = '\r' then ['\\', 'r']
  else if c = '\t' then ['\\', 't']
  else if c = '\x00' then ['\\', '0']
  else if joins c || !isPrintable c then codePoint c
  else [c]

/-- A text as a string literal. -/
def literal (text : String) : String :=
  String.ofList ('"' :: (text.toList.flatMap literalChar ++ ['"']))

end CallAdvice.Text
