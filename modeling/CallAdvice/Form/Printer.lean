import CallAdvice.Form

/-! Read syntax of forms. Symbols stand for themselves, integers are decimal, a string escapes only
the backslash and the double quote, and the list `(quote x)` is written `'x`. Every function takes
the text that follows, so that a form is written in time linear in its text. -/
set_option autoImplicit false

namespace CallAdvice

/-- The decimal digits of an integer, after a minus sign if it is negative. -/
def decimal : Int → List Char
  | .ofNat n => Nat.toDigits 10 n
  | .negSucc n => '-' :: Nat.toDigits 10 (n + 1)

/-- The characters of a string between its quotes. -/
def escapeText : List Char → List Char
  | [] => []
  | c :: cs => if c = '\\' ∨ c = '"' then '\\' :: c :: escapeText cs else c :: escapeText cs

namespace Form

mutual

/-- The text of a form, followed by `rest`. -/
def write : Form → List Char → List Char
  | .symbol name, rest => name.toList ++ rest
  | .int value, rest => decimal value ++ rest
  | .str text, rest => '"' :: (escapeText text.toList ++ '"' :: rest)
  | .list [.symbol "quote", quoted], rest => '\'' :: quoted.write rest
  | .list items, rest => '(' :: writeSpaced items (')' :: rest)

/-- Forms with a blank between any two of them, followed by `rest`. -/
def writeSpaced : List Form → List Char → List Char
  | [], rest => rest
  | [item], rest => item.write rest
  | item :: next :: items, rest => item.write (' ' :: writeSpaced (next :: items) rest)

end

/-- The text of a form. -/
def text (f : Form) : String := String.ofList (f.write [])

end Form

end CallAdvice
