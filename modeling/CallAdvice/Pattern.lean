/-! Search patterns that can match one text only. Such a fixed pattern is made of ordinary
characters, special characters after a backslash, and bracket classes of one character. All other
patterns count as not fixed, among them those with a backslash before a letter. -/
set_option autoImplicit false

namespace CallAdvice.Pattern

/-- The characters with a meaning of their own in a pattern. -/
def special : List Char := ['.', '*', '+', '?', '[', '^', '$', '\\']

/-- Whether a character has a meaning of its own in a pattern. -/
def isSpecial (c : Char) : Bool := special.contains c

/-- Whether characters are a sequence of ordinary characters, escaped special ones and one-character
classes. -/
def fixedChars : List Char → Bool
  | [] => true
  | '\\' :: c :: rest => isSpecial c && fixedChars rest
  | '[' :: c :: ']' :: rest => c != ']' && c != '^' && fixedChars rest
  | c :: rest => !isSpecial c && fixedChars rest

/-- Whether a pattern is fixed. -/
def isFixed (pattern : String) : Bool := fixedChars pattern.toList

/-- Drops backslashes and the brackets around classes. It is meant for fixed patterns and does not
look at what it drops. -/
def unescape : List Char → List Char
  | [] => []
  | ['\\'] => []
  | '\\' :: c :: rest => c :: unescape rest
  | ['['] => []
  | ['[', c] => [c]
  | '[' :: c :: _ :: rest => c :: unescape rest
  | c :: rest => c :: unescape rest

/-- The one text that a fixed pattern matches. -/
def literal? (pattern : String) : Option String :=
  if isFixed pattern then some (String.ofList (unescape pattern.toList)) else none

/-- Puts a backslash before each special character. -/
def escapeChars : List Char → List Char
  | [] => []
  | c :: cs => if isSpecial c then '\\' :: c :: escapeChars cs else c :: escapeChars cs

/-- A pattern that matches just the given text. -/
def escape (text : String) : String := String.ofList (escapeChars text.toList)

end CallAdvice.Pattern
