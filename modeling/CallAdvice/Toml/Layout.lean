/-! Blanks, line ends and comments of documents. Readers take the characters that are left and give
what they read with the rest, or nothing if they cannot go on. A line ends with a line feed, perhaps
after a carriage return; a carriage return on its own is nowhere allowed. -/
set_option autoImplicit false

namespace CallAdvice.Toml

/-- Reads something from the front of the characters, and leaves the rest. -/
abbrev Reader (α : Type) := List Char → Option (α × List Char)

/-- A blank within a line. -/
def isBlank (c : Char) : Bool := c = ' ' || c = '\t'

/-- A character that comments may hold: the tab, the visible ones, and all beyond ASCII. -/
def isInline (c : Char) : Bool := c = '\t' || (' ' ≤ c && c ≤ '~') || '\x7f' < c

/-- The rest after blanks within a line. -/
def skipBlanks (cs : List Char) : List Char := cs.dropWhile isBlank

/-- The rest after the end of a line, if there is one. -/
def lineEnd? : List Char → Option (List Char)
  | '\n' :: rest => some rest
  | '\r' :: '\n' :: rest => some rest
  | _ => none

/-- The rest after a comment, if there is one. -/
def skipComment : List Char → List Char
  | '#' :: rest => rest.dropWhile isInline
  | cs => cs

/-- The rest after what may follow on a line: blanks, a comment, and the end of the line or of the
document. -/
def finishLine? (cs : List Char) : Option (List Char) :=
  match skipComment (skipBlanks cs) with
  | [] => some []
  | cs => lineEnd? cs

/-- The rest after blanks, line ends and comments. `comment` tells that a comment has begun; it must
reach the end of its line. -/
def skipLayout? : (comment : Bool) → List Char → Option (List Char)
  | _, '\n' :: rest => skipLayout? false rest
  | _, '\r' :: '\n' :: rest => skipLayout? false rest
  | true, c :: rest => if isInline c then skipLayout? true rest else none
  | true, [] => none
  | false, '#' :: rest => skipLayout? true rest
  | false, c :: rest => if isBlank c then skipLayout? false rest else some (c :: rest)
  | false, [] => some []

/-- The rest after fixed characters. -/
def expect? : List Char → List Char → Option (List Char)
  | [], cs => some cs
  | e :: es, c :: cs => if e = c then expect? es cs else none
  | _ :: _, [] => none

end CallAdvice.Toml
