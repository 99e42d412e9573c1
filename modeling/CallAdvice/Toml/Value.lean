/-! Values of configuration documents: texts, numbers, truth values, dates and times, arrays and
tables. -/
set_option autoImplicit false

namespace CallAdvice.Toml

/-- A calendar date. -/
structure Date where
  year : Nat
  month : Nat
  /-- The day of the month, from 1. -/
  day : Nat
  deriving DecidableEq

/-- A time of day. -/
structure Time where
  hour : Nat
  minute : Nat
  /-- The second, 60 for a leap second. -/
  second : Nat
  /-- The digits of the fraction of a second. -/
  fraction : List Char
  deriving DecidableEq

/-- A date, a time, or both, then perhaps with an offset from universal time in minutes. -/
inductive Moment where
  | date (d : Date)
  | time (t : Time)
  /-- A date and a time of day. -/
  | dateTime (d : Date) (t : Time) (offset : Option Int)
  deriving DecidableEq

/-- A number with a fraction or an exponent, or one that is not finite. -/
inductive Real where
  /-- The number `digits` times ten to the power of `exponent`, with a sign. -/
  | decimal (negative : Bool) (digits : Nat) (exponent : Int)
  | infinite (negative : Bool)
  | nan
  deriving DecidableEq

/-- A value of a document. -/
inductive Value where
  | text (s : String)
  | integer (n : Int)
  /-- A number that is no integer. -/
  | real (r : Real)
  | boolean (b : Bool)
  /-- A date or a time. -/
  | moment (m : Moment)
  | array (items : List Value)
  /-- A table, with distinct keys. -/
  | table (entries : List (String × Value))
  deriving Inhabited

namespace Value

/-- The text of a value that is a text. -/
def text? : Value → Option String
  | .text s => some s
  | _ => none

/-- The truth value of a value that is one. -/
def boolean? : Value → Option Bool
  | .boolean b => some b
  | _ => none

end Value

/-- A table: values under distinct keys. -/
abbrev Table := List (String × Value)

end CallAdvice.Toml
