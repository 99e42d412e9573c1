import CallAdvice.Toml.Text
import CallAdvice.Toml.Value

/-! Numbers of documents. Digits may be grouped by single underscores; a decimal integer has no
leading zeros. Integers fit 64 bits with a sign, and a number with a fraction or an exponent is
refused when it is too large for a double. -/
set_option autoImplicit false

namespace CallAdvice.Toml

/-! ## Digits -/

/-- Whether a character is a decimal digit. -/
def isDigit (c : Char) : Bool := '0' ≤ c && c ≤ '9'

/-- Whether a character is an octal digit. -/
def isOctal (c : Char) : Bool := '0' ≤ c && c ≤ '7'

/-- Whether a character is a binary digit. -/
def isBinary (c : Char) : Bool := c = '0' || c = '1'

/-- Whether a character is a hexadecimal digit. -/
def isHex (c : Char) : Bool := (hexValue? c).isSome

/-- Further digits, each perhaps after an underscore. -/
def moreDigits (p : Char → Bool) : List Char → List Char × List Char
  | '_' :: c :: rest =>
    if p c then
      let (ds, rest) := moreDigits p rest
      (c :: ds, rest)
    else ([], '_' :: c :: rest)
  | c :: rest =>
    if p c then
      let (ds, rest) := moreDigits p rest
      (c :: ds, rest)
    else ([], c :: rest)
  | [] => ([], [])

/-- Reads digits of a kind, at least one. -/
def digits (p : Char → Bool) : Reader (List Char)
  | c :: rest =>
    if p c then
      let (ds, rest) := moreDigits p rest
      some (c :: ds, rest)
    else none
  | [] => none

/-- Reads decimal digits without leading zeros. -/
def plainDigits : Reader (List Char)
  | '0' :: rest => some (['0'], rest)
  | cs => digits isDigit cs

/-- The number that digits stand for in a base. -/
def numberOf (base : Nat) (ds : List Char) : Nat :=
  ds.foldl (fun n d => base * n + (hexValue? d).getD 0) 0

/-- Reads a sign: whether it is a minus. -/
def sign : List Char → Bool × List Char
  | '-' :: rest => (true, rest)
  | '+' :: rest => (false, rest)
  | cs => (false, cs)

/-! ## Integers -/

/-- An integer that fits 64 bits with a sign. -/
def fitted? (n : Int) : Option Int :=
  if -(Nat.pow 2 63 : Int) ≤ n ∧ n < Nat.pow 2 63 then some n else none

/-- Reads the digits of an integer in a base. -/
def based (base : Nat) (p : Char → Bool) : Reader Int := fun cs =>
  (digits p cs).bind fun (ds, rest) => (fitted? (numberOf base ds)).map fun n => (n, rest)

/-- Reads an integer. -/
def integer : Reader Int
  | '0' :: 'x' :: rest => based 16 isHex rest
  | '0' :: 'o' :: rest => based 8 isOctal rest
  | '0' :: 'b' :: rest => based 2 isBinary rest
  | cs =>
    let (negative, cs) := sign cs
    (plainDigits cs).bind fun (ds, rest) =>
      let n : Int := numberOf 10 ds
      (fitted? (if negative then -n else n)).map fun n => (n, rest)

/-! ## Other numbers -/

/-- Whether `digits` times ten to the power of `exponent` is too large for a double: it is not below
the middle between the largest one and the next power of two. -/
def tooLarge (digits : Nat) (exponent : Int) : Bool :=
  let limit := Nat.pow 2 1024 - Nat.pow 2 970
  let size := (Nat.toDigits 10 digits).length + exponent
  if digits = 0 then false
  else if 309 < size then true
  else if size < 309 then false
  else limit * Nat.pow 10 (-exponent).toNat ≤ digits * Nat.pow 10 exponent.toNat

/-- Reads an exponent. -/
def exponent : Reader Int
  | c :: cs =>
    if c = 'e' || c = 'E' then
      let (negative, cs) := sign cs
      (digits isDigit cs).map fun (ds, rest) =>
        let n : Int := numberOf 10 ds
        (if negative then -n else n, rest)
    else none
  | [] => none

/-- Reads the digits of a fraction. -/
def fraction : Reader (List Char)
  | '.' :: cs => digits isDigit cs
  | _ => none

/-- Reads a finite number with a fraction, an exponent or both. -/
def finite : Reader Real := fun cs =>
  let (negative, cs) := sign cs
  (plainDigits cs).bind fun (whole, rest) =>
    let build (decimals : List Char) (e : Int) (rest : List Char) : Option (Real × List Char) :=
      let n := numberOf 10 (whole ++ decimals)
      let e := e - decimals.length
      if !negative && tooLarge n e then none else some (.decimal negative n e, rest)
    match exponent rest with
    | some (e, rest) => build [] e rest
    | none =>
      (fraction rest).bind fun (decimals, rest) =>
        match exponent rest with
        | some (e, rest) => build decimals e rest
        | none => build decimals 0 rest

/-- Reads a number that is not finite. -/
def special : Reader Real := fun cs =>
  let (negative, cs) := sign cs
  match cs with
  | 'i' :: 'n' :: 'f' :: rest => some (.infinite negative, rest)
  | 'n' :: 'a' :: 'n' :: rest => some (.nan, rest)
  | _ => none

/-- Reads a number that is no integer. -/
def real : Reader Real := fun cs => finite cs <|> special cs

end CallAdvice.Toml
