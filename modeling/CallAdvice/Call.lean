import CallAdvice.Form.Printer

/-! Calls: a head and its arguments. A call is a non-empty list form taken apart; it is written out
in full, also where the list form has a short spelling. -/
set_option autoImplicit false

namespace CallAdvice

/-- A call form: what is called, and the arguments, not evaluated. -/
structure Call where
  head : Form
  args : List Form
  deriving DecidableEq, Inhabited

namespace Call

/-- The call of a named function. -/
def named (callee : String) (args : List Form) : Call := ⟨.symbol callee, args⟩

/-- Takes a form apart; atoms and the empty list are no calls. -/
def ofForm? : Form → Option Call
  | .list (head :: args) => some ⟨head, args⟩
  | _ => none

/-- The list form of a call. -/
def toForm (c : Call) : Form := .list (c.head :: c.args)

/-- The name of the function, if the head is a symbol. -/
def callee? (c : Call) : Option String := c.head.symbol?

/-- The argument at a position, from 0. -/
def arg? (c : Call) (index : Nat) : Option Form := c.args[index]?

/-- The argument of a call that has exactly one. -/
def soleArg? (c : Call) : Option Form :=
  match c.args with
  | [arg] => some arg
  | _ => none

/-- The same head on other arguments. -/
def withArgs (c : Call) (args : List Form) : Call := ⟨c.head, args⟩

/-- Another function on the same arguments. -/
def withCallee (c : Call) (callee : String) : Call := ⟨.symbol callee, c.args⟩

/-- Arguments, each of them after a blank, followed by `rest`. -/
def writeArgs : List Form → List Char → List Char
  | [], rest => rest
  | arg :: args, rest => ' ' :: arg.write (writeArgs args rest)

/-- The text of a call, followed by `rest`. -/
def write (c : Call) (rest : List Char) : List Char :=
  '(' :: c.head.write (writeArgs c.args (')' :: rest))

/-- The text of a call. -/
def text (c : Call) : String := String.ofList (c.write [])

theorem ofForm?_toForm (c : Call) : ofForm? c.toForm = some c := rfl

theorem soleArg?_eq_some {c : Call} {arg : Form} : c.soleArg? = some arg ↔ c.args = [arg] := by
  unfold soleArg?
  split <;> simp_all

theorem callee?_eq_some {c : Call} {f : String} :
    c.callee? = some f ↔ c = named f c.args := by
  obtain ⟨head, args⟩ := c
  cases head <;> simp [callee?, Form.symbol?, named]

end Call

end CallAdvice
