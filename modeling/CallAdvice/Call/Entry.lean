import CallAdvice.Call

/-! Calls as they arrive. A host compiler takes different paths for different numbers of arguments,
so one source call may come in any of several shapes; all of them lead to the same `Call`. -/
set_option autoImplicit false

namespace CallAdvice

/-- A call in the shape of the compiler's path that met it. -/
inductive EntryCall where
  | nullary (head : Form)
  | unary (head arg : Form)
  | binary (head first second : Form)
  | ternary (head first second third : Form)
  | variadic (head : Form) (args : List Form)
  /-- The whole form, which may turn out to be no call. -/
  | whole (form : Form)

/-- The call behind an entry, if there is one. -/
def EntryCall.normalize? : EntryCall → Option Call
  | .nullary head => some ⟨head, []⟩
  | .unary head arg => some ⟨head, [arg]⟩
  | .binary head first second => some ⟨head, [first, second]⟩
  | .ternary head first second third => some ⟨head, [first, second, third]⟩
  | .variadic head args => some ⟨head, args⟩
  | .whole form => Call.ofForm? form

end CallAdvice
