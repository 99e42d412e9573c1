/-! Lisp forms as a host compiler hands them over: symbols, integers, strings and lists. Anything
else a host can read travels as a symbol, since no rule looks inside it. -/
set_option autoImplicit false

namespace CallAdvice

/-- One form, not evaluated. -/
inductive Form where
  /-- A symbol, `nil` and `t` among them. -/
  | symbol (name : String)
  | int (value : Int)
  /-- A string, without its quotes and escapes. -/
  | str (text : String)
  /-- A list; the empty one stands for `nil`. -/
  | list (items : List Form)
  deriving Inhabited

namespace Form

/-! ## Equality is decidable -/

mutual

/-- Decides whether two forms are the same. -/
def decEq : (a b : Form) → Decidable (a = b)
  | .symbol a, .symbol b =>
    if h : a = b then .isTrue (by rw [h]) else .isFalse (fun e => h (by injection e))
  | .int a, .int b =>
    if h : a = b then .isTrue (by rw [h]) else .isFalse (fun e => h (by injection e))
  | .str a, .str b =>
    if h : a = b then .isTrue (by rw [h]) else .isFalse (fun e => h (by injection e))
  | .list as, .list bs =>
    match decEqList as bs with
    | .isTrue h => .isTrue (by rw [h])
    | .isFalse h => .isFalse (fun e => h (by injection e))
  | .symbol _, .int _ => .isFalse (fun e => by injection e)
  | .symbol _, .str _ => .isFalse (fun e => by injection e)
  | .symbol _, .list _ => .isFalse (fun e => by injection e)
  | .int _, .symbol _ => .isFalse (fun e => by injection e)
  | .int _, .str _ => .isFalse (fun e => by injection e)
  | .int _, .list _ => .isFalse (fun e => by injection e)
  | .str _, .symbol _ => .isFalse (fun e => by injection e)
  | .str _, .int _ => .isFalse (fun e => by injection e)
  | .str _, .list _ => .isFalse (fun e => by injection e)
  | .list _, .symbol _ => .isFalse (fun e => by injection e)
  | .list _, .int _ => .isFalse (fun e => by injection e)
  | .list _, .str _ => .isFalse (fun e => by injection e)

/-- Decides whether two lists of forms are the same. -/
def decEqList : (as bs : List Form) → Decidable (as = bs)
  | [], [] => .isTrue rfl
  | [], _ :: _ => .isFalse (fun e => by injection e)
  | _ :: _, [] => .isFalse (fun e => by injection e)
  | a :: as, b :: bs =>
    match decEq a b, decEqList as bs with
    | .isTrue h, .isTrue hs => .isTrue (by rw [h, hs])
    | .isFalse h, _ => .isFalse (fun e => h (by injection e))
    | _, .isFalse hs => .isFalse (fun e => hs (by injection e))

end

instance : DecidableEq Form := decEq

/-! ## Parts and shapes -/

/-- The symbol `nil`. -/
def nil : Form := .symbol "nil"

/-- The call `(callee)`. -/
def nullary (callee : String) : Form := .list [.symbol callee]

/-- The name of a symbol. -/
def symbol? : Form → Option String
  | .symbol name => some name
  | _ => none

/-- The value of an integer. -/
def int? : Form → Option Int
  | .int value => some value
  | _ => none

/-- The text of a string. -/
def str? : Form → Option String
  | .str text => some text
  | _ => none

/-- The items of a list. -/
def list? : Form → Option (List Form)
  | .list items => some items
  | _ => none

/-- Whether a form reads as `nil`: the symbol or the empty list. -/
def isNil : Form → Bool
  | .symbol name => name == "nil"
  | .list items => items.isEmpty
  | _ => false

/-- Whether a form is the call `(callee)`. -/
def isNullary (callee : String) : Form → Bool
  | .list [.symbol head] => head == callee
  | _ => false

theorem int?_eq_some {f : Form} {n : Int} : f.int? = some n ↔ f = .int n := by
  cases f <;> simp [int?]

theorem isNil_iff {f : Form} : f.isNil = true ↔ f = nil ∨ f = .list [] := by
  cases f <;> simp [isNil, nil]

theorem isNullary_iff {callee : String} {f : Form} :
    f.isNullary callee = true ↔ f = nullary callee := by
  constructor
  · intro h
    unfold isNullary at h
    split at h
    · rw [beq_iff_eq.mp h, nullary]
    · cases h
  · rintro rfl
    simp [isNullary, nullary]

end Form

end CallAdvice
