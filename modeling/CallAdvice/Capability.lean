import CallAdvice.Call

/-! What only some hosts can do: commands that may leave out an argument. Each capability has an
identifier, a text that names the hosts which have it, and the forms whose evaluation shows it. -/
set_option autoImplicit false

namespace CallAdvice

/-- An optional argument that not every host knows. -/
inductive Capability where
  /-- `(kill-buffer)` kills the current buffer. -/
  | killBuffer
  /-- `(delete-window)` deletes the selected window. -/
  | deleteWindow
  /-- `(up-list)`, `(down-list)` and `(backward-up-list)` move by one. -/
  | listMotion
  deriving DecidableEq, Inhabited

namespace Capability

/-- All capabilities in their fixed order. -/
def all : List Capability := [.killBuffer, .deleteWindow, .listMotion]

/-- The identifier used in configuration files and in the log. -/
def id : Capability → String
  | .killBuffer => "kill-buffer-optional-arg"
  | .deleteWindow => "delete-window-optional-arg"
  | .listMotion => "list-motion-optional-arg"

/-- The capability with a given identifier. -/
def ofId? (id : String) : Option Capability := all.find? (·.id == id)

/-- The hosts that have a capability. -/
def hosts : Capability → String
  | .killBuffer => "Emacs 23 and up"
  | .deleteWindow => "Emacs 21 and up or XEmacs"
  | .listMotion => "Emacs 21 and up"

/-- The place of a capability in `all`. -/
def position : Capability → Nat
  | .killBuffer => 0
  | .deleteWindow => 1
  | .listMotion => 2

/-- The forms to evaluate, in order, to find out whether a host has a capability. -/
def forms : Capability → List Call
  | .killBuffer => [Call.named "kill-buffer" []]
  | .deleteWindow => [Call.named "delete-window" []]
  | .listMotion =>
    [Call.named "insert" [.str "(())"], Call.named "goto-char" [.nullary "point-min"],
      Call.named "down-list" [], Call.named "up-list" []]

end Capability

/-! ## One value for each capability -/

/-- A value for each capability. -/
structure Slots (α : Type) where
  killBuffer : α
  deleteWindow : α
  listMotion : α
  deriving DecidableEq

namespace Slots

variable {α : Type}

/-- The same value for all capabilities. -/
def fill (a : α) : Slots α := ⟨a, a, a⟩

/-- The value for a capability. -/
def get (s : Slots α) : Capability → α
  | .killBuffer => s.killBuffer
  | .deleteWindow => s.deleteWindow
  | .listMotion => s.listMotion

/-- Replaces the value for a capability. -/
def set (s : Slots α) (c : Capability) (a : α) : Slots α :=
  match c with
  | .killBuffer => { s with killBuffer := a }
  | .deleteWindow => { s with deleteWindow := a }
  | .listMotion => { s with listMotion := a }

theorem get_set (s : Slots α) (c d : Capability) (a : α) :
    (s.set c a).get d = if d = c then a else s.get d := by
  cases c <;> cases d <;> rfl

theorem get_fill (a : α) (c : Capability) : (fill a).get c = a := by
  cases c <;> rfl

end Slots

end CallAdvice
