/-! Sets of observers. A set numbers its registrations from 0 and never gives a number twice; the
observers still registered are kept in the order of their registration. -/
set_option autoImplicit false

namespace CallAdvice

/-- The number of a registration within its set. -/
structure ObserverId where
  number : Nat
  deriving DecidableEq

/-- Registered observers of a kind `α`. -/
structure ObserverSet (α : Type) where
  /-- The number of the next registration. -/
  next : Nat
  /-- The live registrations, oldest first. -/
  entries : List (ObserverId × α)

namespace ObserverSet

variable {α : Type}

/-- The set without observers. -/
def empty : ObserverSet α := ⟨0, []⟩

/-- Registers an observer: its number, and the set afterwards. -/
def register (s : ObserverSet α) (observer : α) : ObserverId × ObserverSet α :=
  (⟨s.next⟩, ⟨s.next + 1, s.entries ++ [(⟨s.next⟩, observer)]⟩)

/-- Removes a registration: whether there was one, and the set afterwards. -/
def unregister (s : ObserverSet α) (id : ObserverId) : Bool × ObserverSet α :=
  let kept := s.entries.filter (fun entry => entry.1 != id)
  (kept.length != s.entries.length, { s with entries := kept })

/-- The number of observers. -/
def size (s : ObserverSet α) : Nat := s.entries.length

/-- Whether there are no observers. -/
def isEmpty (s : ObserverSet α) : Bool := s.entries.isEmpty

/-- The observers, oldest first. -/
def observers (s : ObserverSet α) : List α := s.entries.map (·.2)

end ObserverSet

end CallAdvice
