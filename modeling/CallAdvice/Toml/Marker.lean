import CallAdvice.Toml.Moment

/-! Tables that stand for a date or a time. A table whose first key is the marker is a date or a
time in its written form, which is the text under that key; the keys after it are of no concern. -/
set_option autoImplicit false

namespace CallAdvice.Toml

/-- The key that marks a table as a date or a time. -/
def momentMarker : String := "$__toml_private_datetime"

/-- What stands under the marker, if it is a table's first key. -/
def marked? : Table → Option Value
  | [] => none
  | (key, v) :: _ => if key = momentMarker then some v else none

/-- The date or time that is the whole of a text. -/
def momentOf? (s : String) : Option Moment :=
  match moment s.toList with
  | some (m, []) => some m
  | _ => none

mutual

/-- A value with its marked tables read as dates and times, also those inside other values. There is
none if something other than the text of a date or a time stands under the marker. -/
def Value.unmark? : Value → Option Value
  | .array items => (unmarkItems? items).map .array
  | .table entries =>
    match marked? entries with
    | some v => (v.text?.bind momentOf?).map .moment
    | none => (unmarkEntries? entries).map .table
  | v => some v

/-- The values of an array with their marked tables read. -/
def unmarkItems? : List Value → Option (List Value)
  | [] => some []
  | v :: items => v.unmark?.bind fun v => (unmarkItems? items).map (v :: ·)

/-- The values under a table's keys with their marked tables read. -/
def unmarkEntries? : List (String × Value) → Option Table
  | [] => some []
  | (key, v) :: es => v.unmark?.bind fun v => (unmarkEntries? es).map ((key, v) :: ·)

end

end CallAdvice.Toml
