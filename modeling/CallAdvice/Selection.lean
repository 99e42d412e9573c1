import CallAdvice.NameSet
import CallAdvice.Toml.Value

/-! Selections of warning categories: all of them, all but some, or only some. A configured value of
any other shape is kept as unrecognized. -/
set_option autoImplicit false

namespace CallAdvice

/-- Which warning categories are switched on. -/
inductive Selection where
  | all
  | except (categories : NameSet)
  /-- These categories and no others. -/
  | only (categories : NameSet)
  /-- A configured value that is no selection. -/
  | unrecognized
  deriving DecidableEq, Inhabited

namespace Selection

/-- All categories but those listed. -/
def exceptList (categories : List String) : Selection := .except (NameSet.ofList categories)

/-- The categories listed and no others. -/
def onlyList (categories : List String) : Selection := .only (NameSet.ofList categories)

/-- No category at all. -/
def none : Selection := .only NameSet.empty

/-- The selection written as a list of names: after the word `not`, all but the rest of the list. -/
def ofNames : List String → Selection
  | "not" :: categories => exceptList categories
  | categories => onlyList categories

/-- The selection that a configured value stands for. -/
def ofValue : Toml.Value → Selection
  | .boolean true => .all
  | .boolean false => .none
  | .array items =>
    match items.mapM Toml.Value.text? with
    | some names => ofNames names
    | Option.none => .unrecognized
  | _ => .unrecognized

end Selection

end CallAdvice
