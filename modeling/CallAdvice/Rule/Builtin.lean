import CallAdvice.Pattern
import CallAdvice.Rule.Registry

/-! The builtin rules. Each one looks at the shape of the call before it asks for a capability, so a
host is probed only where the answer matters. Every suggestion keeps the call's own head, but for
the rule that turns a pattern search into a search for a text. -/
set_option autoImplicit false

namespace CallAdvice.Rule

/-! ## Characters at point -/

/-- `(char-after (point))` is `(char-after)`. -/
def charAtPoint (_callee : String) (call : Call) : Check :=
  match call.soleArg? with
  | some arg =>
    if arg.isNullary "point" then
      .give ((Diagnostic.ofCall "char-at-point" call).suggest (call.withArgs []) none)
    else .pass
  | none => .pass

/-! ## Buffers and windows -/

/-- Leaves out the only argument of a call where it `isDefault` and the host knows the command
without it. -/
def dropSoleArg (rule : String) (isDefault : Form → Bool) (capability : Capability)
    (_callee : String) (call : Call) : Check :=
  match call.soleArg? with
  | some arg =>
    if isDefault arg then
      .ask capability fun present =>
        if present then
          .give ((Diagnostic.ofCall rule call).suggest (call.withArgs []) (some capability))
        else .pass
    else .pass
  | none => .pass

/-- `(delete-window (selected-window))` is `(delete-window)` where the argument is optional. -/
def deleteWindowSelected : String → Call → Check :=
  dropSoleArg "delete-window-selected" (·.isNullary "selected-window") .deleteWindow

/-- `(kill-buffer (current-buffer))` is `(kill-buffer nil)`, and `(kill-buffer)` where the argument
is optional. -/
def killBufferCurrent (_callee : String) (call : Call) : Check :=
  match call.soleArg? with
  | some arg =>
    if arg.isNullary "current-buffer" then
      let advice :=
        (Diagnostic.ofCall "kill-buffer-current" call).suggest (call.withArgs [.nil]) none
      .ask .killBuffer fun present =>
        .give (if present then advice.suggest (call.withArgs []) (some .killBuffer) else advice)
    else .pass
  | none => .pass

/-- `(kill-buffer nil)` is `(kill-buffer)` where the argument is optional. -/
def killBufferNil : String → Call → Check := dropSoleArg "kill-buffer-nil" Form.isNil .killBuffer

/-! ## Searches -/

/-- Whether a search command goes forward, by the end of its name. -/
def isForward (callee : String) : Bool := "-forward".toList.isSuffixOf callee.toList

/-- A pattern search for a fixed pattern is a search for its text. -/
def searchLiteral (callee : String) (call : Call) : Check :=
  match call.args with
  | .str pattern :: rest =>
    match Pattern.literal? pattern with
    | some text =>
      let search := if isForward callee then "search-forward" else "search-backward"
      .give ((Diagnostic.ofCall "search-literal-regexp" call).suggest
        (Call.named search (.str text :: rest)) none)
    | none => .pass
  | _ => .pass

/-- A search bound at the end of the buffer is no bound: it can be `nil`, or go if it comes last. -/
def searchBound (callee : String) (call : Call) : Check :=
  match call.args with
  | target :: bound :: rest =>
    if bound.isNullary (if isForward callee then "point-max" else "point-min") then
      let args := if rest.isEmpty then [target] else target :: .nil :: rest
      .give ((Diagnostic.ofCall "search-default-bound" call).suggest (call.withArgs args) none)
    else .pass
  | _ => .pass

/-! ## Lists -/

/-- `(up-list 1)` is `(up-list)` where the argument is optional. -/
def listMotionOne : String → Call → Check :=
  dropSoleArg "list-motion-one" (fun arg => arg.int? == some 1) .listMotion

/-! ## The registry -/

/-- A builtin rule, whose runs are not announced. -/
def builtin (id : String) (check : String → Call → Check) : Matcher := ⟨id, false, check⟩

@[simp] theorem check_builtin (id : String) (check : String → Call → Check) :
    (builtin id check).check = check := rfl

/-- The names and matchers of the builtin rules, in the order of their registration. -/
def builtins : List (List String × Matcher) :=
  [(["char-after", "char-before"], builtin "char-at-point" charAtPoint),
    (["delete-window"], builtin "delete-window-selected" deleteWindowSelected),
    (["kill-buffer"], builtin "kill-buffer-current" killBufferCurrent),
    (["kill-buffer"], builtin "kill-buffer-nil" killBufferNil),
    (["re-search-forward", "re-search-backward"], builtin "search-literal-regexp" searchLiteral),
    (["re-search-forward", "re-search-backward"], builtin "search-default-bound" searchBound),
    (["search-forward", "search-backward"], builtin "search-default-bound" searchBound),
    (["up-list", "down-list", "backward-up-list"], builtin "list-motion-one" listMotionOne)]

end CallAdvice.Rule

/-- The registry of the builtin rules. -/
def CallAdvice.Registry.builtin : Registry :=
  Rule.builtins.foldl (fun r rule => r.registerAll rule.1 rule.2) .empty
