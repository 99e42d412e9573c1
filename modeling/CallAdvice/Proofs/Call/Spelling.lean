import CallAdvice.Diagnostic
import CallAdvice.Proofs.Form.ReadSyntax

/-! The two spellings of a call. Written as a call, it is its head and then each argument after a
blank (`Call.text_eq_join`); written as a form, it is the items of a list with blanks between them
(`Form.text_list`), or `'x`. `Call.spellings_agree_iff` says that these are the same text for every
call but `(quote x)`. -/
set_option autoImplicit false

namespace CallAdvice

theorem intercalate_cons (sep first : String) (rest : List String) :
    sep.intercalate (first :: rest) = first ++ String.join (rest.map (sep ++ ·)) := by
  induction rest generalizing first with
  | nil => simp
  | cons next rest ih =>
    rw [String.intercalate_cons_cons, ih]
    simp [String.append_assoc]

namespace Form

theorem toList_text (f : Form) : f.text.toList = f.write [] := String.toList_ofList

theorem write_eq_toList (f : Form) (rest : List Char) : f.write rest = f.text.toList ++ rest := by
  rw [toList_text]
  exact write_append f rest

theorem writeSpaced_eq_toList (items : List Form) (rest : List Char) :
    writeSpaced items rest = (" ".intercalate (items.map text)).toList ++ rest := by
  induction items with
  | nil => rfl
  | cons item items ih =>
    cases items with
    | nil => exact (write_eq_toList item rest).trans (by simp)
    | cons next items =>
      rw [writeSpaced, ih, write_eq_toList]
      simp [String.intercalate_cons_cons]

theorem text_quote (x : Form) : (Form.list [.symbol "quote", x]).text = "'" ++ x.text := by
  have hwrite : (Form.list [.symbol "quote", x]).write [] = '\'' :: x.write [] := by rw [write]
  apply String.toList_injective
  rw [toList_text, hwrite, String.toList_append, toList_text]
  rfl

theorem text_list {items : List Form} (h : ∀ x, items ≠ [.symbol "quote", x]) :
    (Form.list items).text = "(" ++ " ".intercalate (items.map text) ++ ")" := by
  have hwrite : (Form.list items).write [] = '(' :: writeSpaced items [')'] := by
    rcases write_list_cases items with ⟨x, hx, -⟩ | hwrite
    · exact absurd hx (h x)
    · exact hwrite []
  apply String.toList_injective
  rw [toList_text, hwrite, writeSpaced_eq_toList]
  simp

end Form

namespace Call

theorem writeArgs_eq_toList (args : List Form) (rest : List Char) :
    writeArgs args rest = (String.join (args.map fun arg => " " ++ arg.text)).toList ++ rest := by
  induction args with
  | nil => simp [writeArgs]
  | cons arg args ih =>
    rw [writeArgs, ih, Form.write_eq_toList]
    simp

theorem text_eq_join (c : Call) :
    c.text = "(" ++ c.head.text ++ String.join (c.args.map fun arg => " " ++ arg.text) ++ ")" := by
  have hwrite : c.write [] = '(' :: (c.head.text.toList ++
      ((String.join (c.args.map fun arg => " " ++ arg.text)).toList ++ [')'])) := by
    rw [write, Form.write_eq_toList, writeArgs_eq_toList]
  apply String.toList_injective
  rw [text, String.toList_ofList, hwrite]
  simp

theorem text_toForm {c : Call} (h : ¬(c.head = .symbol "quote" ∧ c.args.length = 1)) :
    c.toForm.text = c.text := by
  have hitems : ∀ x, c.head :: c.args ≠ [.symbol "quote", x] := by
    intro x hx
    obtain ⟨hhead, hargs⟩ := List.cons.inj hx
    exact h ⟨hhead, by rw [hargs]; rfl⟩
  rw [toForm, Form.text_list hitems, List.map_cons, intercalate_cons, List.map_map,
    text_eq_join]
  simp [Function.comp_def, String.append_assoc]

theorem text_named_quote (x : Form) : (named "quote" [x]).text = "(quote " ++ x.text ++ ")" := by
  have hhead : "(" ++ (Form.symbol "quote").text = "(quote" := by decide
  have hblank : "(quote" ++ " " = "(quote " := by decide
  rw [text_eq_join, named, hhead, List.map_singleton, String.join_cons, String.join_nil,
    String.append_empty, ← String.append_assoc, hblank]

theorem text_named_quote_ne (x : Form) :
    (named "quote" [x]).text ≠ (named "quote" [x]).toForm.text := by
  intro h
  have hform : (named "quote" [x]).toForm.text = "'" ++ x.text := Form.text_quote x
  rw [text_named_quote, hform] at h
  have hchars := congrArg String.toList h
  simp only [String.toList_append] at hchars
  -- The first characters differ already.
  exact absurd (List.cons.inj hchars).1 (by decide)

theorem eq_named_quote_iff (c : Call) :
    (c.head = .symbol "quote" ∧ c.args.length = 1) ↔ ∃ x, c = named "quote" [x] := by
  constructor
  · rintro ⟨hhead, hlength⟩
    obtain ⟨x, hargs⟩ := List.length_eq_one_iff.mp hlength
    refine ⟨x, ?_⟩
    rw [named, ← hhead, ← hargs]
  · rintro ⟨x, rfl⟩
    exact ⟨rfl, rfl⟩

theorem text_toForm_ne_iff (c : Call) : c.toForm.text ≠ c.text ↔ ∃ x, c = named "quote" [x] := by
  constructor
  · intro hne
    rw [← eq_named_quote_iff]
    by_cases h : c.head = .symbol "quote" ∧ c.args.length = 1
    · exact h
    · exact absurd (text_toForm h) hne
  · rintro ⟨x, rfl⟩
    exact (text_named_quote_ne x).symm

/-- The two spellings of a call, as a call and as a form, are the same text unless it is a call of
`quote` with one argument: that one is `(quote x)` as a call and `'x` as a form. Advice holds calls
as forms, so its subject and its suggestions are spelt otherwise than the calls that they were made
from just for these. -/
theorem spellings_agree_iff (c : Call) :
    (c.text = c.toForm.text ↔ ¬(c.head = .symbol "quote" ∧ c.args.length = 1)) ∧
    (∀ x, (named "quote" [x]).text = "(quote " ++ x.text ++ ")" ∧
      (named "quote" [x]).toForm.text = "'" ++ x.text) ∧
    (∀ rule, (Diagnostic.ofCall rule c).subject.text ≠ c.text ↔ ∃ x, c = named "quote" [x]) ∧
    ∀ (d : Diagnostic) requires, ∃ added,
      (d.suggest c requires).suggestions = d.suggestions ++ [added] ∧
      (added.form.text ≠ c.text ↔ ∃ x, c = named "quote" [x]) := by
  refine ⟨?_, ?_, ?_, ?_⟩
  · rw [eq_named_quote_iff, ← text_toForm_ne_iff, Ne, Decidable.not_not]
    exact eq_comm
  · intro x
    exact ⟨text_named_quote x, Form.text_quote x⟩
  · intro rule
    exact text_toForm_ne_iff c
  · intro d requires
    exact ⟨⟨c.toForm, requires⟩, rfl, text_toForm_ne_iff c⟩

end Call

end CallAdvice
