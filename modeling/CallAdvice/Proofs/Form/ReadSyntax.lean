import CallAdvice.Form.Printer

/-! Read syntax can be read back. The text of a readable form ends where a blank, a closing
parenthesis or the end of the text comes next, and it is the text of one form only
(`Form.unambiguous`). A form is readable if its symbols neither hold characters that divide forms
nor look like integers. -/
set_option autoImplicit false

namespace CallAdvice

/-! ## Readable forms -/

/-- The characters that no name of a readable symbol holds. -/
def dividers : List Char := [' ', '(', ')', '"', '\'']

/-- Whether characters are one or more decimal digits, perhaps after a minus sign. -/
def isNumeral : List Char → Bool
  | '-' :: digits => !digits.isEmpty && digits.all Char.isDigit
  | digits => !digits.isEmpty && digits.all Char.isDigit

/-- Whether a symbol with this name can be read back. -/
def isName (name : List Char) : Bool :=
  !name.isEmpty && name.all (fun c => !dividers.contains c) && !isNumeral name

/-- Whether a form can end before this text: it is empty or begins with a blank or a closing
parenthesis. -/
def endsForm : List Char → Bool
  | [] => true
  | c :: _ => c == ' ' || c == ')'

namespace Form

mutual

/-- Whether all symbols of a form can be read back. -/
def readable : Form → Bool
  | .symbol name => isName name.toList
  | .int _ | .str _ => true
  | .list items => readableAll items

/-- Whether all symbols of some forms can be read back. -/
def readableAll : List Form → Bool
  | [] => true
  | item :: items => item.readable && readableAll items

end

theorem readableAll_iff {items : List Form} :
    readableAll items = true ↔ ∀ item ∈ items, item.readable = true := by
  induction items with
  | nil => simp [readableAll]
  | cons item items ih => simp [readableAll, ih]

/-- What holds of atoms, and of a list when it holds of its items, holds of all forms. -/
@[elab_as_elim]
theorem induction {motive : Form → Prop} (symbol : ∀ name, motive (.symbol name))
    (int : ∀ value, motive (.int value)) (str : ∀ text, motive (.str text))
    (list : ∀ items, (∀ item ∈ items, motive item) → motive (.list items)) :
    ∀ f, motive f := by
  intro f
  refine @Form.rec motive (fun items => ∀ item ∈ items, motive item) symbol int str list ?_ ?_ f
  · intro item hmem
    cases hmem
  · intro item items hitem hitems other hmem
    rcases List.mem_cons.mp hmem with rfl | hmem
    · exact hitem
    · exact hitems other hmem

/-! ## The text of a list -/

theorem write_list_cases (items : List Form) :
    (∃ f, items = [.symbol "quote", f] ∧
      ∀ rest, (Form.list items).write rest = '\'' :: f.write rest) ∨
      ∀ rest, (Form.list items).write rest = '(' :: writeSpaced items (')' :: rest) := by
  by_cases hquote : ∃ f, items = [.symbol "quote", f]
  · obtain ⟨f, rfl⟩ := hquote
    exact .inl ⟨f, rfl, fun rest => by rw [write]⟩
  · right
    intro rest
    rw [write]
    rintro f rfl
    exact hquote ⟨f, rfl⟩

theorem writeSpaced_append {items : List Form}
    (h : ∀ item ∈ items, ∀ rest, item.write rest = item.write [] ++ rest) (rest : List Char) :
    writeSpaced items rest = writeSpaced items [] ++ rest := by
  induction items with
  | nil => rfl
  | cons item items ih =>
    rw [List.forall_mem_cons] at h
    cases items with
    | nil => exact h.1 rest
    | cons next items =>
      rw [writeSpaced, writeSpaced, h.1, ih h.2, h.1 (' ' :: writeSpaced (next :: items) [])]
      simp

/-- What follows a form is no part of its text. -/
theorem write_append (f : Form) (rest : List Char) : f.write rest = f.write [] ++ rest := by
  induction f using Form.induction generalizing rest with
  | symbol name => simp [write]
  | int value => simp [write]
  | str text => simp [write]
  | list items ih =>
    rcases write_list_cases items with ⟨f, rfl, hwrite⟩ | hwrite
    · rw [hwrite, hwrite, ih f (by simp), List.cons_append]
    · rw [hwrite, hwrite, writeSpaced_append ih, writeSpaced_append ih [')']]
      simp

theorem toList_text_append (f : Form) (rest : String) :
    (f.text ++ rest).toList = f.write rest.toList := by
  rw [text, String.toList_append, String.toList_ofList, write_append f rest.toList]

end Form

/-! ## Atoms -/

theorem decimal_injective {m n : Int} (h : decimal m = decimal n) : m = n := by
  have hvalue : ∀ k : Nat, Nat.ofDigitChars 10 (Nat.toDigits 10 k) 0 = k := fun k =>
    Nat.ofDigitChars_toDigits (by decide) (by decide)
  have hminus : ∀ k : Nat, '-' ∉ Nat.toDigits 10 k := fun k hmem =>
    absurd (Nat.isDigit_of_mem_toDigits (by decide) (by decide) hmem) (by decide)
  cases m with
  | ofNat m =>
    cases n with
    | ofNat n => rw [← hvalue m, ← hvalue n, show Nat.toDigits 10 m = Nat.toDigits 10 n from h]
    | negSucc n =>
      refine absurd ?_ (hminus m)
      rw [show Nat.toDigits 10 m = '-' :: Nat.toDigits 10 (n + 1) from h]
      exact List.mem_cons_self
  | negSucc m =>
    cases n with
    | ofNat n =>
      refine absurd ?_ (hminus n)
      rw [show Nat.toDigits 10 n = '-' :: Nat.toDigits 10 (m + 1) from h.symm]
      exact List.mem_cons_self
    | negSucc n =>
      have htail := (List.cons.inj h).2
      have hsucc : m + 1 = n + 1 := by rw [← hvalue (m + 1), ← hvalue (n + 1), htail]
      rw [Nat.succ.inj hsucc]

theorem isNumeral_of_digits {cs : List Char} (hne : cs ≠ []) (h : ∀ c ∈ cs, c.isDigit = true) :
    isNumeral cs = true := by
  have hdigits : (!cs.isEmpty && cs.all Char.isDigit) = true := by
    rw [Bool.and_eq_true, Bool.not_eq_true', List.isEmpty_eq_false_iff, List.all_eq_true]
    exact ⟨hne, h⟩
  unfold isNumeral
  split
  · next digits => exact absurd (h '-' List.mem_cons_self) (by decide)
  · exact hdigits

theorem isNumeral_decimal (n : Int) : isNumeral (decimal n) = true := by
  have hdigits : ∀ k : Nat, ∀ c ∈ Nat.toDigits 10 k, c.isDigit = true := fun k c hc =>
    Nat.isDigit_of_mem_toDigits (by decide) (by decide) hc
  cases n with
  | ofNat n => exact isNumeral_of_digits Nat.toDigits_ne_nil (hdigits n)
  | negSucc n =>
    show (!(Nat.toDigits 10 (n + 1)).isEmpty && (Nat.toDigits 10 (n + 1)).all Char.isDigit) = true
    rw [Bool.and_eq_true, Bool.not_eq_true', List.isEmpty_eq_false_iff, List.all_eq_true]
    exact ⟨Nat.toDigits_ne_nil, hdigits (n + 1)⟩

theorem isDigit_of_mem_decimal {n : Int} {c : Char} (h : c ∈ decimal n) :
    c = '-' ∨ c.isDigit = true := by
  cases n with
  | ofNat n => exact .inr (Nat.isDigit_of_mem_toDigits (by decide) (by decide) h)
  | negSucc n =>
    rcases List.mem_cons.mp h with rfl | h
    · exact .inl rfl
    · exact .inr (Nat.isDigit_of_mem_toDigits (by decide) (by decide) h)

theorem not_divider_of_mem_decimal {n : Int} {c : Char} (h : c ∈ decimal n) : c ∉ dividers := by
  have hnone : dividers.all (fun d => d != '-' && !d.isDigit) = true := by decide
  intro hmem
  have hc := List.all_eq_true.mp hnone c hmem
  rcases isDigit_of_mem_decimal h with rfl | hdigit
  · cases hc
  · rw [hdigit, Bool.not_true, Bool.and_false] at hc
    cases hc

namespace Form

/-- The text of a symbol or an integer. -/
def atom? : Form → Option (List Char)
  | .symbol name => some name.toList
  | .int value => some (decimal value)
  | _ => none

theorem write_of_atom? {f : Form} {cs : List Char} (h : f.atom? = some cs) (rest : List Char) :
    f.write rest = cs ++ rest := by
  cases f with
  | symbol name =>
    obtain rfl := Option.some.inj h
    rw [write]
  | int value =>
    obtain rfl := Option.some.inj h
    rw [write]
  | str text => cases h
  | list items => cases h

theorem atom?_plain {f : Form} {cs : List Char} (hf : f.readable = true) (h : f.atom? = some cs) :
    cs ≠ [] ∧ ∀ c ∈ cs, c ∉ dividers := by
  cases f with
  | symbol name =>
    obtain rfl := Option.some.inj h
    simp only [readable, isName, Bool.and_eq_true, Bool.not_eq_true', List.isEmpty_eq_false_iff,
      List.all_eq_true, List.contains_eq_mem, decide_eq_false_iff_not] at hf
    exact hf.1
  | int value =>
    obtain rfl := Option.some.inj h
    refine ⟨?_, fun c hc => not_divider_of_mem_decimal hc⟩
    intro hnil
    have hnumeral := isNumeral_decimal value
    rw [hnil] at hnumeral
    cases hnumeral
  | str text => cases h
  | list items => cases h

theorem symbol_ne_decimal {name : String} (h : (Form.symbol name).readable = true) (n : Int) :
    name.toList ≠ decimal n := by
  intro heq
  simp only [readable, isName, Bool.and_eq_true, Bool.not_eq_true'] at h
  rw [heq, isNumeral_decimal] at h
  cases h.2

theorem eq_of_atom? {f g : Form} {cs : List Char} (hf : f.readable = true)
    (hg : g.readable = true) (h : f.atom? = some cs) (h' : g.atom? = some cs) : f = g := by
  have heq := h.trans h'.symm
  cases f with
  | symbol name =>
    cases g with
    | symbol name' => rw [String.toList_injective (Option.some.inj heq)]
    | int value => exact absurd (Option.some.inj heq) (symbol_ne_decimal hf value)
    | str text => cases h'
    | list items => cases h'
  | int value =>
    cases g with
    | symbol name => exact absurd (Option.some.inj heq).symm (symbol_ne_decimal hg value)
    | int value' => rw [decimal_injective (Option.some.inj heq)]
    | str text => cases h'
    | list items => cases h'
  | str text => cases h
  | list items => cases h

theorem write_of_not_atom {f : Form} (h : f.atom? = none) (rest : List Char) :
    ∃ c ∈ ['"', '\'', '('], ∃ cs, f.write rest = c :: cs := by
  cases f with
  | symbol name => cases h
  | int value => cases h
  | str text => exact ⟨'"', by decide, _, by rw [write]⟩
  | list items =>
    rcases write_list_cases items with ⟨f, -, hwrite⟩ | hwrite
    · exact ⟨'\'', by decide, _, hwrite rest⟩
    · exact ⟨'(', by decide, _, hwrite rest⟩

end Form

/-! ## Taking texts apart -/

/-- Where characters that do not stop a text run up to one that does, or to the end, the stop is in
one place. -/
theorem append_inj_of_stops (stops : Char → Bool) {cs ds u v : List Char}
    (hcs : ∀ c ∈ cs, stops c = false) (hds : ∀ d ∈ ds, stops d = false)
    (hu : u.head?.all stops = true) (hv : v.head?.all stops = true) (h : cs ++ u = ds ++ v) :
    cs = ds ∧ u = v := by
  have hrun : ∀ {xs w : List Char}, (∀ x ∈ xs, stops x = false) → w.head?.all stops = true →
      (xs ++ w).takeWhile (fun c => !stops c) = xs := by
    intro xs w hxs hw
    rw [List.takeWhile_append_of_pos fun x hx => by rw [hxs x hx]; rfl]
    cases w with
    | nil => simp
    | cons c w =>
      have hc : stops c = true := hw
      simp [hc]
  have heq : cs = ds := by rw [← hrun hcs hu, ← hrun hds hv, h]
  subst heq
  exact ⟨rfl, List.append_cancel_left h⟩

theorem append_inj_of_endsForm {cs ds u v : List Char} (hcs : ∀ c ∈ cs, c ∉ dividers)
    (hds : ∀ d ∈ ds, d ∉ dividers) (hu : endsForm u = true) (hv : endsForm v = true)
    (h : cs ++ u = ds ++ v) : cs = ds ∧ u = v := by
  have hplain : ∀ {xs : List Char}, (∀ x ∈ xs, x ∉ dividers) →
      ∀ x ∈ xs, (x == ' ' || x == ')') = false := by
    intro xs hxs x hx
    have hx := hxs x hx
    simp only [dividers, List.mem_cons, not_or] at hx
    simp [hx]
  have hends : ∀ {w : List Char}, endsForm w = true →
      w.head?.all (fun c => c == ' ' || c == ')') = true := by
    intro w hw
    cases w with
    | nil => rfl
    | cons c w => exact hw
  exact append_inj_of_stops _ (hplain hcs) (hplain hds) (hends hu) (hends hv) h

/-- The quote that closes a string is the first one that is not escaped. -/
theorem escapeText_append_inj {s t u v : List Char}
    (h : escapeText s ++ '"' :: u = escapeText t ++ '"' :: v) : s = t ∧ u = v := by
  -- A character is escaped or not by its first written character alone.
  have hescaped : ∀ {c : Char} {cs : List Char}, c = '\\' ∨ c = '"' →
      escapeText (c :: cs) = '\\' :: c :: escapeText cs := fun hc => by rw [escapeText, if_pos hc]
  have hplain : ∀ {c : Char} {cs : List Char}, ¬(c = '\\' ∨ c = '"') →
      escapeText (c :: cs) = c :: escapeText cs := fun hc => by rw [escapeText, if_neg hc]
  induction s generalizing t with
  | nil =>
    cases t with
    | nil => exact ⟨rfl, (List.cons.inj h).2⟩
    | cons d t =>
      by_cases hd : d = '\\' ∨ d = '"'
      · rw [hescaped hd] at h
        exact absurd (List.cons.inj h).1 (by decide)
      · rw [hplain hd] at h
        exact absurd (.inr (List.cons.inj h).1.symm) hd
  | cons c s ih =>
    cases t with
    | nil =>
      by_cases hc : c = '\\' ∨ c = '"'
      · rw [hescaped hc] at h
        exact absurd (List.cons.inj h).1 (by decide)
      · rw [hplain hc] at h
        exact absurd (.inr (List.cons.inj h).1) hc
    | cons d t =>
      by_cases hc : c = '\\' ∨ c = '"' <;> by_cases hd : d = '\\' ∨ d = '"'
      · rw [hescaped hc, hescaped hd] at h
        obtain ⟨rfl, hrest⟩ := List.cons.inj (List.cons.inj h).2
        obtain ⟨rfl, huv⟩ := ih hrest
        exact ⟨rfl, huv⟩
      · rw [hescaped hc, hplain hd] at h
        exact absurd (.inl (List.cons.inj h).1.symm) hd
      · rw [hplain hc, hescaped hd] at h
        exact absurd (.inl (List.cons.inj h).1) hc
      · rw [hplain hc, hplain hd] at h
        obtain ⟨rfl, hrest⟩ := List.cons.inj h
        obtain ⟨rfl, huv⟩ := ih hrest
        exact ⟨rfl, huv⟩

namespace Form

/-- `f.Unambiguous`: what begins with the text of `f` and goes on behind the end of a form begins
with the text of no other readable form. -/
def Unambiguous (f : Form) : Prop :=
  ∀ (g : Form) (u v : List Char), g.readable = true → endsForm u = true → endsForm v = true →
    f.write u = g.write v → f = g ∧ u = v

theorem write_atom_ne {f g : Form} {cs : List Char} (hf : f.readable = true)
    (hcs : f.atom? = some cs) (hg : g.atom? = none) (u v : List Char) : f.write u ≠ g.write v := by
  intro h
  obtain ⟨hne, hplain⟩ := atom?_plain hf hcs
  obtain ⟨d, hd, ds, hwrite⟩ := write_of_not_atom hg v
  obtain ⟨c, cs, rfl⟩ := List.exists_cons_of_ne_nil hne
  rw [write_of_atom? hcs, hwrite] at h
  have hcd : c = d := (List.cons.inj h).1
  have hdivider : ['"', '\'', '('] ⊆ dividers := by simp [dividers]
  exact absurd (hcd ▸ hdivider hd) (hplain c List.mem_cons_self)

theorem unambiguous_of_atom? {f : Form} {cs : List Char} (hf : f.readable = true)
    (hcs : f.atom? = some cs) : f.Unambiguous := by
  intro g u v hg hu hv h
  cases hds : g.atom? with
  | some ds =>
    rw [write_of_atom? hcs, write_of_atom? hds] at h
    obtain ⟨rfl, huv⟩ :=
      append_inj_of_endsForm (atom?_plain hf hcs).2 (atom?_plain hg hds).2 hu hv h
    exact ⟨eq_of_atom? hf hg hcs hds, huv⟩
  | none => exact absurd h (write_atom_ne hf hcs hds u v)

theorem write_ne_close {f : Form} (hf : f.readable = true) (rest tail : List Char) :
    f.write rest ≠ ')' :: tail := by
  intro h
  cases hcs : f.atom? with
  | some cs =>
    obtain ⟨hne, hplain⟩ := atom?_plain hf hcs
    obtain ⟨c, cs, rfl⟩ := List.exists_cons_of_ne_nil hne
    rw [write_of_atom? hcs] at h
    obtain rfl : c = ')' := (List.cons.inj h).1
    exact hplain ')' List.mem_cons_self (by decide)
  | none =>
    obtain ⟨c, hc, cs, hwrite⟩ := write_of_not_atom hcs rest
    rw [hwrite] at h
    obtain rfl : c = ')' := (List.cons.inj h).1
    exact absurd hc (by decide)

/-- What follows the first item of a list: the further items, the parenthesis and `rest`. -/
def afterFirst : List Form → List Char → List Char
  | [], rest => ')' :: rest
  | next :: items, rest => ' ' :: writeSpaced (next :: items) (')' :: rest)

theorem writeSpaced_cons (item : Form) (items : List Form) (rest : List Char) :
    writeSpaced (item :: items) (')' :: rest) = item.write (afterFirst items rest) := by
  cases items with
  | nil => rfl
  | cons next items => rw [writeSpaced, afterFirst]

theorem endsForm_afterFirst (items : List Form) (rest : List Char) :
    endsForm (afterFirst items rest) = true := by
  cases items <;> rfl

theorem writeSpaced_inj {items others : List Form} (h : ∀ item ∈ items, item.Unambiguous)
    (hitems : readableAll items = true) (hothers : readableAll others = true) {u v : List Char}
    (heq : writeSpaced items (')' :: u) = writeSpaced others (')' :: v)) :
    items = others ∧ u = v := by
  induction items generalizing others with
  | nil =>
    cases others with
    | nil => exact ⟨rfl, (List.cons.inj heq).2⟩
    | cons other others =>
      rw [readableAll, Bool.and_eq_true] at hothers
      rw [writeSpaced_cons] at heq
      exact absurd heq.symm (write_ne_close hothers.1 _ _)
  | cons item items ih =>
    rw [List.forall_mem_cons] at h
    rw [readableAll, Bool.and_eq_true] at hitems
    rw [writeSpaced_cons] at heq
    cases others with
    | nil => exact absurd heq (write_ne_close hitems.1 _ _)
    | cons other others =>
      rw [readableAll, Bool.and_eq_true] at hothers
      rw [writeSpaced_cons] at heq
      obtain ⟨rfl, hrest⟩ := h.1 other _ _ hothers.1 (endsForm_afterFirst items u)
        (endsForm_afterFirst others v) heq
      -- A blank or the parenthesis tells whether there are further items.
      cases items with
      | nil =>
        cases others with
        | nil => exact ⟨rfl, (List.cons.inj hrest).2⟩
        | cons next others => exact absurd (List.cons.inj hrest).1 (by decide)
      | cons next items =>
        cases others with
        | nil => exact absurd (List.cons.inj hrest).1 (by decide)
        | cons next' others =>
          obtain ⟨hitems', huv⟩ := ih h.2 hitems.2 hothers.2 (List.cons.inj hrest).2
          exact ⟨by rw [hitems'], huv⟩

theorem list_inj {items others : List Form} (h : ∀ item ∈ items, item.Unambiguous)
    (hitems : readableAll items = true) (hothers : readableAll others = true) {u v : List Char}
    (hu : endsForm u = true) (hv : endsForm v = true)
    (heq : (Form.list items).write u = (Form.list others).write v) : items = others ∧ u = v := by
  -- The first character tells a quoted form from a list between parentheses.
  rcases write_list_cases items with ⟨f, rfl, hwrite⟩ | hwrite <;>
    rcases write_list_cases others with ⟨g, rfl, hwrite'⟩ | hwrite' <;>
    rw [hwrite, hwrite'] at heq <;> obtain ⟨hfirst, hrest⟩ := List.cons.inj heq
  · have hg : g.readable = true := by
      simp only [readableAll, Bool.and_true, Bool.and_eq_true] at hothers
      exact hothers.2
    obtain ⟨rfl, huv⟩ := h f (by simp) g u v hg hu hv hrest
    exact ⟨rfl, huv⟩
  · exact absurd hfirst (by decide)
  · exact absurd hfirst (by decide)
  · exact writeSpaced_inj h hitems hothers hrest

theorem write_str_ne_write_list (text : String) (items : List Form) (u v : List Char) :
    (Form.str text).write u ≠ (Form.list items).write v := by
  intro h
  rw [write] at h
  rcases write_list_cases items with ⟨f, -, hwrite⟩ | hwrite
  · rw [hwrite] at h
    exact absurd (List.cons.inj h).1 (by decide)
  · rw [hwrite] at h
    exact absurd (List.cons.inj h).1 (by decide)

theorem write_atom_inj {f g : Form} {cs u v : List Char} (hf : f.readable = true)
    (hg : g.readable = true) (hcs : g.atom? = some cs) (hu : endsForm u = true)
    (hv : endsForm v = true) (h : f.write u = g.write v) : f = g ∧ u = v := by
  obtain ⟨heq, huv⟩ := unambiguous_of_atom? hg hcs f v u hf hv hu h.symm
  exact ⟨heq.symm, huv.symm⟩

theorem unambiguous {f : Form} (hf : f.readable = true) : f.Unambiguous := by
  -- On `f` alone: an item of a list is compared with any form, before any rest.
  induction f using Form.induction with
  | symbol name => exact unambiguous_of_atom? hf rfl
  | int value => exact unambiguous_of_atom? hf rfl
  | str text =>
    intro g u v hg hu hv h
    cases g with
    | symbol name => exact write_atom_inj hf hg rfl hu hv h
    | int value => exact write_atom_inj hf hg rfl hu hv h
    | str text' =>
      rw [write, write] at h
      obtain ⟨htext, huv⟩ := escapeText_append_inj (List.cons.inj h).2
      exact ⟨by rw [String.toList_injective htext], huv⟩
    | list items => exact absurd h (write_str_ne_write_list text items u v)
  | list items ih =>
    intro g u v hg hu hv h
    cases g with
    | symbol name => exact write_atom_inj hf hg rfl hu hv h
    | int value => exact write_atom_inj hf hg rfl hu hv h
    | str text => exact absurd h.symm (write_str_ne_write_list text items v u)
    | list others =>
      rw [readable] at hf hg
      have hitems : ∀ item ∈ items, item.Unambiguous := fun item hmem =>
        ih item hmem (readableAll_iff.mp hf item hmem)
      obtain ⟨rfl, huv⟩ := list_inj hitems hf hg hu hv h
      exact ⟨rfl, huv⟩

/-- Readable forms whose texts agree up to where each of them ends are the same form, and what
follows them is the same too; so no two readable forms have the same text. -/
theorem text_unambiguous {a b : Form} (ha : a.readable = true) (hb : b.readable = true) :
    (∀ u v : String, endsForm u.toList = true → endsForm v.toList = true →
      a.text ++ u = b.text ++ v → a = b ∧ u = v) ∧
    (a.text = b.text → a = b) := by
  have happend : ∀ u v : String, endsForm u.toList = true → endsForm v.toList = true →
      a.text ++ u = b.text ++ v → a = b ∧ u = v := by
    intro u v hu hv h
    have hwrite := congrArg String.toList h
    rw [toList_text_append, toList_text_append] at hwrite
    obtain ⟨hab, huv⟩ := unambiguous ha b _ _ hb hu hv hwrite
    exact ⟨hab, String.toList_injective huv⟩
  refine ⟨happend, ?_⟩
  intro h
  exact (happend "" "" rfl rfl (by rw [h])).1

/-- `'x` and `(quote x y)` are told apart whatever follows them, and so are `nil` and `()`. -/
theorem text_unambiguous_quote :
    let quoted : Form := .list [.symbol "quote", .symbol "x"]
    let pair : Form := .list [.symbol "quote", .symbol "x", .symbol "y"]
    quoted.readable = true ∧ pair.readable = true ∧ quoted.text = "'x" ∧
      pair.text = "(quote x y)" ∧
      (∀ u v : String, endsForm u.toList = true → endsForm v.toList = true →
        quoted.text ++ u ≠ pair.text ++ v) ∧ Form.nil.text ≠ (Form.list []).text := by
  intro quoted pair
  have hquoted : quoted.readable = true := by decide
  have hpair : pair.readable = true := by decide
  refine ⟨hquoted, hpair, by decide, by decide, ?_, ?_⟩
  · intro u v hu hv h
    exact absurd ((text_unambiguous hquoted hpair).1 u v hu hv h).1 (by decide)
  · intro h
    exact absurd ((text_unambiguous (by decide) (by decide)).2 h) (by decide)

end Form

end CallAdvice
