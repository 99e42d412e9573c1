import CallAdvice.Proofs.Pattern.Token
import CallAdvice.Proofs.Rule.Dispatch

/-! How fixed patterns are put together. Behind a fixed pattern the rest of a pattern is read as if
it stood alone, since the tokens of the two follow one another (`Pattern.spelling_eq_append_iff`).
And every text has a fixed pattern, in which each of its characters is one token, with a backslash
if it is special (`Pattern.escapeChars_eq_spelling`); so a search for such a pattern is always
advised to be a search for the text. -/
set_option autoImplicit false

namespace CallAdvice.Pattern

/-! ## One pattern behind another -/

theorem spelling_append (ts us : List Token) : spelling (ts ++ us) = spelling ts ++ spelling us :=
  List.flatMap_append

theorem spelling_eq_append_iff {ts us : List Token} {rest : List Char} :
    spelling us = spelling ts ++ rest ↔ ∃ vs, us = ts ++ vs ∧ spelling vs = rest := by
  constructor
  · intro h
    induction ts generalizing us with
    | nil => exact ⟨us, rfl, h⟩
    | cons t ts ih =>
      cases us with
      | nil => simp [text_ne_nil] at h
      | cons u us =>
        -- The first tokens are the same, since their first characters are.
        rw [spelling_cons, spelling_cons, List.append_assoc] at h
        obtain ⟨rfl, htail⟩ := text_append_inj h
        obtain ⟨vs, rfl, hvs⟩ := ih htail
        exact ⟨vs, rfl, hvs⟩
  · rintro ⟨vs, rfl, rfl⟩
    exact spelling_append ts vs

theorem literal?_eq_some_iff {pattern text : String} :
    literal? pattern = some text ↔
      ∃ ts, pattern = String.ofList (spelling ts) ∧ text = String.ofList (ts.map Token.value) := by
  constructor
  · intro h
    obtain ⟨hfixed, -⟩ := Option.ite_none_right_eq_some.mp h
    obtain ⟨ts, rfl⟩ := isFixed_iff.mp hfixed
    rw [literal?_spelling] at h
    exact ⟨ts, rfl, (Option.some.inj h).symm⟩
  · rintro ⟨ts, rfl, rfl⟩
    exact literal?_spelling ts

theorem isFixed_append {p : String} (hp : isFixed p = true) (q : String) :
    isFixed (p ++ q) = isFixed q := by
  obtain ⟨ts, rfl⟩ := isFixed_iff.mp hp
  unfold isFixed
  rw [String.toList_append, String.toList_ofList, fixedChars_spelling_append]

theorem literal?_append {p q s t : String} (hp : literal? p = some s) (hq : literal? q = some t) :
    literal? (p ++ q) = some (s ++ t) := by
  obtain ⟨ts, rfl, rfl⟩ := literal?_eq_some_iff.mp hp
  obtain ⟨us, rfl, rfl⟩ := literal?_eq_some_iff.mp hq
  rw [← String.ofList_append, ← spelling_append, literal?_spelling, List.map_append,
    String.ofList_append]

theorem exists_literal {p : String} (hp : isFixed p = true) : ∃ s, literal? p = some s :=
  ⟨_, if_pos hp⟩

/-- In `[x]` the closing bracket is not read as it is alone. -/
theorem bracket_read_otherwise {ts vs : List Token}
    (h : "[x" ++ "]" = String.ofList (spelling (ts ++ vs))) :
    "]" ≠ String.ofList (spelling vs) := by
  intro hvs
  have hone : vs = [.ordinary ']' (by decide)] := by
    refine spelling_injective (String.ofList_injective ?_)
    rw [← hvs]
    decide
  have hall : ts ++ vs = [.bracket 'x' (by decide)] := by
    refine spelling_injective (String.ofList_injective ?_)
    rw [← h]
    decide
  have hlast := congrArg List.getLast? hall
  rw [hone, List.getLast?_concat] at hlast
  cases hlast

theorem spelled_append_iff {ts us : List Token} {q : String} :
    String.ofList (spelling ts) ++ q = String.ofList (spelling us) ↔
      ∃ vs, us = ts ++ vs ∧ q = String.ofList (spelling vs) := by
  obtain ⟨rest, rfl⟩ : ∃ rest, q = String.ofList rest := ⟨q.toList, String.ofList_toList.symm⟩
  rw [← String.ofList_append]
  simp only [String.ofList_inj]
  rw [eq_comm, spelling_eq_append_iff]
  simp only [eq_comm]

/-- Behind a fixed pattern, a pattern is fixed just if it is alone; its text then comes behind the
text of the first one, and its tokens behind the tokens of the first one. Behind a pattern that is
not fixed this is not so: behind `[x`, a closing bracket ends a class, and alone it is a text. -/
theorem fixed_prefix_inert {p : String} (hp : isFixed p = true) (q : String) :
    isFixed (p ++ q) = isFixed q ∧
    (isFixed q = true → ∃ s t, literal? p = some s ∧ literal? q = some t ∧
      literal? (p ++ q) = some (s ++ t)) ∧
    (∃ ts, p = String.ofList (spelling ts) ∧ ∀ us, p ++ q = String.ofList (spelling us) ↔
      ∃ vs, us = ts ++ vs ∧ q = String.ofList (spelling vs)) ∧
    (isFixed "[x" = false ∧ literal? "]" = some "]" ∧ literal? ("[x" ++ "]") = some "x" ∧
      ∀ ts vs, "[x" ++ "]" = String.ofList (spelling (ts ++ vs)) →
        "]" ≠ String.ofList (spelling vs)) := by
  refine ⟨isFixed_append hp q, ?_, ?_, by decide, by decide, by decide, ?_⟩
  · intro hq
    obtain ⟨s, hs⟩ := exists_literal hp
    obtain ⟨t, ht⟩ := exists_literal hq
    exact ⟨s, t, hs, ht, literal?_append hs ht⟩
  · obtain ⟨ts, rfl⟩ := isFixed_iff.mp hp
    exact ⟨ts, rfl, fun us => spelled_append_iff⟩
  · intro ts vs h
    exact bracket_read_otherwise h

/-- A backslash that is itself escaped does not escape the bracket behind it. -/
theorem fixed_prefix_inert_backslash :
    isFixed "\\\\" = true ∧ isFixed "[.]" = true ∧ isFixed ("\\\\" ++ "[.]") = true ∧
      literal? ("\\\\" ++ "[.]") = some "\\." ∧ isFixed ("\\\\" ++ "[..]") = false := by
  have hp : isFixed "\\\\" = true := by decide
  have hq : isFixed "[.]" = true := by decide
  obtain ⟨hfixed, hliteral, -⟩ := fixed_prefix_inert hp "[.]"
  obtain ⟨hnot, -⟩ := fixed_prefix_inert hp "[..]"
  obtain ⟨s, t, hs, ht, hst⟩ := hliteral hq
  obtain rfl : s = "\\" := Option.some.inj (hs.symm.trans (by decide))
  obtain rfl : t = "." := Option.some.inj (ht.symm.trans (by decide))
  exact ⟨hp, hq, hfixed.trans hq, hst, hnot.trans (by decide)⟩

/-! ## Patterns for texts -/

/-- The token that stands for a character, with a backslash only if it has to have one. -/
def Token.ofChar (c : Char) : Token :=
  if h : c ∈ ['.', '*', '+', '?', '[', '^', '$', '\\'] then .escaped c h else .ordinary c h

theorem value_ofChar (c : Char) : (Token.ofChar c).value = c := by
  unfold Token.ofChar
  split <;> rfl

theorem text_ofChar (c : Char) :
    (Token.ofChar c).text =
      if c ∈ ['.', '*', '+', '?', '[', '^', '$', '\\'] then ['\\', c] else [c] := by
  unfold Token.ofChar
  split <;> rfl

theorem escapeChars_eq_spelling (cs : List Char) :
    escapeChars cs = spelling (cs.map Token.ofChar) := by
  induction cs with
  | nil => rfl
  | cons c cs ih =>
    rw [escapeChars, List.map_cons, spelling_cons, text_ofChar, ← ih]
    simp only [isSpecial_iff]
    split <;> rfl

theorem literal?_escape (text : String) : literal? (escape text) = some text := by
  refine literal?_eq_some_iff.mpr ⟨text.toList.map Token.ofChar, ?_, ?_⟩
  · rw [escape, escapeChars_eq_spelling]
  · simp [Function.comp_def, value_ofChar]

theorem isFixed_escape (text : String) : isFixed (escape text) = true := by
  obtain ⟨hfixed, -⟩ := Option.ite_none_right_eq_some.mp (literal?_escape text)
  exact hfixed

theorem toList_escape (text : String) :
    (escape text).toList = text.toList.flatMap fun c =>
      if c ∈ ['.', '*', '+', '?', '[', '^', '$', '\\'] then ['\\', c] else [c] := by
  rw [escape, String.toList_ofList, escapeChars_eq_spelling, spelling, List.flatMap_map]
  simp only [text_ofChar]

theorem dispatch_reSearch {s : Scene} {shared : List Selection}
    (hreg : s.engine.registry = .builtin) (hopen : (s.gate shared).1 = true) (way : Rule.Direction)
    {pattern text : String} (h : literal? pattern = some text) (rest : List Form) :
    (s.dispatch shared (.named way.reSearch (.str pattern :: rest))).1 =
      some ⟨"simplify", "search-literal-regexp",
        .list (.symbol way.reSearch :: .str pattern :: rest),
        [⟨.list (.symbol way.search :: .str text :: rest), none⟩]⟩ := by
  rw [Scene.dispatch_builtin hreg hopen, Rule.advice_of_fires (Rule.Fires.literal way h)]
  · rfl
  · intro hrule
    exact absurd hrule (by decide)

/-- Escaping puts a backslash before each special character of a text and leaves the others alone.
The result is a fixed pattern with just this text, so it can take the place of any pattern with this
text; and an engine with the builtin rules and an open gate advises everyone who searches for it,
with whatever further arguments, to search for the text with the same arguments. -/
theorem escape_undone (text : String) :
    ((escape text).toList = text.toList.flatMap fun c =>
      if c ∈ ['.', '*', '+', '?', '[', '^', '$', '\\'] then ['\\', c] else [c]) ∧
    isFixed (escape text) = true ∧ literal? (escape text) = some text ∧
    (∀ p, literal? p = some text →
      isFixed (escape text) = true ∧ literal? (escape text) = literal? p) ∧
    ∀ (s : Scene) (shared : List Selection) (rest : List Form),
      s.engine.registry = .builtin → (s.gate shared).1 = true →
      (s.dispatch shared (.named "re-search-forward" (.str (escape text) :: rest))).1 =
        some ⟨"simplify", "search-literal-regexp",
          .list (.symbol "re-search-forward" :: .str (escape text) :: rest),
          [⟨.list (.symbol "search-forward" :: .str text :: rest), none⟩]⟩ := by
  refine ⟨toList_escape text, isFixed_escape text, literal?_escape text, ?_, ?_⟩
  · intro p hp
    exact ⟨isFixed_escape text, (literal?_escape text).trans hp.symm⟩
  · intro s shared rest hreg hopen
    exact dispatch_reSearch hreg hopen .forward (literal?_escape text) rest

/-- A search for a pattern of brackets and backslashes up to the end of the buffer, which the rule
about bounds would have something to say on as well. -/
theorem escape_undone_brackets :
    let s : Scene := ⟨Engine.new 0 (.fixed .all), Host.fresh fun _ _ => .crash, []⟩
    escape "[\\]]" = "\\[\\\\]]" ∧ literal? "[[][\\]]]" = some "[\\]]" ∧
      literal? (escape "[\\]]") = literal? "[[][\\]]]" ∧
      s.engine.registry = .builtin ∧ (s.gate []).1 = true ∧
      (s.dispatch [] (.named "re-search-forward"
        [.str (escape "[\\]]"), .nullary "point-max"])).1 =
        some ⟨"simplify", "search-literal-regexp",
          .list [.symbol "re-search-forward", .str (escape "[\\]]"), .nullary "point-max"],
          [⟨.list [.symbol "search-forward", .str "[\\]]", .nullary "point-max"], none⟩]⟩ := by
  intro s
  have hother : literal? "[[][\\]]]" = some "[\\]]" := by decide
  obtain ⟨-, -, -, hsame, hadvice⟩ := escape_undone "[\\]]"
  have hsearch := hadvice s [] [.nullary "point-max"] rfl rfl
  exact ⟨by decide, hother, (hsame _ hother).2, rfl, rfl, hsearch⟩

end CallAdvice.Pattern
