import CallAdvice.Pattern

/-! The grammar of fixed patterns. A fixed pattern is a sequence of tokens: ordinary characters,
special characters after a backslash, and bracket classes of one character. The first character of
a pattern tells which token comes first and how long it is, so a pattern is taken apart in one way
only (`Pattern.spelling_injective`). The test for fixed patterns accepts the spellings of token
sequences and nothing else (`Pattern.fixedChars_iff`), and taking out backslashes and brackets
leaves the values of the tokens (`Pattern.unescape_spelling`). -/
set_option autoImplicit false

namespace CallAdvice.Pattern

/-! ## Tokens -/

/-- The smallest parts of a fixed pattern. -/
inductive Token where
  /-- A character that stands for itself. -/
  | ordinary (c : Char) (h : c ∉ ['.', '*', '+', '?', '[', '^', '$', '\\'])
  /-- A special character after a backslash. -/
  | escaped (c : Char) (h : c ∈ ['.', '*', '+', '?', '[', '^', '$', '\\'])
  /-- A class of one character. -/
  | bracket (c : Char) (h : c ≠ ']' ∧ c ≠ '^')
  deriving DecidableEq

/-- How a token is written. -/
def Token.text : Token → List Char
  | .ordinary c _ => [c]
  | .escaped c _ => ['\\', c]
  | .bracket c _ => ['[', c, ']']

/-- The character that a token matches. -/
def Token.value : Token → Char
  | .ordinary c _ | .escaped c _ | .bracket c _ => c

/-- How a sequence of tokens is written. -/
def spelling (tokens : List Token) : List Char := tokens.flatMap Token.text

@[simp] theorem spelling_nil : spelling [] = [] := rfl

@[simp] theorem spelling_cons (t : Token) (ts : List Token) :
    spelling (t :: ts) = t.text ++ spelling ts := List.flatMap_cons

theorem isSpecial_iff {c : Char} :
    isSpecial c = true ↔ c ∈ ['.', '*', '+', '?', '[', '^', '$', '\\'] := by
  simp [isSpecial, special]

theorem isSpecial_eq_false_iff {c : Char} :
    isSpecial c = false ↔ c ∉ ['.', '*', '+', '?', '[', '^', '$', '\\'] := by
  rw [← isSpecial_iff, Bool.not_eq_true]

theorem ne_of_not_special {c : Char} (h : c ∉ ['.', '*', '+', '?', '[', '^', '$', '\\']) :
    c ≠ '\\' ∧ c ≠ '[' := by
  constructor
  · rintro rfl
    exact h (by decide)
  · rintro rfl
    exact h (by decide)

/-- The first character of a text decides which token it can begin with. -/
theorem text_append_inj {t u : Token} {rest rest' : List Char}
    (h : t.text ++ rest = u.text ++ rest') : t = u ∧ rest = rest' := by
  cases t with
  | ordinary c hc =>
    obtain ⟨hback, hopen⟩ := ne_of_not_special hc
    cases u with
    | ordinary d hd => simpa [Token.text] using h
    | escaped d hd => exact absurd (List.cons.inj h).1 hback
    | bracket d hd => exact absurd (List.cons.inj h).1 hopen
  | escaped c hc =>
    cases u with
    | ordinary d hd => exact absurd (List.cons.inj h).1.symm (ne_of_not_special hd).1
    | escaped d hd => simpa [Token.text] using h
    | bracket d hd => exact absurd (List.cons.inj h).1 (by decide)
  | bracket c hc =>
    cases u with
    | ordinary d hd => exact absurd (List.cons.inj h).1.symm (ne_of_not_special hd).2
    | escaped d hd => exact absurd (List.cons.inj h).1 (by decide)
    | bracket d hd => simpa [Token.text] using h

theorem text_ne_nil (t : Token) : t.text ≠ [] := by
  cases t <;> simp [Token.text]

theorem spelling_injective {ts us : List Token} (h : spelling ts = spelling us) : ts = us := by
  induction ts generalizing us with
  | nil =>
    cases us with
    | nil => rfl
    | cons u us => simp [text_ne_nil] at h
  | cons t ts ih =>
    cases us with
    | nil => simp [text_ne_nil] at h
    | cons u us =>
      rw [spelling_cons, spelling_cons] at h
      obtain ⟨rfl, hrest⟩ := text_append_inj h
      rw [ih hrest]

/-! ## The two readers, token by token -/

theorem fixedChars_text_append (t : Token) (rest : List Char) :
    fixedChars (t.text ++ rest) = fixedChars rest := by
  cases t with
  | ordinary c hc =>
    obtain ⟨hback, hopen⟩ := ne_of_not_special hc
    show fixedChars (c :: rest) = _
    rw [fixedChars, isSpecial_eq_false_iff.mpr hc]
    · rfl
    · intro d ds hd
      exact absurd hd hback
    · intro d ds hd
      exact absurd hd hopen
  | escaped c hc =>
    show fixedChars ('\\' :: c :: rest) = _
    rw [fixedChars, isSpecial_iff.mpr hc, Bool.true_and]
  | bracket c hc =>
    show fixedChars ('[' :: c :: ']' :: rest) = _
    simp [fixedChars, hc]

theorem unescape_text_append (t : Token) (rest : List Char) :
    unescape (t.text ++ rest) = t.value :: unescape rest := by
  cases t with
  | ordinary c hc =>
    obtain ⟨hback, hopen⟩ := ne_of_not_special hc
    show unescape (c :: rest) = _
    rw [unescape.eq_def]
    split <;> simp_all [Token.value]
  | escaped c hc => rfl
  | bracket c hc => rfl

theorem fixedChars_spelling_append (ts : List Token) (rest : List Char) :
    fixedChars (spelling ts ++ rest) = fixedChars rest := by
  induction ts with
  | nil => rfl
  | cons t ts ih => rw [spelling_cons, List.append_assoc, fixedChars_text_append, ih]

theorem fixedChars_spelling (ts : List Token) : fixedChars (spelling ts) = true := by
  have h := fixedChars_spelling_append ts []
  rwa [List.append_nil] at h

theorem exists_spelling {cs : List Char} (h : fixedChars cs = true) : ∃ ts, spelling ts = cs := by
  -- Each case of the test reads one token.
  fun_induction fixedChars cs with
  | case1 => exact ⟨[], rfl⟩
  | case2 c rest ih =>
    rw [Bool.and_eq_true, isSpecial_iff] at h
    obtain ⟨ts, rfl⟩ := ih h.2
    exact ⟨.escaped c h.1 :: ts, spelling_cons _ ts⟩
  | case3 c rest ih =>
    simp only [Bool.and_eq_true, bne_iff_ne] at h
    obtain ⟨ts, rfl⟩ := ih h.2
    exact ⟨.bracket c h.1 :: ts, spelling_cons _ ts⟩
  | case4 c rest _ _ ih =>
    rw [Bool.and_eq_true, Bool.not_eq_true', isSpecial_eq_false_iff] at h
    obtain ⟨ts, rfl⟩ := ih h.2
    exact ⟨.ordinary c h.1 :: ts, spelling_cons _ ts⟩

theorem fixedChars_iff {cs : List Char} : fixedChars cs = true ↔ ∃ ts, spelling ts = cs := by
  constructor
  · exact exists_spelling
  · rintro ⟨ts, rfl⟩
    exact fixedChars_spelling ts

theorem unescape_spelling_append (ts : List Token) (rest : List Char) :
    unescape (spelling ts ++ rest) = ts.map Token.value ++ unescape rest := by
  induction ts with
  | nil => rfl
  | cons t ts ih =>
    rw [spelling_cons, List.append_assoc, unescape_text_append, ih, List.map_cons, List.cons_append]

theorem unescape_spelling (ts : List Token) : unescape (spelling ts) = ts.map Token.value := by
  have h := unescape_spelling_append ts []
  rwa [unescape, List.append_nil, List.append_nil] at h

/-! ## Patterns -/

theorem isFixed_iff {pattern : String} :
    isFixed pattern = true ↔ ∃ ts, pattern = String.ofList (spelling ts) := by
  unfold isFixed
  rw [fixedChars_iff]
  constructor
  · rintro ⟨ts, hts⟩
    exact ⟨ts, by rw [hts, String.ofList_toList]⟩
  · rintro ⟨ts, rfl⟩
    exact ⟨ts, String.toList_ofList.symm⟩

theorem literal?_spelling (ts : List Token) :
    literal? (String.ofList (spelling ts)) = some (String.ofList (ts.map Token.value)) := by
  unfold literal?
  rw [if_pos (isFixed_iff.mpr ⟨ts, rfl⟩), String.toList_ofList, unescape_spelling]

/-- A pattern is fixed if and only if it is a sequence of tokens, it is one such sequence only, and
its text is made of their values; a pattern that is no sequence of tokens has no text. -/
theorem fixed_iff_spelled_once (pattern : String) :
    (isFixed pattern = true ↔ ∃ ts, pattern = String.ofList (spelling ts)) ∧
    (∀ ts us, pattern = String.ofList (spelling ts) → pattern = String.ofList (spelling us) →
      ts = us) ∧
    (∀ ts, pattern = String.ofList (spelling ts) →
      literal? pattern = some (String.ofList (ts.map Token.value))) ∧
    (literal? pattern = none ↔ isFixed pattern = false) := by
  refine ⟨isFixed_iff, ?_, ?_, ?_⟩
  · rintro ts us rfl hus
    exact spelling_injective (String.ofList_injective hus)
  · rintro ts rfl
    exact literal?_spelling ts
  · simp [literal?]

/-- In `[[]\[x]]` the first bracket opens a class, the second is its one character, the third is
escaped, and the closing ones behind the class stand for themselves. -/
theorem fixed_iff_spelled_once_brackets :
    let tokens : List Token := [.bracket '[' (by decide), .escaped '[' (by decide),
      .ordinary 'x' (by decide), .ordinary ']' (by decide), .ordinary ']' (by decide)]
    "[[]\\[x]]" = String.ofList (spelling tokens) ∧ isFixed "[[]\\[x]]" = true ∧
      literal? "[[]\\[x]]" = some "[[x]]" ∧
      ∀ us, "[[]\\[x]]" = String.ofList (spelling us) → tokens = us := by
  intro tokens
  have hspelled : "[[]\\[x]]" = String.ofList (spelling tokens) := by decide
  obtain ⟨hfixed, honce, hliteral, -⟩ := fixed_iff_spelled_once "[[]\\[x]]"
  exact ⟨hspelled, hfixed.mpr ⟨tokens, hspelled⟩, hliteral tokens hspelled,
    fun us hus => honce tokens us hspelled hus⟩

end CallAdvice.Pattern
