import CallAdvice.Proofs.Pattern.Composition

/-! How the text of a pattern is taken out of it. Backslashes and brackets are dropped in rounds:
the first character ahead decides what a round does, and what comes after it is written or passed
over as it is (`Pattern.rounds`). The rounds of a fixed pattern are its tokens, one after the other
(`Pattern.rounds_spelling`), so there is always something to write, and nothing but closing brackets
is passed over without a look. -/
set_option autoImplicit false

namespace CallAdvice.Pattern

/-! ## Rounds -/

/-- One round of taking the text out of a pattern. -/
structure Round where
  /-- What lies ahead when it begins. -/
  ahead : List Char
  /-- The backslash or bracket that it has looked at and leaves out. -/
  opening : List Char
  written : List Char
  /-- What it passes over without a look. -/
  skipped : List Char

/-- All that a round reads. -/
def Round.read (r : Round) : List Char := r.opening ++ r.written ++ r.skipped

/-- Whether a round begins before the character `c`. -/
def Round.meets (c : Char) (r : Round) : Bool := r.ahead.head? == some c

/-- The rounds in which characters are gone through, whether they are a fixed pattern or not. -/
def rounds : List Char → List Round
  | [] => []
  | '\\' :: cs => ⟨'\\' :: cs, ['\\'], cs.take 1, []⟩ :: rounds (cs.drop 1)
  | '[' :: cs => ⟨'[' :: cs, ['['], cs.take 1, (cs.drop 1).take 1⟩ :: rounds (cs.drop 2)
  | c :: cs => ⟨c :: cs, [], [c], []⟩ :: rounds cs
termination_by cs => cs.length

theorem rounds_nil : rounds [] = [] := by rw [rounds]

theorem rounds_ordinary {c : Char} (hback : c ≠ '\\') (hopen : c ≠ '[') (cs : List Char) :
    rounds (c :: cs) = ⟨c :: cs, [], [c], []⟩ :: rounds cs := by
  rw [rounds]
  · exact hback
  · exact hopen

/-- What the rounds write, one after the other, is what is left without backslashes and brackets. -/
theorem unescape_eq_written (cs : List Char) : unescape cs = (rounds cs).flatMap Round.written := by
  fun_induction unescape cs with
  | case1 => simp [rounds]
  | case2 => simp [rounds]
  | case3 c rest ih => simp [rounds, ih]
  | case4 => simp [rounds]
  | case5 c => simp [rounds]
  | case6 c d rest ih => simp [rounds, ih]
  | case7 c rest hlone hescape hopen hclass hbracket ih =>
    -- Neither a backslash nor a bracket comes this far, whatever is behind it.
    have hback : c ≠ '\\' := by
      rintro rfl
      cases rest with
      | nil => exact hlone rfl rfl
      | cons d ds => exact hescape d ds rfl rfl
    have hbrack : c ≠ '[' := by
      rintro rfl
      rcases rest with _ | ⟨d, _ | ⟨e, ds⟩⟩
      · exact hopen rfl rfl
      · exact hclass d rfl rfl
      · exact hbracket d e ds rfl rfl
    rw [rounds_ordinary hback hbrack, List.flatMap_cons, ih]
    rfl

/-- A round begins where the one before it has stopped reading. -/
theorem rounds_cons {cs : List Char} {r : Round} {later : List Round}
    (h : rounds cs = r :: later) :
    r.ahead = cs ∧ ∃ rest, cs = r.read ++ rest ∧ rounds rest = later := by
  rw [rounds.eq_def] at h
  split at h
  · cases h
  · next tail =>
    obtain ⟨rfl, rfl⟩ := List.cons.inj h
    exact ⟨rfl, tail.drop 1, by cases tail <;> rfl, rfl⟩
  · next tail =>
    obtain ⟨rfl, rfl⟩ := List.cons.inj h
    exact ⟨rfl, tail.drop 2, by rcases tail with _ | ⟨c, _ | ⟨d, rest⟩⟩ <;> rfl, rfl⟩
  · next c tail _ _ =>
    obtain ⟨rfl, rfl⟩ := List.cons.inj h
    exact ⟨rfl, tail, rfl, rfl⟩

theorem read_append_ahead {cs : List Char} {earlier later : List Round} {r : Round}
    (h : rounds cs = earlier ++ r :: later) : cs = earlier.flatMap Round.read ++ r.ahead := by
  induction earlier generalizing cs with
  | nil => exact (rounds_cons h).1.symm
  | cons first earlier ih =>
    obtain ⟨-, rest, hcs, hrest⟩ := rounds_cons h
    rw [hcs, ih hrest, List.flatMap_cons, List.append_assoc]

/-! ## The rounds of a fixed pattern -/

/-- The round that reads a token with `rest` behind it. -/
def Token.round (rest : List Char) : Token → Round
  | .ordinary c _ => ⟨c :: rest, [], [c], []⟩
  | .escaped c _ => ⟨'\\' :: c :: rest, ['\\'], [c], []⟩
  | .bracket c _ => ⟨'[' :: c :: ']' :: rest, ['['], [c], [']']⟩

theorem rounds_text_append (t : Token) (rest : List Char) :
    rounds (t.text ++ rest) = t.round rest :: rounds rest := by
  cases t with
  | ordinary c hc =>
    obtain ⟨hback, hopen⟩ := ne_of_not_special hc
    exact rounds_ordinary hback hopen rest
  | escaped c hc => simp [Token.text, Token.round, rounds]
  | bracket c hc => simp [Token.text, Token.round, rounds]

theorem rounds_spelling_cons (t : Token) (ts : List Token) :
    rounds (spelling (t :: ts)) = t.round (spelling ts) :: rounds (spelling ts) := by
  rw [spelling_cons, rounds_text_append]

/-- Each round begins before a token and reads that token. -/
theorem rounds_spelling (ts : List Token) :
    (rounds (spelling ts)).map Round.read = ts.map Token.text ∧
      ∀ r ∈ rounds (spelling ts), ∃ (t : Token) (rest : List Char), r = t.round rest := by
  induction ts with
  | nil => simp [rounds_nil]
  | cons t ts ih =>
    have hread : (t.round (spelling ts)).read = t.text := by cases t <;> rfl
    rw [rounds_spelling_cons, List.map_cons, List.map_cons, hread, ih.1]
    refine ⟨rfl, ?_⟩
    intro r hr
    rcases List.mem_cons.mp hr with rfl | hr
    · exact ⟨t, spelling ts, rfl⟩
    · exact ih.2 r hr

theorem followed_of_round (t : Token) (rest : List Char) :
    (∀ cs, (t.round rest).ahead = '\\' :: cs → ∃ c, cs = c :: rest) ∧
      (∀ cs, (t.round rest).ahead = '[' :: cs → ∃ c, cs = c :: ']' :: rest) ∧
      ∀ c ∈ (t.round rest).skipped, c = ']' := by
  cases t with
  | ordinary c hc =>
    obtain ⟨hback, hopen⟩ := ne_of_not_special hc
    refine ⟨?_, ?_, by simp [Token.round]⟩
    · intro cs h
      exact absurd (List.cons.inj h).1 hback
    · intro cs h
      exact absurd (List.cons.inj h).1 hopen
  | escaped c hc => simp [Token.round]
  | bracket c hc => simp [Token.round]

/-! ## Lengths -/

theorem length_text (t : Token) (rest : List Char) :
    t.text.length = 1 + (if (t.round rest).meets '\\' then 1 else 0) +
      2 * (if (t.round rest).meets '[' then 1 else 0) := by
  cases t with
  | ordinary c hc =>
    obtain ⟨hback, hopen⟩ := ne_of_not_special hc
    simp [Token.text, Token.round, Round.meets, hback, hopen]
  | escaped c hc => simp [Token.text, Token.round, Round.meets]
  | bracket c hc => simp [Token.text, Token.round, Round.meets]

theorem length_spelling (ts : List Token) :
    (spelling ts).length = ts.length + (rounds (spelling ts)).countP (Round.meets '\\') +
      2 * (rounds (spelling ts)).countP (Round.meets '[') := by
  induction ts with
  | nil => simp [rounds_nil]
  | cons t ts ih =>
    have htext := length_text t (spelling ts)
    rw [rounds_spelling_cons, List.countP_cons, List.countP_cons, spelling_cons,
      List.length_append, List.length_cons]
    omega

theorem text_eq_value_iff (t : Token) :
    t.text = [t.value] ↔ '\\' ∉ t.text ∧ '[' ∉ t.text := by
  cases t with
  | ordinary c hc =>
    obtain ⟨hback, hopen⟩ := ne_of_not_special hc
    simp [Token.text, Token.value, hback.symm, hopen.symm]
  | escaped c hc => simp [Token.text, Token.value]
  | bracket c hc => simp [Token.text, Token.value]

theorem spelling_eq_values_iff (ts : List Token) :
    spelling ts = ts.map Token.value ↔ '\\' ∉ spelling ts ∧ '[' ∉ spelling ts := by
  induction ts with
  | nil => simp
  | cons t ts ih =>
    have htext : 1 ≤ t.text.length := List.length_pos_iff.mpr (text_ne_nil t)
    have hrest := length_spelling ts
    -- No token is shorter than its value, so equal sequences are equal token by token.
    have hboth : spelling (t :: ts) = (t :: ts).map Token.value ↔
        t.text = [t.value] ∧ spelling ts = ts.map Token.value := by
      rw [spelling_cons, List.map_cons]
      constructor
      · intro h
        have hlength := congrArg List.length h
        rw [List.length_append, List.length_cons, List.length_map] at hlength
        have hone : t.text.length = [t.value].length := by
          rw [List.length_singleton]
          omega
        exact List.append_inj h hone
      · rintro ⟨ht, hts⟩
        rw [ht, hts]
        rfl
    rw [hboth, text_eq_value_iff, ih, spelling_cons, List.mem_append, List.mem_append,
      not_or, not_or]
    exact and_and_and_comm

/-- Of a fixed pattern, each round reads one token, and the next one begins behind it. A backslash
at the beginning of a round has a character behind it, and a bracket has one and then its closing
bracket, which alone is passed over without a look. The text is what the rounds write, and the
pattern is longer by one character for each backslash met and by two for each bracket. So the text
is never the longer one, and is the pattern itself only where neither occurs. -/
theorem rounds_account_for_fixed {pattern : String} (hp : isFixed pattern = true) :
    (∃ ts, pattern = String.ofList (spelling ts) ∧
      (rounds pattern.toList).map Round.read = ts.map Token.text) ∧
    (∀ earlier r later, rounds pattern.toList = earlier ++ r :: later →
      pattern.toList = earlier.flatMap Round.read ++ r.ahead ∧
      (∀ cs, r.ahead = '\\' :: cs → ∃ c rest, cs = c :: rest) ∧
      (∀ cs, r.ahead = '[' :: cs → ∃ c rest, cs = c :: ']' :: rest) ∧
      ∀ c ∈ r.skipped, c = ']') ∧
    ∃ text, literal? pattern = some text ∧
      text.toList = (rounds pattern.toList).flatMap Round.written ∧
      pattern.length = text.length + (rounds pattern.toList).countP (Round.meets '\\') +
        2 * (rounds pattern.toList).countP (Round.meets '[') ∧
      text.length ≤ pattern.length ∧
      (text = pattern ↔ '\\' ∉ pattern.toList ∧ '[' ∉ pattern.toList) := by
  obtain ⟨ts, rfl⟩ := isFixed_iff.mp hp
  obtain ⟨hread, htoken⟩ := rounds_spelling ts
  have hlength := length_spelling ts
  simp only [String.toList_ofList, String.length_ofList]
  refine ⟨⟨ts, rfl, hread⟩, ?_, _, literal?_spelling ts, ?_, ?_, ?_, ?_⟩
  · intro earlier r later hr
    obtain ⟨t, rest, rfl⟩ := htoken r (by simp [hr])
    obtain ⟨hback, hopen, hskipped⟩ := followed_of_round t rest
    refine ⟨read_append_ahead hr, ?_, ?_, hskipped⟩
    · intro cs h
      obtain ⟨c, hc⟩ := hback cs h
      exact ⟨c, rest, hc⟩
    · intro cs h
      obtain ⟨c, hc⟩ := hopen cs h
      exact ⟨c, rest, hc⟩
  · rw [String.toList_ofList, ← unescape_eq_written, unescape_spelling]
  · rw [String.length_ofList, List.length_map]
    exact hlength
  · rw [String.length_ofList, List.length_map]
    omega
  · rw [String.ofList_inj, eq_comm]
    exact spelling_eq_values_iff ts

/-- In `\[a[[]]` one bracket stands behind a backslash, one in a class, and one for itself. -/
theorem rounds_account_for_fixed_brackets :
    let pattern := "\\[a[[]]"
    isFixed pattern = true ∧ literal? pattern = some "[a[]" ∧
      (rounds pattern.toList).flatMap Round.written = ['[', 'a', '[', ']'] ∧
      pattern.length = "[a[]".length + (rounds pattern.toList).countP (Round.meets '\\') +
        2 * (rounds pattern.toList).countP (Round.meets '[') ∧
      "[a[]" ≠ pattern := by
  intro pattern
  have hp : isFixed pattern = true := by decide
  obtain ⟨-, -, text, htext, hwritten, hlength, -, hsame⟩ := rounds_account_for_fixed hp
  obtain rfl : text = "[a[]" := Option.some.inj (htext.symm.trans (by decide))
  exact ⟨hp, htext, hwritten.symm, hlength, fun h => (hsame.mp h).1 (by decide)⟩

end CallAdvice.Pattern
