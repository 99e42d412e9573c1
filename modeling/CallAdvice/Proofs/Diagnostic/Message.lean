import CallAdvice.Proofs.Call.Spelling

/-! A message says all that is in a diagnostic but its rule. The forms in a message are followed by
a blank, a comma or its end, and none of these is part of a form whose symbols are free of dividers
and commas (`Form.Plain`); strings may hold anything, since the quote that closes them is known. So
the forms can be told from what is said about hosts and from the words between them, however many
suggestions there are (`Diagnostic.message_determines`). -/
set_option autoImplicit false

namespace CallAdvice

/-! ## Forms in a message -/

namespace Form

mutual

/-- The names of the symbols in a form. -/
def symbols : Form → List String
  | .symbol name => [name]
  | .int _ | .str _ => []
  | .list items => symbolsAll items

/-- The names of the symbols in some forms. -/
def symbolsAll : List Form → List String
  | [] => []
  | item :: items => item.symbols ++ symbolsAll items

end

/-- `f.Plain`: every symbol of the form can be read back and holds no comma. -/
def Plain (f : Form) : Prop :=
  ∀ name ∈ f.symbols, isName name.toList = true ∧ ',' ∉ name.toList

instance (f : Form) : Decidable f.Plain :=
  inferInstanceAs (Decidable (∀ name ∈ f.symbols, isName name.toList = true ∧ ',' ∉ name.toList))

theorem mem_symbolsAll {items : List Form} {name : String} :
    name ∈ symbolsAll items ↔ ∃ item ∈ items, name ∈ item.symbols := by
  induction items with
  | nil => simp [symbolsAll]
  | cons item items ih => simp [symbolsAll, ih]

theorem Plain.item {items : List Form} (h : (Form.list items).Plain) {item : Form}
    (hitem : item ∈ items) : item.Plain := by
  intro name hname
  exact h name (by rw [symbols]; exact mem_symbolsAll.mpr ⟨item, hitem, hname⟩)

theorem Plain.readable {f : Form} (h : f.Plain) : f.readable = true := by
  induction f using Form.induction with
  | symbol name => exact (h name (by simp [symbols])).1
  | int value => rfl
  | str text => rfl
  | list items ih =>
    rw [Form.readable, readableAll_iff]
    intro item hitem
    exact ih item hitem (h.item hitem)

/-- Whether a form in a message can end before this text: it is empty or begins with a blank or a
comma. -/
def endsPhrase (u : List Char) : Bool := u.head?.all fun c => c == ' ' || c == ','

theorem Plain.atom? {f : Form} {cs : List Char} (h : f.Plain) (hcs : f.atom? = some cs) :
    ∀ c ∈ cs, (c == ' ' || c == ',') = false := by
  intro c hc
  have hdivider : c ∉ dividers := (atom?_plain h.readable hcs).2 c hc
  have hblank : c ≠ ' ' := by
    rintro rfl
    exact hdivider (by decide)
  have hcomma : c ≠ ',' := by
    rintro rfl
    cases f with
    | symbol name =>
      obtain rfl := Option.some.inj hcs
      exact (h name (by simp [symbols])).2 hc
    | int value =>
      obtain rfl := Option.some.inj hcs
      rcases isDigit_of_mem_decimal hc with hminus | hdigit
      · exact absurd hminus (by decide)
      · exact absurd hdigit (by decide)
    | str text => cases hcs
    | list items => cases hcs
  simp [hblank, hcomma]

theorem phrase_inj_of_atom? {f g : Form} {cs u v : List Char} (hf : f.Plain) (hg : g.Plain)
    (hcs : f.atom? = some cs) (hu : endsPhrase u = true) (hv : endsPhrase v = true)
    (h : f.write u = g.write v) : f = g ∧ u = v := by
  cases hds : g.atom? with
  | some ds =>
    rw [write_of_atom? hcs, write_of_atom? hds] at h
    obtain ⟨rfl, huv⟩ := append_inj_of_stops _ (hf.atom? hcs) (hg.atom? hds) hu hv h
    exact ⟨eq_of_atom? hf.readable hg.readable hcs hds, huv⟩
  | none => exact absurd h (write_atom_ne hf.readable hcs hds u v)

/-- Where texts begin with plain forms in a message, the forms are the same and so are the rests. -/
theorem phrase_inj {f g : Form} {u v : List Char} (hf : f.Plain) (hg : g.Plain)
    (hu : endsPhrase u = true) (hv : endsPhrase v = true) (h : f.write u = g.write v) :
    f = g ∧ u = v := by
  have hatom : ∀ {f g : Form} {cs u v : List Char}, f.Plain → g.Plain → g.atom? = some cs →
      endsPhrase u = true → endsPhrase v = true → f.write u = g.write v → f = g ∧ u = v := by
    intro f g cs u v hf hg hcs hu hv h
    obtain ⟨hgf, hvu⟩ := phrase_inj_of_atom? hg hf hcs hv hu h.symm
    exact ⟨hgf.symm, hvu.symm⟩
  -- Only under a quote does the end of a form depend on what follows it.
  induction f using Form.induction generalizing g with
  | symbol name => exact phrase_inj_of_atom? hf hg rfl hu hv h
  | int value => exact phrase_inj_of_atom? hf hg rfl hu hv h
  | str text =>
    cases g with
    | symbol name => exact hatom hf hg rfl hu hv h
    | int value => exact hatom hf hg rfl hu hv h
    | str text' =>
      rw [write, write] at h
      obtain ⟨htext, huv⟩ := escapeText_append_inj (List.cons.inj h).2
      exact ⟨by rw [String.toList_injective htext], huv⟩
    | list items => exact absurd h (write_str_ne_write_list text items u v)
  | list items ih =>
    cases g with
    | symbol name => exact hatom hf hg rfl hu hv h
    | int value => exact hatom hf hg rfl hu hv h
    | str text => exact absurd h.symm (write_str_ne_write_list text items v u)
    | list others =>
      have hitems : readableAll items = true := hf.readable
      have hothers : readableAll others = true := hg.readable
      rcases write_list_cases items with ⟨x, rfl, hx⟩ | hx <;>
        rcases write_list_cases others with ⟨y, rfl, hy⟩ | hy <;>
        rw [hx, hy] at h <;> obtain ⟨hfirst, hrest⟩ := List.cons.inj h
      · obtain ⟨rfl, huv⟩ := ih x (by simp) (hf.item (by simp)) (hg.item (by simp)) hrest
        exact ⟨rfl, huv⟩
      · exact absurd hfirst (by decide)
      · exact absurd hfirst (by decide)
      · have hunambiguous : ∀ item ∈ items, item.Unambiguous := fun item hitem =>
          unambiguous (readableAll_iff.mp hitems item hitem)
        obtain ⟨rfl, huv⟩ := writeSpaced_inj hunambiguous hitems hothers hrest
        exact ⟨rfl, huv⟩

theorem write_ne_nil {f : Form} (hf : f.readable = true) (rest : List Char) :
    f.write rest ≠ [] := by
  cases hcs : f.atom? with
  | some cs =>
    rw [write_of_atom? hcs]
    simp [(atom?_plain hf hcs).1]
  | none =>
    obtain ⟨c, -, cs, hwrite⟩ := write_of_not_atom hcs rest
    rw [hwrite]
    simp

end Form

/-! ## Suggestions -/

namespace Suggestion

/-- What a suggestion says about hosts behind its form. -/
def proviso : Option Capability → String
  | some c => " in " ++ c.hosts
  | none => ""

theorem text_eq (s : Suggestion) : s.text = s.form.text ++ proviso s.requires := by
  unfold text proviso
  cases s.requires with
  | none => simp
  | some c => simp [String.append_assoc]

theorem proviso_injective {r r' : Option Capability} (h : proviso r = proviso r') : r = r' := by
  have hnone : ∀ c : Capability, proviso none ≠ proviso (some c) := by
    intro c
    cases c <;> decide
  have hhosts : ∀ c d : Capability, proviso (some c) = proviso (some d) → c = d := by
    intro c d
    cases c <;> cases d <;> decide
  cases r with
  | none =>
    cases r' with
    | none => rfl
    | some d => exact absurd h (hnone d)
  | some c =>
    cases r' with
    | none => exact absurd h.symm (hnone c)
    | some d => rw [hhosts c d h]

theorem comma_not_mem_proviso (r : Option Capability) :
    ∀ c ∈ (proviso r).toList, (c == ',') = false := by
  have hfree : (proviso r).toList.all (fun c => !(c == ',')) = true := by
    cases r with
    | none => rfl
    | some c => cases c <;> rfl
  intro c hc
  simpa using List.all_eq_true.mp hfree c hc

/-- The suggestions behind the first, each after a comma. -/
def further (ss : List Suggestion) : String := String.join (ss.map fun s => ", or " ++ s.text)

theorem further_cons (s : Suggestion) (ss : List Suggestion) :
    further (s :: ss) = ", or " ++ (s.text ++ further ss) := by
  rw [further, List.map_cons, String.join_cons, String.append_assoc]
  rfl

theorem intercalate_text_cons (s : Suggestion) (ss : List Suggestion) :
    ", or ".intercalate ((s :: ss).map text) = s.text ++ further ss := by
  rw [List.map_cons, intercalate_cons, List.map_map]
  rfl

theorem head?_further (ss : List Suggestion) :
    (further ss).toList.head?.all (· == ',') = true := by
  cases ss with
  | nil => rfl
  | cons s ss =>
    rw [further_cons, String.toList_append]
    rfl

theorem endsPhrase_proviso (r : Option Capability) (ss : List Suggestion) :
    Form.endsPhrase (proviso r ++ further ss).toList = true := by
  cases r with
  | none =>
    have hfurther := head?_further ss
    rw [proviso, String.empty_append, Form.endsPhrase]
    cases hhead : (further ss).toList.head? with
    | none => rfl
    | some c =>
      rw [hhead] at hfurther
      rw [Option.all_some] at hfurther ⊢
      rw [hfurther, Bool.or_true]
  | some c =>
    rw [proviso, String.append_assoc, String.toList_append]
    rfl

/-- The first suggestion of a text is known, and so is what follows it. -/
theorem text_append_further_inj {s t : Suggestion} {ss ts : List Suggestion}
    (hs : s.form.Plain) (ht : t.form.Plain) (h : s.text ++ further ss = t.text ++ further ts) :
    s = t ∧ further ss = further ts := by
  have hwrite : ∀ (s : Suggestion) (ss : List Suggestion), (s.text ++ further ss).toList =
      s.form.write (proviso s.requires ++ further ss).toList := by
    intro s ss
    rw [text_eq, String.append_assoc, String.toList_append, Form.write_eq_toList]
  have hchars := congrArg String.toList h
  rw [hwrite, hwrite] at hchars
  obtain ⟨hform, hrest⟩ := Form.phrase_inj hs ht (endsPhrase_proviso s.requires ss)
    (endsPhrase_proviso t.requires ts) hchars
  -- What is said about hosts holds no comma, so it ends where the next suggestion begins.
  rw [String.toList_append, String.toList_append] at hrest
  obtain ⟨hproviso, hfurther⟩ := append_inj_of_stops (· == ',') (comma_not_mem_proviso s.requires)
    (comma_not_mem_proviso t.requires) (head?_further ss) (head?_further ts) hrest
  have hrequires := proviso_injective (String.toList_injective hproviso)
  obtain ⟨form, requires⟩ := s
  obtain ⟨form', requires'⟩ := t
  dsimp only at hform hrequires
  rw [hform, hrequires]
  exact ⟨rfl, String.toList_injective hfurther⟩

theorem further_inj {ss ts : List Suggestion} (hss : ∀ s ∈ ss, s.form.Plain)
    (hts : ∀ t ∈ ts, t.form.Plain) (h : further ss = further ts) : ss = ts := by
  have hne : ∀ s ss, further (s :: ss) ≠ further [] := by
    intro s ss hnil
    have hchars := congrArg String.toList hnil
    rw [further_cons, String.toList_append] at hchars
    cases hchars
  induction ss generalizing ts with
  | nil =>
    cases ts with
    | nil => rfl
    | cons t ts => exact absurd h.symm (hne t ts)
  | cons s ss ih =>
    cases ts with
    | nil => exact absurd h (hne s ss)
    | cons t ts =>
      rw [List.forall_mem_cons] at hss hts
      rw [further_cons, further_cons, String.append_right_inj] at h
      obtain ⟨rfl, hrest⟩ := text_append_further_inj hss.1 hts.1 h
      rw [ih hss.2 hts.2 hrest]

theorem intercalate_text_inj {ss ts : List Suggestion} (hss : ∀ s ∈ ss, s.form.Plain)
    (hts : ∀ t ∈ ts, t.form.Plain)
    (h : ", or ".intercalate (ss.map text) = ", or ".intercalate (ts.map text)) : ss = ts := by
  have hne : ∀ (s : Suggestion) ss, s.form.Plain →
      ", or ".intercalate ((s :: ss).map text) ≠ ", or ".intercalate ([].map text) := by
    intro s ss hs hnil
    have hchars := congrArg String.toList hnil
    rw [intercalate_text_cons, text_eq, String.append_assoc, String.toList_append,
      ← Form.write_eq_toList] at hchars
    exact Form.write_ne_nil hs.readable _ hchars
  cases ss with
  | nil =>
    cases ts with
    | nil => rfl
    | cons t ts => exact absurd h.symm (hne t ts (hts t List.mem_cons_self))
  | cons s ss =>
    cases ts with
    | nil => exact absurd h (hne s ss (hss s List.mem_cons_self))
    | cons t ts =>
      rw [List.forall_mem_cons] at hss hts
      rw [intercalate_text_cons, intercalate_text_cons] at h
      obtain ⟨rfl, hrest⟩ := text_append_further_inj hss.1 hts.1 h
      rw [further_inj hss.2 hts.2 hrest]

end Suggestion

/-! ## Messages -/

namespace Diagnostic

/-- `d.Legible`: all forms of the diagnostic are plain. -/
structure Legible (d : Diagnostic) : Prop where
  subject : d.subject.Plain
  suggestions : ∀ s ∈ d.suggestions, s.form.Plain

/-- Legible diagnostics with the same message are about the same form and make the same suggestions
in the same order, each with the same requirement, whatever their strings hold. -/
theorem message_determines {d e : Diagnostic} (hd : d.Legible) (he : e.Legible)
    (h : d.message = e.message) : d.subject = e.subject ∧ d.suggestions = e.suggestions := by
  have hwrite : ∀ d : Diagnostic, d.message.toList = d.subject.write
      (" can be simplified to " ++
        ", or ".intercalate (d.suggestions.map Suggestion.text)).toList := by
    intro d
    rw [message, String.append_assoc, String.toList_append, Form.write_eq_toList]
  have hends : ∀ u : String, Form.endsPhrase (" can be simplified to " ++ u).toList = true := by
    intro u
    rw [String.toList_append]
    rfl
  have hchars := congrArg String.toList h
  rw [hwrite, hwrite] at hchars
  obtain ⟨hsubject, hrest⟩ := Form.phrase_inj hd.subject he.subject (hends _) (hends _) hchars
  have hjoined := String.toList_injective hrest
  rw [String.append_right_inj] at hjoined
  exact ⟨hsubject, Suggestion.intercalate_text_inj hd.suggestions he.suggestions hjoined⟩

/-- A string that looks like a second suggestion with its hosts, and a quoted symbol before a comma:
the same message from another rule, and a different one where the second suggestion is real. -/
theorem message_determines_lookalike :
    let f (text : String) : Call := .named "f" [.str text]
    let begun := (ofCall "a" (f "x")).suggest (.named "quote" [.symbol "x"]) (some .listMotion)
    let d := begun.suggest (f ", or (g) in Emacs 23 and up") none
    let same := { d with rule := "b" }
    let real := (begun.suggest (f "") none).suggest (.named "g" []) (some .killBuffer)
    d.Legible ∧ same.Legible ∧ real.Legible ∧
      d.message = "(f \"x\") can be simplified to 'x in Emacs 21 and up, " ++
        "or (f \", or (g) in Emacs 23 and up\")" ∧
      d.message = same.message ∧ d.subject = same.subject ∧ d.suggestions = same.suggestions ∧
      d.message ≠ real.message := by
  intro f begun d same real
  have hd : d.Legible := ⟨by decide, by decide⟩
  have hsame : same.Legible := ⟨by decide, by decide⟩
  have hreal : real.Legible := ⟨by decide, by decide⟩
  obtain ⟨hsubject, hsuggestions⟩ := message_determines hd hsame rfl
  refine ⟨hd, hsame, hreal, by decide, rfl, hsubject, hsuggestions, ?_⟩
  intro h
  exact absurd (message_determines hd hreal h).2 (by decide)

end Diagnostic

end CallAdvice
