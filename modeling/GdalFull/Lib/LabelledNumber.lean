import GdalFull.Lib.Regex

/-!
# A number after a label

The pattern `name\s*\([^)]+\)\s*=\s*(\d+)`, and what it means for a text: `name`, blanks, a text in
parentheses, blanks, `=`, blanks and decimal digits stand behind each other (`LabelledAt`). A search
gives the digits at the first such place (`search_numberAfter_iff`), and nothing if there is none.
-/

namespace GdalFull.Lib

/-- `re.escape(name) + r"\s*\([^)]+\)\s*=\s*(\d+)"`. -/
def numberAfter (name : Text) : Regex :=
  .seq (.lit name) <| .seq (.many isSpace) <| .seq (.lit ['(']) <|
    .seq (.many1 (· != ')')) <| .seq (.lit [')']) <| .seq (.many isSpace) <|
      .seq (.lit ['=']) <| .seq (.many isSpace) <| .group (.many1 fun c => (decimal c).isSome)

/-- The text begins with `(type)`, blanks, `=`, blanks and `digits`, which end there. -/
structure TypedNumber (t digits : Text) : Prop where
  eq : ∃ type s₁ s₂ rest,
    t = '(' :: (type ++ ')' :: (s₁ ++ '=' :: (s₂ ++ (digits ++ rest)))) ∧
      type ≠ [] ∧ ')' ∉ type ∧ (∀ c ∈ s₁, isSpace c = true) ∧ (∀ c ∈ s₂, isSpace c = true) ∧
      ∀ c ∈ rest.head?, (decimal c).isSome = false
  digits_ne : digits ≠ []
  decimal : ∀ c ∈ digits, (decimal c).isSome = true

/-- The text begins with `name`, blanks and a typed number. -/
def LabelledAt (name t digits : Text) : Prop :=
  ∃ s u, t = name ++ (s ++ u) ∧ (∀ c ∈ s, isSpace c = true) ∧ TypedNumber u digits

/-- The first number after `name` in a text. -/
def FirstLabelled (name txt digits : Text) : Prop :=
  ∃ u, u <:+ txt ∧ LabelledAt name u digits ∧
    ∀ u' digits', u' <:+ txt → LabelledAt name u' digits' → u'.length ≤ u.length

theorem FirstLabelled.digits_ne {name txt digits : Text} (h : FirstLabelled name txt digits) :
    digits ≠ [] := by
  obtain ⟨_, _, ⟨_, _, _, _, hnumber⟩, _⟩ := h
  exact hnumber.digits_ne

theorem FirstLabelled.decimal {name txt digits : Text} (h : FirstLabelled name txt digits) :
    ∀ c ∈ digits, (decimal c).isSome = true := by
  obtain ⟨_, _, ⟨_, _, _, _, hnumber⟩, _⟩ := h
  exact hnumber.decimal

/-! ## A match -/

/-- A group of repeated characters at the end of a pattern takes all of them. -/
theorem run_group_many1_iff {p : Char → Bool} {g t b : Text} :
    (Regex.group (.many1 p)).run (fun g _ => some g) g t = some b ↔
      b ≠ [] ∧ (∀ c ∈ b, p c = true) ∧ ∃ rest, t = b ++ rest ∧ ∀ c ∈ rest.head?, p c = false := by
  constructor
  · intro h
    obtain ⟨hne, hb⟩ := Regex.run_group_many1 h
    have hsplit : t = t.takeWhile p ++ t.dropWhile p := List.takeWhile_append_dropWhile.symm
    have htake : t.takeWhile p ≠ [] := by
      intro hnil
      cases t with
      | nil => cases h
      | cons c t =>
        rw [Regex.run, Regex.run] at h
        have hc := (Option.ite_none_right_eq_some.mp h).1
        rw [List.takeWhile_cons_of_pos hc] at hnil
        cases hnil
    have hlongest := Regex.run_group_longest htake (fun _ => List.mem_takeWhile_imp)
      (eq_false_of_mem_dropWhile (p := p) (s := t)) g
    rw [← hsplit, h] at hlongest
    cases hlongest
    exact ⟨hne, hb, t.dropWhile p, hsplit, eq_false_of_mem_dropWhile⟩
  · rintro ⟨hne, hb, rest, rfl, hrest⟩
    exact Regex.run_group_longest hne hb hrest g

/-- Blanks before a character that is none. -/
theorem runMany_blanks {β : Type} {k : Text → Option β} {s t : Text} {c : Char} {b : β}
    (hs : ∀ d ∈ s, isSpace d = true) (hc : isSpace c = false) (hk : k (c :: t) = some b) :
    runMany isSpace k (s ++ c :: t) = some b := by
  refine runMany_longest hs ?_ hk
  rintro d ⟨⟩
  exact hc

theorem matchAt_numberAfter_iff {name t digits : Text} :
    (numberAfter name).matchAt t = some digits ↔ LabelledAt name t digits := by
  constructor
  · intro h
    obtain ⟨t₁, rfl, h₁⟩ := Regex.run_lit_some h
    obtain ⟨s, t₂, rfl, hs, h₂⟩ := runMany_some h₁
    obtain ⟨t₃, rfl, h₃⟩ := Regex.run_lit_some h₂
    refine ⟨s, _, rfl, hs, ?_⟩
    cases t₃ with
    | nil => cases h₃
    | cons c t₃ =>
      obtain ⟨hc, h₄⟩ := Option.ite_none_right_eq_some.mp h₃
      obtain ⟨type, t₄, rfl, htype, h₅⟩ := runMany_some h₄
      obtain ⟨t₅, rfl, h₆⟩ := Regex.run_lit_some h₅
      obtain ⟨s₁, t₆, rfl, hs₁, h₇⟩ := runMany_some h₆
      obtain ⟨t₇, rfl, h₈⟩ := Regex.run_lit_some h₇
      obtain ⟨s₂, t₈, rfl, hs₂, h₉⟩ := runMany_some h₈
      obtain ⟨hne, hdecimal, rest, rfl, hrest⟩ := run_group_many1_iff.mp h₉
      refine ⟨⟨c :: type, s₁, s₂, rest, rfl, List.cons_ne_nil c type, ?_, hs₁, hs₂, hrest⟩, hne,
        hdecimal⟩
      intro hmem
      have hall : ∀ d ∈ c :: type, (d != ')') = true := List.forall_mem_cons.mpr ⟨hc, htype⟩
      exact absurd (hall ')' hmem) (by decide)
  · rintro ⟨s, _, rfl, hs, ⟨type, s₁, s₂, rest, rfl, hne, hparen, hs₁, hs₂, hrest⟩, hdigits,
      hdecimal⟩
    have htype : ∀ c ∈ type, (c != ')') = true := fun c hc =>
      bne_iff_ne.mpr fun he => hparen (he ▸ hc)
    obtain ⟨d, ds, rfl⟩ := List.exists_cons_of_ne_nil hdigits
    have hd : isSpace d = false := isSpace_of_decimal (hdecimal d List.mem_cons_self)
    rw [numberAfter, Regex.matchAt, Regex.run, Regex.run_lit_append]
    refine runMany_blanks hs (by decide) ?_
    refine (Regex.run_lit_append ['('] _ [] _).trans ?_
    refine Regex.run_many1_longest hne htype (by rintro _ ⟨⟩; decide) ?_
    refine (Regex.run_lit_append [')'] _ [] _).trans ?_
    refine runMany_blanks hs₁ (by decide) ?_
    refine (Regex.run_lit_append ['='] _ [] _).trans ?_
    refine runMany_blanks hs₂ hd ?_
    exact run_group_many1_iff.mpr ⟨hdigits, hdecimal, rest, rfl, hrest⟩

/-! ## A search -/

/-- **A search finds the first number after the name.** -/
theorem search_numberAfter_iff {name txt digits : Text} :
    (numberAfter name).search txt = some digits ↔ FirstLabelled name txt digits := by
  rw [Regex.search_eq_some_iff]
  simp only [matchAt_numberAfter_iff, Option.eq_none_iff_forall_ne_some, ne_eq]
  constructor
  · rintro ⟨u, hu, hlabel, hfirst⟩
    refine ⟨u, hu, hlabel, ?_⟩
    intro u' digits' hu' hlabel'
    by_contra hlt
    exact hfirst u' hu' (by omega) digits' hlabel'
  · rintro ⟨u, hu, hlabel, hfirst⟩
    refine ⟨u, hu, hlabel, ?_⟩
    intro u' hu' hlt digits' hlabel'
    have := hfirst u' digits' hu' hlabel'
    omega

theorem search_numberAfter_none_iff {name txt : Text} :
    (numberAfter name).search txt = none ↔ ∀ digits, ¬ FirstLabelled name txt digits := by
  rw [Option.eq_none_iff_forall_ne_some]
  exact forall_congr' fun digits => not_congr search_numberAfter_iff

end GdalFull.Lib
