import GdalFull.Lib.PyStr
import Mathlib.Data.List.Infix

/-!
# Whole words in a line

`grep -w` takes an occurrence of its pattern only if the character before it and the one after
it, if there are any, are not word characters. `containsWord` is that test for a pattern without
special characters, over any set of word characters. A pattern without blanks is a word of a
padded line exactly if it is a word of what is padded (`isWord_padded_iff`).
-/

namespace GdalFull.Lib

/-- `p` stands in `t` as a whole word. -/
def IsWord (word : Char → Bool) (p t : Text) : Prop :=
  ∃ a b, t = a ++ p ++ b ∧ (∀ c ∈ a.getLast?, word c = false) ∧ ∀ c ∈ b.head?, word c = false

/-- `p` stands in `t` after `i` characters, as a whole word. -/
def wordAt (word : Char → Bool) (p t : Text) (i : Nat) : Bool :=
  p.isPrefixOf (t.drop i) && (t.take i).getLast?.all (fun c => !word c) &&
    ((t.drop i).drop p.length).head?.all fun c => !word c

/-- `grep -qw` on a line. -/
def containsWord (word : Char → Bool) (p t : Text) : Bool :=
  (List.range (t.length + 1)).any (wordAt word p t)

theorem all_not_iff {word : Char → Bool} {o : Option Char} :
    o.all (fun c => !word c) = true ↔ ∀ c ∈ o, word c = false := by
  cases o <;> simp

theorem containsWord_iff {word : Char → Bool} {p t : Text} :
    containsWord word p t = true ↔ IsWord word p t := by
  rw [containsWord, List.any_eq_true]
  constructor
  · rintro ⟨i, -, hi⟩
    rw [wordAt, Bool.and_eq_true, Bool.and_eq_true, all_not_iff, all_not_iff,
      List.isPrefixOf_iff_prefix] at hi
    obtain ⟨⟨⟨b, hb⟩, hbefore⟩, hafter⟩ := hi
    refine ⟨t.take i, b, ?_, hbefore, ?_⟩
    · rw [List.append_assoc, hb, List.take_append_drop]
    · rwa [← hb, List.drop_left] at hafter
  · rintro ⟨a, b, rfl, hbefore, hafter⟩
    refine ⟨a.length, ?_, ?_⟩
    · rw [List.mem_range, List.length_append, List.length_append]
      omega
    · rw [wordAt, Bool.and_eq_true, Bool.and_eq_true, all_not_iff, all_not_iff,
        List.isPrefixOf_iff_prefix, List.append_assoc, List.drop_left, List.take_left,
        List.drop_left]
      exact ⟨⟨List.prefix_append p b, hbefore⟩, hafter⟩

/-- A pattern without blanks that stands in blanks is empty. -/
theorem eq_nil_of_infix_blanks {p : Text} (hp : ' ' ∉ p) {n : Nat}
    (h : p <:+: List.replicate n ' ') : p = [] := by
  rw [List.eq_nil_iff_forall_not_mem]
  intro c hc
  have hblank : c = ' ' := List.eq_of_mem_replicate (h.subset hc)
  exact hp (hblank ▸ hc)

/-- A pattern without blanks that stands in a text with blanks behind it ends in the text. -/
theorem exists_of_padded {p t a b : Text} (hp : ' ' ∉ p) (hne : p ≠ []) {n : Nat}
    (h : t ++ List.replicate n ' ' = (a ++ p) ++ b) :
    ∃ b', t = a ++ p ++ b' ∧ b = b' ++ List.replicate n ' ' := by
  rcases List.append_eq_append_iff.mp h with ⟨c, hc, hpad⟩ | ⟨c, hc, hpad⟩
  · have hnil : c = [] := by
      rcases List.eq_nil_or_concat c with hnil | ⟨init, d, rfl⟩
      · exact hnil
      · have hd : d = ' ' := by
          apply List.eq_of_mem_replicate (n := n)
          rw [hpad]
          simp
        have hdp : d ∈ p := by
          have hget := congrArg List.getLast? hc
          rw [List.getLast?_append_of_ne_nil _ hne, List.concat_eq_append, ← List.append_assoc,
            List.getLast?_concat] at hget
          exact List.mem_of_getLast? hget
        exact absurd (hd ▸ hdp) hp
    subst hnil
    rw [List.append_nil] at hc
    exact ⟨[], by rw [List.append_nil, hc], hpad.symm⟩
  · exact ⟨c, hc, hpad⟩

/-- Blanks around a text make no word and hide none. -/
theorem isWord_padded_iff {word : Char → Bool} (hblank : word ' ' = false) {p t : Text}
    (hp : ' ' ∉ p) (hne : p ≠ []) (n : Nat) :
    IsWord word p (' ' :: (t ++ List.replicate n ' ')) ↔ IsWord word p t := by
  constructor
  · rintro ⟨a, b, heq, hbefore, hafter⟩
    cases a with
    | nil =>
      -- the pattern would begin with the blank in front
      obtain ⟨c, p, rfl⟩ := List.exists_cons_of_ne_nil hne
      have hc : ' ' = c := (List.cons.inj heq).1
      exact absurd (hc ▸ List.mem_cons_self) hp
    | cons c a =>
      obtain ⟨b', rfl, rfl⟩ := exists_of_padded hp hne (List.cons.inj heq).2
      refine ⟨a, b', rfl, ?_, ?_⟩
      · intro d hd
        cases a with
        | nil => cases hd
        | cons e a => exact hbefore d (by rwa [List.getLast?_cons_cons])
      · intro d hd
        cases b' with
        | nil => cases hd
        | cons e b' => exact hafter d hd
  · rintro ⟨a, b, rfl, hbefore, hafter⟩
    refine ⟨' ' :: a, b ++ List.replicate n ' ', by simp, ?_, ?_⟩
    · intro c hc
      cases a with
      | nil =>
        cases hc
        exact hblank
      | cons d a => exact hbefore c (by rwa [List.getLast?_cons_cons] at hc)
    · intro c hc
      cases b with
      | nil =>
        have hmem : c ∈ List.replicate n ' ' := List.mem_of_mem_head? hc
        rw [List.eq_of_mem_replicate hmem]
        exact hblank
      | cons d b => exact hafter c hc

end GdalFull.Lib
