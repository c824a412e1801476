import GdalFull.Lib.PyStr
import Mathlib.Data.List.Infix
import Mathlib.Tactic.Common

/-!
# Backtracking search of `re`

A pattern is matched with a continuation that is tried on the rest of the text: the first way
through the pattern for which the continuation succeeds is taken. Repetition is over single
characters, and a pattern has at most one group.

`Regex.search_skip` passes over text in which the literal at the head of a pattern does not
begin; `runMany_longest` and `runMany_shortest` are the two ends of a greedy repetition, and
`run_upTo` is the lazy `(.*?)(?=s|\Z)`.
-/

namespace GdalFull.Lib

inductive Regex where
  | lit (s : Text)
  /-- `[p]*`. -/
  | many (p : Char → Bool)
  /-- `[p]+`. -/
  | many1 (p : Char → Bool)
  /-- `[p]*?`. -/
  | manyLazy (p : Char → Bool)
  | group (r : Regex)
  | seq (r s : Regex)
  | alt (r s : Regex)
  /-- `(?=r)`. -/
  | ahead (r : Regex)
  /-- `\Z`. -/
  | textEnd
  /-- `$` without `re.MULTILINE`: it also holds before a last line feed. -/
  | lineEnd

section Many

variable {β : Type}

/-- A greedy repetition: the continuation is tried on the shortest rest first. -/
def runMany (p : Char → Bool) (k : Text → Option β) : Text → Option β
  | [] => k []
  | c :: t => if p c then (runMany p k t).or (k (c :: t)) else k (c :: t)

/-- A lazy repetition: the continuation is tried on the longest rest first. -/
def runLazy (p : Char → Bool) (k : Text → Option β) : Text → Option β
  | [] => k []
  | c :: t => (k (c :: t)).or (if p c then runLazy p k t else none)

/-- `[p]+?`. -/
def runLazy1 (p : Char → Bool) (k : Text → Option β) : Text → Option β
  | [] => none
  | c :: t => if p c then runLazy p k t else none

/-- A repetition takes what can be taken, if the rest then succeeds. -/
theorem runMany_append {p : Char → Bool} {k : Text → Option β} {s t : Text} {b : β}
    (hs : ∀ c ∈ s, p c = true) (hk : runMany p k t = some b) : runMany p k (s ++ t) = some b := by
  induction s with
  | nil => exact hk
  | cons c s ih =>
    have hc : p c = true := hs c List.mem_cons_self
    have hrest := ih fun d hd => hs d (List.mem_cons_of_mem c hd)
    rw [List.cons_append, runMany, if_pos hc, hrest]
    rfl

theorem runMany_longest {p : Char → Bool} {k : Text → Option β} {s t : Text} {b : β}
    (hs : ∀ c ∈ s, p c = true) (ht : ∀ c ∈ t.head?, p c = false) (hk : k t = some b) :
    runMany p k (s ++ t) = some b := by
  apply runMany_append hs
  cases t with
  | nil => exact hk
  | cons c t =>
    rw [runMany, ht c rfl]
    exact hk

theorem runMany_dropWhile {p : Char → Bool} {k : Text → Option β} {t : Text} {b : β}
    (hk : k (t.dropWhile p) = some b) : runMany p k t = some b := by
  have hsplit : t = t.takeWhile p ++ t.dropWhile p := List.takeWhile_append_dropWhile.symm
  refine (congrArg _ hsplit).trans ?_
  exact runMany_longest (fun _ => List.mem_takeWhile_imp) eq_false_of_mem_dropWhile hk

theorem runMany_none {p : Char → Bool} {k : Text → Option β} {s t : Text}
    (ht : ∀ c ∈ t.head?, p c = false) (hk : ∀ u, u <:+ s → k (u ++ t) = none) :
    runMany p k (s ++ t) = none := by
  induction s with
  | nil =>
    have hkt : k t = none := hk [] List.suffix_rfl
    cases t with
    | nil => exact hkt
    | cons c t =>
      have hc : p c = false := ht c rfl
      rw [List.nil_append, runMany, hc]
      exact hkt
  | cons c s ih =>
    have hrest := ih fun u hu => hk u (hu.trans (List.suffix_cons c s))
    have hhere : k (c :: (s ++ t)) = none := hk (c :: s) List.suffix_rfl
    rw [List.cons_append, runMany, hrest, hhere]
    split <;> rfl

/-- If the continuation fails wherever something is repeated, nothing is. -/
theorem runMany_shortest {p : Char → Bool} {k : Text → Option β} {c : Char} {s t : Text}
    (ht : ∀ d ∈ t.head?, p d = false) (hk : ∀ u, u <:+ s → k (u ++ t) = none) :
    runMany p k (c :: (s ++ t)) = k (c :: (s ++ t)) := by
  rw [runMany, runMany_none ht hk]
  split <;> rfl

/-- If the continuation fails after the longest repetition, one character less is tried. -/
theorem runMany_back {p : Char → Bool} {k : Text → Option β} {s t : Text} {c : Char} {b : β}
    (hs : ∀ d ∈ s, p d = true) (hc : p c = true) (ht : ∀ d ∈ t.head?, p d = false)
    (hk : k t = none) (hb : k (c :: t) = some b) : runMany p k (s ++ c :: t) = some b := by
  induction s with
  | nil =>
    have hrest : runMany p k ([] ++ t) = none := by
      apply runMany_none ht
      intro u hu
      rw [List.suffix_nil.mp hu]
      exact hk
    rw [List.nil_append] at hrest
    rw [List.nil_append, runMany, if_pos hc, hrest, Option.none_or, hb]
  | cons d s ih =>
    have hrest := ih fun e he => hs e (List.mem_cons_of_mem d he)
    rw [List.cons_append, runMany, if_pos (hs d List.mem_cons_self), hrest, Option.some_or]

/-- A lazy repetition ends at the first place where the continuation succeeds. -/
theorem runLazy_first {p : Char → Bool} {k : Text → Option β} {t : Text} {b : β}
    (h : runLazy p k t = some b) :
    ∃ s u, t = s ++ u ∧ k u = some b ∧
      ∀ s' u', t = s' ++ u' → s'.length < s.length → k u' = none := by
  induction t with
  | nil => exact ⟨[], [], rfl, h, fun s' _ _ hlt => absurd hlt (Nat.not_lt_zero _)⟩
  | cons c t ih =>
    rw [runLazy] at h
    rcases Option.or_eq_some_iff.mp h with h | ⟨hnone, h⟩
    · exact ⟨[], c :: t, rfl, h, fun s' _ _ hlt => absurd hlt (Nat.not_lt_zero _)⟩
    · obtain ⟨s, u, rfl, hu, hfirst⟩ := ih (Option.ite_none_right_eq_some.mp h).2
      refine ⟨c :: s, u, rfl, hu, ?_⟩
      intro s' u' hsplit hlt
      cases s' with
      | nil =>
        rw [List.nil_append] at hsplit
        rw [← hsplit]
        exact hnone
      | cons d s' =>
        exact hfirst s' u' (List.cons.inj hsplit).2 (Nat.lt_of_succ_lt_succ hlt)

theorem runLazy_isSome {p : Char → Bool} {k : Text → Option β} {s u : Text}
    (hs : ∀ c ∈ s, p c = true) (hu : (k u).isSome = true) :
    (runLazy p k (s ++ u)).isSome = true := by
  induction s with
  | nil =>
    cases u with
    | nil => exact hu
    | cons c u => rw [List.nil_append, runLazy, Option.isSome_or, hu, Bool.true_or]
  | cons c s ih =>
    have hrest := ih fun d hd => hs d (List.mem_cons_of_mem c hd)
    rw [List.cons_append, runLazy, if_pos (hs c List.mem_cons_self), Option.isSome_or, hrest,
      Bool.or_true]

end Many

/-- The run of a pattern on a text; `g` is the text of the group so far. -/
def Regex.run : Regex → {β : Type} → (Text → Text → Option β) → Text → Text → Option β
  | .lit s, _, k, g, t => if s <+: t then k g (t.drop s.length) else none
  | .many p, _, k, g, t => runMany p (k g) t
  | .many1 p, _, k, g, t =>
    match t with
    | [] => none
    | c :: t => if p c then runMany p (k g) t else none
  | .manyLazy p, _, k, g, t => runLazy p (k g) t
  | .group r, _, k, g, t => r.run (fun _ rest => k (t.take (t.length - rest.length)) rest) g t
  | .seq r s, _, k, g, t => r.run (s.run k) g t
  | .alt r s, _, k, g, t => (r.run k g t).or (s.run k g t)
  | .ahead r, _, k, g, t => if (r.run (fun _ _ => some ()) g t).isSome then k g t else none
  | .textEnd, _, k, g, t => if t = [] then k g t else none
  | .lineEnd, _, k, g, t => if t = [] ∨ t = ['\n'] then k g t else none

theorem Regex.run_lit_append {β : Type} (s t g : Text) (k : Text → Text → Option β) :
    (Regex.lit s).run k g (s ++ t) = k g t := by
  rw [Regex.run, if_pos (List.prefix_append s t), List.drop_left]

theorem Regex.run_lit_ne {β : Type} {c d : Char} (h : c ≠ d) (s t g : Text)
    (k : Text → Text → Option β) : (Regex.lit (c :: s)).run k g (d :: t) = none := by
  rw [Regex.run, if_neg fun hs => h (List.cons_prefix_cons.mp hs).1]

theorem Regex.run_lit_some {β : Type} {s g t : Text} {k : Text → Text → Option β} {b : β}
    (h : (Regex.lit s).run k g t = some b) : ∃ u, t = s ++ u ∧ k g u = some b := by
  obtain ⟨hs, hk⟩ := Option.ite_none_right_eq_some.mp h
  obtain ⟨u, rfl⟩ := hs
  rw [List.drop_left] at hk
  exact ⟨u, rfl, hk⟩

theorem Regex.run_many1_longest {β : Type} {p : Char → Bool} {k : Text → Text → Option β}
    {g s t : Text} {b : β} (hne : s ≠ []) (hs : ∀ c ∈ s, p c = true)
    (ht : ∀ c ∈ t.head?, p c = false) (hk : k g t = some b) :
    (Regex.many1 p).run k g (s ++ t) = some b := by
  cases s with
  | nil => exact absurd rfl hne
  | cons c s =>
    have hc : p c = true := hs c List.mem_cons_self
    rw [List.cons_append, Regex.run, if_pos hc]
    exact runMany_longest (fun d hd => hs d (List.mem_cons_of_mem c hd)) ht hk

/-- What a run gives comes from its continuation. -/
theorem runMany_some {β : Type} {p : Char → Bool} {k : Text → Option β} {t : Text} {b : β}
    (h : runMany p k t = some b) : ∃ s u, t = s ++ u ∧ (∀ c ∈ s, p c = true) ∧ k u = some b := by
  induction t with
  | nil => exact ⟨[], [], rfl, by simp, h⟩
  | cons c t ih =>
    rw [runMany] at h
    split at h
    · rename_i hc
      cases hrest : runMany p k t with
      | some b' =>
        rw [hrest] at h
        cases h
        obtain ⟨s, u, rfl, hs, hu⟩ := ih hrest
        exact ⟨c :: s, u, rfl, List.forall_mem_cons.mpr ⟨hc, hs⟩, hu⟩
      | none =>
        rw [hrest] at h
        exact ⟨[], c :: t, rfl, by simp, h⟩
    · exact ⟨[], c :: t, rfl, by simp, h⟩

/-- What a run hands to its continuation is taken from the text. -/
theorem Regex.run_within {r : Regex} {β : Type} {k : Text → Text → Option β} {g t : Text} {b : β}
    (h : r.run k g t = some b) :
    ∃ g' t', k g' t' = some b ∧ t' <:+ t ∧ (g' = g ∨ g' <:+: t) := by
  induction r generalizing β g t with
  | lit s =>
    exact ⟨_, _, (Option.ite_none_right_eq_some.mp h).2, List.drop_suffix _ _, Or.inl rfl⟩
  | many p =>
    obtain ⟨s, u, rfl, _, hu⟩ := runMany_some h
    exact ⟨g, u, hu, List.suffix_append s u, Or.inl rfl⟩
  | many1 p =>
    cases t with
    | nil => cases h
    | cons c t =>
      obtain ⟨s, u, rfl, _, hu⟩ := runMany_some (Option.ite_none_right_eq_some.mp h).2
      exact ⟨g, u, hu, List.suffix_append (c :: s) u, Or.inl rfl⟩
  | manyLazy p =>
    obtain ⟨s, u, rfl, hu, _⟩ := runLazy_first h
    exact ⟨g, u, hu, List.suffix_append s u, Or.inl rfl⟩
  | group r ih =>
    obtain ⟨_, rest, hrest, hsuffix, _⟩ := ih h
    exact ⟨_, rest, hrest, hsuffix, Or.inr (List.take_prefix _ t).isInfix⟩
  | seq r s ihr ihs =>
    obtain ⟨g₁, t₁, hs, hsuffix, hg₁⟩ := ihr h
    obtain ⟨g₂, t₂, hk, hsuffix', hg₂⟩ := ihs hs
    refine ⟨g₂, t₂, hk, hsuffix'.trans hsuffix, ?_⟩
    rcases hg₂ with rfl | hg₂
    · exact hg₁
    · exact Or.inr (hg₂.trans hsuffix.isInfix)
  | alt r s ihr ihs =>
    rcases Option.or_eq_some_iff.mp h with h | ⟨_, h⟩
    · exact ihr h
    · exact ihs h
  | ahead r _ =>
    exact ⟨g, t, (Option.ite_none_right_eq_some.mp h).2, List.suffix_rfl, Or.inl rfl⟩
  | textEnd =>
    exact ⟨g, t, (Option.ite_none_right_eq_some.mp h).2, List.suffix_rfl, Or.inl rfl⟩
  | lineEnd =>
    exact ⟨g, t, (Option.ite_none_right_eq_some.mp h).2, List.suffix_rfl, Or.inl rfl⟩

/-- A group of repeated characters at the end of a pattern has characters of that kind. -/
theorem Regex.run_group_many1 {p : Char → Bool} {g t b : Text}
    (h : (Regex.group (.many1 p)).run (fun g _ => some g) g t = some b) :
    b ≠ [] ∧ ∀ c ∈ b, p c = true := by
  cases t with
  | nil => cases h
  | cons c t =>
    rw [Regex.run, Regex.run] at h
    obtain ⟨hc, h⟩ := Option.ite_none_right_eq_some.mp h
    obtain ⟨s, u, rfl, hs, hu⟩ := runMany_some h
    have hb : b = c :: s := by
      have hlen : (c :: (s ++ u)).length - u.length = (c :: s).length := by
        simp only [List.length_cons, List.length_append]
        omega
      rw [← Option.some.inj hu, hlen, ← List.cons_append, List.take_left]
    subst hb
    exact ⟨List.cons_ne_nil c s, List.forall_mem_cons.mpr ⟨hc, hs⟩⟩

theorem Regex.run_group_longest {p : Char → Bool} {s t : Text} (hne : s ≠ [])
    (hs : ∀ c ∈ s, p c = true) (ht : ∀ c ∈ t.head?, p c = false) (g : Text) :
    (Regex.group (.many1 p)).run (fun g _ => some g) g (s ++ t) = some s := by
  have hlen : (s ++ t).length - t.length = s.length := by
    rw [List.length_append]
    omega
  have htake : (s ++ t).take ((s ++ t).length - t.length) = s := by rw [hlen, List.take_left]
  rw [Regex.run]
  exact Regex.run_many1_longest hne hs ht (congrArg some htake)

/-- The text of the group at the place where a pattern matches. -/
def Regex.matchAt (r : Regex) (t : Text) : Option Text :=
  r.run (fun g _ => some g) [] t

/-- `re.search(r, t)` as the text of the group at the first place where the pattern matches. -/
def Regex.search (r : Regex) : Text → Option Text
  | [] => r.matchAt []
  | c :: t => (r.matchAt (c :: t)).or (r.search t)

/-! ## Text without a literal -/

/-- In `pre ++ t`, the text `s` begins nowhere in `pre`. -/
def Clear (s : Text) : Text → Text → Prop
  | [], _ => True
  | c :: pre, t => ¬ s <+: c :: (pre ++ t) ∧ Clear s pre t

theorem Clear.append {s a b t : Text} (ha : Clear s a (b ++ t)) (hb : Clear s b t) :
    Clear s (a ++ b) t := by
  induction a with
  | nil => exact hb
  | cons c a ih =>
    refine ⟨?_, ih ha.2⟩
    have hhere := ha.1
    rwa [← List.append_assoc] at hhere

theorem clear_of_notMem {d : Char} {s pre : Text} (h : d ∉ pre) (t : Text) :
    Clear (d :: s) pre t := by
  induction pre with
  | nil => trivial
  | cons c pre ih =>
    have hne : d ≠ c := List.ne_of_not_mem_cons h
    refine ⟨fun hs => hne (List.cons_prefix_cons.mp hs).1, ?_⟩
    exact ih (List.not_mem_of_not_mem_cons h)

/-- A text does not begin in a line that it is no part of, if it avoids the character which ends
the line. -/
theorem clear_concat {s pre : Text} {x : Char} (hx : x ∉ s) (hpre : ¬ s <:+: pre) (t : Text) :
    Clear s (pre ++ [x]) t := by
  have hline : ∀ a : Text, ¬ s <:+: a → ¬ s <+: a ++ [x] ++ t := by
    intro a ha hs
    obtain hin | hout := List.prefix_or_prefix_of_prefix hs (List.prefix_append (a ++ [x]) t)
    · obtain rfl | hin := List.prefix_concat_iff.mp hin
      · exact hx (List.mem_append_right a List.mem_cons_self)
      · exact ha hin.isInfix
    · exact hx (hout.subset (List.mem_append_right a List.mem_cons_self))
  induction pre with
  | nil => exact ⟨hline [] hpre, trivial⟩
  | cons c pre ih =>
    have htail : ¬ s <:+: pre := fun h => hpre (h.trans (List.suffix_cons c pre).isInfix)
    exact ⟨hline (c :: pre) hpre, ih htail⟩

/-- Text before which nothing begins adds no occurrence. -/
theorem infix_of_clear {s pre t : Text} (h : Clear s pre t) : s <:+: pre ++ t ↔ s <:+: t := by
  induction pre with
  | nil => rfl
  | cons c pre ih =>
    rw [List.cons_append, List.infix_cons_iff, ih h.2]
    exact or_iff_right h.1

theorem Regex.search_skip {s pre t : Text} {r : Regex} (h : Clear s pre t) :
    (Regex.seq (.lit s) r).search (pre ++ t) = (Regex.seq (.lit s) r).search t := by
  induction pre with
  | nil => rfl
  | cons c pre ih =>
    rw [List.cons_append, Regex.search, Regex.matchAt, Regex.run, Regex.run, if_neg h.1]
    exact ih h.2

theorem Regex.search_eq_none_iff {r : Regex} {t : Text} :
    r.search t = none ↔ ∀ u, u <:+ t → r.matchAt u = none := by
  induction t with
  | nil =>
    constructor
    · intro h u hu
      rw [List.suffix_nil.mp hu]
      exact h
    · intro h
      exact h [] List.suffix_rfl
  | cons c t ih =>
    rw [Regex.search, Option.or_eq_none_iff, ih]
    constructor
    · rintro ⟨hhere, hrest⟩ u hu
      rcases List.suffix_cons_iff.mp hu with rfl | hu
      · exact hhere
      · exact hrest u hu
    · intro h
      exact ⟨h _ List.suffix_rfl, fun u hu => h u (hu.trans (List.suffix_cons c t))⟩

/-- A search gives the group at the first place where the pattern matches. -/
theorem Regex.search_eq_some_iff {r : Regex} {t g : Text} :
    r.search t = some g ↔ ∃ u, u <:+ t ∧ r.matchAt u = some g ∧
      ∀ u', u' <:+ t → u.length < u'.length → r.matchAt u' = none := by
  induction t with
  | nil =>
    constructor
    · intro h
      refine ⟨[], List.suffix_rfl, h, ?_⟩
      intro u' hu' hlt
      rw [List.suffix_nil.mp hu'] at hlt
      exact absurd hlt (Nat.lt_irrefl 0)
    · rintro ⟨u, hu, hmatch, _⟩
      rw [List.suffix_nil.mp hu] at hmatch
      exact hmatch
  | cons c t ih =>
    rw [Regex.search, Option.or_eq_some_iff, ih]
    constructor
    · rintro (hhere | ⟨hnone, u, hu, hmatch, hfirst⟩)
      · refine ⟨c :: t, List.suffix_rfl, hhere, ?_⟩
        intro u' hu' hlt
        exact absurd hu'.length_le (Nat.not_le_of_lt hlt)
      · refine ⟨u, hu.trans (List.suffix_cons c t), hmatch, ?_⟩
        intro u' hu' hlt
        rcases List.suffix_cons_iff.mp hu' with rfl | hu'
        · exact hnone
        · exact hfirst u' hu' hlt
    · rintro ⟨u, hu, hmatch, hfirst⟩
      rcases List.suffix_cons_iff.mp hu with rfl | hu
      · exact Or.inl hmatch
      · refine Or.inr ⟨hfirst _ List.suffix_rfl (Nat.lt_succ_of_le hu.length_le), u, hu, hmatch, ?_⟩
        intro u' hu' hlt
        exact hfirst u' (hu'.trans (List.suffix_cons c t)) hlt

theorem Regex.search_within {r : Regex} {t g : Text} (h : r.search t = some g) : g <:+: t := by
  obtain ⟨u, hu, hmatch, _⟩ := Regex.search_eq_some_iff.mp h
  obtain ⟨g', _, hg, _, hin⟩ := Regex.run_within hmatch
  cases hg
  rcases hin with rfl | hin
  · exact List.nil_infix
  · exact hin.trans hu.isInfix

theorem Regex.search_of_matchAt {r : Regex} {t g : Text} (h : r.matchAt t = some g) :
    r.search t = some g := by
  cases t with
  | nil => exact h
  | cons c t => rw [Regex.search, h, Option.some_or]

/-- In `pre ++ t`, the pattern matches nowhere in `pre`. -/
def Regex.NoMatch (r : Regex) : Text → Text → Prop
  | [], _ => True
  | c :: pre, t => r.matchAt (c :: (pre ++ t)) = none ∧ r.NoMatch pre t

instance Regex.decidableNoMatch (r : Regex) : (pre t : Text) → Decidable (r.NoMatch pre t)
  | [], _ => inferInstanceAs (Decidable True)
  | _ :: pre, t =>
    have := r.decidableNoMatch pre t
    inferInstanceAs (Decidable (_ ∧ _))

theorem Regex.search_noMatch {r : Regex} {pre t : Text} (h : r.NoMatch pre t) :
    r.search (pre ++ t) = r.search t := by
  induction pre with
  | nil => rfl
  | cons c pre ih =>
    rw [List.cons_append, Regex.search, h.1, Option.none_or]
    exact ih h.2

/-! ## Up to a literal or the end -/

/-- The part of a text before the first place where `s` begins. -/
def before (s : Text) : Text → Text
  | [] => []
  | c :: t => if s <+: c :: t then [] else c :: before s t

theorem before_skip {s pre t : Text} (h : Clear s pre t) :
    before s (pre ++ t) = pre ++ before s t := by
  induction pre with
  | nil => rfl
  | cons c pre ih =>
    rw [List.cons_append, before, if_neg h.1, ih h.2, List.cons_append]

theorem before_eq_self {s t : Text} (h : ¬ s <:+: t) : before s t = t := by
  induction t with
  | nil => rfl
  | cons c t ih =>
    rw [List.infix_cons_iff, not_or] at h
    rw [before, if_neg h.1, ih h.2]

theorem before_append_of_infix {s a : Text} (h : s <:+: a) (t : Text) :
    before s (a ++ t) = before s a := by
  induction a with
  | nil =>
    rw [List.infix_nil.mp h]
    cases t <;> rfl
  | cons c a ih =>
    rw [List.cons_append, before, before]
    by_cases hs : s <+: c :: a
    · have hat : s <+: c :: (a ++ t) := hs.trans (List.prefix_append (c :: a) t)
      rw [if_pos hs, if_pos hat]
    · have ha : s <:+: a := (List.infix_cons_iff.mp h).resolve_left hs
      have hlen : s.length ≤ (c :: a).length := Nat.le_succ_of_le ha.length_le
      have hat : ¬ s <+: c :: (a ++ t) := fun hst =>
        hs (List.prefix_of_prefix_length_le hst (List.prefix_append (c :: a) t) hlen)
      rw [if_neg hs, if_neg hat, ih ha]

theorem before_append_self (s a t : Text) : before s (a ++ (s ++ t)) <+: a := by
  induction a with
  | nil =>
    have hs : s <+: s ++ t := List.prefix_append s t
    rw [List.nil_append]
    cases hst : s ++ t with
    | nil => exact List.prefix_rfl
    | cons c u =>
      rw [before, if_pos (hst ▸ hs)]
  | cons c a ih =>
    rw [List.cons_append, before]
    split
    · exact List.nil_prefix
    · exact List.cons_prefix_cons.mpr ⟨rfl, ih⟩

/-- The pattern `(.*?)(?=s|\Z)` with `re.DOTALL`. -/
def upTo (s : Text) : Regex :=
  .seq (.group (.manyLazy fun _ => true)) (.ahead (.alt (.lit s) .textEnd))

theorem runLazy_before {β : Type} (s : Text) {k : Text → Option β} {f : Text → β}
    (hk : ∀ u, k u = if s <+: u ∨ u = [] then some (f u) else none) (t : Text) :
    runLazy (fun _ => true) k t = some (f (t.drop (before s t).length)) := by
  induction t with
  | nil =>
    rw [runLazy, hk, if_pos (Or.inr rfl)]
    rfl
  | cons c t ih =>
    rw [runLazy, hk, before]
    by_cases hs : s <+: c :: t
    · rw [if_pos (Or.inl hs), if_pos hs]
      rfl
    · rw [if_neg (not_or.mpr ⟨hs, List.cons_ne_nil c t⟩), if_neg hs]
      exact ih

theorem before_isPrefixOf (s t : Text) : before s t <+: t := by
  induction t with
  | nil => exact List.prefix_rfl
  | cons c t ih =>
    rw [before]
    split
    · exact List.nil_prefix
    · exact List.cons_prefix_cons.mpr ⟨rfl, ih⟩

theorem run_upTo (s g t : Text) : (upTo s).run (fun g _ => some g) g t = some (before s t) := by
  have hk : ∀ u, (Regex.ahead (.alt (.lit s) .textEnd)).run (fun g _ => some g)
      (t.take (t.length - u.length)) u =
        if s <+: u ∨ u = [] then some (t.take (t.length - u.length)) else none := by
    intro u
    by_cases hs : s <+: u <;> by_cases hu : u = [] <;> simp [Regex.run, hs, hu]
  have hlen : t.length - (t.drop (before s t).length).length = (before s t).length := by
    have := (before_isPrefixOf s t).length_le
    rw [List.length_drop]
    omega
  rw [upTo, Regex.run, Regex.run, Regex.run, runLazy_before s hk, hlen]
  exact congrArg some (List.prefix_iff_eq_take.mp (before_isPrefixOf s t)).symm

end GdalFull.Lib
