import GdalFull.Lib.Regex

/-!
# A number after a mark

Scripts read a number out of a listing with `re.search(r"mark\s*(\d+)", text)` and `int`. Blanks
are no digits, so there is one way to match the pattern at a place (`run_numberPattern`). If the
first character of the mark is not repeated in it and is neither a blank nor a digit, a match that
begins before a mark also ends before it, and the search falls into the text before the mark and
the one from the mark on (`search_marked`). A number in its usual decimal form is read back
(`pyInt_toDigits`).
-/

namespace GdalFull.Lib

/-- `\s*(\d+)`. -/
def numberPattern : Regex :=
  .seq (.many isSpace) (.group (.many1 fun c => (decimal c).isSome))

/-- `mark\s*(\d+)`. -/
def markedPattern (mark : Text) : Regex :=
  .seq (.lit mark) numberPattern

/-- The digits that the pattern finds at the start of a text. -/
def numberAt (t : Text) : Option Text :=
  if leadingDigits t = [] then none else some (leadingDigits t)

/-- A repetition goes all the way if nothing matches before a character of the repetition. -/
theorem runMany_eq_dropWhile {β : Type} {p : Char → Bool} {k : Text → Option β}
    (hk : ∀ c t, p c = true → k (c :: t) = none) (t : Text) :
    runMany p k t = k (t.dropWhile p) := by
  induction t with
  | nil => rfl
  | cons c t ih =>
    rw [runMany]
    by_cases hc : p c = true
    · rw [if_pos hc, hk c t hc, ih, Option.or_none, List.dropWhile_cons_of_pos hc]
    · rw [if_neg hc, List.dropWhile_cons_of_neg hc]

theorem run_group_many1_eq (p : Char → Bool) (g t : Text) :
    (Regex.group (.many1 p)).run (fun g _ => some g) g t =
      if t.takeWhile p = [] then none else some (t.takeWhile p) := by
  by_cases hnil : t.takeWhile p = []
  · rw [if_pos hnil]
    cases t with
    | nil => rfl
    | cons c t =>
      have hc : ¬ p c = true := by
        intro hc
        rw [List.takeWhile_cons_of_pos hc] at hnil
        cases hnil
      rw [Regex.run, Regex.run, if_neg hc]
  · have hsplit : t.takeWhile p ++ t.dropWhile p = t := List.takeWhile_append_dropWhile
    have hrun := Regex.run_group_longest hnil (fun c hc => List.mem_takeWhile_imp hc)
      (eq_false_of_mem_dropWhile (s := t)) g
    rw [hsplit] at hrun
    rw [if_neg hnil, hrun]

theorem run_numberPattern (g t : Text) :
    numberPattern.run (fun g _ => some g) g t = numberAt t := by
  have hblank : ∀ c u, isSpace c = true →
      (Regex.group (.many1 fun c => (decimal c).isSome)).run (fun g _ => some g) g (c :: u) =
        none := by
    intro c u hc
    have hstop := List.takeWhile_cons_of_neg (p := fun c => (decimal c).isSome) (a := c) (l := u)
      (by simp [decimal_of_isSpace hc])
    rw [run_group_many1_eq, hstop, if_pos rfl]
  rw [numberPattern, Regex.run, Regex.run, runMany_eq_dropWhile hblank, run_group_many1_eq]
  rfl

theorem matchAt_markedPattern (mark t : Text) :
    (markedPattern mark).matchAt t =
      if mark <+: t then numberAt (t.drop mark.length) else none := by
  rw [markedPattern, Regex.matchAt, Regex.run, Regex.run]
  split
  · exact run_numberPattern [] _
  · rfl

/-! ## Text before a mark -/

section Mark

variable {d : Char} {mark : Text}

/-- A number does not reach over a character that is neither a blank nor a digit. -/
theorem leadingDigits_append (hspace : isSpace d = false) (hdigit : decimal d = none)
    (v t : Text) : leadingDigits (v ++ d :: t) = leadingDigits v := by
  have hstop : ∀ w : Text, (w ++ d :: t).takeWhile (fun c => (decimal c).isSome) =
      w.takeWhile fun c => (decimal c).isSome := by
    intro w
    induction w with
    | nil => exact List.takeWhile_cons_of_neg (by simp [hdigit])
    | cons c w ih =>
      rw [List.cons_append, List.takeWhile_cons, List.takeWhile_cons, ih]
  have hdrop : (v ++ d :: t).dropWhile isSpace = v.dropWhile isSpace ++ d :: t := by
    induction v with
    | nil => exact List.dropWhile_cons_of_neg (by simp [hspace])
    | cons c v ih =>
      rw [List.cons_append, List.dropWhile_cons, List.dropWhile_cons, ih]
      split <;> rfl
  rw [leadingDigits, hdrop, hstop, leadingDigits]

/-- A mark that begins in the text before another one ends there. -/
theorem prefix_of_prefix_append (hd : d ∉ mark) {u : Text} (hu : u ≠ []) {t : Text}
    (h : d :: mark <+: u ++ d :: t) : d :: mark <+: u := by
  obtain hin | hout := List.prefix_or_prefix_of_prefix h (List.prefix_append u (d :: t))
  · exact hin
  · obtain ⟨w, hw⟩ := hout
    cases w with
    | nil =>
      rw [List.append_nil] at hw
      exact hw ▸ List.prefix_rfl
    | cons c w =>
      rw [← hw] at h
      have hc : c = d := (List.cons_prefix_cons.mp ((List.prefix_append_right_inj u).mp h)).1
      obtain ⟨a, u, rfl⟩ := List.exists_cons_of_ne_nil hu
      have hmark : u ++ c :: w = mark := (List.cons.inj hw).2
      refine absurd ?_ hd
      rw [← hmark, hc]
      exact List.mem_append_right u List.mem_cons_self

/-- Before a mark the pattern matches as if the text ended there. -/
theorem matchAt_append (hd : d ∉ mark) (hspace : isSpace d = false) (hdigit : decimal d = none)
    {u : Text} (hu : u ≠ []) (t : Text) :
    (markedPattern (d :: mark)).matchAt (u ++ d :: t) =
      (markedPattern (d :: mark)).matchAt u := by
  rw [matchAt_markedPattern, matchAt_markedPattern]
  by_cases hstart : d :: mark <+: u
  · obtain ⟨v, rfl⟩ := hstart
    rw [if_pos (List.prefix_append _ v), List.append_assoc, if_pos (List.prefix_append _ _),
      List.drop_left, List.drop_left, numberAt, leadingDigits_append hspace hdigit, numberAt]
  · rw [if_neg hstart, if_neg fun h => hstart (prefix_of_prefix_append hd hu h)]

/-- The search finds the first number of the text before a mark, and else searches on from the
mark. -/
theorem search_marked (hd : d ∉ mark) (hspace : isSpace d = false) (hdigit : decimal d = none)
    (u t : Text) :
    (markedPattern (d :: mark)).search (u ++ d :: t) =
      ((markedPattern (d :: mark)).search u).or
        ((markedPattern (d :: mark)).search (d :: t)) := by
  induction u with
  | nil => rfl
  | cons c u ih =>
    have hhere := matchAt_append hd hspace hdigit (List.cons_ne_nil c u) t
    rw [List.cons_append] at hhere
    have hsearch : (markedPattern (d :: mark)).search (c :: u) =
        ((markedPattern (d :: mark)).matchAt (c :: u)).or
          ((markedPattern (d :: mark)).search u) := rfl
    rw [hsearch, Option.or_assoc, ← ih, ← hhere]
    rfl

end Mark

/-! ## Numbers in decimal form -/

theorem decimal_digitChar : ∀ m < 10, decimal (Nat.digitChar m) = some m := by
  decide +kernel

/-- The decimal form of a number by the values of its digits. -/
theorem exists_digits (n : Nat) :
    ∃ ds, (Nat.toDigits 10 n).map decimal = ds.map some ∧ ofDigits ds = n := by
  induction n using Nat.strongRecOn with
  | ind n ih =>
    by_cases hn : n < 10
    · refine ⟨[n], ?_, ?_⟩
      · rw [Nat.toDigits_of_lt_base hn, List.map_singleton, decimal_digitChar n hn]
        rfl
      · show 10 * 0 + n = n
        omega
    · obtain ⟨ds, hds, hvalue⟩ := ih (n / 10) (by omega)
      refine ⟨ds ++ [n % 10], ?_, ?_⟩
      · rw [Nat.toDigits_of_base_le (by omega) (by omega), List.map_append, hds, List.map_singleton,
          decimal_digitChar (n % 10) (by omega), List.map_append]
        rfl
      · rw [ofDigits, List.foldl_append, ← ofDigits, hvalue]
        show 10 * (n / 10) + n % 10 = n
        omega

/-- The values of the digits are what `int` reads. -/
theorem intDigits_of_map {s : Text} {ds : List Nat} (hne : s ≠ [])
    (h : s.map decimal = ds.map some) : intDigits s = some ds := by
  fun_induction intDigits s generalizing ds with
  | case1 => exact absurd rfl hne
  | case2 c =>
    cases ds with
    | nil => cases h
    | cons d ds =>
      obtain ⟨hc, hds⟩ := List.cons.inj h
      rw [hc, List.map_eq_nil_iff.mp hds.symm]
      rfl
  | case3 c rest ih =>
    have hnone : decimal '_' = none := by decide
    have hmem : decimal '_' ∈ ds.map some := by
      rw [← h]
      exact List.mem_map_of_mem (List.mem_cons_of_mem c List.mem_cons_self)
    obtain ⟨d, _, hd⟩ := List.mem_map.mp hmem
    rw [hnone] at hd
    cases hd
  | case4 c rest hrest hunder ih =>
    cases ds with
    | nil => cases h
    | cons d ds =>
      obtain ⟨hc, hds⟩ := List.cons.inj h
      rw [hc, Option.bind_some, ih (by rintro rfl; exact hrest rfl) hds, Option.map_some]

theorem decimal_of_mem_toDigits {n : Nat} : ∀ c ∈ Nat.toDigits 10 n, (decimal c).isSome = true := by
  intro c hc
  obtain ⟨ds, hds, _⟩ := exists_digits n
  have hmem : decimal c ∈ ds.map some := hds ▸ List.mem_map_of_mem hc
  obtain ⟨d, _, hd⟩ := List.mem_map.mp hmem
  rw [← hd, Option.isSome_some]

/-- `int` reads a number that is not too long back from its decimal form. -/
theorem pyInt_toDigits {n : Nat} (h : (Nat.toDigits 10 n).length ≤ intMaxStrDigits) :
    pyInt (Nat.toDigits 10 n) = some (n : Int) := by
  obtain ⟨ds, hds, hvalue⟩ := exists_digits n
  have hint := intDigits_of_map Nat.toDigits_ne_nil hds
  have hlen : ds.length = (Nat.toDigits 10 n).length := by
    rw [← List.length_map some, ← hds, List.length_map]
  have hsign : ∀ {c rest}, Nat.toDigits 10 n = c :: rest → (decimal c).isSome = true := by
    intro c rest hcons
    exact decimal_of_mem_toDigits c (hcons ▸ List.mem_cons_self)
  have hstrip := strip_of_isDigits (isDigits_of_decimal Nat.toDigits_ne_nil
    (decimal_of_mem_toDigits (n := n)))
  rw [pyInt, intStrip_of_strip hstrip]
  split
  · rename_i hcons
    exact absurd (hsign hcons) (by decide)
  · rename_i hcons
    exact absurd (hsign hcons) (by decide)
  · rw [intValue, hint, Option.bind_some, if_pos (hlen ▸ h), hvalue]
    rfl

/-- The number after the mark is the one that stands there. -/
theorem search_number {mark rest : Text} (hrest : ∀ c ∈ rest.head?, (decimal c).isSome = false)
    (n : Nat) :
    (markedPattern mark).search (mark ++ (' ' :: (Nat.toDigits 10 n ++ rest))) =
      some (Nat.toDigits 10 n) := by
  apply Regex.search_of_matchAt
  rw [matchAt_markedPattern, if_pos (List.prefix_append mark _), List.drop_left]
  have hstart : (' ' :: (Nat.toDigits 10 n ++ rest)).dropWhile isSpace =
      Nat.toDigits 10 n ++ rest := by
    obtain ⟨c, ds, hcons⟩ := List.exists_cons_of_ne_nil (Nat.toDigits_ne_nil (n := n) (b := 10))
    have hc : isSpace c = false :=
      isSpace_of_decimal (decimal_of_mem_toDigits c (hcons ▸ List.mem_cons_self))
    rw [hcons, List.dropWhile_cons_of_pos (by decide), List.cons_append,
      List.dropWhile_cons_of_neg (by simp [hc])]
  have hend : rest.takeWhile (fun c => (decimal c).isSome) = [] := by
    cases rest with
    | nil => rfl
    | cons c rest => exact List.takeWhile_cons_of_neg (by simp [hrest c rfl])
  have hdigits : leadingDigits (' ' :: (Nat.toDigits 10 n ++ rest)) = Nat.toDigits 10 n := by
    rw [leadingDigits, hstart, List.takeWhile_append_of_pos decimal_of_mem_toDigits, hend,
      List.append_nil]
  rw [numberAt, hdigits, if_neg Nat.toDigits_ne_nil]

end GdalFull.Lib
