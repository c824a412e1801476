import Mathlib.Data.List.Induction
import Mathlib.Data.List.Nodup
import Mathlib.Data.List.Sort

/-!
# Groups of a list, and the first entries of each

`groupOn` collects the entries of a list in a dictionary under their keys, and `sampleOf` takes
the first entries of every group, over the keys in order, and sorts the result.

`sampleOf_eq_leading`: of a list that is sorted already these are the entries with few enough
entries of the same key before them, where they stand.
-/

namespace GdalFull.Lib

variable {K P : Type}

section Groups

variable [DecidableEq K]

/-- `groups.setdefault(key, []).append(x)`. -/
def addTo (key : K) (x : P) : List (K × List P) → List (K × List P)
  | [] => [(key, [x])]
  | (k, xs) :: groups =>
    if k = key then (k, xs ++ [x]) :: groups else (k, xs) :: addTo key x groups

def groupOn (key : P → K) (xs : List P) : List (K × List P) :=
  xs.foldl (fun groups x => addTo (key x) x groups) []

/-- `groups[k]`. -/
def groupOf (k : K) (groups : List (K × List P)) : List P :=
  ((groups.find? fun group => group.1 = k).map Prod.snd).getD []

/-- The first entries of every group, sorted. -/
def sampleOf [LE K] [DecidableLE K] [LE P] [DecidableLE P] (key : P → K) (n : Nat) (xs : List P) :
    List P :=
  let groups := groupOn key xs
  let keys := (groups.map Prod.fst).mergeSort fun a b => decide (a ≤ b)
  (keys.flatMap fun k => (groupOf k groups).take n).mergeSort fun a b => decide (a ≤ b)

/-- The entries with fewer than `n` entries of their key before them, `seen` included. -/
def leading (key : P → K) (n : Nat) (seen : List P) : List P → List P
  | [] => []
  | x :: xs =>
    if (seen.countP fun y => key y = key x) < n then x :: leading key n (seen ++ [x]) xs
    else leading key n (seen ++ [x]) xs

/-! ## Groups -/

theorem groupOf_addTo (k key : K) (x : P) (groups : List (K × List P)) :
    groupOf k (addTo key x groups) =
      if key = k then groupOf k groups ++ [x] else groupOf k groups := by
  induction groups with
  | nil => by_cases hk : key = k <;> simp [addTo, groupOf, hk]
  | cons group groups ih =>
    obtain ⟨k', xs⟩ := group
    unfold addTo
    by_cases hkey : k' = key
    · subst hkey
      by_cases hk : k' = k <;> simp [groupOf, hk]
    · rw [if_neg hkey]
      by_cases hk : k' = k
      · subst hk
        simp [groupOf, Ne.symm hkey]
      · simpa [groupOf, hk] using ih

theorem keys_addTo (key : K) (x : P) (groups : List (K × List P)) :
    (addTo key x groups).map Prod.fst =
      if key ∈ groups.map Prod.fst then groups.map Prod.fst else groups.map Prod.fst ++ [key] := by
  induction groups with
  | nil => simp [addTo]
  | cons group groups ih =>
    obtain ⟨k, xs⟩ := group
    unfold addTo
    by_cases hkey : k = key
    · simp [hkey]
    · rw [if_neg hkey, List.map_cons, ih]
      by_cases hmem : key ∈ groups.map Prod.fst <;> simp [hmem, Ne.symm hkey]

/-- The group of a key has the entries of that key, in order. -/
theorem groupOf_groupOn (key : P → K) (k : K) (xs : List P) :
    groupOf k (groupOn key xs) = xs.filter fun x => key x = k := by
  induction xs using List.reverseRecOn with
  | nil => rfl
  | append_singleton xs x ih =>
    rw [groupOn, List.foldl_append, List.foldl_cons, List.foldl_nil, ← groupOn, groupOf_addTo, ih,
      List.filter_append]
    by_cases hk : key x = k <;> simp [hk]

theorem keys_groupOn (key : P → K) (xs : List P) :
    ((groupOn key xs).map Prod.fst).Nodup ∧
      ∀ k, k ∈ (groupOn key xs).map Prod.fst ↔ ∃ x ∈ xs, key x = k := by
  induction xs using List.reverseRecOn with
  | nil => simp [groupOn]
  | append_singleton xs x ih =>
    obtain ⟨hnodup, hmem⟩ := ih
    rw [groupOn, List.foldl_append, List.foldl_cons, List.foldl_nil, ← groupOn, keys_addTo]
    by_cases hx : key x ∈ (groupOn key xs).map Prod.fst
    · rw [if_pos hx]
      refine ⟨hnodup, fun k => ?_⟩
      rw [hmem]
      constructor
      · rintro ⟨y, hy, rfl⟩
        exact ⟨y, List.mem_append_left _ hy, rfl⟩
      · rintro ⟨y, hy, rfl⟩
        rcases List.mem_append.mp hy with hy | hy
        · exact ⟨y, hy, rfl⟩
        · rw [List.mem_singleton.mp hy]
          exact (hmem _).mp hx
    · rw [if_neg hx]
      refine ⟨?_, fun k => ?_⟩
      · rw [List.nodup_append]
        refine ⟨hnodup, List.nodup_singleton _, ?_⟩
        intro a ha b hb hab
        rw [hab, List.mem_singleton.mp hb] at ha
        exact hx ha
      · rw [List.mem_append, hmem]
        simp [or_and_right, exists_or, eq_comm]

/-! ## The first entries of a key -/

/-- An entry of a list with what stands before it: at the head, or further on. -/
theorem exists_split_cons {Q : List P → Prop} {a x : P} {xs : List P} :
    (∃ before after, a :: xs = before ++ x :: after ∧ Q before) ↔
      a = x ∧ Q [] ∨ ∃ before after, xs = before ++ x :: after ∧ Q (a :: before) := by
  constructor
  · rintro ⟨before, after, hsplit, hQ⟩
    cases before with
    | nil =>
      obtain ⟨rfl, -⟩ := List.cons.inj hsplit
      exact Or.inl ⟨rfl, hQ⟩
    | cons b before =>
      obtain ⟨rfl, hrest⟩ := List.cons.inj hsplit
      exact Or.inr ⟨before, after, hrest, hQ⟩
  · rintro (⟨rfl, hQ⟩ | ⟨before, after, rfl, hQ⟩)
    · exact ⟨[], xs, rfl, hQ⟩
    · exact ⟨a :: before, after, rfl, hQ⟩

theorem mem_take_filter {p : P → Bool} {x : P} (n : Nat) (xs : List P) :
    x ∈ (xs.filter p).take n ↔
      ∃ before after, xs = before ++ x :: after ∧ p x = true ∧ before.countP p < n := by
  induction xs generalizing n with
  | nil => simp
  | cons a xs ih =>
    refine Iff.trans ?_ exists_split_cons.symm
    cases ha : p a with
    | false =>
      have hne : ¬ (a = x ∧ p x = true) := by
        rintro ⟨rfl, hx⟩
        rw [ha] at hx
        cases hx
      rw [List.filter_cons_of_neg (by simp [ha]), ih]
      simp only [List.countP_cons_of_neg (by simp [ha] : ¬ p a = true), ← and_assoc, hne,
        false_and, false_or]
    | true =>
      rw [List.filter_cons_of_pos ha]
      cases n with
      | zero => simp
      | succ n =>
        rw [List.take_succ_cons, List.mem_cons, ih]
        simp only [List.countP_cons_of_pos ha, List.countP_nil, Nat.add_lt_add_iff_right,
          Nat.zero_lt_succ, and_true]
        constructor
        · rintro (rfl | h)
          · exact Or.inl ⟨rfl, ha⟩
          · exact Or.inr h
        · rintro (⟨rfl, -⟩ | h)
          · exact Or.inl rfl
          · exact Or.inr h

theorem mem_leading {key : P → K} {n : Nat} {x : P} (seen xs : List P) :
    x ∈ leading key n seen xs ↔
      ∃ before after, xs = before ++ x :: after ∧
        (seen ++ before).countP (fun y => key y = key x) < n := by
  induction xs generalizing seen with
  | nil => simp [leading]
  | cons a xs ih =>
    refine Iff.trans ?_ exists_split_cons.symm
    have hrest : x ∈ leading key n (seen ++ [a]) xs ↔ ∃ before after, xs = before ++ x :: after ∧
        (seen ++ a :: before).countP (fun y => key y = key x) < n := by
      rw [ih]
      simp only [List.append_assoc, List.singleton_append]
    rw [List.append_nil, ← hrest, leading]
    split
    · rename_i hcount
      rw [List.mem_cons]
      constructor
      · rintro (rfl | h)
        · exact Or.inl ⟨rfl, hcount⟩
        · exact Or.inr h
      · rintro (⟨rfl, -⟩ | h)
        · exact Or.inl rfl
        · exact Or.inr h
    · rename_i hcount
      constructor
      · exact Or.inr
      · rintro (⟨rfl, h⟩ | h)
        · exact absurd h hcount
        · exact h

theorem leading_sublist (key : P → K) (n : Nat) (seen xs : List P) :
    (leading key n seen xs).Sublist xs := by
  induction xs generalizing seen with
  | nil => exact List.Sublist.slnil
  | cons x xs ih =>
    unfold leading
    split
    · exact (ih _).cons_cons x
    · exact (ih _).cons x

/-- Of every key, the leading entries are as many as there are, up to `n` in all. -/
theorem countP_leading (key : P → K) (n : Nat) (k : K) (seen xs : List P) :
    (leading key n seen xs).countP (fun x => key x = k) =
      min (n - seen.countP fun x => key x = k) (xs.countP fun x => key x = k) := by
  induction xs generalizing seen with
  | nil => simp [leading]
  | cons x xs ih =>
    have hrest := ih (seen ++ [x])
    rw [List.countP_append, List.countP_cons, List.countP_nil] at hrest
    rw [List.countP_cons, leading]
    by_cases hk : key x = k
    · subst hk
      split
      · rw [List.countP_cons, hrest]
        simp only [decide_true, if_true]
        omega
      · rw [hrest]
        simp only [decide_true, if_true]
        omega
    · have hfalse : decide (key x = k) = false := decide_eq_false hk
      split
      · rw [List.countP_cons, hrest, hfalse]
        simp
      · rw [hrest, hfalse]
        simp

/-- **The sample of a sorted list.** -/
theorem sampleOf_eq_leading [LinearOrder K] [LinearOrder P] (key : P → K) (n : Nat) {xs : List P}
    (hsorted : xs.Pairwise (· < ·)) : sampleOf key n xs = leading key n [] xs := by
  have hnodup : xs.Nodup := hsorted.imp fun h => h.ne
  obtain ⟨hkeys, hmemKeys⟩ := keys_groupOn key xs
  have hmem : ∀ x, x ∈ sampleOf key n xs ↔ x ∈ leading key n [] xs := by
    intro x
    simp only [sampleOf, List.mem_mergeSort, List.mem_flatMap, hmemKeys, groupOf_groupOn,
      mem_take_filter, mem_leading, List.nil_append, decide_eq_true_eq]
    constructor
    · rintro ⟨k, -, before, after, hsplit, rfl, hcount⟩
      exact ⟨before, after, hsplit, hcount⟩
    · rintro ⟨before, after, rfl, hcount⟩
      exact ⟨key x, ⟨x, by simp, rfl⟩, before, after, rfl, rfl, hcount⟩
  have hsample : (sampleOf key n xs).Pairwise (· < ·) := by
    have hflat : ((((groupOn key xs).map Prod.fst).mergeSort fun a b => decide (a ≤ b)).flatMap
        fun k => (groupOf k (groupOn key xs)).take n).Nodup := by
      rw [List.nodup_flatMap]
      refine ⟨fun k _ => ?_, ?_⟩
      · rw [groupOf_groupOn]
        exact (hnodup.filter _).sublist (List.take_sublist n _)
      · refine ((List.mergeSort_perm _ _).nodup_iff.mpr hkeys).imp ?_
        intro k k' hk x hx hx'
        dsimp only at hx hx'
        rw [groupOf_groupOn] at hx hx'
        have hkey := (List.mem_filter.mp (List.mem_of_mem_take hx)).2
        have hkey' := (List.mem_filter.mp (List.mem_of_mem_take hx')).2
        exact hk ((of_decide_eq_true hkey).symm.trans (of_decide_eq_true hkey'))
    have hle : (sampleOf key n xs).Pairwise (· ≤ ·) := List.pairwise_mergeSort' (· ≤ ·) _
    have hne : (sampleOf key n xs).Nodup := (List.mergeSort_perm _ _).nodup_iff.mpr hflat
    exact (hle.and hne).imp fun h => lt_of_le_of_ne h.1 h.2
  exact hsample.eq_of_mem_iff (hsorted.sublist (leading_sublist key n [] xs)) hmem

end Groups

end GdalFull.Lib
