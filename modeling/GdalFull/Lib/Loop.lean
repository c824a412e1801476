import Mathlib.Data.List.Induction

/-!
# Loops over a list

A `for` loop over a list is a left fold of its body, and a loop whose body can raise is
the same fold in `Except`. The rules below are the induction of such a loop on the part
of the list that it has already walked: the invariant relates that part to the state,
so that a result about the whole list is the invariant at the end.
-/

namespace GdalFull.Lib

variable {α β γ σ ε : Type}

/-- Invariant rule of a loop that always runs to the end of its list. -/
theorem foldl_walked {body : β → α → β} {I : List α → β → Prop} {start : β}
    (h0 : I [] start) (hstep : ∀ walked a b, I walked b → I (walked ++ [a]) (body b a))
    (xs : List α) : I xs (xs.foldl body start) := by
  induction xs using List.reverseRecOn with
  | nil => exact h0
  | append_singleton walked a ih =>
    rw [List.foldl_append]
    exact hstep walked a _ ih

/-- A loop that ends without raising has ended without raising on every part of the list
that it walked. -/
theorem foldlM_concat_ok {body : β → α → Except ε β} {walked : List α} {a : α} {start b : β}
    (h : (walked ++ [a]).foldlM body start = .ok b) :
    ∃ mid, walked.foldlM body start = .ok mid ∧ body mid a = .ok b := by
  rw [List.foldlM_append] at h
  cases hm : walked.foldlM body start with
  | error e => rw [hm] at h; cases h
  | ok mid =>
    rw [hm] at h
    refine ⟨mid, rfl, ?_⟩
    cases hb : body mid a with
    | error e => simp [bind, Except.bind, hb] at h
    | ok b' => simpa [bind, Except.bind, pure, Except.pure, hb] using h

/-- Invariant rule of a loop whose body can raise. -/
theorem foldlM_walked {body : β → α → Except ε β} {I : List α → β → Prop} {start : β}
    (h0 : I [] start)
    (hstep : ∀ walked a b b', I walked b → body b a = .ok b' → I (walked ++ [a]) b')
    {xs : List α} {b : β} (h : xs.foldlM body start = .ok b) : I xs b := by
  induction xs using List.reverseRecOn generalizing b with
  | nil =>
    cases h
    exact h0
  | append_singleton walked a ih =>
    obtain ⟨mid, hmid, hb⟩ := foldlM_concat_ok h
    exact hstep walked a mid b (ih hmid) hb

theorem exists_map_ok_iff {x : Except ε α} {f : α → β} :
    (∃ b, x.map f = .ok b) ↔ ∃ a, x = .ok a := by
  cases x <;> simp [Except.map]

/-- A loop whose body raises or not whatever the state ends without raising exactly when its body
does not raise on any item. -/
theorem foldlM_ok_iff {body : β → α → Except ε β} {fine : α → Prop}
    (hbody : ∀ b a, (∃ b', body b a = .ok b') ↔ fine a) {xs : List α} {start : β} :
    (∃ b, xs.foldlM body start = .ok b) ↔ ∀ a ∈ xs, fine a := by
  induction xs generalizing start with
  | nil => exact ⟨fun _ a ha => absurd ha List.not_mem_nil, fun _ => ⟨start, rfl⟩⟩
  | cons a xs ih =>
    rw [List.foldlM_cons, List.forall_mem_cons, ← hbody start a]
    cases ha : body start a with
    | error e => simp [bind, Except.bind]
    | ok b =>
      have hrest : (∃ b', xs.foldlM body b = .ok b') ↔ ∀ a ∈ xs, fine a := ih
      simpa [bind, Except.bind] using hrest

/-- A loop whose body makes at most one step of another machine, as seen through `view`,
runs that machine on the steps that it makes. -/
theorem foldlM_simulates {body : β → α → Except ε β} (view : β → σ) {step : σ → γ → σ}
    {call : α → Option γ}
    (hbody : ∀ b b' a, body b a = .ok b' → view b' = (call a).toList.foldl step (view b))
    {xs : List α} {start b : β} (h : xs.foldlM body start = .ok b) :
    view b = (xs.filterMap call).foldl step (view start) := by
  refine foldlM_walked
    (I := fun walked b => view b = (walked.filterMap call).foldl step (view start)) rfl ?_ h
  intro walked a b b' ih hb
  rw [hbody b b' a hb, ih, List.filterMap_append, List.foldl_append]
  cases hc : call a <;> simp [hc]

end GdalFull.Lib
