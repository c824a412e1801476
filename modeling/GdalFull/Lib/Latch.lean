import Mathlib.Data.List.Induction

/-!
# What is settled once in a run

A property that no event of a run undoes holds from its first moment on, and whatever is kept with
it stays as it was at that moment (`latched_iff`).
-/

namespace GdalFull.Lib

section Latch

variable {σ ε V : Type} {step : σ → ε → σ} {P : σ → Prop} {f : σ → V}

theorem foldl_kept {es : List ε}
    (hkeep : ∀ e ∈ es, ∀ s, P s → P (step s e) ∧ f (step s e) = f s) {s : σ} (hs : P s) :
    P (es.foldl step s) ∧ f (es.foldl step s) = f s := by
  induction es generalizing s with
  | nil => exact ⟨hs, rfl⟩
  | cons e es ih =>
    obtain ⟨he, hes⟩ := List.forall_mem_cons.mp hkeep
    obtain ⟨hnext, hsame⟩ := he s hs
    obtain ⟨hend, hrest⟩ := ih hes hnext
    exact ⟨hend, hrest.trans hsame⟩

/-- A property that holds at the end and not at the start has a first moment. -/
theorem exists_first {es : List ε} {s : σ} (hs : ¬ P s) (h : P (es.foldl step s)) :
    ∃ es₁ e es₂, es = es₁ ++ e :: es₂ ∧ ¬ P (es₁.foldl step s) ∧
      P (step (es₁.foldl step s) e) := by
  induction es generalizing s with
  | nil => exact absurd h hs
  | cons e es ih =>
    by_cases he : P (step s e)
    · exact ⟨[], e, es, rfl, hs, he⟩
    · obtain ⟨es₁, e', es₂, rfl, hbefore, hafter⟩ := ih he h
      exact ⟨e :: es₁, e', es₂, rfl, hbefore, hafter⟩

variable (step P f) in
/-- **A latch.** What it holds at the end is what it held when it was set. -/
theorem latched_iff (es : List ε)
    (hkeep : ∀ e ∈ es, ∀ s, P s → P (step s e) ∧ f (step s e) = f s) {s : σ} (hs : ¬ P s) (v : V) :
    P (es.foldl step s) ∧ f (es.foldl step s) = v ↔
      ∃ es₁ e es₂, es = es₁ ++ e :: es₂ ∧ ¬ P (es₁.foldl step s) ∧
        P (step (es₁.foldl step s) e) ∧ f (step (es₁.foldl step s) e) = v := by
  have hrest : ∀ {es₁ e es₂}, es = es₁ ++ e :: es₂ → P (step (es₁.foldl step s) e) →
      P (es.foldl step s) ∧ f (es.foldl step s) = f (step (es₁.foldl step s) e) := by
    rintro es₁ e es₂ rfl hset
    rw [List.foldl_append, List.foldl_cons]
    exact foldl_kept (fun e' he' =>
      hkeep e' (List.mem_append_right _ (List.mem_cons_of_mem _ he'))) hset
  constructor
  · rintro ⟨hend, rfl⟩
    obtain ⟨es₁, e, es₂, heq, hbefore, hset⟩ := exists_first hs hend
    exact ⟨es₁, e, es₂, heq, hbefore, hset, ((hrest heq hset).2).symm⟩
  · rintro ⟨es₁, e, es₂, heq, -, hset, rfl⟩
    exact hrest heq hset

end Latch

end GdalFull.Lib
