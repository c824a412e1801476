import Mathlib.Data.Set.BooleanAlgebra
import Mathlib.Data.Set.Disjoint
import Mathlib.Logic.Function.Basic
import Mathlib.Order.CompletePartialOrder

/-!
# Interleaved programs over shared cells

A state gives every cell a value, and a program is a list of steps, each a function on states.
`Interleaved xs ys zs` says that `zs` runs the steps of two programs, those of each in their
order. A step is `Local` to a set of cells if it changes no other cell and what it writes
depends on no other cell; steps that are read, written and sequenced from cells of the set are
local to it. Programs over disjoint sets do not meet: every interleaving of them ends as if one
had run after the other (`Interleaved.run_of_local`).
-/

namespace GdalFull.Lib

variable {α K : Type} {V : K → Type}

/-- `zs` runs the steps of `xs` and those of `ys`, each in their order. -/
inductive Interleaved : List α → List α → List α → Prop
  | nil : Interleaved [] [] []
  | left {a : α} {xs ys zs : List α} : Interleaved xs ys zs → Interleaved (a :: xs) ys (a :: zs)
  | right {a : α} {xs ys zs : List α} : Interleaved xs ys zs → Interleaved xs (a :: ys) (a :: zs)

/-- A program runs its steps in order. -/
def runSteps {S : Type} (steps : List (S → S)) (s : S) : S :=
  steps.foldl (fun s step => step s) s

theorem runSteps_append {S : Type} (xs ys : List (S → S)) (s : S) :
    runSteps (xs ++ ys) s = runSteps ys (runSteps xs s) :=
  List.foldl_append

@[simp] theorem runSteps_nil {S : Type} (s : S) : runSteps [] s = s := rfl

@[simp] theorem runSteps_cons {S : Type} (step : S → S) (steps : List (S → S)) (s : S) :
    runSteps (step :: steps) s = runSteps steps (step s) := rfl

/-- A step that commutes with every step of a program can run before it or after it. -/
theorem runSteps_commute {S : Type} {step : S → S} {xs : List (S → S)}
    (h : ∀ x ∈ xs, ∀ s, step (x s) = x (step s)) (s : S) :
    runSteps xs (step s) = step (runSteps xs s) := by
  induction xs generalizing s with
  | nil => rfl
  | cons x xs ih =>
    rw [runSteps_cons, runSteps_cons, ← h x List.mem_cons_self,
      ih fun y hy => h y (List.mem_cons_of_mem x hy)]

/-- If the steps of two programs commute, every interleaving ends as the first and then the
second. -/
theorem Interleaved.run_eq_append {S : Type} {xs ys zs : List (S → S)}
    (h : Interleaved xs ys zs) (hcomm : ∀ x ∈ xs, ∀ y ∈ ys, ∀ s, y (x s) = x (y s)) (s : S) :
    runSteps zs s = runSteps (xs ++ ys) s := by
  induction h generalizing s with
  | nil => rfl
  | left _ ih =>
    exact ih (fun x hx y hy => hcomm x (List.mem_cons_of_mem _ hx) y hy) _
  | @right y xs ys zs _ ih =>
    -- the step of the second program is moved behind the whole first program
    have hrest := ih (fun x hx y' hy => hcomm x hx y' (List.mem_cons_of_mem _ hy)) (y s)
    have hmove := runSteps_commute (fun x hx s => hcomm x hx y List.mem_cons_self s) s
    rw [runSteps_cons, hrest, runSteps_append, hmove, runSteps_append, runSteps_cons]

theorem Interleaved.append (xs ys : List α) : Interleaved xs ys (xs ++ ys) := by
  induction xs with
  | nil =>
    induction ys with
    | nil => exact .nil
    | cons y ys ih => exact .right ih
  | cons x xs ih => exact .left ih

/-! ## Local steps -/

/-- Two states agree on a set of cells. -/
def Agree (P : Set K) (s t : ∀ k, V k) : Prop := ∀ k ∈ P, s k = t k

/-- The step changes cells of `P` only, and what it writes there depends on cells of `P` only. -/
structure Local (P : Set K) (step : (∀ k, V k) → ∀ k, V k) : Prop where
  frame : ∀ s, ∀ k ∉ P, step s k = s k
  reads : ∀ s t, Agree P s t → Agree P (step s) (step t)

namespace Local

variable {P Q : Set K} {f g : (∀ k, V k) → ∀ k, V k}

theorem skip : Local P (fun s : ∀ k, V k => s) where
  frame := fun _ _ _ => rfl
  reads := fun _ _ h => h

theorem comp (hf : Local P f) (hg : Local P g) : Local P fun s => g (f s) where
  frame := fun s k hk => (hg.frame (f s) k hk).trans (hf.frame s k hk)
  reads := fun s t h => hg.reads _ _ (hf.reads s t h)

/-- A step that looks at a cell of the set first. -/
theorem read {k : K} (hk : k ∈ P) {f : V k → (∀ k, V k) → ∀ k, V k}
    (hf : ∀ x, Local P (f x)) : Local P fun s => f (s k) s where
  frame := fun s => (hf (s k)).frame s
  reads := fun s t h => by
    rw [h k hk]
    exact (hf (t k)).reads s t h

theorem write [DecidableEq K] {k : K} (hk : k ∈ P) (x : V k) :
    Local P fun s : ∀ k, V k => Function.update s k x where
  frame := fun s i hi => by
    have hik : i ≠ k := fun h => hi (h ▸ hk)
    exact Function.update_of_ne hik x s
  reads := fun s t h i hi => by
    by_cases hik : i = k
    · subst hik
      rw [Function.update_self, Function.update_self]
    · rw [Function.update_of_ne hik, Function.update_of_ne hik, h i hi]

/-- Steps that are local to disjoint sets commute. -/
theorem commute (hf : Local P f) (hg : Local Q g) (hPQ : Disjoint P Q) (s : ∀ k, V k) :
    g (f s) = f (g s) := by
  have hout : ∀ k ∈ P, k ∉ Q := fun k hk hkQ => Set.disjoint_left.mp hPQ hk hkQ
  have hsame : ∀ k ∈ P, f (g s) k = f s k :=
    hf.reads _ _ fun k hk => hg.frame s k (hout k hk)
  have hother : ∀ k ∈ Q, g (f s) k = g s k :=
    hg.reads _ _ fun k hk => hf.frame s k fun hkP => hout k hkP hk
  funext k
  by_cases hkP : k ∈ P
  · rw [hg.frame _ k (hout k hkP), hsame k hkP]
  · rw [hf.frame _ k hkP]
    by_cases hkQ : k ∈ Q
    · exact hother k hkQ
    · rw [hg.frame _ k hkQ, hg.frame _ k hkQ, hf.frame _ k hkP]

/-- A program of local steps changes no other cell. -/
theorem run_frame {xs : List ((∀ k, V k) → ∀ k, V k)} (hxs : ∀ x ∈ xs, Local P x) (s : ∀ k, V k)
    {k : K} (hk : k ∉ P) : runSteps xs s k = s k := by
  induction xs generalizing s with
  | nil => rfl
  | cons x xs ih =>
    rw [runSteps_cons, ih fun y hy => hxs y (List.mem_cons_of_mem x hy)]
    exact (hxs x List.mem_cons_self).frame s k hk

end Local

/-- Programs over disjoint sets of cells: every interleaving ends as the first and then the
second. -/
theorem Interleaved.run_of_local {P Q : Set K} (hPQ : Disjoint P Q)
    {xs ys zs : List ((∀ k, V k) → ∀ k, V k)} (h : Interleaved xs ys zs)
    (hxs : ∀ x ∈ xs, Local P x) (hys : ∀ y ∈ ys, Local Q y) (s : ∀ k, V k) :
    runSteps zs s = runSteps (xs ++ ys) s :=
  h.run_eq_append (fun x hx y hy => (hxs x hx).commute (hys y hy) hPQ) s

end GdalFull.Lib
