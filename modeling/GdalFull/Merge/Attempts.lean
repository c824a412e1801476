import GdalFull.Lib.Sink

/-!
# Merging by one creating call and then appending calls

Every merge driver makes one `ogr2ogr` call per file: the first creates the output file
and the others append to it. The drivers differ in when they stop taking a call for the
first one. The Python drivers clear their flag when they build the creating call
(`eager`), the shell drivers only after it has succeeded.

`Progress.attempt` is one call of either kind. `foldl_attempt_eager` and
`foldl_attempt_lazy` give the state after any row of calls: which pieces are in the file,
and on top of what.
-/

namespace GdalFull.Merge

open Lib

variable {P Out F : Type}

/-- One `ogr2ogr` call: the piece that it reads, and whether it exits with status 0. -/
structure Attempt (P : Type) where
  piece : P
  ok : Bool
  deriving DecidableEq

/-- The pieces of the calls that succeeded, in order. -/
def succeeded (as : List (Attempt P)) : List P :=
  (as.filter Attempt.ok).map Attempt.piece

@[simp] theorem succeeded_nil : succeeded ([] : List (Attempt P)) = [] := rfl

theorem succeeded_concat (as : List (Attempt P)) (a : Attempt P) :
    succeeded (as ++ [a]) = succeeded as ++ (if a.ok then [a.piece] else []) := by
  cases h : a.ok <;> simp [succeeded, List.filter_append, h]

theorem succeeded_eq_nil_iff {as : List (Attempt P)} :
    succeeded as = [] ↔ ∀ a ∈ as, a.ok = false := by
  simp [succeeded, List.filter_eq_nil_iff]

/-- The pieces of a row of files, each of which has at most one call, file by file. -/
theorem succeeded_flatMap {α : Type} (call : α → Option (Attempt P)) (part : P → List F)
    (xs : List α) :
    (succeeded (xs.filterMap call)).flatMap part =
      xs.flatMap fun x => (succeeded (call x).toList).flatMap part := by
  induction xs with
  | nil => rfl
  | cons x xs ih =>
    rw [List.flatMap_cons, ← ih]
    cases hx : call x with
    | none => simp [hx, succeeded]
    | some a => cases ha : a.ok <;> simp [hx, ha, succeeded]

/-- What a merge loop keeps: whether the next call is the creating one, the number of
files merged, and the output file. -/
structure Progress (Out : Type) where
  first : Bool
  merged : Nat
  output : Option Out
  deriving DecidableEq

/-- The state before the loop, over what an earlier run left at the output path. -/
def Progress.start (prior : Option Out) : Progress Out :=
  ⟨true, 0, prior⟩

/-- One call. A call that fails leaves the output file as it was. -/
def Progress.attempt (eager : Bool) (k : Sink P Out) (s : Progress Out) (a : Attempt P) :
    Progress Out :=
  if a.ok then
    { first := false
      merged := s.merged + 1
      output := some (if s.first then k.create a.piece else k.put s.output a.piece) }
  else
    { s with first := s.first && !eager }

/-! ## The flag is cleared by the first call -/

/-- What the run builds on: the old file stays under the appended pieces unless the first
call replaces it. -/
def kept (prior : Option Out) (as : List (Attempt P)) : Option Out :=
  if as.head?.all (fun a => !a.ok) then prior else none

theorem kept_concat (prior : Option Out) {as : List (Attempt P)} (h : as ≠ [])
    (a : Attempt P) : kept prior (as ++ [a]) = kept prior as := by
  cases as with
  | nil => exact absurd rfl h
  | cons b bs => rfl

theorem foldl_attempt_eager (k : Sink P Out) (prior : Option Out) (as : List (Attempt P)) :
    as.foldl (Progress.attempt true k) (.start prior) =
      ⟨as.isEmpty, (succeeded as).length, k.grow (kept prior as) (succeeded as)⟩ := by
  refine foldl_walked
    (I := fun walked (s : Progress Out) =>
      s = ⟨walked.isEmpty, (succeeded walked).length,
        k.grow (kept prior walked) (succeeded walked)⟩) rfl ?_ as
  rintro walked a _ rfl
  rcases eq_or_ne walked [] with rfl | hw
  · -- the creating call: on success nothing of the old file is left
    cases ha : a.ok <;> simp [Progress.attempt, succeeded, kept, ha, Sink.put]
  · have hnw : walked.isEmpty = false := by simpa using hw
    cases ha : a.ok with
    | false => simp [Progress.attempt, succeeded_concat, kept_concat _ hw, ha, hnw]
    | true =>
      simp [Progress.attempt, succeeded_concat, kept_concat _ hw, ha, hnw,
        Sink.grow_concat]

/-! ## The flag is cleared by the first success -/

theorem foldl_attempt_lazy (k : Sink P Out) (prior : Option Out) (as : List (Attempt P)) :
    as.foldl (Progress.attempt false k) (.start prior) =
      ⟨(succeeded as).isEmpty, (succeeded as).length,
        k.grow (if succeeded as = [] then prior else none) (succeeded as)⟩ := by
  refine foldl_walked
    (I := fun walked (s : Progress Out) =>
      s = ⟨(succeeded walked).isEmpty, (succeeded walked).length,
        k.grow (if succeeded walked = [] then prior else none) (succeeded walked)⟩) rfl ?_ as
  rintro walked a _ rfl
  cases ha : a.ok with
  | false => simp [Progress.attempt, succeeded_concat, ha]
  | true =>
    by_cases hs : succeeded walked = []
    · simp [Progress.attempt, succeeded_concat, ha, hs, Sink.put]
    · simp [Progress.attempt, succeeded_concat, ha, hs, Sink.grow_concat]

/-! ## The merged layer -/

/-- The run starts from nothing: no features are left from earlier runs, or the first call
replaces them, or the run merges no file at all. -/
def FreshStart (prior : Option (List F)) (as : List (Attempt P)) : Prop :=
  prior.getD [] = [] ∨ (∀ a ∈ as.head?, a.ok = true) ∨ ∀ a ∈ as, a.ok = false

instance (prior : Option (List F)) (as : List (Attempt P)) [DecidableEq F] :
    Decidable (FreshStart prior as) :=
  inferInstanceAs (Decidable (_ ∨ _ ∨ _))

/-- With an eager flag, a run that merges something leaves the pieces it merged and nothing
else exactly when it starts from nothing. -/
theorem eager_layer_iff (part : P → List F) (prior : Option (List F)) (as : List (Attempt P)) :
    (0 < (succeeded as).length →
        (Sink.concat part).grow (kept prior as) (succeeded as) =
          some ((succeeded as).flatMap part)) ↔
      FreshStart prior as := by
  by_cases hs : succeeded as = []
  · have hnone : ∀ a ∈ as, a.ok = false := succeeded_eq_nil_iff.mp hs
    refine ⟨fun _ => Or.inr (Or.inr hnone), fun _ hpos => ?_⟩
    simp [hs] at hpos
  · have hsome : ¬ ∀ a ∈ as, a.ok = false := fun h => hs (succeeded_eq_nil_iff.mpr h)
    have hpos : 0 < (succeeded as).length := List.length_pos_iff.mpr hs
    have hhead : (∀ a ∈ as.head?, a.ok = true) ↔ as.head?.all (fun a => !a.ok) = false := by
      cases as with
      | nil => exact absurd rfl hs
      | cons a as => simp
    rw [Sink.concat_grow part _ hs]
    simp only [hpos, forall_const, Option.some.injEq, List.append_left_eq_self, FreshStart, hsome,
      or_false, hhead, kept]
    cases h : as.head?.all (fun a => !a.ok) <;> simp

end GdalFull.Merge
