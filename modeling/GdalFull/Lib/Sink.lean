import GdalFull.Lib.Loop

/-!
# Files that are created once and then appended to

A sink is a kind of file with two writes: creating it from one piece and appending a
piece to it. `grow` is what a row of writes makes of a file that may be absent: a write to
an absent file creates it. `concat` is the sink that keeps the items of its pieces.
-/

namespace GdalFull.Lib

/-- The two writes of a kind of file `Out`, for pieces of type `P`. -/
structure Sink (P Out : Type) where
  create : P → Out
  append : Out → P → Out

namespace Sink

variable {P Out F : Type}

/-- A write that keeps what is there and creates the file if it is absent. -/
def put (k : Sink P Out) : Option Out → P → Out
  | none, p => k.create p
  | some out, p => k.append out p

/-- The file after a row of writes. -/
def grow (k : Sink P Out) (out : Option Out) (ps : List P) : Option Out :=
  ps.foldl (fun out p => some (k.put out p)) out

@[simp] theorem grow_nil (k : Sink P Out) (out : Option Out) : k.grow out [] = out := rfl

@[simp] theorem grow_cons (k : Sink P Out) (out : Option Out) (p : P) (ps : List P) :
    k.grow out (p :: ps) = k.grow (some (k.put out p)) ps := rfl

theorem grow_concat (k : Sink P Out) (out : Option Out) (ps : List P) (p : P) :
    k.grow out (ps ++ [p]) = some (k.put (k.grow out ps) p) := by
  simp only [grow, List.foldl_append, List.foldl_cons, List.foldl_nil]

/-- The sink whose files are the lists of the items of their pieces. -/
def concat (part : P → List F) : Sink P (List F) where
  create := part
  append := fun out p => out ++ part p

theorem concat_put (part : P → List F) (out : Option (List F)) (p : P) :
    (concat part).put out p = out.getD [] ++ part p := by
  cases out <;> simp [put, concat]

/-- After at least one write, a concatenating file holds what was there and then the items
of the pieces, in order. -/
theorem concat_grow (part : P → List F) (out : Option (List F)) {ps : List P} (hps : ps ≠ []) :
    (concat part).grow out ps = some (out.getD [] ++ ps.flatMap part) := by
  induction ps generalizing out with
  | nil => exact absurd rfl hps
  | cons p ps ih =>
    rw [grow_cons, concat_put]
    cases ps with
    | nil => simp
    | cons q qs =>
      rw [ih _ (List.cons_ne_nil q qs)]
      simp

end Sink

end GdalFull.Lib
