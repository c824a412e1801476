import GdalFull.Merge.Zukei

/-!
# The first records of a file

`via_ogrinfo` of `parquet_sample5.py` walks the lines that `ogrinfo -al` prints and collects them in
blocks: a line that begins with `OGRFeature(` ends the block before it. It stops when it has five.

`sampleLoop_blocks` gives the blocks for any lines before the first feature. They are collected as a
block of their own, so that the result is the first five features exactly when there are no such
lines (`sample_iff`).
-/

namespace GdalFull.Verify

open GdalFull.Lib GdalFull.Merge

/-- `line.strip().startswith("OGRFeature(")`. -/
def isFeatureLine (line : Text) : Bool :=
  featureMark.isPrefixOf (strip line)

/-- The loop over the lines, with `result` and `current`. -/
def sampleLoop : List (List Text) → List Text → List Text → List (List Text) × List Text
  | result, current, [] => (result, current)
  | result, current, line :: lines =>
    if isFeatureLine line then
      if current = [] then sampleLoop result [line] lines
      else if 5 ≤ (result ++ [current]).length then (result ++ [current], current)
      else sampleLoop (result ++ [current]) [line] lines
    else sampleLoop result (current ++ [line]) lines

/-- The block that is still open. -/
def openBlock (current : List Text) : List (List Text) :=
  if current = [] then [] else [current]

/-- What is done after the loop. -/
def sampleEnd (s : List (List Text) × List Text) : List (List Text) :=
  (s.1 ++ openBlock s.2).take 5

/-- `via_ogrinfo`; `none` is `None`. -/
def viaOgrinfo (returncode : Int) (stdout : Text) : Option (List (List Text)) :=
  if returncode ≠ 0 then none else some (sampleEnd (sampleLoop [] [] (splitlines stdout)))

/-- The lines of a feature. -/
structure FeatureBlock where
  first : Text
  rest : List Text
  marked : isFeatureLine first = true
  plain : ∀ line ∈ rest, isFeatureLine line = false

def FeatureBlock.lines (b : FeatureBlock) : List Text := b.first :: b.rest

/-- Lines within a block. -/
theorem sampleLoop_plain (result : List (List Text)) (current : List Text) {lines : List Text}
    (h : ∀ line ∈ lines, isFeatureLine line = false) (more : List Text) :
    sampleLoop result current (lines ++ more) = sampleLoop result (current ++ lines) more := by
  induction lines generalizing current with
  | nil => rw [List.nil_append, List.append_nil]
  | cons line lines ih =>
    obtain ⟨hline, hlines⟩ := List.forall_mem_cons.mp h
    rw [List.cons_append, sampleLoop, if_neg (by rw [hline]; exact Bool.false_ne_true), ih _ hlines,
      List.append_assoc, List.singleton_append]

/-- The first line of a block ends the open one, unless that is the fifth. -/
theorem sampleLoop_block {result : List (List Text)} {current : List Text}
    (hroom : (result ++ openBlock current).length < 5) (b : FeatureBlock) (more : List Text) :
    sampleLoop result current (b.lines ++ more) =
      sampleLoop (result ++ openBlock current) b.lines more := by
  rw [FeatureBlock.lines, List.cons_append, sampleLoop, if_pos b.marked]
  unfold openBlock at hroom ⊢
  by_cases hcurrent : current = []
  · rw [if_pos hcurrent, if_pos hcurrent, List.append_nil, sampleLoop_plain _ _ b.plain]
    rfl
  · rw [if_neg hcurrent] at hroom
    rw [if_neg hcurrent, if_neg hcurrent, if_neg (by omega), sampleLoop_plain _ _ b.plain]
    rfl

/-- **The blocks of some features**, with what is collected before them. -/
theorem sampleLoop_blocks {result : List (List Text)} (hresult : result.length < 5)
    (current : List Text) (blocks : List FeatureBlock) :
    sampleEnd (sampleLoop result current (blocks.flatMap FeatureBlock.lines)) =
      (result ++ openBlock current ++ blocks.map FeatureBlock.lines).take 5 := by
  induction blocks generalizing result current with
  | nil =>
    rw [List.flatMap_nil, sampleLoop, sampleEnd, List.map_nil, List.append_nil]
  | cons b blocks ih =>
    rw [List.flatMap_cons, List.map_cons]
    by_cases hroom : (result ++ openBlock current).length < 5
    · have hopen : openBlock b.lines = [b.lines] := rfl
      rw [sampleLoop_block hroom, ih hroom, hopen, List.append_assoc (result ++ openBlock current),
        List.singleton_append]
    · -- the open block is the fifth: it stands in the result twice, and is cut off behind
      have hcurrent : current ≠ [] := by
        rintro rfl
        rw [openBlock, if_pos rfl, List.append_nil] at hroom
        exact hroom hresult
      have hopen : openBlock current = [current] := if_neg hcurrent
      rw [hopen] at hroom ⊢
      have hfive : (result ++ [current]).length = 5 := by
        rw [List.length_append, List.length_singleton] at hroom ⊢
        omega
      have htake : ∀ more, (result ++ [current] ++ more).take 5 = result ++ [current] := by
        intro more
        rw [← hfive, List.take_left]
      rw [FeatureBlock.lines, List.cons_append, sampleLoop, if_pos b.marked, if_neg hcurrent,
        if_pos (by omega), sampleEnd, htake, htake]

/-- The result is the first five features, or all of them if there are fewer. -/
def ShowsFirst (blocks : List FeatureBlock) (result : List (List Text)) : Prop :=
  result.length = min 5 blocks.length ∧
    ∀ i < result.length, result[i]? = blocks[i]?.map FeatureBlock.lines

theorem showsFirst_iff {blocks : List FeatureBlock} {result : List (List Text)} :
    ShowsFirst blocks result ↔ result = (blocks.map FeatureBlock.lines).take 5 := by
  constructor
  · rintro ⟨hlen, hget⟩
    apply List.ext_getElem?
    intro i
    by_cases hi : i < result.length
    · rw [hget i hi, List.getElem?_take, List.getElem?_map, if_pos (by omega)]
    · rw [List.getElem?_eq_none (by omega), List.getElem?_eq_none]
      rw [List.length_take, List.length_map]
      omega
  · rintro rfl
    refine ⟨by rw [List.length_take, List.length_map], ?_⟩
    intro i hi
    rw [List.length_take] at hi
    rw [List.getElem?_take, if_pos (by omega), List.getElem?_map]

/-- **The sample.** It shows the first features exactly when nothing is printed before them. -/
theorem sample_iff (stdout : Text) (preamble : List Text) (blocks : List FeatureBlock)
    (hpre : ∀ line ∈ preamble, isFeatureLine line = false)
    (hlines : splitlines stdout = preamble ++ blocks.flatMap FeatureBlock.lines) :
    (∃ result, viaOgrinfo 0 stdout = some result ∧ ShowsFirst blocks result) ↔
      preamble = [] := by
  have hresult : viaOgrinfo 0 stdout =
      some ((openBlock preamble ++ blocks.map FeatureBlock.lines).take 5) := by
    rw [viaOgrinfo, if_neg (by simp), hlines, sampleLoop_plain [] [] hpre,
      sampleLoop_blocks (by decide), List.nil_append, List.nil_append]
  simp only [hresult, Option.some.injEq, exists_eq_left', showsFirst_iff]
  constructor
  · intro h
    by_contra hne
    rw [openBlock, if_neg hne, List.singleton_append, List.take_succ_cons] at h
    cases blocks with
    | nil => cases h
    | cons b blocks =>
      rw [List.map_cons, List.take_succ_cons] at h
      -- the first line of the feature would be a line before it
      have hfirst := (List.cons.inj h).1
      have hplain := hpre b.first (hfirst ▸ List.mem_cons_self)
      rw [b.marked] at hplain
      cases hplain
  · rintro rfl
    rfl

/-- A feature with one attribute. -/
def sampleBlock : FeatureBlock where
  first := "OGRFeature(a):1".toList
  rest := ["  x (String) = 1".toList]
  marked := by decide
  plain := by decide

theorem sample_bare :
    ∃ result, viaOgrinfo 0 "OGRFeature(a):1\n  x (String) = 1\n".toList = some result ∧
      ShowsFirst [sampleBlock] result :=
  (sample_iff _ [] [sampleBlock] (by decide) (by decide)).mpr rfl

/-- The line before the features is shown as the first record. -/
theorem sample_preamble :
    splitlines "Layer name: a\nOGRFeature(a):1\n  x (String) = 1\n".toList =
      ["Layer name: a".toList] ++ [sampleBlock].flatMap FeatureBlock.lines ∧
    viaOgrinfo 0 "Layer name: a\nOGRFeature(a):1\n  x (String) = 1\n".toList =
      some [["Layer name: a".toList], sampleBlock.lines] ∧
    ¬ ∃ result, viaOgrinfo 0 "Layer name: a\nOGRFeature(a):1\n  x (String) = 1\n".toList =
      some result ∧ ShowsFirst [sampleBlock] result := by
  have hresult : viaOgrinfo 0 "Layer name: a\nOGRFeature(a):1\n  x (String) = 1\n".toList =
      some [["Layer name: a".toList], sampleBlock.lines] := by decide
  refine ⟨by decide, hresult, ?_⟩
  rintro ⟨result, hsome, hlen, _⟩
  rw [hresult] at hsome
  cases hsome
  cases hlen

end GdalFull.Verify
