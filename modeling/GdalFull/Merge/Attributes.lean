import GdalFull.Merge.Dump

/-!
# The table of `verify_tochi_attributes.py`

`main` prints the attributes of the first feature with their numbers, and such a number is what
`get_zukei` uses as an index. Both go over the lines of the same block, but `main` wants a name and
a type in parentheses before the `=`, with no `)` inside, where the other searches for the first `)`
with a `=` after it.

`table_iff` says when the numbers are the same: every line with a value has a name and such a type
before it (`LineAlike`), and `int` reads every value that consists of digits. A type with a subtype,
as in `Integer(Int16)`, is never read by `main` (`not_lineAlike_subtype`).
-/

namespace GdalFull.Merge

open GdalFull.Lib

/-- `\s*\([^)]+\)\s*=\s*(.*)$`. -/
def typePattern : Regex :=
  .seq (.many isSpace) <| .seq (.lit ['(']) <| .seq (.many1 (· != ')')) valuePattern

/-- `(.+?)\s*\([^)]+\)\s*=\s*(.*)$` with its two groups. -/
def nameValue (t : Text) : Option (Text × Text) :=
  runLazy1 (· != '\n') (fun rest =>
    (typePattern.matchAt rest).map fun value => (t.take (t.length - rest.length), value)) t

/-- `re.match(r"\s*(.+?)\s*\([^)]+\)\s*=\s*(.*)$", line)`. -/
def attrMatch (line : Text) : Option (Text × Text) :=
  runMany isSpace nameValue line

/-- `attr_names` and `attr_vals` of `main`. -/
def mainAttrs (block : Text) : List (Text × Text) :=
  (splitlines block).filterMap fun line =>
    (attrMatch line).map fun m => (strip m.1, strip m.2)

/-- A row of the table; `mark` is `[座標系候補]`. -/
structure TableRow where
  idx : Nat
  name : Text
  val : Text
  mark : Bool

def tableRow (i : Nat) (attr : Text × Text) : Except ValueError TableRow :=
  (digitsZone attr.2).map fun zone => ⟨i, attr.1.take 25, attr.2, zone.isSome⟩

/-- The rows that are printed before the loop ends, or before `int` fails. -/
def printTable : Nat → List (Text × Text) → List TableRow
  | _, [] => []
  | i, attr :: attrs =>
    match tableRow i attr with
    | .ok row => row :: printTable (i + 1) attrs
    | .error _ => []

/-- The table that `main` prints for what `ogrinfo` has printed. -/
def attributeTable (txt : Text) : List TableRow :=
  (featurePattern.search txt).elim [] fun block => printTable 0 (mainAttrs block)

/-- The row with a number has the value that the attribute list has there. -/
def NumbersAlike (txt : Text) : Prop :=
  ∀ i v, (∃ row ∈ attributeTable txt, row.idx = i ∧ row.val = v) ↔ (firstVals txt)[i]? = some v

/-! ## When a line is read alike -/

/-- `\s*=` is next. -/
def EqNext (t : Text) : Prop := (t.dropWhile isSpace).head? = some '='

instance (t : Text) : Decidable (EqNext t) :=
  inferInstanceAs (Decidable (_ = _))

/-- The first `)` of a line with a `=` after it. -/
structure FirstEnd (line a rest : Text) : Prop where
  split : line = a ++ ')' :: rest
  eqNext : EqNext rest
  first : ∀ b u, a = b ++ ')' :: u → ¬ EqNext (u ++ ')' :: rest)

/-- A type in parentheses, with a `=` after it. -/
structure TypeEnd (line pre inner rest : Text) : Prop where
  split : line = pre ++ '(' :: (inner ++ ')' :: rest)
  inner_ne : inner ≠ []
  closed : ')' ∉ inner
  eqNext : EqNext rest

/-- After its first character, a text has a type and a `=`. -/
def HasAttribute (t : Text) : Prop :=
  ∃ pre inner rest, TypeEnd t pre inner rest ∧ pre ≠ []

/-- Before the first `)` with a `=` after it stand a name and a type in parentheses. A name of
blanks will do if no other attribute follows. -/
def LineAlike (line : Text) : Prop :=
  ∀ a rest, FirstEnd line a rest → ∃ pre inner, a = pre ++ '(' :: inner ∧ inner ≠ [] ∧
    ')' ∉ inner ∧
      (pre.dropWhile isSpace ≠ [] ∨ pre ≠ [] ∧ ¬ HasAttribute (line.dropWhile isSpace))

/-! ## The two patterns -/

/-- The value after `\s*=\s*`. -/
def valueOf (rest : Text) : Text :=
  ((rest.dropWhile isSpace).drop 1).dropWhile isSpace

theorem dropWhile_space_append {s t : Text} (hs : ∀ c ∈ s, isSpace c = true)
    (ht : ∀ c ∈ t.head?, isSpace c = false) : (s ++ t).dropWhile isSpace = t := by
  rw [List.dropWhile_append_of_pos hs]
  cases t with
  | nil => rfl
  | cons c t => rw [List.dropWhile_cons_of_neg (by rw [ht c rfl]; exact Bool.false_ne_true)]

theorem matchAt_value {rest : Text} (hnew : '\n' ∉ rest) :
    valuePattern.matchAt (')' :: rest) = if EqNext rest then some (valueOf rest) else none := by
  have hlit : ∀ {d : Char} {u : Text} (k : Text → Text → Option Text), d ≠ '=' →
      (Regex.lit ['=']).run k [] (d :: u) = none := fun k hd => Regex.run_lit_ne hd.symm [] _ [] k
  have hsplit : rest = rest.takeWhile isSpace ++ rest.dropWhile isSpace :=
    List.takeWhile_append_dropWhile.symm
  have hblanks : ∀ c ∈ rest.takeWhile isSpace, isSpace c = true := fun _ => List.mem_takeWhile_imp
  refine (Regex.run_lit_append [')'] rest [] _).trans ?_
  rw [Regex.run, Regex.run]
  by_cases heq : EqNext rest
  · obtain ⟨w, hw⟩ := List.head?_eq_some_iff.mp heq
    have hwnew : '\n' ∉ w.dropWhile isSpace := fun h => hnew <| by
      rw [hsplit, hw]
      exact List.mem_append_right _ (List.mem_cons_of_mem _ ((List.dropWhile_suffix _).subset h))
    have hvalue : valueOf rest = w.dropWhile isSpace := by rw [valueOf, hw, List.drop_one,
      List.tail_cons]
    rw [if_pos heq, hvalue]
    apply runMany_dropWhile
    rw [hw]
    refine (Regex.run_lit_append ['='] w [] _).trans ?_
    rw [Regex.run, Regex.run]
    exact runMany_dropWhile (run_lineValue hwnew [])
  · rw [if_neg heq]
    refine (congrArg _ hsplit).trans (runMany_none eq_false_of_mem_dropWhile ?_)
    intro u hu
    cases u with
    | nil =>
      cases hrest : rest.dropWhile isSpace with
      | nil => rfl
      | cons d t =>
        refine hlit _ fun hd => heq ?_
        rw [EqNext, hrest, hd]
        rfl
    | cons d u =>
      refine hlit _ fun hd => ?_
      have hspace := hblanks d (hu.subset List.mem_cons_self)
      rw [hd] at hspace
      exact absurd hspace (by decide)

theorem matchAt_value_some {t v : Text} (hnew : '\n' ∉ t)
    (h : valuePattern.matchAt t = some v) :
    ∃ rest, t = ')' :: rest ∧ EqNext rest ∧ v = valueOf rest := by
  cases t with
  | nil => cases h
  | cons c rest =>
    by_cases hc : c = ')'
    · subst hc
      rw [matchAt_value fun hmem => hnew (List.mem_cons_of_mem _ hmem)] at h
      obtain ⟨heq, hv⟩ := Option.ite_none_right_eq_some.mp h
      exact ⟨rest, rfl, heq, (Option.some.inj hv).symm⟩
    · rw [valuePattern, Regex.matchAt, Regex.run, Regex.run_lit_ne (Ne.symm hc)] at h
      cases h

/-- The search finds the first `)` with a `=` after it. -/
theorem search_of_firstEnd {line a rest : Text} (hnew : '\n' ∉ line)
    (h : FirstEnd line a rest) : valuePattern.search line = some (valueOf rest) := by
  have hrest : '\n' ∉ rest := fun hmem => hnew <| by
    rw [h.split]
    exact List.mem_append_right a (List.mem_cons_of_mem _ hmem)
  have hno : valuePattern.NoMatch a (')' :: rest) := by
    have hfirst := h.first
    have hline : '\n' ∉ a ++ ')' :: rest := h.split ▸ hnew
    clear h hnew
    induction a with
    | nil => trivial
    | cons c a ih =>
      have htail : '\n' ∉ a ++ ')' :: rest := fun hmem => hline (List.mem_cons_of_mem c hmem)
      refine ⟨?_, ih (fun b u hsplit => hfirst (c :: b) u (congrArg (c :: ·) hsplit)) htail⟩
      rw [← Option.not_isSome_iff_eq_none]
      intro hsome
      obtain ⟨v, hv⟩ := Option.isSome_iff_exists.mp hsome
      obtain ⟨u, hu, heq, _⟩ := matchAt_value_some hline hv
      obtain ⟨rfl, rfl⟩ := List.cons.inj hu
      exact hfirst [] a rfl heq
  rw [h.split, Regex.search_noMatch hno]
  apply Regex.search_of_matchAt
  rw [matchAt_value hrest, if_pos h.eqNext]

/-- Two places of a `)` in a line are the same, or one comes before the other. -/
theorem split_paren {a b u v : Text} (h : a ++ ')' :: u = b ++ ')' :: v) :
    (a = b ∧ u = v) ∨ (∃ w, b = a ++ ')' :: w ∧ u = w ++ ')' :: v) ∨
      ∃ w, a = b ++ ')' :: w ∧ v = w ++ ')' :: u := by
  rcases List.append_eq_append_iff.mp h with ⟨w, hb, hu⟩ | ⟨w, ha, hv⟩
  · cases w with
    | nil => exact Or.inl ⟨by rw [hb, List.append_nil], (List.cons.inj hu).2⟩
    | cons c w =>
      obtain ⟨rfl, htail⟩ := List.cons.inj hu
      exact Or.inr (Or.inl ⟨w, hb, htail⟩)
  · cases w with
    | nil => exact Or.inl ⟨by rw [ha, List.append_nil], (List.cons.inj hv).2.symm⟩
    | cons c w =>
      obtain ⟨rfl, htail⟩ := List.cons.inj hv
      exact Or.inr (Or.inr ⟨w, ha, htail⟩)

/-- No `)` with a `=` after it comes before the first one. -/
theorem FirstEnd.after {line a rest b u : Text} (h : FirstEnd line a rest)
    (hsplit : line = b ++ ')' :: u) (hu : EqNext u) :
    (b = a ∧ u = rest) ∨ ∃ w, b = a ++ ')' :: w ∧ rest = w ++ ')' :: u := by
  rcases split_paren (hsplit.symm.trans h.split) with heq | ⟨w, ha, hw⟩ | hafter
  · exact Or.inl heq
  · exact absurd (hw ▸ hu) (h.first b w ha)
  · exact Or.inr hafter

theorem exists_firstEnd {line b u : Text} (hsplit : line = b ++ ')' :: u) (hu : EqNext u) :
    ∃ a rest, FirstEnd line a rest := by
  induction b generalizing line with
  | nil => exact ⟨[], u, hsplit, hu, fun b v h => by simp at h⟩
  | cons c b ih =>
    by_cases hhere : c = ')' ∧ EqNext (b ++ ')' :: u)
    · obtain ⟨rfl, hnext⟩ := hhere
      exact ⟨[], _, hsplit, hnext, fun b v h => by simp at h⟩
    · obtain ⟨a, rest, hend⟩ := ih rfl
      refine ⟨c :: a, rest, ?_, hend.eqNext, ?_⟩
      · rw [hsplit, List.cons_append, List.cons_append, hend.split]
      · intro b' v hb
        cases b' with
        | nil =>
          obtain ⟨rfl, rfl⟩ := List.cons.inj hb
          rw [← hend.split]
          exact fun hnext => hhere ⟨rfl, hnext⟩
        | cons d b' => exact hend.first b' v (List.cons.inj hb).2

theorem exists_of_search {line v : Text} (hnew : '\n' ∉ line)
    (h : valuePattern.search line = some v) : ∃ a rest, FirstEnd line a rest := by
  induction line with
  | nil => cases h
  | cons c line ih =>
    rcases Option.or_eq_some_iff.mp h with h | ⟨_, h⟩
    · obtain ⟨rest, hrest, heq, _⟩ := matchAt_value_some hnew h
      exact exists_firstEnd (b := []) hrest heq
    · obtain ⟨a, rest, hend⟩ := ih (fun hmem => hnew (List.mem_cons_of_mem c hmem)) h
      exact exists_firstEnd (b := c :: a) (congrArg (c :: ·) hend.split) hend.eqNext

/-- What is taken of a text after a name: the type, the `=` and the value. -/
theorem matchAt_type_iff {t v : Text} (hnew : '\n' ∉ t) :
    typePattern.matchAt t = some v ↔
      ∃ blanks inner rest, (∀ c ∈ blanks, isSpace c = true) ∧ TypeEnd t blanks inner rest ∧
        v = valueOf rest := by
  constructor
  · intro h
    rw [typePattern, Regex.matchAt, Regex.run, Regex.run] at h
    obtain ⟨blanks, u, rfl, hblanks, hu⟩ := runMany_some h
    rw [Regex.run, Regex.run] at hu
    obtain ⟨⟨w, rfl⟩, hu⟩ := Option.ite_none_right_eq_some.mp hu
    rw [List.drop_left, Regex.run] at hu
    cases w with
    | nil => cases hu
    | cons c w =>
      rw [Regex.run] at hu
      obtain ⟨hc, hu⟩ := Option.ite_none_right_eq_some.mp hu
      obtain ⟨inner, x, rfl, hinner, hx⟩ := runMany_some hu
      have hxnew : '\n' ∉ x := fun hmem => hnew (by simp [hmem])
      obtain ⟨rest, rfl, heq, rfl⟩ := matchAt_value_some hxnew hx
      refine ⟨blanks, c :: inner, rest, hblanks, ⟨by simp, List.cons_ne_nil c inner, ?_, heq⟩, rfl⟩
      have hall : ∀ d ∈ c :: inner, (d != ')') = true := List.forall_mem_cons.mpr ⟨hc, hinner⟩
      exact fun hmem => absurd rfl (bne_iff_ne.mp (hall ')' hmem))
  · rintro ⟨blanks, inner, rest, hblanks, ⟨rfl, hne, hclosed, heq⟩, rfl⟩
    have hrest : '\n' ∉ rest := fun hmem => hnew (by simp [hmem])
    rw [typePattern, Regex.matchAt, Regex.run, Regex.run]
    refine runMany_longest hblanks (by rintro c ⟨⟩; decide) ?_
    refine (Regex.run_lit_append ['('] (inner ++ ')' :: rest) [] _).trans ?_
    rw [Regex.run]
    refine Regex.run_many1_longest hne ?_ (by rintro c ⟨⟩; decide) ?_
    · exact fun c hc => bne_iff_ne.mpr fun h => hclosed (h ▸ hc)
    · exact (matchAt_value hrest).trans (if_pos heq)

theorem TypeEnd.split_end {line pre inner rest : Text} (h : TypeEnd line pre inner rest) :
    line = (pre ++ '(' :: inner) ++ ')' :: rest := by
  rw [h.split]
  simp

/-- What `main` takes after the blanks: the first name that is followed by a type and a `=`. -/
theorem nameValue_some {t n v : Text} (h : nameValue t = some (n, v)) :
    ∃ pre u, t = pre ++ u ∧ pre ≠ [] ∧ typePattern.matchAt u = some v ∧
      ∀ pre' u', t = pre' ++ u' → pre' ≠ [] → pre'.length < pre.length →
        typePattern.matchAt u' = none := by
  cases t with
  | nil => cases h
  | cons c t =>
    rw [nameValue, runLazy1] at h
    obtain ⟨s, u, rfl, hu, hfirst⟩ := runLazy_first (Option.ite_none_right_eq_some.mp h).2
    obtain ⟨v', hv', hpair⟩ := Option.map_eq_some_iff.mp hu
    cases hpair
    refine ⟨c :: s, u, rfl, List.cons_ne_nil c s, hv', ?_⟩
    intro pre' u' hsplit hne hlt
    obtain ⟨d, s', rfl⟩ := List.exists_cons_of_ne_nil hne
    have hnone := hfirst s' u' (List.cons.inj hsplit).2 (Nat.lt_of_succ_lt_succ hlt)
    exact Option.map_eq_none_iff.mp hnone

theorem nameValue_isSome_iff {t : Text} (hnew : '\n' ∉ t) :
    (nameValue t).isSome = true ↔ HasAttribute t := by
  constructor
  · intro h
    obtain ⟨⟨n, v⟩, hsome⟩ := Option.isSome_iff_exists.mp h
    obtain ⟨pre, u, rfl, hne, hu, _⟩ := nameValue_some hsome
    have hunew : '\n' ∉ u := fun hmem => hnew (List.mem_append_right pre hmem)
    obtain ⟨blanks, inner, rest, _, hend, _⟩ := (matchAt_type_iff hunew).mp hu
    refine ⟨pre ++ blanks, inner, rest, ⟨?_, hend.inner_ne, hend.closed, hend.eqNext⟩, ?_⟩
    · rw [hend.split, List.append_assoc]
    · simp [hne]
  · rintro ⟨pre, inner, rest, hend, hne⟩
    obtain ⟨c, s, rfl⟩ := List.exists_cons_of_ne_nil hne
    have hplain : ∀ d ∈ c :: s, (d != '\n') = true := by
      intro d hd
      refine bne_iff_ne.mpr fun he => hnew ?_
      rw [hend.split]
      exact List.mem_append_left _ (he ▸ hd)
    have htype : typePattern.matchAt ('(' :: (inner ++ ')' :: rest)) = some (valueOf rest) := by
      refine (matchAt_type_iff fun hmem => hnew ?_).mpr
        ⟨[], inner, rest, by simp, ⟨rfl, hend.inner_ne, hend.closed, hend.eqNext⟩, rfl⟩
      rw [hend.split]
      exact List.mem_append_right _ hmem
    obtain ⟨hc, hs⟩ := List.forall_mem_cons.mp hplain
    rw [nameValue, hend.split, List.cons_append, runLazy1, if_pos hc]
    refine runLazy_isSome hs ?_
    rw [htype]
    rfl

theorem notMem_dropWhile {c : Char} {p : Char → Bool} {t : Text} (h : c ∉ t) :
    c ∉ t.dropWhile p :=
  fun hmem => h ((List.dropWhile_suffix p).subset hmem)

theorem attrMatch_of_nameValue {line : Text} {m : Text × Text}
    (h : nameValue (line.dropWhile isSpace) = some m) : attrMatch line = some m :=
  runMany_dropWhile h

/-- What `main` takes of a line. -/
theorem attrMatch_some {line n v : Text} (hnew : '\n' ∉ line) (h : attrMatch line = some (n, v)) :
    ∃ pre inner rest, TypeEnd line pre inner rest ∧ v = valueOf rest ∧
      (pre.dropWhile isSpace ≠ [] ∨ pre ≠ [] ∧ ¬ HasAttribute (line.dropWhile isSpace)) := by
  have htail : ∀ {s u}, line = s ++ u → nameValue u = some (n, v) →
      ∃ name blanks inner rest, name ≠ [] ∧ TypeEnd line (s ++ (name ++ blanks)) inner rest ∧
        v = valueOf rest ∧ name <+: u := by
    intro s u hsplit hu
    obtain ⟨name, w, rfl, hne, hw, _⟩ := nameValue_some hu
    have hwnew : '\n' ∉ w := fun hmem => hnew (by rw [hsplit]; simp [hmem])
    obtain ⟨blanks, inner, rest, _, hend, hv⟩ := (matchAt_type_iff hwnew).mp hw
    refine ⟨name, blanks, inner, rest, hne, ⟨?_, hend.inner_ne, hend.closed, hend.eqNext⟩, hv,
      List.prefix_append name w⟩
    rw [hsplit, hend.split]
    simp
  have hsplit : line = line.takeWhile isSpace ++ line.dropWhile isSpace :=
    List.takeWhile_append_dropWhile.symm
  have hblanks : ∀ c ∈ line.takeWhile isSpace, isSpace c = true := fun _ => List.mem_takeWhile_imp
  by_cases hattr : HasAttribute (line.dropWhile isSpace)
  · have hsome := (nameValue_isSome_iff (notMem_dropWhile hnew)).mpr hattr
    obtain ⟨m, hm⟩ := Option.isSome_iff_exists.mp hsome
    have hmatch : some (n, v) = some m := h.symm.trans (attrMatch_of_nameValue hm)
    rw [← Option.some.inj hmatch] at hm
    obtain ⟨name, blanks, inner, rest, hne, hend, hv, hprefix⟩ := htail hsplit hm
    refine ⟨_, inner, rest, hend, hv, Or.inl ?_⟩
    -- the name begins with a character that is no blank
    obtain ⟨c, name, rfl⟩ := List.exists_cons_of_ne_nil hne
    obtain ⟨w, hw⟩ := hprefix
    have hc : isSpace c = false := eq_false_of_mem_dropWhile c (by rw [← hw]; rfl)
    rw [dropWhile_space_append hblanks (by rintro d ⟨⟩; exact hc)]
    exact List.cons_ne_nil _ _
  · obtain ⟨s, u, hsu, _, hu⟩ := runMany_some h
    obtain ⟨name, blanks, inner, rest, hne, hend, hv, _⟩ := htail hsu hu
    exact ⟨_, inner, rest, hend, hv, Or.inr ⟨by simp [hne], hattr⟩⟩

/-- A type that ends at the first `)` with a `=` after it: what is found from an earlier place ends
there too. -/
theorem firstEnd_unique {t pre inner rest name blanks inner' rest' : Text}
    (hfirst : FirstEnd t (pre ++ '(' :: inner) rest)
    (hend' : TypeEnd t (name ++ blanks) inner' rest') (hblanks : ∀ c ∈ blanks, isSpace c = true)
    (hle : name.length ≤ pre.length) : rest' = rest := by
  rcases hfirst.after hend'.split_end hend'.eqNext with ⟨_, h⟩ | ⟨w, hw, _⟩
  · exact h
  · exfalso
    have hopen : ¬ isSpace '(' = true := by decide
    have happend : name ++ blanks ++ '(' :: inner' = pre ++ ('(' :: (inner ++ ')' :: w)) := by
      rw [hw]
      simp
    rcases List.append_eq_append_iff.mp happend with ⟨y, hpre, hinner⟩ | ⟨y, hname, hinner⟩
    · -- the type would go on over the `)` at which it ends
      have hmem : ')' ∈ '(' :: inner' := by
        rw [hinner]
        simp
      exact hend'.closed ((List.mem_cons.mp hmem).resolve_left (by decide))
    · cases y with
      | nil =>
        rw [List.nil_append] at hinner
        have hmem : ')' ∈ inner' := by
          rw [← (List.cons.inj hinner).2]
          simp
        exact hend'.closed hmem
      | cons c y =>
        obtain ⟨rfl, -⟩ := List.cons.inj hinner
        -- a `(` would be among the blanks
        rcases List.append_eq_append_iff.mp hname with ⟨z, hz, hb⟩ | ⟨z, hz, hb⟩
        · exact hopen (hblanks '(' (by rw [hb]; simp))
        · have hlen := congrArg List.length hz
          rw [List.length_append] at hlen
          have hnil : z = [] := List.eq_nil_of_length_eq_zero (by omega)
          rw [hnil, List.nil_append] at hb
          exact hopen (hblanks '(' (by rw [← hb]; exact List.mem_cons_self))

theorem attrMatch_of_firstEnd {line pre inner rest : Text} (hnew : '\n' ∉ line)
    (hfirst : FirstEnd line (pre ++ '(' :: inner) rest) (hne : inner ≠ []) (hclosed : ')' ∉ inner)
    (hpre : pre.dropWhile isSpace ≠ [] ∨ pre ≠ [] ∧ ¬ HasAttribute (line.dropWhile isSpace)) :
    ∃ n, attrMatch line = some (n, valueOf rest) := by
  have hline : line = pre ++ '(' :: (inner ++ ')' :: rest) := by
    rw [hfirst.split]
    simp
  have hdnew : '\n' ∉ line.dropWhile isSpace := notMem_dropWhile hnew
  have htnew : '\n' ∉ '(' :: (inner ++ ')' :: rest) := fun hmem =>
    hnew (hline ▸ List.mem_append_right pre hmem)
  have htype : typePattern.matchAt ('(' :: (inner ++ ')' :: rest)) = some (valueOf rest) :=
    (matchAt_type_iff htnew).mpr
      ⟨[], inner, rest, by simp, ⟨rfl, hne, hclosed, hfirst.eqNext⟩, rfl⟩
  by_cases hname : pre.dropWhile isSpace = []
  · -- the name is the last blank
    obtain ⟨hprene, hattr⟩ := hpre.resolve_left fun h => h hname
    have hallblank : ∀ c ∈ pre, isSpace c = true := List.dropWhile_eq_nil_iff.mp hname
    have hdrop : line.dropWhile isSpace = '(' :: (inner ++ ')' :: rest) := by
      rw [hline]
      exact dropWhile_space_append hallblank (by rintro c ⟨⟩; decide)
    obtain ⟨s, c, rfl⟩ := (List.eq_nil_or_concat' pre).resolve_left hprene
    obtain ⟨hs, hc⟩ := List.forall_mem_append.mp hallblank
    have hcnew : (c != '\n') = true := bne_iff_ne.mpr fun h => hnew (by rw [hline]; simp [h])
    have hnone : nameValue ('(' :: (inner ++ ')' :: rest)) = none := by
      rw [← Option.not_isSome_iff_eq_none, ← hdrop, nameValue_isSome_iff hdnew]
      exact hattr
    refine ⟨[c], ?_⟩
    rw [attrMatch, hline, List.append_assoc, List.singleton_append]
    refine runMany_back hs (hc c List.mem_cons_self) (by rintro d ⟨⟩; decide) hnone ?_
    rw [nameValue, runLazy1, if_pos hcnew, runLazy, htype]
    simp
  · have hdrop : line.dropWhile isSpace =
        pre.dropWhile isSpace ++ '(' :: (inner ++ ')' :: rest) := by
      rw [hline, List.dropWhile_append, if_neg (by simpa using hname)]
    have hend : TypeEnd (line.dropWhile isSpace) (pre.dropWhile isSpace) inner rest :=
      ⟨hdrop, hne, hclosed, hfirst.eqNext⟩
    obtain ⟨⟨n, v⟩, hm⟩ := Option.isSome_iff_exists.mp
      ((nameValue_isSome_iff hdnew).mpr ⟨_, inner, rest, hend, hname⟩)
    obtain ⟨name, u, hu, _, htypeu, hmin⟩ := nameValue_some hm
    have hunew : '\n' ∉ u := fun hmem => hdnew (hu ▸ List.mem_append_right name hmem)
    obtain ⟨blanks, inner', rest', hbl, hendu, hv⟩ := (matchAt_type_iff hunew).mp htypeu
    have hend' : TypeEnd (line.dropWhile isSpace) (name ++ blanks) inner' rest' := by
      refine ⟨?_, hendu.inner_ne, hendu.closed, hendu.eqNext⟩
      rw [hu, hendu.split, List.append_assoc]
    have hle : name.length ≤ (pre.dropWhile isSpace).length := by
      by_contra hlt
      have hno := hmin _ _ hdrop hname (by omega)
      rw [htype] at hno
      cases hno
    -- the blanks before the line are no part of where the value begins
    have hfirst' :
        FirstEnd (line.dropWhile isSpace) (pre.dropWhile isSpace ++ '(' :: inner) rest := by
      refine ⟨by rw [hdrop]; simp, hfirst.eqNext, ?_⟩
      intro b w hb
      refine hfirst.first (pre.takeWhile isSpace ++ b) w ?_
      rw [List.append_assoc, ← hb, ← List.append_assoc, List.takeWhile_append_dropWhile]
    rw [firstEnd_unique hfirst' hend' hbl hle] at hv
    refine ⟨n, ?_⟩
    rw [← hv]
    exact attrMatch_of_nameValue hm

/-! ## Lines -/

theorem count_strip {c : Char} (hc : isSpace c = false) (s : Text) :
    (strip s).count c = s.count c := by
  have hnone : ∀ t : Text, (∀ d ∈ t, isSpace d = true) → t.count c = 0 := by
    intro t ht
    refine List.count_eq_zero.mpr fun hmem => ?_
    rw [ht c hmem] at hc
    cases hc
  have hleft : s.count c = (s.dropWhile isSpace).count c := by
    conv => lhs; rw [← @List.takeWhile_append_dropWhile _ isSpace s]
    rw [List.count_append, hnone _ fun _ => List.mem_takeWhile_imp, Nat.zero_add]
  have hright : (s.dropWhile isSpace).count c = (strip s).count c := by
    conv => lhs; rw [← @List.rdropWhile_append_rtakeWhile _ isSpace (s.dropWhile isSpace)]
    rw [List.count_append, hnone _ fun _ => List.mem_rtakeWhile_imp, Nat.add_zero]
    rfl
  rw [hleft, hright]

theorem count_valueOf {rest : Text} (h : EqNext rest) :
    (strip (valueOf rest)).count ')' = rest.count ')' := by
  obtain ⟨w, hw⟩ := List.head?_eq_some_iff.mp h
  have hvalue : valueOf rest = w.dropWhile isSpace := by
    rw [valueOf, hw, List.drop_one, List.tail_cons]
  have hcons : (rest.dropWhile isSpace).count ')' = w.count ')' := by
    rw [hw, List.count_cons_of_ne (by decide)]
  have hdrop : rest.count ')' = (rest.dropWhile isSpace).count ')' := by
    rw [← count_strip (by decide) rest, ← strip_dropWhile, count_strip (by decide)]
  rw [hvalue, strip_dropWhile, count_strip (by decide), hdrop, hcons]

/-- The value that `main` takes of a line. -/
def mainValue (line : Text) : Option Text := (attrMatch line).map fun m => strip m.2

def searchValue (line : Text) : Option Text := (valuePattern.search line).map strip

theorem searchValue_isSome {line : Text} (hnew : '\n' ∉ line)
    (h : (mainValue line).isSome = true) : (searchValue line).isSome = true := by
  rw [mainValue, Option.isSome_map] at h
  obtain ⟨⟨n, v⟩, hm⟩ := Option.isSome_iff_exists.mp h
  obtain ⟨pre, inner, rest, hend, _⟩ := attrMatch_some hnew hm
  obtain ⟨a, rest', hfirst⟩ := exists_firstEnd hend.split_end hend.eqNext
  rw [searchValue, search_of_firstEnd hnew hfirst]
  rfl

theorem mainValue_eq_iff {line : Text} (hnew : '\n' ∉ line) :
    mainValue line = searchValue line ↔ LineAlike line := by
  constructor
  · intro h a rest hfirst
    rw [searchValue, search_of_firstEnd hnew hfirst] at h
    obtain ⟨⟨n, v⟩, hm, hv⟩ := Option.map_eq_some_iff.mp h
    obtain ⟨pre, inner, rest', hend, hvalue, hpre⟩ := attrMatch_some hnew hm
    rcases hfirst.after hend.split_end hend.eqNext with ⟨ha, _⟩ | ⟨w, _, hw⟩
    · exact ⟨pre, inner, ha.symm, hend.inner_ne, hend.closed, hpre⟩
    · -- the value of a later `)` has fewer of them
      have hcount := congrArg (List.count ')') hv
      rw [hvalue, count_valueOf hend.eqNext, count_valueOf hfirst.eqNext, hw, List.count_append,
        List.count_cons_self] at hcount
      omega
  · intro h
    cases hsearch : valuePattern.search line with
    | none =>
      have hnone : mainValue line = none := by
        rw [← Option.not_isSome_iff_eq_none]
        intro hsome
        have := searchValue_isSome hnew hsome
        rw [searchValue, hsearch] at this
        cases this
      rw [hnone, searchValue, hsearch]
      rfl
    | some v =>
      obtain ⟨a, rest, hfirst⟩ := exists_of_search hnew hsearch
      obtain ⟨pre, inner, rfl, hne, hclosed, hpre⟩ := h a rest hfirst
      obtain ⟨n, hm⟩ := attrMatch_of_firstEnd hnew hfirst hne hclosed hpre
      rw [mainValue, searchValue, hm, search_of_firstEnd hnew hfirst]
      rfl

/-! ## The table -/

theorem filterMap_length_le {α β : Type} {f g : α → Option β} {l : List α}
    (h : ∀ x ∈ l, (f x).isSome = true → (g x).isSome = true) :
    (l.filterMap f).length ≤ (l.filterMap g).length := by
  induction l with
  | nil => exact Nat.le_refl 0
  | cons x l ih =>
    obtain ⟨hx, hl⟩ := List.forall_mem_cons.mp h
    have htail := ih hl
    rw [List.filterMap_cons, List.filterMap_cons]
    cases hf : f x with
    | none =>
      cases g x with
      | none => exact htail
      | some b => exact Nat.le_succ_of_le htail
    | some a =>
      rw [hf] at hx
      obtain ⟨b, hg⟩ := Option.isSome_iff_exists.mp (hx rfl)
      rw [hg]
      exact Nat.succ_le_succ htail

/-- If one function finds something wherever another does, the lists are the same only when the
functions are. -/
theorem filterMap_eq_iff {α β : Type} {f g : α → Option β} {l : List α}
    (h : ∀ x ∈ l, (f x).isSome = true → (g x).isSome = true) :
    l.filterMap f = l.filterMap g ↔ ∀ x ∈ l, f x = g x := by
  constructor
  · intro heq
    induction l with
    | nil => exact fun x hx => absurd hx List.not_mem_nil
    | cons x l ih =>
      obtain ⟨hx, hl⟩ := List.forall_mem_cons.mp h
      have hlen := filterMap_length_le hl
      rw [List.filterMap_cons, List.filterMap_cons] at heq
      cases hf : f x with
      | none =>
        rw [hf] at heq
        cases hg : g x with
        | none =>
          rw [hg] at heq
          exact List.forall_mem_cons.mpr ⟨hf.trans hg.symm, ih hl heq⟩
        | some b =>
          rw [hg] at heq
          dsimp only at heq
          rw [heq, List.length_cons] at hlen
          omega
      | some a =>
        rw [hf] at hx heq
        obtain ⟨b, hg⟩ := Option.isSome_iff_exists.mp (hx rfl)
        rw [hg] at heq
        obtain ⟨rfl, htail⟩ := List.cons.inj heq
        exact List.forall_mem_cons.mpr ⟨hf.trans hg.symm, ih hl htail⟩
  · exact fun heq => List.filterMap_congr heq

/-- `int` reads a value that consists of digits. -/
def readable (v : Text) : Bool := !isDigits v || (pyInt v).isSome

theorem tableRow_eq (i : Nat) (attr : Text × Text) :
    if readable attr.2 then ∃ mark, tableRow i attr = .ok ⟨i, attr.1.take 25, attr.2, mark⟩
    else tableRow i attr = .error .valueError := by
  unfold readable tableRow digitsZone intZone
  cases hdigits : isDigits attr.2 with
  | false => exact ⟨false, rfl⟩
  | true =>
    cases hint : pyInt attr.2 with
    | none => rfl
    | some z => exact ⟨(zoneRange z).isSome, rfl⟩

theorem mem_printTable_iff {n i : Nat} {v : Text} {attrs : List (Text × Text)} :
    (∃ row ∈ printTable n attrs, row.idx = n + i ∧ row.val = v) ↔
      ((attrs.map Prod.snd).takeWhile readable)[i]? = some v := by
  have hidx : ∀ (attrs : List (Text × Text)) (n : Nat),
      ∀ row ∈ printTable n attrs, n ≤ row.idx := by
    intro attrs
    induction attrs with
    | nil => exact fun n row hrow => absurd hrow List.not_mem_nil
    | cons attr attrs ih =>
      intro n row hrow
      have hrow' := tableRow_eq n attr
      rw [printTable] at hrow
      split at hrow'
      · obtain ⟨mark, hok⟩ := hrow'
        rw [hok] at hrow
        rcases List.mem_cons.mp hrow with rfl | hrow
        · exact Nat.le_refl n
        · have := ih (n + 1) row hrow
          omega
      · rw [hrow'] at hrow
        exact absurd hrow List.not_mem_nil
  induction attrs generalizing n i with
  | nil => simp [printTable]
  | cons attr attrs ih =>
    have hrow := tableRow_eq n attr
    rw [printTable, List.map_cons]
    split at hrow
    · rename_i hread
      obtain ⟨mark, hok⟩ := hrow
      rw [hok, List.takeWhile_cons_of_pos hread]
      cases i with
      | zero =>
        rw [List.getElem?_cons_zero, Option.some.injEq]
        constructor
        · rintro ⟨row, hmem, heq, rfl⟩
          rcases List.mem_cons.mp hmem with rfl | hmem
          · rfl
          · have := hidx attrs (n + 1) row hmem
            omega
        · rintro rfl
          exact ⟨_, List.mem_cons_self, rfl, rfl⟩
      | succ i =>
        rw [List.getElem?_cons_succ]
        refine Iff.trans ?_ (@ih (n + 1) i)
        constructor
        · rintro ⟨row, hmem, heq, hv⟩
          rcases List.mem_cons.mp hmem with rfl | hmem
          · have hn : n = n + (i + 1) := heq
            omega
          · exact ⟨row, hmem, by omega, hv⟩
        · rintro ⟨row, hmem, heq, hv⟩
          exact ⟨row, List.mem_cons_of_mem _ hmem, by omega, hv⟩
    · rename_i hread
      rw [hrow, List.takeWhile_cons_of_neg hread]
      simp

theorem numbersAlike_iff (block txt : Text) (h : featurePattern.search txt = some block) :
    NumbersAlike txt ↔
      ((mainAttrs block).map Prod.snd).takeWhile readable = attrVals block := by
  have htable : attributeTable txt = printTable 0 (mainAttrs block) := by
    rw [attributeTable, h]
    rfl
  have hvals : firstVals txt = attrVals block := by
    rw [firstVals, h]
    rfl
  rw [NumbersAlike, htable, hvals]
  constructor
  · intro halike
    refine List.ext_getElem? fun i => Option.ext fun v => ?_
    have hrow := halike i v
    rw [← Nat.zero_add i, mem_printTable_iff, Nat.zero_add] at hrow
    exact hrow
  · intro heq i v
    have hrow := @mem_printTable_iff 0 i v (mainAttrs block)
    rw [Nat.zero_add] at hrow
    rw [hrow, heq]

/-- **The numbers of the table.** They are those of the attribute list exactly when every line of
the first feature is read alike, and `int` reads every value that consists of digits. -/
theorem table_iff (txt : Text) :
    NumbersAlike txt ↔ ∀ block, featurePattern.search txt = some block →
      (∀ line ∈ splitlines block, LineAlike line) ∧
        ∀ v ∈ attrVals block, isDigits v = true → (pyInt v).isSome = true := by
  cases hblock : featurePattern.search txt with
  | none => simp [NumbersAlike, attributeTable, firstVals, hblock]
  | some block =>
    have hnew : ∀ line ∈ splitlines block, '\n' ∉ line := notMem_splitlines block
    have hmain : (mainAttrs block).map Prod.snd = (splitlines block).filterMap mainValue := by
      rw [mainAttrs, List.map_filterMap]
      refine List.filterMap_congr fun line _ => ?_
      rw [Option.map_map]
      rfl
    have hsub : ∀ line ∈ splitlines block, (mainValue line).isSome = true →
        (searchValue line).isSome = true := fun line hline => searchValue_isSome (hnew line hline)
    have hlen : ((splitlines block).filterMap mainValue).length ≤ (attrVals block).length :=
      filterMap_length_le hsub
    have hlines : (splitlines block).filterMap mainValue = attrVals block ↔
        ∀ line ∈ splitlines block, LineAlike line := by
      refine (filterMap_eq_iff hsub).trans ?_
      exact forall₂_congr fun line hline => mainValue_eq_iff (hnew line hline)
    have hread : (∀ v ∈ attrVals block, readable v = true) ↔
        ∀ v ∈ attrVals block, isDigits v = true → (pyInt v).isSome = true := by
      refine forall₂_congr fun v _ => ?_
      rw [readable, Bool.or_eq_true, Bool.not_eq_true', ← Bool.not_eq_true]
      exact or_iff_not_imp_left.trans (by rw [not_not])
    rw [numbersAlike_iff block txt hblock, hmain]
    simp only [Option.some.injEq, forall_eq', ← hlines, ← hread]
    constructor
    · intro heq
      -- the table is not longer than the list, so nothing is cut off
      have hprefix := @List.takeWhile_prefix _ ((splitlines block).filterMap mainValue) readable
      have hwhole := hprefix.eq_of_length (Nat.le_antisymm hprefix.length_le (heq ▸ hlen))
      refine ⟨hwhole.symm.trans heq, ?_⟩
      rw [← heq]
      exact fun v => List.mem_takeWhile_imp
    · rintro ⟨heq, hall⟩
      rw [heq, List.takeWhile_eq_self_iff]
      exact hall

/-! ## Types with and without a subtype -/

theorem firstEnd_label {label : Text} (h : '=' ∉ label) (v : Text) :
    FirstEnd (label ++ (") = ".toList ++ v)) label (" = ".toList ++ v) := by
  refine ⟨rfl, rfl, ?_⟩
  intro b u hsplit heq
  obtain ⟨w, hw⟩ := List.head?_eq_some_iff.mp heq
  have hu : '=' ∉ u := fun hmem => h (by rw [hsplit]; simp [hmem])
  -- the blanks after an earlier `)` end in the label
  have hstop : ∀ u : Text, '=' ∉ u → ((u ++ ')' :: (" = ".toList ++ v)).dropWhile isSpace).head? ≠
      some '=' := by
    intro u
    induction u with
    | nil => exact fun _ => by simp [isSpace]
    | cons c u ih =>
      intro hu
      rw [List.cons_append, List.dropWhile_cons]
      split
      · exact ih fun hmem => hu (List.mem_cons_of_mem c hmem)
      · exact fun hc => hu (by simp [Option.some.inj hc])
  exact hstop u hu heq

/-- A field with a plain type is read alike. -/
theorem lineAlike_plain {f : DumpField} (heq : '=' ∉ f.label) (htype : f.type ≠ [])
    (hclosed : ')' ∉ f.type) (hname : ∃ c ∈ f.name, isSpace c = false) (v : Text) :
    LineAlike (f.label ++ (") = ".toList ++ v)) := by
  intro a rest hfirst
  have hlabel := firstEnd_label heq v
  obtain ⟨rfl, rfl⟩ : f.label = a ∧ " = ".toList ++ v = rest := by
    rcases hfirst.after hlabel.split hlabel.eqNext with h | ⟨w, hw, hrest⟩
    · exact h
    · exact absurd (hrest ▸ hfirst.eqNext) (hlabel.first a w hw)
  refine ⟨"  ".toList ++ f.name ++ [' '], f.type, ?_, htype, hclosed, Or.inl ?_⟩
  · rw [DumpField.label]
    simp
  · obtain ⟨c, hmem, hc⟩ := hname
    rw [ne_eq, List.dropWhile_eq_nil_iff]
    intro hall
    rw [hall c (by simp [hmem])] at hc
    cases hc

/-- A field with a subtype is not. -/
theorem not_lineAlike_subtype {f : DumpField} (heq : '=' ∉ f.label) {type subtype : Text}
    (htype : f.type = type ++ '(' :: (subtype ++ [')'])) (v : Text) :
    ¬ LineAlike (f.label ++ (") = ".toList ++ v)) := by
  intro h
  obtain ⟨pre, inner, hsplit, hne, hclosed, _⟩ := h _ _ (firstEnd_label heq v)
  have hlast : f.label.getLast? = some ')' := by
    have hlabel : f.label =
        "  ".toList ++ f.name ++ " (".toList ++ type ++ '(' :: subtype ++ [')'] := by
      rw [DumpField.label, htype]
      simp
    rw [hlabel, List.getLast?_concat]
  rw [hsplit, List.getLast?_append, List.getLast?_cons, List.getLast?_eq_some_getLast hne] at hlast
  have hparen : inner.getLast hne = ')' := by simpa using hlast
  exact hclosed (hparen ▸ List.getLast_mem hne)

/-- A dump whose first field has a subtype. -/
def subtypeListing : Text :=
  "OGRFeature(a):1\n  n (Integer(Int16)) = 9\n  s (String) = x\n  POINT (1 2)\n".toList

/-- `x` has the number 0 in the table and 1 in the list. -/
theorem table_subtype :
    (attributeTable subtypeListing).map (fun row => (row.idx, row.val)) = [(0, "x".toList)] ∧
    firstVals subtypeListing = ["9".toList, "x".toList] ∧ ¬ NumbersAlike subtypeListing := by
  have hvals : firstVals subtypeListing = ["9".toList, "x".toList] := by decide +kernel
  have htable : (attributeTable subtypeListing).map (fun row => (row.idx, row.val)) =
      [(0, "x".toList)] := by decide +kernel
  refine ⟨htable, hvals, ?_⟩
  intro halike
  obtain ⟨row, hmem, hidx, _⟩ := (halike 1 "x".toList).mpr (by rw [hvals]; rfl)
  have hpair := List.mem_map_of_mem (f := fun row : TableRow => (row.idx, row.val)) hmem
  rw [htable, List.mem_singleton] at hpair
  rw [(Prod.mk.inj hpair).1] at hidx
  cases hidx

end GdalFull.Merge
