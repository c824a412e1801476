import GdalFull.Merge.Zukei

/-!
# What `ogrinfo -al` prints of a layer, and the zone by position

A dump is some text, a layer name and the features, each with a line `  name (Type) = value` for
every field that is set. `firstVals_eq` gives the values that the scripts find for the first
feature when they are not misled by the text before it: a line with `OGRFeature(` in it is cut
there, and a line may give rise to several values or to none. For fields on one line each, the
zones of the values are those of `candidates`, which is about the fields themselves.

`zukei_position_iff` is about `get_zukei` of `merge_tochi_geopackage.py` on fields `col0`, `col1`
and so on: it says when the zone is that of field 5 of the first feature.
-/

namespace GdalFull.Merge

open GdalFull.Lib GdalFull.Convert

/-- A field of a feature. `none` is a field that is not set, for which no line is printed; a null
is printed as `(null)`. -/
structure DumpField where
  name : Text
  type : Text
  value : Option Text

/-- A feature, with whatever is printed after its fields. -/
structure DumpFeature where
  fid : Text
  fields : List DumpField
  tail : Text
  fid_ne : fid ≠ []
  fid_digits : ∀ c ∈ fid, (decimal c).isSome = true

/-- A dump, with the text before its features (without the last line feed). -/
structure Dump where
  preamble : Text
  layer : Text
  features : List DumpFeature

/-- The line of a field up to its type. -/
def DumpField.label (f : DumpField) : Text :=
  "  ".toList ++ f.name ++ (" (".toList ++ f.type)

def DumpField.line (f : DumpField) : Option Text :=
  f.value.map fun v => f.label ++ (") = ".toList ++ v)

def fieldLines (fields : List DumpField) : List Text :=
  fields.filterMap DumpField.line

def fieldText (fields : List DumpField) : Text :=
  (fieldLines fields).flatMap (· ++ ['\n'])

def DumpFeature.text (layer : Text) (f : DumpFeature) : Text :=
  featureMark ++ (layer ++ ("):".toList ++ (f.fid ++ '\n' :: (fieldText f.fields ++ f.tail))))

/-- The text after the fields of the first feature. -/
def afterFirst (layer : Text) (first : DumpFeature) (more : List DumpFeature) : Text :=
  first.tail ++ more.flatMap (DumpFeature.text layer)

def Dump.text (d : Dump) : Text :=
  d.preamble ++ ['\n'] ++ d.features.flatMap (DumpFeature.text d.layer)

/-- The first pattern finds the first feature: it can read its first line, and nothing before that
looks like one. -/
def Dump.Found (d : Dump) : Prop :=
  ¬ featureMark <:+: d.preamble ∧ d.layer ≠ [] ∧ ')' ∉ d.layer

instance (d : Dump) : Decidable d.Found :=
  inferInstanceAs (Decidable (_ ∧ _ ∧ _))

/-- `attr_vals` of the first feature that the first pattern finds. -/
def firstVals (txt : Text) : List Text :=
  (featurePattern.search txt).elim [] attrVals

/-- The values of some lines; a line with `OGRFeature(` in it is cut there and is the last one. -/
def lineValues : List Text → List Text
  | [] => []
  | line :: lines =>
    if featureMark <:+: line then attrVals (before featureMark line)
    else attrVals line ++ lineValues lines

/-- The values of the first feature. -/
def Dump.shown (d : Dump) : List Text :=
  match d.features with
  | [] => []
  | first :: more =>
    lineValues (fieldLines first.fields) ++
      if ∃ line ∈ fieldLines first.fields, featureMark <:+: line then []
      else attrVals (before featureMark (afterFirst d.layer first more))

theorem zukeiVal_eq_firstVals (txt : Text) : zukeiVal txt = (firstVals txt)[zukeiAttrIndex]? := by
  unfold zukeiVal firstVals
  cases featurePattern.search txt <;> rfl

theorem attrVals_lines (lines : List Text) (t : Text) :
    attrVals (before featureMark (lines.flatMap (· ++ ['\n']) ++ t)) =
      lineValues lines ++
        if ∃ line ∈ lines, featureMark <:+: line then [] else attrVals (before featureMark t) := by
  induction lines with
  | nil => simp [lineValues]
  | cons line lines ih =>
    have hsplit : (line :: lines).flatMap (· ++ ['\n']) ++ t =
        line ++ '\n' :: (lines.flatMap (· ++ ['\n']) ++ t) := by simp
    rw [hsplit, attrVals_line, ih]
    by_cases hline : featureMark <:+: line <;> simp [lineValues, hline]

/-- **The values of the first feature.** -/
theorem firstVals_eq {d : Dump} (h : d.Found) : firstVals d.text = d.shown := by
  obtain ⟨hpre, hlayer, hparen⟩ := h
  unfold firstVals Dump.text Dump.shown
  cases d.features with
  | nil =>
    have hnew : '\n' ∉ featureMark := by decide
    have hsearch : featurePattern.search (d.preamble ++ ['\n'] ++ []) = none :=
      Regex.search_skip (clear_concat hnew hpre [])
    rw [List.flatMap_nil, hsearch]
    rfl
  | cons first more =>
    obtain ⟨block, hblock, hvals⟩ := search_firstFeature hpre hlayer hparen first.fid_ne
      first.fid_digits (fieldText first.fields ++ afterFirst d.layer first more)
    have htext : (first :: more).flatMap (DumpFeature.text d.layer) = featureMark ++ (d.layer ++
        ("):".toList ++ (first.fid ++ '\n' :: (fieldText first.fields ++
          afterFirst d.layer first more)))) := by
      simp [DumpFeature.text, afterFirst]
    rw [htext, hblock, Option.elim_some, hvals]
    exact attrVals_lines (fieldLines first.fields) _

/-! ## The value of a field -/

/-- A `)` that is followed by blanks and `=`: behind it a value is expected. -/
def hasSign : Text → Bool
  | [] => false
  | c :: t => (c == ')' && (t.dropWhile isSpace).head? == some '=') || hasSign t

/-- The label of a field that is set is not cut, its type has no `=` in it, and its value does not
look like a further field. A name with `) =` in it is on one line. -/
structure DumpField.Legible (f : DumpField) (v : Text) : Prop where
  label : hasSign f.name = true → ∀ c ∈ f.label, lineBreak c = false
  unmarked : ¬ featureMark <:+: f.label
  type : '=' ∉ f.type
  value : OneValue v

/-- Every field that is set is legible. -/
def Legible (fields : List DumpField) : Prop :=
  ∀ f ∈ fields, ∀ v, f.value = some v → f.Legible v

/-- What stands for a value of the field: its first line. Behind a name with `) =` in it stands no
number. -/
def DumpField.shown (f : DumpField) (v : Text) : Text :=
  if hasSign f.name then [] else strip (firstLine v)

/-- What stands for the values of the fields that are set, in order. A value with `OGRFeature(` in
it is cut there and is the last one. -/
def candidates : List DumpField → List Text
  | [] => []
  | f :: fields =>
    match f.value with
    | none => candidates fields
    | some v =>
      if featureMark <:+: v then [f.shown (before featureMark v)]
      else f.shown v :: candidates fields

theorem attrVals_unbroken {line : Text} (h : ∀ c ∈ line, lineBreak c = false) :
    attrVals line = ((valuePattern.search line).map strip).toList := by
  have hend : attrVals (line ++ '\n' :: []) = attrVals line ++ [] := attrVals_newline line []
  have hlines : splitlines (line ++ '\n' :: []) = [line ++ []] := splitlines_append_plain h rfl
  rw [List.append_nil] at hend hlines
  rw [← hend, attrVals, hlines, List.filterMap_cons]
  cases (valuePattern.search line).map strip <;> rfl

theorem dropWhile_blanks {s b : Text} (hs : ∀ c ∈ s, isSpace c = true) :
    (s ++ '=' :: b).dropWhile isSpace = '=' :: b := by
  rw [List.dropWhile_append_of_pos hs]
  rfl

theorem hasSign_iff {t : Text} :
    hasSign t = true ↔ ∃ a s b, t = a ++ ')' :: (s ++ '=' :: b) ∧ ∀ c ∈ s, isSpace c = true := by
  constructor
  · intro h
    induction t with
    | nil => cases h
    | cons c t ih =>
      rw [hasSign, Bool.or_eq_true, Bool.and_eq_true] at h
      rcases h with ⟨hc, hhead⟩ | h
      · obtain ⟨b, hb⟩ := List.head?_eq_some_iff.mp (eq_of_beq hhead)
        refine ⟨[], t.takeWhile isSpace, b, ?_, fun _ => List.mem_takeWhile_imp⟩
        rw [List.nil_append, eq_of_beq hc, ← hb, List.takeWhile_append_dropWhile]
      · obtain ⟨a, s, b, rfl, hs⟩ := ih h
        exact ⟨c :: a, s, b, rfl, hs⟩
  · rintro ⟨a, s, b, rfl, hs⟩
    induction a with
    | nil => simp [hasSign, dropWhile_blanks hs]
    | cons c a ih => rw [List.cons_append, hasSign, ih, Bool.or_true]

theorem hasSign_anti {a t : Text} (ha : a <:+: t) (h : hasSign t = false) : hasSign a = false := by
  by_contra hsign
  rw [Bool.not_eq_false] at hsign
  obtain ⟨b, s, e, rfl, hs⟩ := hasSign_iff.mp hsign
  obtain ⟨x, y, rfl⟩ := ha
  exact Bool.eq_false_iff.mp h (hasSign_iff.mpr ⟨x ++ b, s, e ++ y, by simp, hs⟩)

theorem hasSign_eq_false {t : Text} (h : '=' ∉ t) : hasSign t = false := by
  by_contra hsign
  rw [Bool.not_eq_false] at hsign
  obtain ⟨a, s, b, rfl, _⟩ := hasSign_iff.mp hsign
  simp at h

/-- Text without such a sign has no values. -/
theorem attrVals_noSign {t : Text} (h : hasSign t = false) : attrVals t = [] := by
  rw [attrVals, List.filterMap_eq_nil_iff]
  intro line hline
  rw [Option.map_eq_none_iff, Regex.search_eq_none_iff]
  intro u hu
  rw [Option.eq_none_iff_forall_ne_some]
  intro g hmatch
  obtain ⟨s, value, rfl, hs⟩ := sign_of_matchAt hmatch
  have hsign : hasSign (')' :: (s ++ '=' :: value)) = true :=
    hasSign_iff.mpr ⟨[], s, value, rfl, hs⟩
  rw [hasSign_anti (hu.isInfix.trans (infix_of_mem_splitlines hline)) h] at hsign
  cases hsign

/-- In a label without such a sign the pattern does not match before the `)` that ends it. -/
theorem noMatch_label {label : Text} (h : hasSign label = false) (t : Text) :
    valuePattern.NoMatch label (')' :: t) := by
  induction label with
  | nil => trivial
  | cons c label ih =>
    have hrest : hasSign label = false := (Bool.or_eq_false_iff.mp h).2
    refine ⟨?_, ih hrest⟩
    rw [Option.eq_none_iff_forall_ne_some]
    intro g hmatch
    obtain ⟨s, value, hsplit, hs⟩ := sign_of_matchAt hmatch
    obtain ⟨rfl, hafter⟩ := List.cons.inj hsplit
    rcases List.append_eq_append_iff.mp hafter with ⟨w, rfl, hw⟩ | ⟨w, rfl, hw⟩
    · -- the blanks reach the `)` at the end of the label
      cases w with
      | nil => exact absurd (List.cons.inj hw).1 (by decide)
      | cons d w =>
        obtain ⟨rfl, _⟩ := List.cons.inj hw
        exact absurd (hs ')' (List.mem_append_right label List.mem_cons_self)) (by decide)
    · cases w with
      | nil => exact absurd (List.cons.inj hw).1 (by decide)
      | cons d w =>
        obtain ⟨rfl, _⟩ := List.cons.inj hw
        have hsign : hasSign (')' :: (s ++ '=' :: w)) = true :=
          hasSign_iff.mpr ⟨[], s, w, rfl, hs⟩
        rw [hsign] at h
        cases h

/-- The sign can only stand in the name. -/
theorem hasSign_label {f : DumpField} (h : '=' ∉ f.type) : hasSign f.label = hasSign f.name := by
  have hstart : ∀ t, hasSign ("  ".toList ++ t) = hasSign t := fun t => rfl
  rw [DumpField.label, List.append_assoc, hstart]
  generalize f.name = name
  induction name with
  | nil =>
    have hfree : '=' ∉ [] ++ (" (".toList ++ f.type) := by simpa using h
    rw [hasSign_eq_false hfree]
    rfl
  | cons c name ih =>
    rw [List.cons_append, hasSign, hasSign, ih]
    congr 2
    rw [List.dropWhile_append]
    split
    · rename_i hnil
      rw [List.isEmpty_iff.mp hnil]
      rfl
    · rename_i hne
      rw [List.head?_append_of_ne_nil _ (by simpa using hne)]

theorem digitsZone_of_paren {w : Text} (h : '(' ∈ w) : digitsZone w = .ok none := by
  rw [digitsZone, if_neg]
  intro hdigits
  have hchar := List.all_eq_true.mp ((Bool.and_eq_true _ _).mp hdigits).2 '(' h
  exact absurd hchar (by decide)

theorem mem_dropWhile {p : Char → Bool} {c : Char} {w : Text} (hc : p c = false) (h : c ∈ w) :
    c ∈ w.dropWhile p := by
  have hsplit : w = w.takeWhile p ++ w.dropWhile p := List.takeWhile_append_dropWhile.symm
  rw [hsplit] at h
  refine (List.mem_append.mp h).resolve_left fun hmem => ?_
  rw [List.mem_takeWhile_imp hmem] at hc
  cases hc

theorem mem_strip {c : Char} {w : Text} (hc : isSpace c = false) (h : c ∈ w) : c ∈ strip w := by
  rw [strip, List.rdropWhile, List.mem_reverse]
  exact mem_dropWhile hc (List.mem_reverse.mpr (mem_dropWhile hc h))

/-- A line with such a sign before a `(` has a value with that `(` in it. -/
theorem search_sign {line a s b : Text} (hs : ∀ c ∈ s, isSpace c = true)
    (hline : line = a ++ ')' :: (s ++ '=' :: b)) (hnew : '\n' ∉ line) (hparen : '(' ∈ b) :
    ∃ g, valuePattern.search line = some g ∧ '(' ∈ g := by
  have hplace : ')' :: (s ++ '=' :: b) <:+ line := ⟨a, hline.symm⟩
  have hb : '\n' ∉ b := fun hmem => hnew (hplace.subset (by simp [hmem]))
  have hmatch := matchAt_sign hs hb
  cases hsearch : valuePattern.search line with
  | none =>
    rw [Regex.search_eq_none_iff.mp hsearch _ hplace] at hmatch
    cases hmatch
  | some g =>
    refine ⟨g, rfl, ?_⟩
    obtain ⟨u, hu, hfound, hfirst⟩ := Regex.search_eq_some_iff.mp hsearch
    have hlen : (')' :: (s ++ '=' :: b)).length ≤ u.length := by
      by_contra hlt
      rw [hfirst _ hplace (by omega)] at hmatch
      cases hmatch
    have hmem : '(' ∈ u :=
      (List.suffix_of_suffix_length_le hplace hu hlen).subset (by simp [hparen])
    obtain ⟨s', value, rfl, hs'⟩ := sign_of_matchAt hfound
    have hvalue : '\n' ∉ value := fun hmem => hnew (hu.subset (by simp [hmem]))
    rw [matchAt_sign hs' hvalue] at hfound
    cases hfound
    apply mem_dropWhile (by decide)
    rcases List.mem_cons.mp hmem with hmem | hmem
    · exact absurd hmem (by decide)
    · rcases List.mem_append.mp hmem with hmem | hmem
      · exact absurd (hs' _ hmem) (by decide)
      · exact (List.mem_cons.mp hmem).resolve_left (by decide)

theorem firstLine_unbroken (v : Text) : ∀ c ∈ firstLine v, lineBreak c = false := by
  intro c hc
  simpa using List.mem_takeWhile_imp hc

/-- The lines of a value after its first one do not matter. -/
theorem attrVals_firstLine {a v : Text} (ha : ∀ c ∈ a, lineBreak c = false) (h : OneValue v) :
    attrVals (a ++ v) = attrVals (a ++ firstLine v) := by
  obtain ⟨lines, hlines, hwithin⟩ := splitlines_firstLine v
  have hone : splitlines (firstLine v ++ ['\n']) = [firstLine v ++ []] :=
    splitlines_append_plain (firstLine_unbroken v) rfl
  have hend : ∀ t, attrVals (a ++ t) = attrVals (a ++ (t ++ ['\n'])) := by
    intro t
    have hnew := attrVals_newline (a ++ t) []
    rw [List.append_assoc] at hnew
    exact (hnew.trans (List.append_nil _)).symm
  rw [hend, hend (firstLine v), attrVals, attrVals, splitlines_append_plain ha hlines,
    splitlines_append_plain ha hone, List.append_nil, List.filterMap_cons, List.filterMap_cons,
    furtherLines_none h hwithin]
  rfl

/-- A label on one line, with the `) = ` behind it. -/
theorem label_unbroken {label : Text} (h : ∀ c ∈ label, lineBreak c = false) :
    ∀ c ∈ label ++ ") = ".toList, lineBreak c = false := by
  have hany : (") = ".toList).any lineBreak = false := by decide
  intro c hc
  rcases List.mem_append.mp hc with hc | hc
  · exact h c hc
  · exact Bool.eq_false_iff.mpr (List.any_eq_false.mp hany c hc)

/-- A line on which the label and the value stand. -/
theorem attrVals_oneLine {label v : Text} (h : ∀ c ∈ label, lineBreak c = false)
    (hv : OneValue v) :
    attrVals (label ++ (") = ".toList ++ v)) =
        ((valuePattern.search (label ++ (") = ".toList ++ firstLine v))).map strip).toList ∧
      '\n' ∉ label ++ (") = ".toList ++ firstLine v) := by
  have hline : ∀ c ∈ label ++ (") = ".toList ++ firstLine v), lineBreak c = false := by
    rw [← List.append_assoc]
    exact List.forall_mem_append.mpr ⟨label_unbroken h, firstLine_unbroken v⟩
  refine ⟨?_, fun hmem => absurd (hline '\n' hmem) (by decide)⟩
  rw [← List.append_assoc, attrVals_firstLine (label_unbroken h) hv, List.append_assoc,
    attrVals_unbroken hline]

/-- The last line of a text. -/
theorem exists_last_line (t : Text) : (∀ c ∈ t, lineBreak c = false) ∨ ∃ a c b,
    t = a ++ c :: b ∧ lineBreak c = true ∧ ∀ d ∈ b, lineBreak d = false := by
  induction t with
  | nil => exact Or.inl (List.forall_mem_nil _)
  | cons c t ih =>
    rcases ih with ht | ⟨a, d, b, rfl, hd, hb⟩
    · by_cases hc : lineBreak c = true
      · exact Or.inr ⟨[], c, t, rfl, hc, ht⟩
      · exact Or.inl (List.forall_mem_cons.mpr ⟨Bool.eq_false_iff.mpr hc, ht⟩)
    · exact Or.inr ⟨c :: a, d, b, rfl, hd, hb⟩

/-- A label without such a sign has the value behind it, whatever lines it stands on. -/
theorem attrVals_label {label v : Text} (h : hasSign label = false) (hv : OneValue v) :
    attrVals (label ++ (") = ".toList ++ v)) = [strip (firstLine v)] := by
  have hplain : ∀ l : Text, (∀ c ∈ l, lineBreak c = false) → hasSign l = false →
      attrVals (l ++ (") = ".toList ++ v)) = [strip (firstLine v)] := by
    intro l hl hsign
    obtain ⟨hvals, hnew⟩ := attrVals_oneLine hl hv
    have hvalue : valuePattern.search ([] ++ (") = ".toList ++ firstLine v)) =
        some ((firstLine v).dropWhile isSpace) :=
      search_value List.not_mem_nil fun hmem => hnew (by simp [hmem])
    have hskip : valuePattern.search (l ++ (") = ".toList ++ firstLine v)) =
        valuePattern.search (") = ".toList ++ firstLine v) :=
      Regex.search_noMatch (noMatch_label hsign _)
    rw [List.nil_append] at hvalue
    rw [hvals, hskip, hvalue, Option.map_some, strip_dropWhile]
    rfl
  rcases exists_last_line label with hlabel | ⟨a, c, b, rfl, hc, hb⟩
  · exact hplain label hlabel h
  · have hbefore : hasSign a = false := hasSign_anti (List.prefix_append a (c :: b)).isInfix h
    have hlast : hasSign b = false :=
      hasSign_anti ((List.suffix_cons c b).trans (List.suffix_append a (c :: b))).isInfix h
    have hstart : (b ++ (") = ".toList ++ v)).head? ≠ some '\n' := by
      cases b with
      | nil => simp
      | cons d b =>
        intro hd
        cases hd
        exact absurd (hb '\n' List.mem_cons_self) (by decide)
    rw [List.append_assoc, List.cons_append, attrVals_break hc a fun _ => hstart,
      attrVals_noSign hbefore, List.nil_append]
    exact hplain b hb hlast

/-- The line of a field has one value, with the zone of what stands for it. -/
theorem attrVals_legible {f : DumpField} {v : Text} (h : f.Legible v) {w : Text} (hw : OneValue w) :
    ∃ u, attrVals (f.label ++ (") = ".toList ++ w)) = [u] ∧
      digitsZone u = digitsZone (f.shown w) := by
  rw [DumpField.shown]
  cases hsign : hasSign f.name with
  | false => exact ⟨_, attrVals_label (hasSign_label h.type ▸ hsign) hw, rfl⟩
  | true =>
    -- whatever is taken for the value has the `(` before the type in it
    obtain ⟨hvals, hnew⟩ := attrVals_oneLine (h.label hsign) hw
    obtain ⟨a, s, b, hname, hs⟩ := hasSign_iff.mp hsign
    have hsplit : f.label ++ (") = ".toList ++ firstLine w) = ("  ".toList ++ a) ++ ')' ::
        (s ++ '=' :: (b ++ (" (".toList ++ (f.type ++ (") = ".toList ++ firstLine w))))) := by
      rw [DumpField.label, hname]
      simp
    obtain ⟨g, hg, hparen⟩ := search_sign hs hsplit hnew (by simp)
    refine ⟨strip g, by rw [hvals, hg]; rfl, ?_⟩
    rw [digitsZone_of_paren (mem_strip (by decide) hparen)]
    rfl

/-- A label without `OGRFeature(` has no part in where the line is cut. -/
theorem clear_label {label : Text} (h : ¬ featureMark <:+: label) (t : Text) :
    Clear featureMark (label ++ ") = ".toList) t := by
  have hparen : ')' ∉ featureMark := by decide
  have hmid : 'O' ∉ " = ".toList := by decide
  have hsplit : label ++ ") = ".toList = label ++ [')'] ++ " = ".toList := by
    rw [List.append_assoc]
    rfl
  rw [hsplit]
  exact Clear.append (clear_concat hparen h _) (clear_of_notMem hmid t)

theorem marked_line_iff {f : DumpField} {v : Text} (h : f.Legible v) :
    featureMark <:+: f.label ++ (") = ".toList ++ v) ↔ featureMark <:+: v := by
  rw [← List.append_assoc]
  exact infix_of_clear (clear_label h.unmarked v)

theorem fieldLines_cons (f : DumpField) (fields : List DumpField) :
    fieldLines (f :: fields) =
      match f.value with
      | none => fieldLines fields
      | some v => (f.label ++ (") = ".toList ++ v)) :: fieldLines fields := by
  rw [fieldLines, List.filterMap_cons, DumpField.line]
  cases f.value <;> rfl

/-- **The zones of the values** of legible fields. -/
theorem lineValues_zones {fields : List DumpField} (h : Legible fields) :
    (lineValues (fieldLines fields)).map digitsZone = (candidates fields).map digitsZone := by
  induction fields with
  | nil => rfl
  | cons f fields ih =>
    obtain ⟨hf, hfields⟩ := List.forall_mem_cons.mp h
    rw [fieldLines_cons, candidates]
    cases hvalue : f.value with
    | none => exact ih hfields
    | some v =>
      have hv := hf v hvalue
      have hmark := marked_line_iff hv
      have hbefore : before featureMark (f.label ++ (") = ".toList ++ v)) =
          f.label ++ (") = ".toList ++ before featureMark v) := by
        rw [← List.append_assoc, before_skip (clear_label hv.unmarked v), List.append_assoc]
      dsimp only
      rw [lineValues]
      by_cases hcut : featureMark <:+: v
      · obtain ⟨w, hw, hzone⟩ :=
          attrVals_legible hv (oneValue_mono (before_isPrefixOf featureMark v) hv.value)
        rw [if_pos (hmark.mpr hcut), if_pos hcut, hbefore, hw, List.map_singleton,
          List.map_singleton, hzone]
      · obtain ⟨w, hw, hzone⟩ := attrVals_legible hv hv.value
        rw [if_neg (mt hmark.mp hcut), if_neg hcut, hw, List.singleton_append, List.map_cons,
          List.map_cons, hzone, ih hfields]

theorem marked_iff {fields : List DumpField} (h : Legible fields) :
    (∃ line ∈ fieldLines fields, featureMark <:+: line) ↔
      ∃ v ∈ fields.filterMap DumpField.value, featureMark <:+: v := by
  induction fields with
  | nil => simp [fieldLines]
  | cons f fields ih =>
    obtain ⟨hf, hfields⟩ := List.forall_mem_cons.mp h
    rw [fieldLines_cons, List.filterMap_cons]
    cases hvalue : f.value with
    | none => exact ih hfields
    | some v =>
      simp only [List.mem_cons, exists_eq_or_imp, marked_line_iff (hf v hvalue), ih hfields]

theorem length_candidates {fields : List DumpField}
    (h : ∀ v ∈ fields.filterMap DumpField.value, ¬ featureMark <:+: v) :
    (candidates fields).length = (fields.filterMap DumpField.value).length := by
  induction fields with
  | nil => rfl
  | cons f fields ih =>
    rw [List.filterMap_cons] at h ⊢
    rw [candidates]
    cases hvalue : f.value with
    | none =>
      rw [hvalue] at h
      exact ih h
    | some v =>
      rw [hvalue] at h
      obtain ⟨hv, hvs⟩ := List.forall_mem_cons.mp h
      dsimp only
      rw [if_neg hv, List.length_cons, List.length_cons, ih hvs]

/-! ## The values of the first feature -/

/-- The fields of the first feature. -/
def Dump.firstFields (d : Dump) : List DumpField :=
  match d.features with
  | [] => []
  | first :: _ => first.fields

/-- The values of the first feature. -/
def Dump.firstValues (d : Dump) : List Text :=
  d.firstFields.filterMap DumpField.value

/-- What is printed after the fields of the first feature. -/
def Dump.firstTail (d : Dump) : Text :=
  match d.features with
  | [] => []
  | first :: _ => first.tail

/-- Nothing after the fields of the first feature is a value, if nothing looks like one. -/
theorem attrVals_afterFirst (layer : Text) {first : DumpFeature} (more : List DumpFeature)
    (h : hasSign first.tail = false) :
    attrVals (before featureMark (afterFirst layer first more)) = [] := by
  have hwithin : before featureMark (afterFirst layer first more) <+: first.tail := by
    rw [afterFirst]
    cases more with
    | nil =>
      rw [List.flatMap_nil, List.append_nil]
      exact before_isPrefixOf featureMark first.tail
    | cons f more =>
      rw [List.flatMap_cons, DumpFeature.text, List.append_assoc featureMark]
      exact before_append_self featureMark first.tail _
  exact attrVals_noSign (hasSign_anti hwithin.isInfix h)

/-- The value at an index has the zone of what stands there, if nothing after the fields looks like
a value, or the index belongs to a field. -/
theorem shown_zone {d : Dump} (h : Legible d.firstFields) {i : Nat}
    (hend : hasSign d.firstTail = false ∨ i < d.firstValues.length) :
    d.shown[i]?.map digitsZone = (candidates d.firstFields)[i]?.map digitsZone := by
  unfold Dump.shown
  unfold Dump.firstValues at hend
  cases hd : d.features with
  | nil => simp [Dump.firstFields, hd, candidates]
  | cons first more =>
    have hfields : d.firstFields = first.fields := by rw [Dump.firstFields, hd]
    have htail : d.firstTail = first.tail := by rw [Dump.firstTail, hd]
    rw [hfields] at h hend ⊢
    rw [htail] at hend
    have hzones := lineValues_zones h
    have hat : (lineValues (fieldLines first.fields))[i]?.map digitsZone =
        (candidates first.fields)[i]?.map digitsZone := by
      rw [← List.getElem?_map, hzones, List.getElem?_map]
    dsimp only
    rw [← hat]
    simp only [marked_iff h]
    split
    · rw [List.append_nil]
    · rename_i hmark
      rcases hend with hsign | hi
      · rw [attrVals_afterFirst d.layer more hsign, List.append_nil]
      · have hlen : (lineValues (fieldLines first.fields)).length =
            (first.fields.filterMap DumpField.value).length := by
          rw [← List.length_map (f := digitsZone), hzones, List.length_map]
          exact length_candidates fun v hv hm => hmark ⟨v, hv, hm⟩
        rw [List.getElem?_append_left (hlen ▸ hi)]

/-- The first feature is found, its fields are legible, and nothing after them is taken for one of
the first `n`; or no feature is found. -/
def Dump.Lined (d : Dump) (n : Nat) : Prop :=
  (d.Found ∧ Legible d.firstFields ∧
      (hasSign d.firstTail = false ∨ n ≤ d.firstValues.length)) ∨
    Unreadable d.layer d.text

/-- What stands for the values of the first feature. -/
def Dump.listed (d : Dump) : List Text :=
  if d.Found then candidates d.firstFields else []

theorem Unreadable.not_found {d : Dump} (h : Unreadable d.layer d.text) : ¬ d.Found := by
  rintro ⟨_, hne, hparen⟩
  exact h.name.elim hne hparen

/-- **What stands for the values** has their zones. -/
theorem firstVals_zone {d : Dump} {n i : Nat} (h : d.Lined n) (hi : i < n) :
    (firstVals d.text)[i]?.map digitsZone = d.listed[i]?.map digitsZone := by
  rcases h with ⟨hfound, hlegible, hend⟩ | hunreadable
  · rw [firstVals_eq hfound, Dump.listed, if_pos hfound]
    exact shown_zone hlegible (hend.imp_right (Nat.lt_of_lt_of_le hi))
  · rw [firstVals, search_unreadable hunreadable, Dump.listed, if_neg hunreadable.not_found]
    rfl

/-! ## Fields `col0`, `col1` and so on -/

/-- A field that is set to a value on one line, under a name without `) =` in it. -/
structure PlainField (f : DumpField) (v : Text) : Prop where
  legible : f.Legible v
  name : hasSign f.name = false
  value : f.value = some v
  unbroken : v.any lineBreak = false

theorem PlainField.shown {f : DumpField} {v : Text} (h : PlainField f v) {w : Text}
    (hw : w <+: v) : f.shown w = strip w := by
  have hplain : w.any lineBreak = false := by
    rw [List.any_eq_false]
    intro c hc
    exact List.any_eq_false.mp h.unbroken c (hw.subset hc)
  rw [DumpField.shown, if_neg (Bool.eq_false_iff.mp h.name), firstLine_plain hplain]

theorem values_plain {fields : List DumpField} {values : List Text}
    (h : List.Forall₂ PlainField fields values) : fields.filterMap DumpField.value = values := by
  induction h with
  | nil => rfl
  | cons hf _ ih => rw [List.filterMap_cons, hf.value, ih]

theorem value_getElem?_plain {fields : List DumpField} {values : List Text}
    (h : List.Forall₂ PlainField fields values) (i : Nat) :
    fields[i]?.bind DumpField.value = values[i]? := by
  induction h generalizing i with
  | nil => rfl
  | cons hf _ ih =>
    cases i with
    | zero => exact hf.value
    | succ i => exact ih i

theorem legible_plain {fields : List DumpField} {values : List Text}
    (h : List.Forall₂ PlainField fields values) : Legible fields := by
  induction h with
  | nil => exact List.forall_mem_nil _
  | cons hf _ ih =>
    refine List.forall_mem_cons.mpr ⟨?_, ih⟩
    intro v hv
    cases hf.value.symm.trans hv
    exact hf.legible

/-- What stands at an index: the value up to `OGRFeature(`, unless that ends the feature before. -/
theorem candidates_getElem? {fields : List DumpField} {values : List Text}
    (h : List.Forall₂ PlainField fields values) (i : Nat) :
    (candidates fields)[i]? =
      if ∃ v ∈ values.take i, featureMark <:+: v then none
      else values[i]?.map fun v => strip (before featureMark v) := by
  induction h generalizing i with
  | nil => simp [candidates]
  | @cons f v fields values hf _ ih =>
    rw [candidates, hf.value]
    dsimp only
    rw [hf.shown (before_isPrefixOf featureMark v), hf.shown List.prefix_rfl]
    by_cases hmark : featureMark <:+: v
    · rw [if_pos hmark]
      cases i with
      | zero => simp
      | succ i => simp [hmark]
    · rw [if_neg hmark]
      cases i with
      | zero => simp [before_eq_self hmark]
      | succ i =>
        rw [List.getElem?_cons_succ, List.getElem?_cons_succ, ih]
        simp [hmark]

/-- The name of a field type as it is printed, such as `String` or `Integer(Int16)`. -/
structure TypeName where
  text : Text
  unbroken : ∀ c ∈ text, lineBreak c = false
  noEq : '=' ∉ text
  unmarked : ¬ featureMark <:+: text

def colField (i : Nat) (cell : TypeName × Text) : DumpField :=
  ⟨"col".toList ++ Nat.toDigits 10 i, cell.1.text, some cell.2⟩

/-- The fields `col0`, `col1` and so on with their types and values, all of them set. -/
def colFields (cells : List (TypeName × Text)) : List DumpField :=
  cells.mapIdx colField

theorem toNat_of_isDigit {c : Char} (h : c.isDigit = true) : 48 ≤ c.toNat ∧ c.toNat ≤ 57 := by
  simp only [Char.isDigit, Bool.and_eq_true, decide_eq_true_eq, ge_iff_le, UInt32.le_iff_toNat_le]
    at h
  exact h

/-- A character that a clean label may have anywhere. -/
def cleanChar (c : Char) : Bool :=
  !lineBreak c && c != '=' && c != 'O'

theorem cleanChar_of_isDigit {c : Char} (h : c.isDigit = true) : cleanChar c = true := by
  obtain ⟨hlo, hhi⟩ := toNat_of_isDigit h
  have hbreak : lineBreak c = false := by
    simp only [lineBreak, Bool.or_eq_false_iff, Bool.and_eq_false_iff, decide_eq_false_iff_not,
      beq_eq_false_iff_ne]
    omega
  have heq : c ≠ '=' := by
    rintro rfl
    exact absurd hhi (by decide)
  have hO : c ≠ 'O' := by
    rintro rfl
    exact absurd hhi (by decide)
  simp [cleanChar, hbreak, heq, hO]

theorem toDigits_cleanChar (i : Nat) : (Nat.toDigits 10 i).all cleanChar = true := by
  rw [List.all_eq_true]
  intro c hc
  exact cleanChar_of_isDigit (Nat.isDigit_of_mem_toDigits (by decide) (by decide) hc)

/-- A field whose name consists of such characters is plain. -/
theorem plainField {f : DumpField} {type : TypeName} {v : Text} (htype : f.type = type.text)
    (hname : f.name.all cleanChar = true) (hvalue : f.value = some v)
    (hv : v.any lineBreak = false) : PlainField f v := by
  have hblanks : "  ".toList.all cleanChar = true := by decide
  have hparen : " (".toList.all cleanChar = true := by decide
  have hstart : ("  ".toList ++ f.name ++ " (".toList).all cleanChar = true := by
    rw [List.all_append, List.all_append, hblanks, hname, hparen]
    rfl
  have hchar : ∀ c ∈ "  ".toList ++ f.name ++ " (".toList,
      lineBreak c = false ∧ c ≠ '=' ∧ c ≠ 'O' := by
    intro c hc
    have hclean := List.all_eq_true.mp hstart c hc
    simpa [cleanChar, and_assoc] using hclean
  have hlabel : f.label = "  ".toList ++ f.name ++ " (".toList ++ type.text := by
    rw [DumpField.label, htype, List.append_assoc, List.append_assoc, List.append_assoc]
  have hclear : Clear featureMark ("  ".toList ++ f.name ++ " (".toList) type.text :=
    clear_of_notMem (fun hO => (hchar 'O' hO).2.2 rfl) type.text
  have hsign : '=' ∉ f.name := fun hmem => (hchar '=' (by simp [hmem])).2.1 rfl
  refine ⟨⟨?_, ?_, ?_, oneValue_plain hv⟩, hasSign_eq_false hsign, hvalue, hv⟩
  · intro _ c hc
    rw [hlabel] at hc
    rcases List.mem_append.mp hc with hc | hc
    · exact (hchar c hc).1
    · exact type.unbroken c hc
  · rw [hlabel, infix_of_clear hclear]
    exact type.unmarked
  · rw [htype]
    exact type.noEq

theorem plainField_colField (i : Nat) {cell : TypeName × Text}
    (h : cell.2.any lineBreak = false) : PlainField (colField i cell) cell.2 := by
  have hcol : "col".toList.all cleanChar = true := by decide
  have hname : (colField i cell).name.all cleanChar = true := by
    rw [colField, List.all_append, hcol, toDigits_cleanChar]
    rfl
  exact plainField rfl hname rfl h

/-- Fields that are plain one by one, whatever their index. -/
theorem mapIdx_plain {α : Type} {field : Nat → α → DumpField} {value : α → Text} {cells : List α}
    (h : ∀ i, ∀ cell ∈ cells, PlainField (field i cell) (value cell)) :
    List.Forall₂ PlainField (cells.mapIdx field) (cells.map value) := by
  induction cells generalizing field with
  | nil => exact .nil
  | cons cell cells ih =>
    rw [List.mapIdx_cons, List.map_cons]
    refine .cons (h 0 cell List.mem_cons_self) ?_
    exact ih fun i x hx => h (i + 1) x (List.mem_cons_of_mem cell hx)

/-! ## Zone by position -/

/-- The zone that a value is a numeral for. -/
def numeralZone (v : Text) : Option Int :=
  if isDigits (strip v) then (pyInt (strip v)).bind zoneRange else none

/-- The zone that a field of the first feature is a numeral for. -/
def Dump.fieldZone (d : Dump) (i : Nat) : Option Int := do
  let first ← d.features.head?
  let field ← first.fields[i]?
  let v ← field.value
  numeralZone v

/-- The first feature has fields `col0`, `col1` and so on, six or more, all of them set, and no
value has a line break in it. -/
def Dump.Columns (d : Dump) : Prop :=
  ∀ first ∈ d.features.head?, ∃ cells : List (TypeName × Text),
    first.fields = colFields cells ∧ 6 ≤ cells.length ∧
      ∀ cell ∈ cells, ∀ c ∈ cell.2, lineBreak c = false

/-- The first feature is found, or no feature is. -/
def Dump.Tame (d : Dump) : Prop :=
  d.Found ∨ Unreadable d.layer d.text

/-- The first feature is found, and no value before that of field 5 has `OGRFeature(` in it. -/
def Dump.Reached (d : Dump) : Prop :=
  d.Found ∧ ∀ v ∈ d.firstValues.take 5, ¬ featureMark <:+: v

instance (d : Dump) : Decidable d.Reached :=
  inferInstanceAs (Decidable (_ ∧ _))

/-- A zone in field 5 is reached, or the first number after `座標系` is the same zone. If field 5 has
no zone, it is not reached or it is passed over (up to `OGRFeature(`), and no zone is the first
number after `座標系`. -/
structure Dump.Tells (d : Dump) : Prop where
  tame : d.Tame
  zone : ∀ z, d.fieldZone 5 = some z → d.Reached ∨ LabelShows d.text (some z)
  noZone : d.fieldZone 5 = none →
    (∀ v, d.firstValues[5]? = some v → d.Reached → PassedOver (strip (before featureMark v))) ∧
      LabelShows d.text none

/-- The first feature is found, none of its first six values is cut, and no number stands after
`座標系` anywhere. -/
structure Dump.Plain (d : Dump) : Prop where
  found : d.Found
  unmarked : ∀ v ∈ d.firstValues.take 6, ¬ featureMark <:+: v
  unlabelled : ∀ digits, ¬ FirstLabelled zukeiLabel d.text digits

/-- What stands for the value of field 5. -/
def Dump.sixth (d : Dump) : Option Text :=
  if d.Reached then d.firstValues[5]?.map fun v => strip (before featureMark v) else none

theorem Dump.Columns.plain {d : Dump} (h : d.Columns) :
    List.Forall₂ PlainField d.firstFields d.firstValues ∧
      (d.features ≠ [] → 6 ≤ d.firstValues.length) := by
  unfold Dump.firstValues Dump.firstFields
  cases hd : d.features with
  | nil => exact ⟨.nil, fun h => absurd rfl h⟩
  | cons first more =>
    obtain ⟨cells, hfields, hlen, hunbroken⟩ := h first (by rw [hd]; rfl)
    have hplain : List.Forall₂ PlainField (colFields cells) (cells.map Prod.snd) := by
      apply mapIdx_plain
      intro i cell hcell
      apply plainField_colField
      rw [List.any_eq_false]
      intro c hc
      exact Bool.eq_false_iff.mp (hunbroken cell hcell c hc)
    dsimp only
    rw [hfields, values_plain hplain]
    exact ⟨hplain, fun _ => by rwa [List.length_map]⟩

theorem Dump.Columns.lined {d : Dump} (h : d.Columns) (htame : d.Tame) : d.Lined 6 := by
  refine htame.imp_left fun hfound => ⟨hfound, legible_plain h.plain.1, ?_⟩
  by_cases hd : d.features = []
  · left
    rw [Dump.firstTail, hd]
    rfl
  · exact Or.inr (h.plain.2 hd)

theorem listed_sixth {d : Dump} (h : d.Columns) : d.listed[5]? = d.sixth := by
  rw [Dump.listed, Dump.sixth]
  by_cases hfound : d.Found
  · have hmark : (∃ v ∈ d.firstValues.take 5, featureMark <:+: v) ↔ ¬ d.Reached := by
      rw [Dump.Reached, and_iff_right hfound]
      simp
    rw [if_pos hfound, candidates_getElem? h.plain.1]
    simp only [hmark, ite_not]
  · rw [if_neg hfound, if_neg fun hreached => hfound hreached.1]
    rfl

/-- Only the zone of the value matters. -/
theorem zoneOf_congr {v w : Option Text} (h : v.map digitsZone = w.map digitsZone) (txt : Text) :
    zoneOf v txt = zoneOf w txt := by
  have helim : ∀ u : Option Text,
      u.elim (.ok none) digitsZone = (u.map digitsZone).elim (.ok none) id := by
    intro u
    cases u <;> rfl
  rw [zoneOf, zoneOf, helim, helim, h]

/-- The result of the function for a dump whose first six values can be told. -/
theorem getZukei_lined {d : Dump} (h : d.Lined 6) {stdout stderr : Text}
    (htext : stdout ++ stderr = d.text) :
    getZukei (.exited 0 stdout stderr) = zoneOf d.listed[5]? d.text := by
  rw [getZukei_eq, htext, zukeiVal_eq_firstVals]
  exact zoneOf_congr (firstVals_zone h (by decide)) d.text

theorem fieldZone_plain {d : Dump} {values : List Text}
    (h : List.Forall₂ PlainField d.firstFields values) (i : Nat) :
    d.fieldZone i = values[i]?.bind numeralZone := by
  rw [← value_getElem?_plain h]
  unfold Dump.fieldZone Dump.firstFields
  cases d.features with
  | nil => rfl
  | cons first more =>
    rw [List.head?_cons, Option.bind_assoc]
    rfl

/-- A numeral has no `OGRFeature(` in it. -/
theorem zoneValue_of_numeralZone {v : Text} {z : Int} (h : numeralZone v = some z) :
    ZoneValue (strip (before featureMark v)) z := by
  obtain ⟨hdigits, hbind⟩ := Option.ite_none_right_eq_some.mp h
  obtain ⟨w, hint, hrange⟩ := Option.bind_eq_some_iff.mp hbind
  have hmark : ¬ featureMark <:+: v := by
    intro hin
    have hO : 'O' ∈ strip v := mem_strip (by decide) (hin.subset (by decide))
    have hchar := List.all_eq_true.mp ((Bool.and_eq_true _ _).mp hdigits).2 'O' hO
    exact absurd hchar (by decide)
  obtain ⟨hz, heq⟩ := Option.ite_none_right_eq_some.mp hrange
  cases heq
  rw [before_eq_self hmark]
  exact ⟨hdigits, hint, hz⟩

theorem valueShows_sixth_iff {d : Dump} {zone : Option Int}
    (hzone : zone = d.firstValues[5]?.bind numeralZone) :
    ValueShows d.sixth d.text zone ↔
      (∀ z, zone = some z → d.Reached ∨ LabelShows d.text (some z)) ∧
      (zone = none →
        (∀ v, d.firstValues[5]? = some v → d.Reached →
          PassedOver (strip (before featureMark v))) ∧ LabelShows d.text none) := by
  unfold ValueShows Dump.sixth
  cases zone with
  | none =>
    by_cases hreached : d.Reached
    · simp [hreached]
    · simp [hreached]
  | some z =>
    obtain ⟨v, hv, hnumeral⟩ := Option.bind_eq_some_iff.mp hzone.symm
    have hvalue := zoneValue_of_numeralZone hnumeral
    by_cases hreached : d.Reached
    · simp [hreached, hv, hvalue]
    · simp [hreached]

theorem digitsZone_numeral_iff (v : Text) :
    digitsZone (strip v) = .ok (numeralZone v) ↔
      (isDigits (strip v) = true → (pyInt (strip v)).isSome = true) := by
  unfold digitsZone numeralZone intZone
  cases isDigits (strip v) with
  | false => simp
  | true => cases pyInt (strip v) <;> simp

theorem sixth_plain {d : Dump} (h : d.Plain) : d.sixth = d.firstValues[5]?.map strip := by
  have hreached : d.Reached := ⟨h.found, fun v hv =>
    h.unmarked v ((List.take_prefix_take_left (by decide)).subset hv)⟩
  rw [Dump.sixth, if_pos hreached]
  cases hv : d.firstValues[5]? with
  | none => rfl
  | some v =>
    have hmem : v ∈ d.firstValues.take 6 :=
      List.mem_of_getElem? ((List.getElem?_take_of_lt (by decide)).trans hv)
    rw [Option.map_some, Option.map_some, before_eq_self (h.unmarked v hmem)]

theorem zoneOf_unlabelled {txt : Text} (h : ∀ digits, ¬ FirstLabelled zukeiLabel txt digits)
    (val : Option Text) : zoneOf val txt = val.elim (.ok none) digitsZone := by
  rw [zoneOf, labelZone, search_label_none_iff.mpr h]
  split
  · exact Eq.symm ‹_›
  · rfl

/-- **The zone by position.** For fields `col0`, `col1` and so on, if the first feature is found or
no feature is, `get_zukei` finds the zone of field 5 of the first feature exactly when the dump
tells it. In a plain dump that is so unless the value consists of digits that `int` does not
read. -/
theorem zukei_position_iff (d : Dump) (stdout stderr : Text)
    (htext : stdout ++ stderr = d.text) (h : d.Columns) :
    (d.Tells → getZukei (.exited 0 stdout stderr) = .ok (d.fieldZone 5)) ∧
    (d.Tame → (getZukei (.exited 0 stdout stderr) = .ok (d.fieldZone 5) ↔ d.Tells)) ∧
    (d.Plain → (getZukei (.exited 0 stdout stderr) = .ok (d.fieldZone 5) ↔
      ∀ v, d.firstValues[5]? = some v → isDigits (strip v) = true →
        (pyInt (strip v)).isSome = true)) := by
  have hzone := fieldZone_plain h.plain.1 5
  have hsixth : d.Tame → getZukei (.exited 0 stdout stderr) = zoneOf d.sixth d.text := by
    intro htame
    rw [getZukei_lined (h.lined htame) htext, listed_sixth h]
  have hshows : d.Tame → (getZukei (.exited 0 stdout stderr) = .ok (d.fieldZone 5) ↔ d.Tells) := by
    intro htame
    rw [hsixth htame, zoneOf_eq_ok_iff, valueShows_sixth_iff hzone]
    exact ⟨fun ⟨hz, hnone⟩ => ⟨htame, hz, hnone⟩, fun ht => ⟨ht.zone, ht.noZone⟩⟩
  refine ⟨fun ht => (hshows ht.tame).mpr ht, hshows, ?_⟩
  intro hplain
  rw [hsixth (Or.inl hplain.found), zoneOf_unlabelled hplain.unlabelled, sixth_plain hplain, hzone]
  cases d.firstValues[5]? with
  | none => simp
  | some v =>
    simp only [Option.map_some, Option.elim_some, Option.bind_some, Option.some.injEq, forall_eq']
    exact digitsZone_numeral_iff v

def stringType : TypeName where
  text := "String".toList
  unbroken := fun c hc =>
    Bool.eq_false_iff.mpr (List.any_eq_false.mp (by decide : "String".toList.any _ = false) c hc)
  noEq := by decide
  unmarked := by decide

/-- A feature at a point. -/
def sampleFeature (fields : List DumpField) : DumpFeature where
  fid := "1".toList
  fields := fields
  tail := "  POINT (2 1)\n\n".toList
  fid_ne := sampleFid_ne
  fid_digits := sampleFid_digits

/-- A dump of one feature with fields of type `String`. -/
def stringDump (layer : String) (values : List String) : Dump where
  preamble := "Layer name: a\nFeature Count: 1\ncol0: String (0.0)".toList
  layer := layer.toList
  features := [sampleFeature (colFields (values.map fun v => (stringType, v.toList)))]

theorem stringDump_columns (layer : String) {values : List String} (hlen : 6 ≤ values.length)
    (h : ∀ v ∈ values, v.toList.any lineBreak = false) : (stringDump layer values).Columns := by
  intro first hfirst
  cases hfirst
  refine ⟨_, rfl, by simpa using hlen, ?_⟩
  intro cell hcell c hc
  obtain ⟨v, hv, rfl⟩ := List.mem_map.mp hcell
  exact Bool.eq_false_iff.mpr (List.any_eq_false.mp (h v hv) c hc)

/-- A plain dump with zone 9. -/
theorem zukei_position_plain :
    getZukei (.exited 0 (stringDump "a" ["a", "b", "(c)", "d = 1", "", " 9", "4"]).text []) =
      .ok ((stringDump "a" ["a", "b", "(c)", "d = 1", "", " 9", "4"]).fieldZone 5) := by
  have hlabel : labelPattern.search
      (stringDump "a" ["a", "b", "(c)", "d = 1", "", " 9", "4"]).text = none := by decide +kernel
  have hplain : (stringDump "a" ["a", "b", "(c)", "d = 1", "", " 9", "4"]).Plain :=
    ⟨by decide +kernel, by decide +kernel, search_label_none_iff.mp hlabel⟩
  refine ((zukei_position_iff (stringDump "a" ["a", "b", "(c)", "d = 1", "", " 9", "4"]) _ []
    (List.append_nil _) (stringDump_columns "a" (by decide) (by decide))).2.2 hplain).mpr ?_
  intro v hv _
  cases hv
  decide

/-- A layer name with `)`, a value with `OGRFeature(` and a value with `座標系 (a) = 3` in it: the
zone 9 of field 5 is not found, and for a field 5 without a zone another value's 3 is. -/
theorem zukei_position_misled :
    getZukei (.exited 0 (stringDump "a)b" ["a", "b", "c", "d", "e", "9"]).text []) = .ok none ∧
    (stringDump "a)b" ["a", "b", "c", "d", "e", "9"]).fieldZone 5 = some 9 ∧
    getZukei (.exited 0 (stringDump "a" ["OGRFeature(", "b", "c", "d", "e", "9"]).text []) =
      .ok none ∧
    (stringDump "a" ["OGRFeature(", "b", "c", "d", "e", "9"]).fieldZone 5 = some 9 ∧
    getZukei (.exited 0 (stringDump "a" ["座標系 (a) = 3", "b", "c", "d", "e", "x"]).text []) =
      .ok (some 3) ∧
    (stringDump "a" ["座標系 (a) = 3", "b", "c", "d", "e", "x"]).fieldZone 5 = none := by
  decide +kernel

end GdalFull.Merge
