import GdalFull.Merge.GaikuZukei

/-!
# The zone in the field `座標系`

`get_zukei` of `merge_gaiku_geoparquet.py` takes the first `座標系 (...) = digits` of the dump. The
name of the field may end in `座標系`, the field may belong to any feature, and the value has only to
begin with the digits. `Dump.numbers` lists these digits, field by field; if nothing else in the
dump looks like such a field, the first of them is what is found (`firstLabelled_iff`).

`gaiku_label_iff` says when the result is the zone in the field `座標系` of the first feature.
-/

namespace GdalFull.Merge

open GdalFull.Lib GdalFull.Convert

/-! ## Entries of listed fields -/

/-- A word, up to the case of its letters. -/
def SameLetters (s w : Text) : Prop :=
  List.Forall₂ (fun c d => d = c ∨ d ∈ otherCases c) s w

/-- `Field N:` stands in the text. -/
def FieldEntry (idx txt : Text) : Prop :=
  ∃ a word s b, txt = a ++ (word ++ (s ++ (idx ++ ':' :: b))) ∧ SameLetters "field".toList word ∧
    s ≠ [] ∧ ∀ c ∈ s, isSpace c = true

/-- One of several letters. -/
theorem run_letters_some {β : Type} {k : Text → Text → Option β} {g t : Text} {b : β} {r : Regex}
    {cs : Text} (h : (cs.foldl (fun r d => Regex.alt r (.lit [d])) r).run k g t = some b) :
    r.run k g t = some b ∨ ∃ d ∈ cs, ∃ rest, t = d :: rest ∧ k g rest = some b := by
  induction cs generalizing r with
  | nil => exact Or.inl h
  | cons d cs ih =>
    rcases ih h with h | ⟨e, he, hrest⟩
    · rw [Regex.run, Option.or_eq_some_iff] at h
      rcases h with h | ⟨_, h⟩
      · exact Or.inl h
      · obtain ⟨rest, hrest, hk⟩ := Regex.run_lit_some h
        exact Or.inr ⟨d, List.mem_cons_self, rest, hrest, hk⟩
    · exact Or.inr ⟨e, List.mem_cons_of_mem d he, hrest⟩

theorem run_caseLit_some {β : Type} {s : Text} {k : Text → Text → Option β} {g t : Text} {b : β}
    (h : (caseLit s).run k g t = some b) :
    ∃ word rest, t = word ++ rest ∧ SameLetters s word ∧ k g rest = some b := by
  induction s generalizing t with
  | nil =>
    exact ⟨[], t, rfl, .nil, h⟩
  | cons c s ih =>
    rw [caseLit, Regex.run] at h
    rcases run_letters_some h with h₁ | ⟨d, hd, t₁, rfl, h₂⟩
    · obtain ⟨t₁, rfl, h₂⟩ := Regex.run_lit_some h₁
      obtain ⟨word, rest, rfl, hword, hk⟩ := ih h₂
      exact ⟨c :: word, rest, rfl, .cons (Or.inl rfl) hword, hk⟩
    · obtain ⟨word, rest, rfl, hword, hk⟩ := ih h₂
      exact ⟨d :: word, rest, rfl, .cons (Or.inr hd) hword, hk⟩

theorem fieldEntry_of_schemaNameAt {idx t name : Text} (h : schemaNameAt idx t = some name) :
    FieldEntry idx t := by
  obtain ⟨word, t₁, rfl, hword, h₁⟩ := run_caseLit_some h
  cases t₁ with
  | nil => cases h₁
  | cons c t₁ =>
    obtain ⟨hc, h₂⟩ := Option.ite_none_right_eq_some.mp h₁
    obtain ⟨s, t₂, rfl, hs, h₃⟩ := runMany_some h₂
    obtain ⟨t₃, rfl, _⟩ := Regex.run_lit_some h₃
    refine ⟨[], word, c :: s, t₃, by simp, hword, List.cons_ne_nil c s, ?_⟩
    exact List.forall_mem_cons.mpr ⟨hc, hs⟩

/-- Without such an entry the pattern for it finds nothing. -/
theorem schemaName_none {idx txt : Text} (h : ¬ FieldEntry idx txt) :
    schemaName idx txt = none := by
  induction txt with
  | nil =>
    rw [schemaName, Option.eq_none_iff_forall_ne_some]
    exact fun name hname => h (fieldEntry_of_schemaNameAt hname)
  | cons c t ih =>
    have hrest : ¬ FieldEntry idx t := by
      rintro ⟨a, word, s, b, rfl, hword, hs⟩
      exact h ⟨c :: a, word, s, b, rfl, hword, hs⟩
    have hhere : schemaNameAt idx (c :: t) = none := by
      rw [Option.eq_none_iff_forall_ne_some]
      exact fun name hname => h (fieldEntry_of_schemaNameAt hname)
    rw [schemaName, hhere, ih hrest]
    rfl

/-! ## The numbers after `座標系` -/

/-- The value of the field `座標系` of the first feature. -/
def Dump.namedValue (d : Dump) : Option Text := do
  let first ← d.features.head?
  let field ← first.fields.find? fun f => f.name = zukeiLabel
  field.value

/-- The zone in the field `座標系` of the first feature. -/
def Dump.namedZone (d : Dump) : Option Int :=
  d.namedValue.bind numeralZone

/-- The digits with which the value of a field begins, if the name of the field ends in `座標系` and
its type is not empty and has no `)` in it. -/
def DumpField.number (f : DumpField) : Option Text :=
  if zukeiLabel <:+ f.name ∧ f.type ≠ [] ∧ ')' ∉ f.type then
    f.value.bind fun v => if leadingDigits v = [] then none else some (leadingDigits v)
  else none

/-- These digits, for all fields in order. -/
def Dump.numbers (d : Dump) : List Text :=
  d.features.flatMap fun feature => feature.fields.filterMap DumpField.number

/-- The text from the label of such a field on. -/
def DumpField.labelText (f : DumpField) (after : Text) : Text :=
  zukeiLabel ++ (" (".toList ++ (f.type ++ (") = ".toList ++ (f.value.getD [] ++ '\n' :: after))))

/-- The numbers of some fields, each with the text from its label on. -/
def fieldLabels (after : Text) : List DumpField → List (Text × Text)
  | [] => []
  | f :: fields =>
    match f.number with
    | none => fieldLabels after fields
    | some digits => (digits, f.labelText (fieldText fields ++ after)) :: fieldLabels after fields

def featureLabels (layer : Text) : List DumpFeature → List (Text × Text)
  | [] => []
  | f :: more => fieldLabels (afterFirst layer f more) f.fields ++ featureLabels layer more

def Dump.labels (d : Dump) : List (Text × Text) :=
  featureLabels d.layer d.features

/-- Whatever looks like `座標系 (...) = digits` in the dump is a field with its number. -/
def Dump.Anchored (d : Dump) : Prop :=
  ∀ u digits, u <:+ d.text → LabelledAt zukeiLabel u digits → (digits, u) ∈ d.labels

/-- What the labels of some text are: places in it that the pattern reads, from left to right. -/
structure LabelsOf (txt : Text) (labels : List (Text × Text)) : Prop where
  suffix : ∀ l ∈ labels, l.2 <:+ txt
  labelled : ∀ l ∈ labels, LabelledAt zukeiLabel l.2 l.1
  ordered : labels.Pairwise fun l m => m.2.length < l.2.length

theorem LabelsOf.mono {txt txt' : Text} {labels : List (Text × Text)} (h : LabelsOf txt labels)
    (hsuffix : txt <:+ txt') : LabelsOf txt' labels :=
  ⟨fun l hl => (h.suffix l hl).trans hsuffix, h.labelled, h.ordered⟩

/-- The first label stands before the others. -/
theorem LabelsOf.first {txt : Text} {l m : Text × Text} {more : List (Text × Text)}
    (h : LabelsOf txt (l :: more)) (hm : m ∈ l :: more) : m = l ∨ m.2.length < l.2.length := by
  rcases List.mem_cons.mp hm with rfl | hmore
  · exact Or.inl rfl
  · exact Or.inr ((List.pairwise_cons.mp h.ordered).1 m hmore)

/-- The text lists none of the fields 10 to 12, and the values of the first feature can be told. -/
structure Dump.Unlisted (d : Dump) : Prop where
  unlisted : ∀ idx ∈ schemaIndices, ¬ FieldEntry idx d.text
  lined : d.Lined 14

/-- The zone in the field `座標系` of the first feature is that of the first number. If there is no
number, it is the first zone among what stands for the values with index 8 to 13. -/
structure Dump.Names (d : Dump) : Prop where
  anchored : d.Anchored
  number : ∀ digits, d.numbers.head? = some digits →
    ∃ z, pyInt digits = some z ∧ d.namedZone = zoneRange z
  noNumber : d.numbers = [] → d.Unlisted ∧ LoopShows (window d.listed) d.namedZone

def namedField (name type value : String) : DumpField :=
  ⟨name.toList, type.toList, some value.toList⟩

/-- A dump that lists the fields as `ogrinfo` does. -/
def namedDump (features : List (List DumpField)) : Dump where
  preamble := "Layer name: a\n座標系: Integer (0.0)".toList
  layer := "a".toList
  features := features.map sampleFeature

def nineDump : Dump :=
  namedDump [[namedField "補正情報" "String" "座標系", namedField "座標系" "Integer" "9"]]

end GdalFull.Merge
