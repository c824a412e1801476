import GdalFull.Lib.LabelledNumber
import GdalFull.Convert.Tochi

/-!
# The zone of a file without a header

The single-file route takes the zone that `csv_to_geoparquet_tochi.py` prints, which is read
from the second record. The batch route asks `get_zukei` of `merge_tochi_geopackage.py`, which
searches what `ogrinfo -al` prints for the first feature, that is, for the first record.

`zukei_agree_iff` says when the two are the same, by the cells of the two records and the text of
the listing. It follows `get_zukei` through its three patterns on a listing whose first feature has
the cells of a record as attributes.
-/

namespace GdalFull.Merge

open GdalFull.Lib GdalFull.Convert

inductive ValueError where
  | valueError
  deriving DecidableEq

def zoneRange (z : Int) : Option Int :=
  if 1 ≤ z ∧ z ≤ 19 then some z else none

/-- `int(s)` and the test that it is a zone. -/
def intZone (s : Text) : Except ValueError (Option Int) :=
  match pyInt s with
  | none => .error .valueError
  | some z => .ok (zoneRange z)

def featureMark : Text := "OGRFeature(".toList

/-- `OGRFeature\([^)]+\):\d+\s*\n(.*?)(?=OGRFeature\(|\Z)`. -/
def featurePattern : Regex :=
  .seq (.lit featureMark) <| .seq (.many1 (· != ')')) <| .seq (.lit "):".toList) <|
    .seq (.many1 fun c => (decimal c).isSome) <| .seq (.many isSpace) <| .seq (.lit ['\n']) <|
      upTo featureMark

/-- `\)\s*=\s*(.*)$`. -/
def valuePattern : Regex :=
  .seq (.lit [')']) <| .seq (.many isSpace) <| .seq (.lit ['=']) <| .seq (.many isSpace) <|
    .seq (.group (.many (· != '\n'))) .lineEnd

/-- `座標系\s*\([^)]+\)\s*=\s*(\d+)`. -/
def labelPattern : Regex :=
  .seq (.lit zukeiLabel) <| .seq (.many isSpace) <| .seq (.lit ['(']) <|
    .seq (.many1 (· != ')')) <| .seq (.lit [')']) <| .seq (.many isSpace) <|
      .seq (.lit ['=']) <| .seq (.many isSpace) <| .group (.many1 fun c => (decimal c).isSome)

def zukeiAttrIndex : Nat := 5

/-- `attr_vals`. -/
def attrVals (block : Text) : List Text :=
  (splitlines block).filterMap fun line => (valuePattern.search line).map strip

/-- The zone in a value, which has to consist of digits. -/
def digitsZone (val : Text) : Except ValueError (Option Int) :=
  if isDigits val then intZone val else .ok none

/-- The zone after the label `座標系`. -/
def labelZone (txt : Text) : Except ValueError (Option Int) :=
  match labelPattern.search txt with
  | none => .ok none
  | some digits => intZone digits

/-- The zone in the attribute value; the label is searched when there is none. -/
def zoneOf (val : Option Text) (txt : Text) : Except ValueError (Option Int) :=
  match val.elim (.ok none) digitsZone with
  | .ok none => labelZone txt
  | found => found

/-- The attribute value that `get_zukei` looks at. -/
def zukeiVal (txt : Text) : Option Text :=
  (featurePattern.search txt).bind fun block => (attrVals block)[zukeiAttrIndex]?

/-- How the call of `ogrinfo -al` ends. -/
inductive OgrinfoEnd where
  | fileNotFound
  | timeoutExpired
  | exited (returncode : Int) (stdout stderr : Text)

def getZukei : OgrinfoEnd → Except ValueError (Option Int)
  | .fileNotFound => .ok none
  | .timeoutExpired => .ok none
  | .exited returncode stdout stderr =>
    if returncode ≠ 0 then .ok none
    else
      let txt := stdout ++ stderr
      zoneOf (zukeiVal txt) txt

/-! ## The zone of a value -/

/-- Digits that are an integer from 1 to 19. -/
def ZoneValue (v : Text) (z : Int) : Prop :=
  isDigits v = true ∧ pyInt v = some z ∧ 1 ≤ z ∧ z ≤ 19

/-- A value that the scripts pass over: no digits, or an integer that is no zone. -/
def PassedOver (v : Text) : Prop :=
  isDigits v = true → ∃ z, pyInt v = some z ∧ ¬ (1 ≤ z ∧ z ≤ 19)

/-- The zone (or none) of the first number after `座標系` in a text. -/
def LabelShows (txt : Text) (zone : Option Int) : Prop :=
  (∃ digits z, FirstLabelled zukeiLabel txt digits ∧ pyInt digits = some z ∧ zone = zoneRange z) ∨
    (∀ digits, ¬ FirstLabelled zukeiLabel txt digits) ∧ zone = none

theorem intZone_eq_ok_iff {s : Text} {zone : Option Int} :
    intZone s = .ok zone ↔ ∃ z, pyInt s = some z ∧ zone = zoneRange z := by
  unfold intZone
  cases pyInt s with
  | none => simp
  | some z => simp [eq_comm]

theorem digitsZone_eq_some_iff {v : Text} {z : Int} :
    digitsZone v = .ok (some z) ↔ ZoneValue v z := by
  unfold digitsZone ZoneValue
  cases isDigits v with
  | false => simp
  | true =>
    rw [if_pos rfl, intZone_eq_ok_iff]
    constructor
    · rintro ⟨w, hw, hz⟩
      obtain ⟨hrange, heq⟩ := Option.ite_none_right_eq_some.mp hz.symm
      cases heq
      exact ⟨rfl, hw, hrange⟩
    · rintro ⟨_, hz, hrange⟩
      exact ⟨z, hz, (if_pos hrange).symm⟩

theorem digitsZone_eq_none_iff {v : Text} : digitsZone v = .ok none ↔ PassedOver v := by
  unfold digitsZone PassedOver
  cases isDigits v with
  | false => simp
  | true =>
    rw [if_pos rfl, intZone_eq_ok_iff]
    simp only [forall_const]
    constructor
    · rintro ⟨z, hz, hnone⟩
      refine ⟨z, hz, fun hrange => ?_⟩
      rw [zoneRange, if_pos hrange] at hnone
      cases hnone
    · rintro ⟨z, hz, hrange⟩
      exact ⟨z, hz, (if_neg hrange).symm⟩

theorem search_label_iff {txt digits : Text} :
    labelPattern.search txt = some digits ↔ FirstLabelled zukeiLabel txt digits :=
  search_numberAfter_iff

theorem search_label_none_iff {txt : Text} :
    labelPattern.search txt = none ↔ ∀ digits, ¬ FirstLabelled zukeiLabel txt digits :=
  search_numberAfter_none_iff

theorem labelZone_eq_ok_iff {txt : Text} {zone : Option Int} :
    labelZone txt = .ok zone ↔ LabelShows txt zone := by
  unfold labelZone LabelShows
  simp only [← search_label_iff]
  cases labelPattern.search txt with
  | none => simp [eq_comm]
  | some digits => simp [intZone_eq_ok_iff]

/-- The zone is that of the value, or the value is passed over and the text shows the zone. -/
def ValueShows (val : Option Text) (txt : Text) (zone : Option Int) : Prop :=
  (∃ v z, val = some v ∧ ZoneValue v z ∧ zone = some z) ∨
    (∀ v, val = some v → PassedOver v) ∧ LabelShows txt zone

/-- A value that stands before something else: it has a zone, or it is passed over. -/
theorem digitsZone_orElse_iff {v : Text} {rest : Except ValueError (Option Int)}
    {zone : Option Int} :
    (match digitsZone v with
      | .ok none => rest
      | found => found) = .ok zone ↔
      (∃ z, ZoneValue v z ∧ zone = some z) ∨ PassedOver v ∧ rest = .ok zone := by
  simp only [← digitsZone_eq_some_iff, ← digitsZone_eq_none_iff]
  cases digitsZone v with
  | error e => simp
  | ok found =>
    cases found with
    | none => simp
    | some z => simp [eq_comm]

theorem zoneOf_eq_ok_iff {val : Option Text} {txt : Text} {zone : Option Int} :
    zoneOf val txt = .ok zone ↔ ValueShows val txt zone := by
  unfold zoneOf ValueShows
  cases val with
  | none => simp [labelZone_eq_ok_iff]
  | some v =>
    rw [← labelZone_eq_ok_iff]
    refine digitsZone_orElse_iff.trans ?_
    simp

/-! ## Values, line by line -/

theorem attrVals_break {c : Char} (hc : lineBreak c = true) (s : Text) {t : Text}
    (ht : c = '\r' → t.head? ≠ some '\n') : attrVals (s ++ c :: t) = attrVals s ++ attrVals t := by
  have hnil : valuePattern.search [] = none := rfl
  rw [attrVals, attrVals, attrVals, ← List.filterMap_append]
  obtain h | h := splitlines_break hc s ht
  · rw [h]
  · rw [h, List.filterMap_append, List.filterMap_append, List.filterMap_cons, hnil]
    rfl

theorem attrVals_newline (s t : Text) : attrVals (s ++ '\n' :: t) = attrVals s ++ attrVals t :=
  attrVals_break (by decide) s fun h => absurd h (by decide)

/-- The pattern matches only at a `)` that blanks and a `=` follow. -/
theorem sign_of_matchAt {u g : Text} (h : valuePattern.matchAt u = some g) :
    ∃ s value, u = ')' :: (s ++ '=' :: value) ∧ ∀ c ∈ s, isSpace c = true := by
  obtain ⟨u₁, rfl, h₁⟩ := Regex.run_lit_some h
  obtain ⟨s, u₂, rfl, hs, h₂⟩ := runMany_some h₁
  obtain ⟨u₃, rfl, _⟩ := Regex.run_lit_some h₂
  exact ⟨s, u₃, rfl, hs⟩

theorem search_value_none {line : Text} (h : '=' ∉ line) : valuePattern.search line = none := by
  rw [Regex.search_eq_none_iff]
  intro u hu
  rw [Option.eq_none_iff_forall_ne_some]
  intro g hmatch
  obtain ⟨s, value, rfl, _⟩ := sign_of_matchAt hmatch
  exact h (hu.subset (by simp))

theorem attrVals_none {t : Text} (h : '=' ∉ t) : attrVals t = [] := by
  rw [attrVals, List.filterMap_eq_nil_iff]
  intro line hline
  have heq : '=' ∉ line := fun hmem => h ((infix_of_mem_splitlines hline).subset hmem)
  rw [search_value_none heq, Option.map_none]

/-- A line with `OGRFeature(` in it is cut there and ends the feature; the values of another one
precede those of the lines after it. -/
theorem attrVals_line (line t : Text) :
    attrVals (before featureMark (line ++ '\n' :: t)) =
      if featureMark <:+: line then attrVals (before featureMark line)
      else attrVals line ++ attrVals (before featureMark t) := by
  by_cases hline : featureMark <:+: line
  · rw [if_pos hline, before_append_of_infix hline]
  · have hnew : '\n' ∉ featureMark := by decide
    have hsplit : line ++ '\n' :: t = line ++ ['\n'] ++ t := by simp
    rw [if_neg hline, hsplit, before_skip (clear_concat hnew hline t), List.append_assoc,
      List.singleton_append, attrVals_newline]

/-! ## What `ogrinfo` prints -/

/-- The text around the attributes of the first feature: the lines before the features (without
the last line feed), the layer name, the feature id and everything after the attributes. -/
structure Listing where
  preamble : Text
  layer : Text
  fid : Text
  rest : Text
  fid_ne : fid ≠ []
  fid_digits : ∀ c ∈ fid, (decimal c).isSome = true

/-- The line `  name (String) = cell` of an attribute up to its type. -/
def attrLabel (name : Text) : Text :=
  "  ".toList ++ name ++ " (String".toList

def attrLine (name cell : Text) : Text :=
  attrLabel name ++ (") = ".toList ++ cell) ++ ['\n']

def attrLines (names : List Text) (cells : Record) : Text :=
  (List.zipWith attrLine names cells).flatten

/-- The attributes of a record under the header that `csv_to_geoparquet_tochi.py` writes. -/
def recordLines (record : Record) : Text :=
  attrLines (tochiHeader record.length) record

def Listing.text (l : Listing) (record : Record) : Text :=
  l.preamble ++ ['\n'] ++ (featureMark ++ (l.layer ++ ("):".toList ++ (l.fid ++
    '\n' :: (recordLines record ++ l.rest)))))

/-- The first pattern finds the first feature: it is not misled by the lines before it and can
read its layer name. -/
def Listing.Regular (l : Listing) : Prop :=
  ¬ featureMark <:+: l.preamble ∧ l.layer ≠ [] ∧ ')' ∉ l.layer

instance (l : Listing) : Decidable l.Regular :=
  inferInstanceAs (Decidable (_ ∧ _ ∧ _))

/-- `\s*\n` ends at the header line of a feature, if no further line feed is among the blanks
that follow. -/
theorem run_headerEnd {β : Type} (r : Regex) (k : Text → Text → Option β) (g : Text) {body : Text}
    (hbody : '\n' ∉ body.takeWhile isSpace) :
    (Regex.seq (.many isSpace) (.seq (.lit ['\n']) r)).run k g ('\n' :: body) =
      r.run k g body := by
  have hstart : ∀ d ∈ (body.dropWhile isSpace).head?, isSpace d = false :=
    eq_false_of_mem_dropWhile
  have hfail : ∀ u, u <:+ body.takeWhile isSpace →
      (Regex.seq (.lit ['\n']) r).run k g (u ++ body.dropWhile isSpace) = none := by
    intro u hu
    cases u with
    | nil =>
      cases hrest : body.dropWhile isSpace with
      | nil => simp [Regex.run]
      | cons d rest =>
        have hd : isSpace d = false := hstart d (by rw [hrest]; rfl)
        have hne : '\n' ≠ d := by
          rintro rfl
          exact absurd hd (by decide)
        exact Regex.run_lit_ne hne _ _ _ _
    | cons d u =>
      have hne : '\n' ≠ d := fun h => hbody (h ▸ hu.subset List.mem_cons_self)
      exact Regex.run_lit_ne hne _ _ _ _
  have hsplit : body = body.takeWhile isSpace ++ body.dropWhile isSpace :=
    List.takeWhile_append_dropWhile.symm
  rw [Regex.run, Regex.run]
  refine (congrArg _ (congrArg ('\n' :: ·) hsplit)).trans ?_
  refine (runMany_shortest hstart hfail).trans ?_
  rw [← hsplit]
  exact Regex.run_lit_append ['\n'] _ g (r.run k)

/-- Blanks, and a line feed behind which there is no other one among the blanks. -/
theorem exists_last_newline (body : Text) :
    '\n' ∉ body.takeWhile isSpace ∨ ∃ a rest, body = a ++ '\n' :: rest ∧
      (∀ c ∈ a, isSpace c = true) ∧ '\n' ∉ rest.takeWhile isSpace := by
  induction body with
  | nil => exact Or.inl List.not_mem_nil
  | cons c body ih =>
    by_cases hc : isSpace c = true
    · rcases ih with hnew | ⟨a, rest, rfl, ha, hrest⟩
      · by_cases hcn : c = '\n'
        · subst hcn
          exact Or.inr ⟨[], body, rfl, List.forall_mem_nil _, hnew⟩
        · left
          rw [List.takeWhile_cons_of_pos hc, List.mem_cons, not_or]
          exact ⟨fun h => hcn h.symm, hnew⟩
      · exact Or.inr ⟨c :: a, rest, rfl, List.forall_mem_cons.mpr ⟨hc, ha⟩, hrest⟩
    · left
      rw [List.takeWhile_cons_of_neg hc]
      exact List.not_mem_nil

theorem matchAt_feature {layer fid : Text} (hlayer : layer ≠ []) (hparen : ')' ∉ layer)
    (hfid : fid ≠ []) (hdigits : ∀ c ∈ fid, (decimal c).isSome = true) {a body : Text}
    (ha : ∀ c ∈ a, isSpace c = true) (hbody : '\n' ∉ body.takeWhile isSpace) :
    featurePattern.matchAt (featureMark ++ (layer ++ ("):".toList ++ (fid ++
      (a ++ '\n' :: body))))) = some (before featureMark body) := by
  have hname : ∀ c ∈ layer, (c != ')') = true := fun c hc =>
    bne_iff_ne.mpr fun h => hparen (h ▸ hc)
  have hend : ∀ c ∈ (a ++ '\n' :: body).head?, (decimal c).isSome = false := by
    intro c hc
    have hspace : isSpace c = true := by
      cases a with
      | nil =>
        cases hc
        decide
      | cons d a =>
        cases hc
        exact ha c List.mem_cons_self
    by_contra hdec
    rw [isSpace_of_decimal (Bool.not_eq_false _ ▸ hdec)] at hspace
    cases hspace
  rw [featurePattern, Regex.matchAt, Regex.run, Regex.run_lit_append]
  refine Regex.run_many1_longest hlayer hname (by rintro _ ⟨⟩; decide) ?_
  rw [Regex.run, Regex.run_lit_append]
  refine Regex.run_many1_longest hfid hdigits hend ?_
  refine runMany_append ha ?_
  exact (run_headerEnd _ _ _ hbody).trans (run_upTo featureMark [] _)

/-- The first feature as the first pattern cuts it out: no value is lost. -/
theorem search_firstFeature {preamble layer fid : Text} (hpre : ¬ featureMark <:+: preamble)
    (hlayer : layer ≠ []) (hparen : ')' ∉ layer) (hfid : fid ≠ [])
    (hdigits : ∀ c ∈ fid, (decimal c).isSome = true) (body : Text) :
    ∃ block, featurePattern.search (preamble ++ ['\n'] ++ (featureMark ++ (layer ++ ("):".toList ++
        (fid ++ '\n' :: body))))) = some block ∧
      attrVals block = attrVals (before featureMark body) := by
  have hnew : '\n' ∉ featureMark := by decide
  have hskip : ∀ u, featurePattern.search (preamble ++ ['\n'] ++ u) = featurePattern.search u :=
    fun u => Regex.search_skip (clear_concat hnew hpre u)
  rw [hskip]
  rcases exists_last_newline body with hbody | ⟨a, rest, rfl, ha, hrest⟩
  · refine ⟨before featureMark body, Regex.search_of_matchAt ?_, rfl⟩
    exact matchAt_feature (a := []) hlayer hparen hfid hdigits (List.forall_mem_nil _) hbody
  · refine ⟨before featureMark rest, Regex.search_of_matchAt ?_, ?_⟩
    · exact matchAt_feature (a := '\n' :: a) hlayer hparen hfid hdigits
        (List.forall_mem_cons.mpr ⟨by decide, ha⟩) hrest
    · -- a blank line has no value
      have hmark : ¬ featureMark <:+: a := fun hin =>
        absurd (ha 'O' (hin.subset (by decide))) (by decide)
      have heq : '=' ∉ a := fun hmem => absurd (ha '=' hmem) (by decide)
      rw [attrVals_line, if_neg hmark, attrVals_none heq, List.nil_append]

/-- Every `OGRFeature(` of a text begins the first line of a feature of the layer. -/
def HeadsOnly (layer txt : Text) : Prop :=
  ∀ u, u <:+ txt → featureMark <+: u → featureMark ++ (layer ++ "):".toList) <+: u

/-- The first line of a feature cannot be read, and nothing else looks like one. -/
structure Unreadable (layer txt : Text) : Prop where
  name : layer = [] ∨ ')' ∈ layer
  oneLine : '\n' ∉ layer
  heads : HeadsOnly layer txt

/-- What the first pattern takes for the first line of a feature. -/
theorem head_of_matchAt {t g : Text} (h : featurePattern.matchAt t = some g) :
    ∃ name digits s rest,
      t = featureMark ++ (name ++ ("):".toList ++ (digits ++ (s ++ '\n' :: rest)))) ∧
        name ≠ [] ∧ ')' ∉ name ∧ (∀ c ∈ digits, (decimal c).isSome = true) ∧
        ∀ c ∈ s, isSpace c = true := by
  obtain ⟨t₁, rfl, h₁⟩ := Regex.run_lit_some h
  cases t₁ with
  | nil => cases h₁
  | cons c t₁ =>
    obtain ⟨hc, h₂⟩ := Option.ite_none_right_eq_some.mp h₁
    obtain ⟨name, t₂, rfl, hname, h₃⟩ := runMany_some h₂
    obtain ⟨t₃, rfl, h₄⟩ := Regex.run_lit_some h₃
    cases t₃ with
    | nil => cases h₄
    | cons d t₃ =>
      obtain ⟨hd, h₅⟩ := Option.ite_none_right_eq_some.mp h₄
      obtain ⟨digits, t₄, rfl, hdigits, h₆⟩ := runMany_some h₅
      obtain ⟨s, t₅, rfl, hs, h₇⟩ := runMany_some h₆
      obtain ⟨rest, rfl, _⟩ := Regex.run_lit_some h₇
      refine ⟨c :: name, d :: digits, s, rest, by simp, List.cons_ne_nil c name, ?_,
        List.forall_mem_cons.mpr ⟨hd, hdigits⟩, hs⟩
      intro hmem
      have hall : ∀ e ∈ c :: name, (e != ')') = true := List.forall_mem_cons.mpr ⟨hc, hname⟩
      exact absurd (hall ')' hmem) (by decide)

/-- Two texts differ if each has first what the other one has not. -/
theorem ne_of_first_break {a b t u : Text} {c d : Char} (ha : c ∉ a) (hb : d ∉ b) (hcd : c ≠ d) :
    b ++ c :: t ≠ a ++ d :: u := by
  intro h
  rcases List.append_eq_append_iff.mp h with ⟨w, rfl, hw⟩ | ⟨w, rfl, hw⟩
  · cases w with
    | nil => exact hcd (List.cons.inj hw).1
    | cons e w =>
      obtain ⟨rfl, _⟩ := List.cons.inj hw
      exact ha (List.mem_append_right b List.mem_cons_self)
  · cases w with
    | nil => exact hcd (List.cons.inj hw).1.symm
    | cons e w =>
      obtain ⟨rfl, _⟩ := List.cons.inj hw
      exact hb (List.mem_append_right a List.mem_cons_self)

theorem search_unreadable {layer txt : Text} (h : Unreadable layer txt) :
    featurePattern.search txt = none := by
  rw [Regex.search_eq_none_iff]
  intro u hu
  rw [Option.eq_none_iff_forall_ne_some]
  intro g hmatch
  obtain ⟨name, digits, s, rest, rfl, hne, hparen, hdigits, hs⟩ := head_of_matchAt hmatch
  obtain ⟨v, hv⟩ := h.heads _ hu (List.prefix_append _ _)
  -- the two readings of the line, from the layer name on
  have hsplit : layer ++ (')' :: ':' :: v) =
      name ++ (')' :: ':' :: (digits ++ (s ++ '\n' :: rest))) := by
    simpa using hv
  have hname : name = layer := by
    rcases List.append_eq_append_iff.mp hsplit with ⟨w, rfl, hw⟩ | ⟨w, rfl, hw⟩
    · cases w with
      | nil => simp
      | cons c w =>
        obtain ⟨rfl, _⟩ := List.cons.inj hw
        exact absurd (List.mem_append_right layer List.mem_cons_self) hparen
    · cases w with
      | nil => simp
      | cons c w =>
        -- the `)` behind the layer name stands among the digits and blanks
        obtain ⟨rfl, hrest⟩ := List.cons.inj hw
        have hnew : '\n' ∉ w := fun hmem =>
          h.oneLine (List.mem_append_right name (List.mem_cons_of_mem _ hmem))
        have hline : ')' ∉ ':' :: (digits ++ s) := by
          intro hmem
          rcases List.mem_cons.mp hmem with hmem | hmem
          · exact absurd hmem (by decide)
          · rcases List.mem_append.mp hmem with hmem | hmem
            · exact absurd (hdigits _ hmem) (by decide)
            · exact absurd (hs _ hmem) (by decide)
        have hlines : ':' :: (digits ++ s) ++ '\n' :: rest = w ++ ')' :: (':' :: v) := by
          simpa using hrest
        exact absurd hlines (ne_of_first_break hnew hline (by decide))
  rcases h.name with hnil | hmem
  · exact hne (hname.trans hnil)
  · exact hparen (hname ▸ hmem)

/-! ## The values of a record -/

/-- The values that a printed cell gives rise to: its first line, and whatever stands after
`) =` in a further line. -/
def cellValues (cell : Text) : List Text :=
  attrVals (") = ".toList ++ cell)

/-- The values of the cells; a cell with `OGRFeature(` in it is cut there and is the last one. -/
def shownValues : Record → List Text
  | [] => []
  | cell :: cells =>
    if featureMark <:+: cell then cellValues (before featureMark cell)
    else cellValues cell ++ shownValues cells

/-- What the proofs use of the column names. -/
def plainLabel (label : Text) : Bool :=
  label.all fun c => !lineBreak c && c != ')' && c != 'O'

theorem notMem_of_plainLabel {label : Text} {d : Char} (h : plainLabel label = true)
    (hd : (!lineBreak d && d != ')' && d != 'O') = false) : d ∉ label := by
  intro hmem
  have hchar := List.all_eq_true.mp h d hmem
  exact Bool.false_ne_true (hd.symm.trans hchar)

theorem plainLabel_attrLabel {name : Text} (h : plainLabel name = true) :
    plainLabel (attrLabel name) = true := by
  rw [plainLabel, attrLabel, List.all_append, List.all_append]
  simp only [plainLabel] at h
  rw [h]
  rfl

/-- The text before the first `)` of a line does not matter. -/
theorem attrVals_attrLabel {name : Text} (hname : plainLabel name = true) (cell : Text) :
    attrVals (attrLabel name ++ (") = ".toList ++ cell)) = cellValues cell := by
  have hlabel := plainLabel_attrLabel hname
  have hparen : ')' ∉ attrLabel name := notMem_of_plainLabel hlabel (by decide)
  have hbreak : ∀ c ∈ attrLabel name, lineBreak c = false := by
    intro c hc
    by_contra hb
    exact notMem_of_plainLabel hlabel (by simp [hb]) hc
  have hne : ") = ".toList ++ cell ≠ [] := List.cons_ne_nil _ _
  obtain ⟨line, lines, hlines⟩ := List.exists_cons_of_ne_nil (splitlines_ne_nil hne)
  have hsearch : valuePattern.search (attrLabel name ++ line) = valuePattern.search line :=
    Regex.search_skip (clear_of_notMem hparen line)
  rw [cellValues, attrVals, attrVals, splitlines_append_plain hbreak hlines, hlines,
    List.filterMap_cons, List.filterMap_cons, hsearch]

theorem clear_attrLabel {name : Text} (hname : plainLabel name = true) (t : Text) :
    Clear featureMark (attrLabel name ++ ") = ".toList) t := by
  have hlabel : 'O' ∉ attrLabel name :=
    notMem_of_plainLabel (plainLabel_attrLabel hname) (by decide)
  have hmid : 'O' ∉ ") = ".toList := by decide
  exact Clear.append (clear_of_notMem hlabel _) (clear_of_notMem hmid t)

theorem attrVals_attrLine {name : Text} (hname : plainLabel name = true) (cell t : Text) :
    attrVals (before featureMark (attrLine name cell ++ t)) =
      if featureMark <:+: cell then cellValues (before featureMark cell)
      else cellValues cell ++ attrVals (before featureMark t) := by
  have hclear := clear_attrLabel hname cell
  have hbefore : before featureMark (attrLabel name ++ (") = ".toList ++ cell)) =
      attrLabel name ++ (") = ".toList ++ before featureMark cell) := by
    rw [← List.append_assoc, before_skip hclear, List.append_assoc]
  have hmark : featureMark <:+: attrLabel name ++ (") = ".toList ++ cell) ↔
      featureMark <:+: cell := by
    rw [← List.append_assoc]
    exact infix_of_clear hclear
  have hsplit : attrLine name cell ++ t =
      attrLabel name ++ (") = ".toList ++ cell) ++ '\n' :: t := by
    rw [attrLine, List.append_assoc, List.singleton_append]
  rw [hsplit, attrVals_line, hbefore, attrVals_attrLabel hname, attrVals_attrLabel hname]
  simp only [hmark]

/-- The values of the attributes of some columns, if the names of the columns are plain. -/
theorem attrVals_attrLines {names : List Text} {cells : Record}
    (hnames : ∀ name ∈ names, plainLabel name = true) (hlen : cells.length ≤ names.length)
    (t : Text) :
    attrVals (before featureMark (attrLines names cells ++ t)) =
      shownValues cells ++
        if ∃ cell ∈ cells, featureMark <:+: cell then [] else attrVals (before featureMark t) := by
  induction cells generalizing names with
  | nil =>
    rw [attrLines, List.zipWith_nil_right]
    simp [shownValues]
  | cons cell cells ih =>
    cases names with
    | nil => exact absurd hlen (Nat.not_succ_le_zero _)
    | cons name names =>
      have hname := hnames name List.mem_cons_self
      have hrest := ih (fun n hn => hnames n (List.mem_cons_of_mem name hn))
        (Nat.le_of_succ_le_succ hlen)
      rw [attrLines, List.zipWith_cons_cons, List.flatten_cons, List.append_assoc]
      rw [attrLines] at hrest
      rw [attrVals_attrLine hname]
      by_cases hcell : featureMark <:+: cell
      · simp [shownValues, hcell]
      · simp [shownValues, hcell, hrest]

theorem run_lineValue {value : Text} (h : '\n' ∉ value) (g : Text) :
    (Regex.seq (.group (.many (· != '\n'))) .lineEnd).run (fun g _ => some g) g value =
      some value := by
  have hall : ∀ c ∈ value, (c != '\n') = true := fun c hc => bne_iff_ne.mpr fun he => h (he ▸ hc)
  rw [Regex.run, Regex.run, Regex.run]
  refine (congrArg _ value.append_nil.symm).trans ?_
  refine runMany_longest hall (by simp) ?_
  simp [Regex.run]

theorem matchAt_sign {s value : Text} (hs : ∀ c ∈ s, isSpace c = true) (hvalue : '\n' ∉ value) :
    valuePattern.matchAt (')' :: (s ++ '=' :: value)) = some (value.dropWhile isSpace) := by
  have hrest : '\n' ∉ value.dropWhile isSpace := fun h =>
    hvalue ((List.dropWhile_suffix isSpace).subset h)
  refine (Regex.run_lit_append [')'] (s ++ '=' :: value) [] _).trans ?_
  refine runMany_blanks hs (by decide) ?_
  refine (Regex.run_lit_append ['='] value [] _).trans ?_
  exact runMany_dropWhile (run_lineValue hrest [])

theorem search_value {name value : Text} (hname : ')' ∉ name) (hvalue : '\n' ∉ value) :
    valuePattern.search (name ++ (") = ".toList ++ value)) = some (value.dropWhile isSpace) := by
  have hdrop : (' ' :: value).dropWhile isSpace = value.dropWhile isSpace :=
    List.dropWhile_cons_of_pos (by decide)
  have hmatch : valuePattern.matchAt (")".toList ++ ([' '] ++ '=' :: (' ' :: value))) =
      some (value.dropWhile isSpace) := by
    rw [← hdrop]
    exact matchAt_sign (List.forall_mem_singleton.mpr (by decide)) (by simpa using hvalue)
  exact (Regex.search_skip (clear_of_notMem hname _)).trans (Regex.search_of_matchAt hmatch)

theorem attrLines_split (n : Nat) (names : List Text) (cells : Record) :
    attrLines names cells =
      attrLines (names.take n) (cells.take n) ++ attrLines (names.drop n) (cells.drop n) := by
  simp only [attrLines]
  rw [← List.flatten_append, ← List.take_zipWith, ← List.drop_zipWith, List.take_append_drop]

theorem plainLabel_tochiHeader (ncols : Nat) :
    ∀ name ∈ (tochiHeader ncols).take 6, plainLabel name = true := by
  intro name hname
  rw [tochiHeader, ← List.map_take, List.take_range] at hname
  obtain ⟨i, hi, rfl⟩ := List.mem_map.mp hname
  have hlt : i < 6 := by
    have := List.mem_range.mp hi
    omega
  have hcol : ∀ i < 6, plainLabel ("col".toList ++ Nat.toDigits 10 i) = true := by decide
  rw [if_neg (by omega), if_neg (by omega)]
  exact hcol i hlt

/-- A cell has a value for its first line. -/
theorem cellValues_eq {cell line : Text} {lines : List Text}
    (h : splitlines (cell ++ ['\n']) = line :: lines) :
    cellValues cell = strip line :: lines.filterMap fun l => (valuePattern.search l).map strip := by
  have hline : '\n' ∉ line := notMem_splitlines (cell ++ ['\n']) line (h ▸ List.mem_cons_self)
  have hany : (") = ".toList).any lineBreak = false := by decide
  have hmid : ∀ c ∈ ") = ".toList, lineBreak c = false := fun c hc =>
    Bool.eq_false_iff.mpr (List.any_eq_false.mp hany c hc)
  have hsearch : valuePattern.search (") = ".toList ++ line) = some (line.dropWhile isSpace) :=
    search_value (List.not_mem_nil) hline
  have hend : cellValues cell = attrVals (") = ".toList ++ (cell ++ ['\n'])) := by
    rw [← List.append_assoc, attrVals_newline, cellValues]
    exact (List.append_nil _).symm
  rw [hend, attrVals, splitlines_append_plain hmid h, List.filterMap_cons, hsearch,
    Option.map_some, strip_dropWhile]

/-- The first line of a cell. -/
def firstLine (cell : Text) : Text :=
  cell.takeWhile fun c => !lineBreak c

/-- No `=` stands behind the first line of a cell. -/
def OneValue (cell : Text) : Prop :=
  '=' ∉ cell.dropWhile fun c => !lineBreak c

instance (cell : Text) : Decidable (OneValue cell) :=
  inferInstanceAs (Decidable (_ ∉ _))

theorem splitlines_firstLine (cell : Text) :
    ∃ lines, splitlines (cell ++ ['\n']) = firstLine cell :: lines ∧
      ∀ line ∈ lines, line <:+: cell.dropWhile (fun c => !lineBreak c) ++ ['\n'] := by
  have hplain : ∀ c ∈ firstLine cell, lineBreak c = false := by
    intro c hc
    simpa using List.mem_takeWhile_imp hc
  have hsplit : cell ++ ['\n'] =
      firstLine cell ++ (cell.dropWhile (fun c => !lineBreak c) ++ ['\n']) := by
    rw [firstLine, ← List.append_assoc, List.takeWhile_append_dropWhile]
  obtain ⟨lines, hlines⟩ : ∃ lines,
      splitlines (cell.dropWhile (fun c => !lineBreak c) ++ ['\n']) = [] :: lines := by
    cases hrest : cell.dropWhile fun c => !lineBreak c with
    | nil => exact ⟨[], rfl⟩
    | cons c rest =>
      have hc : lineBreak c = true := by
        have hhead := eq_false_of_mem_dropWhile (p := fun c => !lineBreak c) (s := cell) c
          (by rw [hrest]; rfl)
        simpa using hhead
      exact splitlines_cons_break hc (rest ++ ['\n'])
  refine ⟨lines, ?_, ?_⟩
  · rw [hsplit, splitlines_append_plain hplain hlines, List.append_nil]
  · intro line hline
    exact infix_of_mem_splitlines (hlines ▸ List.mem_cons_of_mem [] hline)

/-- The lines after the first one have no value. -/
theorem furtherLines_none {cell : Text} (h : OneValue cell) {lines : List Text}
    (hlines : ∀ line ∈ lines, line <:+: cell.dropWhile (fun c => !lineBreak c) ++ ['\n']) :
    lines.filterMap (fun l => (valuePattern.search l).map strip) = [] := by
  rw [List.filterMap_eq_nil_iff]
  intro line hline
  have heq : '=' ∉ line := by
    intro hmem
    rcases List.mem_append.mp ((hlines line hline).subset hmem) with hmem | hmem
    · exact h hmem
    · exact absurd hmem (by decide)
  rw [search_value_none heq, Option.map_none]

theorem cellValues_oneValue {cell : Text} (h : OneValue cell) :
    cellValues cell = [strip (firstLine cell)] := by
  obtain ⟨lines, hlines, hwithin⟩ := splitlines_firstLine cell
  rw [cellValues_eq hlines, furtherLines_none h hwithin]

theorem oneValue_mono {a cell : Text} (ha : a <+: cell) (h : OneValue cell) : OneValue a := by
  intro hmem
  apply h
  obtain ⟨b, rfl⟩ := ha
  rw [List.dropWhile_append]
  split
  · rename_i hnil
    rw [List.isEmpty_iff.mp hnil] at hmem
    cases hmem
  · exact List.mem_append_left b hmem

/-- The value at an index, by the cells: it is there if no cell before it is cut. -/
theorem shownValues_getElem? {cells : Record} (h : ∀ cell ∈ cells, OneValue cell) (i : Nat) :
    (shownValues cells)[i]? =
      if ∃ cell ∈ cells.take i, featureMark <:+: cell then none
      else cells[i]?.map fun cell => strip (firstLine (before featureMark cell)) := by
  induction cells generalizing i with
  | nil => simp [shownValues]
  | cons cell cells ih =>
    obtain ⟨hcell, hcells⟩ := List.forall_mem_cons.mp h
    have hcut := cellValues_oneValue (oneValue_mono (before_isPrefixOf featureMark cell) hcell)
    rw [shownValues]
    by_cases hmark : featureMark <:+: cell
    · rw [if_pos hmark, hcut]
      cases i with
      | zero => simp
      | succ i => simp [hmark]
    · rw [before_eq_self hmark] at hcut
      rw [if_neg hmark, hcut, List.singleton_append]
      cases i with
      | zero => simp [before_eq_self hmark]
      | succ i =>
        rw [List.getElem?_cons_succ, List.getElem?_cons_succ, ih hcells]
        simp [hmark]

theorem length_le_shownValues {cells : Record} (h : ∀ cell ∈ cells, ¬ featureMark <:+: cell) :
    cells.length ≤ (shownValues cells).length := by
  induction cells with
  | nil => exact Nat.zero_le _
  | cons cell cells ih =>
    have hne : splitlines (cell ++ ['\n']) ≠ [] := splitlines_ne_nil (by simp)
    obtain ⟨line, lines, hlines⟩ := List.exists_cons_of_ne_nil hne
    have hrest := ih fun c hc => h c (List.mem_cons_of_mem cell hc)
    rw [shownValues, if_neg (h cell List.mem_cons_self), cellValues_eq hlines,
      List.length_append, List.length_cons, List.length_cons]
    omega

/-- In the listing of a record with six cells, the value with index 5 is found in them. -/
theorem zukeiVal_eq {l : Listing} (hl : l.Regular) {record : Record} (hcols : 6 ≤ record.length) :
    zukeiVal (l.text record) = (shownValues (record.take 6))[zukeiAttrIndex]? := by
  obtain ⟨hpre, hlayer, hparen⟩ := hl
  obtain ⟨block, hblock, hvals⟩ := search_firstFeature hpre hlayer hparen l.fid_ne l.fid_digits
    (recordLines record ++ l.rest)
  have hnames : (record.take 6).length ≤ ((tochiHeader record.length).take 6).length := by
    rw [List.length_take, List.length_take, tochiHeader, List.length_map, List.length_range]
  rw [zukeiVal, Listing.text, hblock, Option.bind_some, hvals, recordLines, attrLines_split 6,
    List.append_assoc, attrVals_attrLines (plainLabel_tochiHeader _) hnames]
  split
  · rw [List.append_nil]
  · rename_i hmark
    have hlen := length_le_shownValues fun c hc hm => hmark ⟨c, hc, hm⟩
    have htake : (record.take 6).length = 6 := List.length_take_of_le hcols
    exact List.getElem?_append_left (by rw [zukeiAttrIndex]; omega)

/-! ## The two routes -/

/-- The zone that `csv_to_geoparquet_tochi.py --print-zukei` prints. -/
def printedZone (rows : List Record) : Option Int :=
  (tochiPre rows).bind (·.1)

/-- Both zones are absent or they are the same number from 1 to 19. -/
def ZonesAgree (rows : List Record) (info : OgrinfoEnd) : Prop :=
  (printedZone rows = none ∧ getZukei info = .ok none) ∨
    ∃ z, 1 ≤ z ∧ z ≤ 19 ∧ printedZone rows = some z ∧ getZukei info = .ok (some z)

/-- The integer from 1 to 19 in the sixth cell of the record after the first one. -/
def secondZone (rest : List Record) : Option Int := do
  let record ← rest.head?
  let cell ← record[5]?
  let z ← pyInt (strip cell)
  zoneRange z

/-- What is taken for the sixth cell of the first record: its first line, up to `OGRFeature(`. There
is nothing to take if a cell before it has `OGRFeature(` in it, or if the first feature is not
found. -/
def Listing.taken (l : Listing) (record : Record) : Option Text :=
  if l.Regular ∧ ∀ cell ∈ record.take 5, ¬ featureMark <:+: cell then
    record[5]?.map fun cell => strip (firstLine (before featureMark cell))
  else none

/-- The first feature is found, with a value for each of its first six cells, or no feature is. -/
def Listing.Tame (l : Listing) (record : Record) : Prop :=
  (l.Regular ∧ ∀ cell ∈ record.take 6, OneValue cell) ∨ Unreadable l.layer (l.text record)

/-- The listing shows the zone of the second record for the first one. -/
structure Listing.Agrees (l : Listing) (first : Record) (rest : List Record) : Prop where
  tame : l.Tame first
  shows : ValueShows (l.taken first) (l.text first) (secondZone rest)

/-- A listing that gives back the first six cells of a record, and in which no number stands
after `座標系`. -/
structure Listing.Plain (l : Listing) (record : Record) : Prop where
  regular : l.Regular
  unbroken : ∀ cell ∈ record.take 6, cell.any lineBreak = false
  unmarked : ∀ cell ∈ record.take 6, ¬ featureMark <:+: cell
  unlabelled : ∀ digits, ¬ FirstLabelled zukeiLabel (l.text record) digits

theorem zoneRange_eq_some {z w : Int} (h : zoneRange z = some w) : 1 ≤ w ∧ w ≤ 19 := by
  obtain ⟨hz, hw⟩ := Option.ite_none_right_eq_some.mp h
  cases hw
  exact hz

theorem secondZone_range {rest : List Record} {z : Int} (h : secondZone rest = some z) :
    1 ≤ z ∧ z ≤ 19 := by
  simp only [secondZone, Option.bind_eq_bind, Option.bind_eq_some_iff] at h
  obtain ⟨_, _, _, _, _, _, hz⟩ := h
  exact zoneRange_eq_some hz

theorem printedZone_eq {first : Record} (h : isGaiku first = false) (rest : List Record) :
    printedZone (first :: rest) = secondZone rest := by
  have hz : printedZone (first :: rest) = printZukei (first :: rest) 5 := by
    rw [printedZone, tochiPre, if_neg (by rw [h]; exact Bool.false_ne_true)]
    rfl
  rw [hz, printZukei, secondZone, List.getElem?_cons_succ, ← List.head?_eq_getElem?]
  cases rest.head? with
  | none => rfl
  | some record =>
    cases hcell : record[5]? with
    | none => simp [hcell]
    | some cell => cases hint : pyInt (strip cell) <;> simp [hcell, hint, zoneRange]

theorem zonesAgree_iff {first : Record} (h : isGaiku first = false) (rest : List Record)
    (info : OgrinfoEnd) :
    ZonesAgree (first :: rest) info ↔ getZukei info = .ok (secondZone rest) := by
  rw [ZonesAgree, printedZone_eq h]
  cases hz : secondZone rest with
  | none => simp
  | some z =>
    have hrange := secondZone_range hz
    simp only [reduceCtorEq, false_and, Option.some.injEq, false_or]
    constructor
    · rintro ⟨w, _, _, rfl, hw⟩
      exact hw
    · exact fun hw => ⟨z, hrange.1, hrange.2, rfl, hw⟩

theorem zukeiVal_taken {l : Listing} {record : Record} (h : l.Tame record)
    (hcols : 6 ≤ record.length) : zukeiVal (l.text record) = l.taken record := by
  rcases h with ⟨hregular, hone⟩ | hunreadable
  · have hmark : (∃ cell ∈ (record.take 6).take 5, featureMark <:+: cell) ↔
        ¬ ∀ cell ∈ record.take 5, ¬ featureMark <:+: cell := by
      rw [List.take_take]
      simp
    have hsixth : (record.take 6)[5]? = record[5]? := List.getElem?_take_of_lt (by decide)
    rw [zukeiVal_eq hregular hcols, zukeiAttrIndex, shownValues_getElem? hone, hsixth,
      Listing.taken]
    simp only [hmark, hregular, true_and, ite_not]
  · have hlayer : ¬ l.Regular := by
      rintro ⟨_, hne, hparen⟩
      exact hunreadable.name.elim hne hparen
    rw [zukeiVal, search_unreadable hunreadable, Listing.taken, if_neg fun h => hlayer h.1]
    rfl

theorem getZukei_eq (stdout stderr : Text) :
    getZukei (.exited 0 stdout stderr) =
      zoneOf (zukeiVal (stdout ++ stderr)) (stdout ++ stderr) := by
  rw [getZukei, if_neg (not_not.mpr rfl)]

theorem firstLine_plain {cell : Text} (h : cell.any lineBreak = false) : firstLine cell = cell := by
  rw [firstLine, List.takeWhile_eq_self_iff]
  intro c hc
  rw [Bool.eq_false_iff.mpr (List.any_eq_false.mp h c hc)]
  rfl

theorem oneValue_plain {cell : Text} (h : cell.any lineBreak = false) : OneValue cell := by
  have hsplit := List.takeWhile_append_dropWhile (p := fun c => !lineBreak c) (l := cell)
  have hnil : cell.dropWhile (fun c => !lineBreak c) = [] := by
    rw [show cell.takeWhile (fun c => !lineBreak c) = cell from firstLine_plain h] at hsplit
    exact List.append_right_eq_self.mp hsplit
  rw [OneValue, hnil]
  exact List.not_mem_nil

theorem Listing.Plain.tame {l : Listing} {record : Record} (h : l.Plain record) : l.Tame record :=
  Or.inl ⟨h.regular, fun cell hcell => oneValue_plain (h.unbroken cell hcell)⟩

theorem Listing.Plain.taken {l : Listing} {record : Record} {cell : Text}
    (hcell : record[5]? = some cell) (h : l.Plain record) :
    l.taken record = some (strip cell) := by
  have hmem : cell ∈ record.take 6 :=
    List.mem_of_getElem? ((List.getElem?_take_of_lt (by decide)).trans hcell)
  have hearlier : ∀ cell ∈ record.take 5, ¬ featureMark <:+: cell := fun c hc =>
    h.unmarked c ((List.take_prefix_take_left (by decide)).subset hc)
  rw [Listing.taken, if_pos ⟨h.regular, hearlier⟩, hcell, Option.map_some,
    before_eq_self (h.unmarked cell hmem), firstLine_plain (h.unbroken cell hmem)]

/-- Without a number after `座標系`, the value decides. -/
theorem valueShows_unlabelled {v txt : Text}
    (h : ∀ digits, ¬ FirstLabelled zukeiLabel txt digits) {zone : Option Int} :
    ValueShows (some v) txt zone ↔
      (∃ z, ZoneValue v z ∧ zone = some z) ∨ PassedOver v ∧ zone = none := by
  unfold ValueShows LabelShows
  simp [h]

/-- **The zones of a file without a header.** If the first feature of the listing is found with a
value for each of its first six cells, or no feature is found, the zones agree exactly when the
second record has the zone of the sixth cell of the first record, or the first number after `座標系`
for a cell that is passed over. In a plain listing, no such number can stand in. -/
theorem zukei_agree_iff (first : Record) (rest : List Record) (cell : Text) (l : Listing)
    (stdout stderr : Text) (hfirst : isGaiku first = false) (hcell : first[5]? = some cell)
    (htext : stdout ++ stderr = l.text first) :
    (l.Agrees first rest → ZonesAgree (first :: rest) (.exited 0 stdout stderr)) ∧
    (l.Tame first →
      (ZonesAgree (first :: rest) (.exited 0 stdout stderr) ↔ l.Agrees first rest)) ∧
    (l.Plain first → (ZonesAgree (first :: rest) (.exited 0 stdout stderr) ↔
      (∃ z, ZoneValue (strip cell) z ∧ secondZone rest = some z) ∨
        PassedOver (strip cell) ∧ secondZone rest = none)) := by
  have hcols : 6 ≤ first.length := (List.getElem?_eq_some_iff.mp hcell).1
  have hshows : l.Tame first → (ZonesAgree (first :: rest) (.exited 0 stdout stderr) ↔
      ValueShows (l.taken first) (l.text first) (secondZone rest)) := by
    intro htame
    rw [zonesAgree_iff hfirst, getZukei_eq, htext, zukeiVal_taken htame hcols, zoneOf_eq_ok_iff]
  refine ⟨?_, ?_, ?_⟩
  · intro h
    exact (hshows h.tame).mpr h.shows
  · intro htame
    exact (hshows htame).trans ⟨fun h => ⟨htame, h⟩, Listing.Agrees.shows⟩
  · intro hplain
    rw [hshows hplain.tame, hplain.taken hcell, valueShows_unlabelled hplain.unlabelled]

theorem sampleFid_ne : "1".toList ≠ [] := by decide

theorem sampleFid_digits : ∀ c ∈ "1".toList, (decimal c).isSome = true :=
  List.forall_mem_singleton.mpr (by decide)

/-- A listing of a layer `a_tochi`. -/
def sampleListing : Listing where
  preamble := "Layer name: a_tochi\nFeature Count: 2\ncol0: String (0.0)".toList
  layer := "a_tochi".toList
  fid := "1".toList
  rest := "  POINT (2 1)\n\nOGRFeature(a_tochi):2\n".toList
  fid_ne := sampleFid_ne
  fid_digits := sampleFid_digits

/-- A record of ten columns. -/
def zoneRecord (zone : String) : Record :=
  List.replicate 5 "a".toList ++ [zone.toList, [], "1".toList, "2".toList, []]

/-- Two records of zone 9, which the second one writes in its own way. -/
theorem zukei_agree_sameZone :
    ZonesAgree [zoneRecord "9", zoneRecord " 09"]
      (.exited 0 (sampleListing.text (zoneRecord "9")) []) := by
  have hlabel : labelPattern.search (sampleListing.text (zoneRecord "9")) = none := by
    decide +kernel
  have hplain : sampleListing.Plain (zoneRecord "9") :=
    ⟨by decide, by decide, by decide, search_label_none_iff.mp hlabel⟩
  have hiff := (zukei_agree_iff (zoneRecord "9") [zoneRecord " 09"] "9".toList sampleListing
    (sampleListing.text (zoneRecord "9")) [] (by decide) rfl (List.append_nil _)).2.2 hplain
  exact hiff.mpr (Or.inl ⟨9, ⟨by decide, by decide, by decide, by decide⟩, by decide⟩)

/-- A file whose first record is in zone 9 and whose second record is in zone 10 is converted
in zone 10 alone and in zone 9 in a batch. Without the second record, it has no zone alone. -/
theorem zukei_second_record :
    getZukei (.exited 0 (sampleListing.text (zoneRecord "9")) []) = .ok (some 9) ∧
      printedZone [zoneRecord "9", zoneRecord "10"] = some 10 ∧
      printedZone [zoneRecord "9"] = none ∧
      ¬ ZonesAgree [zoneRecord "9", zoneRecord "10"]
        (.exited 0 (sampleListing.text (zoneRecord "9")) []) := by
  have hget : getZukei (.exited 0 (sampleListing.text (zoneRecord "9")) []) = .ok (some 9) := by
    decide +kernel
  refine ⟨hget, by decide, by decide, ?_⟩
  rintro (⟨hnone, _⟩ | ⟨z, _, _, hprinted, hz⟩)
  · exact absurd hnone (by decide)
  · cases hget.symm.trans hz
    exact absurd hprinted (by decide)

end GdalFull.Merge
