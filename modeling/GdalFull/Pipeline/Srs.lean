import GdalFull.Lib.BashArith
import GdalFull.Lib.Regex

/-!
# The coordinate system of a shapefile

`get_s_srs_for_shp` of `run_pipeline_14jyo.sh` takes the first digits before a `系` in the absolute
path of a file. Bash reads them with its own rules: a leading zero makes them octal, and the value
wraps around at 64 bits.

`zone_path_iff` compares the result with the zone of the directory `N系`. They are the same exactly
when the first digits give the zone that the directory's have in decimal; where nothing above the
directory has digits before `系`, the numerals for which this is so are named by `NumeralFits`.
-/

namespace GdalFull.Pipeline.Srs

open GdalFull.Lib

/-- `([0-9]+)系`. -/
def zonePattern : Regex :=
  .seq (.group (.many1 Char.isDigit)) (.lit ['系'])

def IsZone (n : Nat) : Prop := 1 ≤ n ∧ n ≤ 19

instance (n : Nat) : Decidable (IsZone n) :=
  inferInstanceAs (Decidable (_ ∧ _))

/-- `[[ "$n" -ge 1 && "$n" -le 19 ]]` for the digits of a numeral, and its value. -/
def bashZone (digits : Text) : Option Nat :=
  (strlong digits).bind fun v => if 1 ≤ v.toInt ∧ v.toInt ≤ 19 then some v.toNat else none

/-- `EPSG:$((6668 + n))`, or nothing. -/
def srsText : Option Nat → Text
  | some n => "EPSG:".toList ++ Nat.toDigits 10 (6668 + n)
  | none => []

def getSSrsForShp (path : Text) : Text :=
  srsText ((zonePattern.search path).bind bashZone)

/-! ## Paths -/

/-- A directory name of digits and `系`. -/
def isZoneDir (name : Text) : Bool :=
  name.getLast? == some '系' && name.dropLast != [] && name.dropLast.all Char.isDigit

/-- A file below `14条地図` with one directory `N系` above it. -/
structure ShpPath where
  root : Text
  above : List Text
  zone : Text
  below : List Text
  file : Text
  zone_ne : zone ≠ []
  zone_digits : ∀ c ∈ zone, c.isDigit = true
  one : ∀ name ∈ above ++ below, isZoneDir name = false

/-- The path up to the directory `N系`. -/
def ShpPath.top (p : ShpPath) : Text :=
  p.root ++ "/input_data/14条地図".toList ++ p.above.flatMap ('/' :: ·)

/-- The path from there on. -/
def ShpPath.rest (p : ShpPath) : Text :=
  p.below.flatMap ('/' :: ·) ++ '/' :: p.file

def ShpPath.text (p : ShpPath) : Text :=
  p.top ++ '/' :: (p.zone ++ '系' :: p.rest)

/-- The zone that the directory names, in decimal. -/
def ShpPath.namedZone (p : ShpPath) : Option Nat :=
  if IsZone (valueIn 10 p.zone) then some (valueIn 10 p.zone) else none

/-- The first digits before a `系` in the path. -/
def ShpPath.first (p : ShpPath) : Text :=
  (zonePattern.search (p.top ++ ['/'])).getD p.zone

/-- The function gives the coordinate system of the directory's zone. -/
def ShpPath.GivesZone (p : ShpPath) : Prop :=
  getSSrsForShp p.text = srsText p.namedZone

/-! ## The first digits -/

/-- Digits that are followed by `系`, and digits that are not. -/
theorem matchAt_digits {ds rest : Text} (hdigits : ∀ c ∈ ds, c.isDigit = true)
    (hstop : ∀ c ∈ rest.head?, c.isDigit = false) :
    zonePattern.matchAt (ds ++ rest) =
      if ds ≠ [] ∧ rest.head? = some '系' then some ds else none := by
  have hlit : ∀ g u : Text, (Regex.lit ['系']).run (fun g _ => some g) g u =
      if u.head? = some '系' then some g else none := by
    intro g u
    cases u with
    | nil => rfl
    | cons c u =>
      by_cases hc : c = '系'
      · subst hc
        exact Regex.run_lit_append ['系'] u g _
      · rw [Regex.run_lit_ne (Ne.symm hc), List.head?_cons, if_neg fun h => hc (Option.some.inj h)]
  rw [zonePattern, Regex.matchAt, Regex.run, Regex.run]
  by_cases hne : ds = []
  · subst hne
    rw [if_neg fun h => h.1 rfl, List.nil_append]
    cases rest with
    | nil => rfl
    | cons c rest =>
      have hc : c.isDigit = false := hstop c rfl
      rw [Regex.run, hc]
      rfl
  · by_cases hmark : rest.head? = some '系'
    · have htake : (ds ++ rest).take ((ds ++ rest).length - rest.length) = ds := by
        rw [List.length_append, Nat.add_sub_cancel, List.take_left]
      rw [if_pos ⟨hne, hmark⟩]
      refine Regex.run_many1_longest hne hdigits hstop ?_
      rw [hlit, if_pos hmark, htake]
    · rw [if_neg fun h => hmark h.2]
      obtain ⟨d, ds', rfl⟩ := List.exists_cons_of_ne_nil hne
      obtain ⟨hd, hds⟩ := List.forall_mem_cons.mp hdigits
      rw [List.cons_append, Regex.run, if_pos hd]
      refine runMany_none hstop ?_
      intro u hu
      rw [hlit]
      refine if_neg fun hhead => ?_
      cases u with
      | nil => exact hmark hhead
      | cons c u =>
        -- a digit is not `系`
        have hc := hds c (hu.subset List.mem_cons_self)
        rw [Option.some.inj hhead] at hc
        exact absurd hc (by decide)

theorem matchAt_slash (s t : Text) :
    zonePattern.matchAt (s ++ '/' :: t) = zonePattern.matchAt (s ++ ['/']) := by
  have hsplit : s = s.takeWhile Char.isDigit ++ s.dropWhile Char.isDigit :=
    List.takeWhile_append_dropWhile.symm
  have hdigits : ∀ c ∈ s.takeWhile Char.isDigit, c.isDigit = true := fun c =>
    List.mem_takeWhile_imp
  have hhead : ∀ u : Text, (s.dropWhile Char.isDigit ++ '/' :: u).head? =
      (s.dropWhile Char.isDigit ++ ['/']).head? := by
    intro u
    cases s.dropWhile Char.isDigit <;> rfl
  have hstop : ∀ u : Text, ∀ c ∈ (s.dropWhile Char.isDigit ++ '/' :: u).head?,
      c.isDigit = false := by
    intro u c hc
    cases hrest : s.dropWhile Char.isDigit with
    | nil =>
      rw [hrest] at hc
      cases hc
      decide
    | cons d rest =>
      rw [hrest] at hc
      exact eq_false_of_mem_dropWhile c (by rw [hrest]; exact hc)
  have hmatch : ∀ u : Text, zonePattern.matchAt (s ++ '/' :: u) =
      if s.takeWhile Char.isDigit ≠ [] ∧
          (s.dropWhile Char.isDigit ++ ['/']).head? = some '系' then
        some (s.takeWhile Char.isDigit)
      else none := by
    intro u
    have happend : s ++ '/' :: u =
        s.takeWhile Char.isDigit ++ (s.dropWhile Char.isDigit ++ '/' :: u) := by
      rw [← List.append_assoc, ← hsplit]
    rw [happend, matchAt_digits hdigits (hstop u), hhead u]
  rw [hmatch t, hmatch []]

/-- Digits do not go on over a slash. -/
theorem search_slash (s t : Text) :
    zonePattern.search (s ++ '/' :: t) =
      (zonePattern.search (s ++ ['/'])).or (zonePattern.search t) := by
  have hslash : ∀ u : Text, zonePattern.matchAt ('/' :: u) = none := by
    intro u
    have hstop : ∀ c ∈ ('/' :: u).head?, c.isDigit = false := by
      intro c hc
      cases hc
      decide
    have hmatch := matchAt_digits (fun c (hc : c ∈ []) => absurd hc List.not_mem_nil) hstop
    rw [List.nil_append] at hmatch
    rw [hmatch]
    exact if_neg fun h => h.1 rfl
  induction s with
  | nil =>
    have hnil : zonePattern.search ([] : Text) = none := rfl
    rw [List.nil_append, List.nil_append, Regex.search, Regex.search, hslash, hslash, hnil]
    rfl
  | cons c s ih =>
    have hhere := matchAt_slash (c :: s) t
    rw [List.cons_append, List.cons_append] at hhere
    rw [List.cons_append, List.cons_append, Regex.search, Regex.search, ih, hhere, Option.or_assoc]

theorem search_text (p : ShpPath) : zonePattern.search p.text = some p.first := by
  have hzone : zonePattern.search (p.zone ++ '系' :: p.rest) = some p.zone := by
    apply Regex.search_of_matchAt
    rw [matchAt_digits p.zone_digits (by rintro c ⟨⟩; decide)]
    exact if_pos ⟨p.zone_ne, rfl⟩
  rw [ShpPath.text, search_slash, hzone, ShpPath.first]
  cases zonePattern.search (p.top ++ ['/']) <;> rfl

theorem srsText_injective : Function.Injective srsText := by
  intro a b h
  cases a with
  | none =>
    cases b with
    | none => rfl
    | some n => cases h
  | some m =>
    cases b with
    | none => cases h
    | some n =>
      have hdigits : Nat.toDigits 10 (6668 + m) = Nat.toDigits 10 (6668 + n) :=
        List.append_cancel_left h
      have hvalue := congrArg (fun ds => Nat.ofDigitChars 10 ds 0) hdigits
      simp only [Nat.ofDigitChars_ten_toDigits] at hvalue
      rw [Nat.add_left_cancel hvalue]

/-! ## Numerals -/

/-- The numerals for which the reading of bash gives the decimal zone: without a leading zero those
below `2 ^ 64`, or with a remainder that is no zone; with one those up to 7, and those from 24 on
whose octal value has a remainder that is no zone. -/
def NumeralFits (s : Text) : Prop :=
  if strlongBase s = 10 then
    valueIn 10 s < 2 ^ 64 ∨ ¬ IsZone (valueIn 10 s % 2 ^ 64)
  else
    valueIn 10 s < 8 ∨ 24 ≤ valueIn 10 s ∧
      (DigitsBelow 8 s → ¬ IsZone (valueIn 8 s % 2 ^ 64))

instance (s : Text) : Decidable (NumeralFits s) := by
  unfold NumeralFits
  exact inferInstance

theorem bashZone_eq (s : Text) :
    bashZone s =
      if DigitsBelow (strlongBase s) s ∧ IsZone (valueIn (strlongBase s) s % 2 ^ 64) then
        some (valueIn (strlongBase s) s % 2 ^ 64)
      else none := by
  rw [bashZone, strlong_eq]
  by_cases hdigits : DigitsBelow (strlongBase s) s
  · have hrange : 1 ≤ (BitVec.ofNat 64 (valueIn (strlongBase s) s)).toInt ∧
        (BitVec.ofNat 64 (valueIn (strlongBase s) s)).toInt ≤ 19 ↔
          IsZone (valueIn (strlongBase s) s % 2 ^ 64) := by
      rw [← BitVec.toNat_ofNat]
      exact toInt_range_iff (by decide)
    rw [if_pos hdigits, Option.bind_some, BitVec.toNat_ofNat]
    by_cases hzone : IsZone (valueIn (strlongBase s) s % 2 ^ 64)
    · rw [if_pos (hrange.mpr hzone), if_pos ⟨hdigits, hzone⟩]
    · rw [if_neg (mt hrange.mp hzone), if_neg fun h => hzone h.2]
  · rw [if_neg hdigits, if_neg fun h => hdigits h.1]
    rfl

theorem digitOf_lt_ten {s : Text} (h : ∀ c ∈ s, c.isDigit = true) : DigitsBelow 10 s := by
  intro c hc
  have hdigit := h c hc
  simp only [Char.isDigit, Bool.and_eq_true, decide_eq_true_eq, ge_iff_le,
    UInt32.le_iff_toNat_le] at hdigit
  have hle : c.toNat ≤ 57 := hdigit.2
  have hzero : '0'.toNat = 48 := rfl
  rw [digitOf, hzero]
  omega

/-- A numeral without a leading zero. -/
theorem bashZone_decimal_iff {s : Text} (hdigits : DigitsBelow 10 s)
    (hbase : strlongBase s = 10) :
    bashZone s = (if IsZone (valueIn 10 s) then some (valueIn 10 s) else none) ↔
      valueIn 10 s < 2 ^ 64 ∨ ¬ IsZone (valueIn 10 s % 2 ^ 64) := by
  rw [bashZone_eq, hbase]
  by_cases hlt : valueIn 10 s < 2 ^ 64
  · rw [Nat.mod_eq_of_lt hlt]
    simp only [and_iff_right hdigits, hlt, true_or]
  · have hbig : ¬ IsZone (valueIn 10 s) := fun h => hlt (by have := h.2; omega)
    rw [if_neg hbig]
    by_cases hzone : IsZone (valueIn 10 s % 2 ^ 64)
    · rw [if_pos ⟨hdigits, hzone⟩]
      exact iff_of_false nofun fun h => h.elim hlt fun hnot => hnot hzone
    · rw [if_neg fun h => hzone h.2]
      exact iff_of_true rfl (Or.inr hzone)

/-- A numeral with a leading zero: from 8 to 23 the octal reading is an error or another zone. -/
theorem bashZone_octal_iff {s : Text} (hne : s ≠ []) (hdigits : DigitsBelow 10 s)
    (hbase : strlongBase s = 8) :
    bashZone s = (if IsZone (valueIn 10 s) then some (valueIn 10 s) else none) ↔
      valueIn 10 s < 8 ∨ 24 ≤ valueIn 10 s ∧
        (DigitsBelow 8 s → ¬ IsZone (valueIn 8 s % 2 ^ 64)) := by
  rw [bashZone_eq, hbase]
  by_cases hbig : 24 ≤ valueIn 10 s
  · have hzone : ¬ IsZone (valueIn 10 s) := fun h => by have := h.2; omega
    have hlt : ¬ valueIn 10 s < 8 := by omega
    rw [if_neg hzone]
    by_cases hoctal : DigitsBelow 8 s ∧ IsZone (valueIn 8 s % 2 ^ 64)
    · rw [if_pos hoctal]
      simp only [reduceCtorEq, hlt, hbig, true_and, false_or, false_iff]
      exact fun h => h hoctal.1 hoctal.2
    · rw [if_neg hoctal]
      simp only [hlt, hbig, true_and, false_or, true_iff]
      exact fun h hz => hoctal ⟨h, hz⟩
  · have hoctal := valueIn_octal hdigits (by omega)
    have hmod : valueIn 8 s % 2 ^ 64 = valueIn 8 s := Nat.mod_eq_of_lt (by omega)
    have hright : valueIn 10 s < 8 ∨ 24 ≤ valueIn 10 s ∧
        (DigitsBelow 8 s → ¬ IsZone (valueIn 8 s % 2 ^ 64)) ↔ valueIn 10 s < 8 := by
      simp only [hbig, false_and, or_false]
    rw [hright, hmod]
    by_cases hunits : valueIn 10 s % 10 < 8
    · have hall := octalDigits_of_valueIn (by omega) hunits hdigits
      simp only [and_iff_right hall]
      constructor
      · intro h
        by_contra hlt
        have hzone : IsZone (valueIn 8 s) := ⟨by omega, by omega⟩
        rw [if_pos hzone] at h
        split_ifs at h
        have heq := Option.some.inj h
        omega
      · intro hlt
        have heq : valueIn 8 s = valueIn 10 s := by omega
        rw [heq]
    · -- a digit 8 or 9 is an error, and the decimal value is a zone
      obtain ⟨c, hc, hcd⟩ := exists_units hne hdigits
      have hnot : ¬ DigitsBelow 8 s := fun h => by have := h c hc; omega
      have hzone : IsZone (valueIn 10 s) := ⟨by omega, by omega⟩
      rw [if_neg fun h => hnot h.1, if_pos hzone]
      simp only [reduceCtorEq, false_iff]
      omega

theorem bashZone_iff {s : Text} (hne : s ≠ []) (hdigits : ∀ c ∈ s, c.isDigit = true) :
    bashZone s = (if IsZone (valueIn 10 s) then some (valueIn 10 s) else none) ↔
      NumeralFits s := by
  have hten := digitOf_lt_ten hdigits
  unfold NumeralFits
  by_cases hbase : strlongBase s = 10
  · rw [if_pos hbase]
    exact bashZone_decimal_iff hten hbase
  · have hocto : strlongBase s = 8 := by
      unfold strlongBase at hbase ⊢
      split at hbase
      · rfl
      · exact absurd rfl hbase
    rw [if_neg hbase]
    exact bashZone_octal_iff hne hten hocto

/-- **The zone in the path.** The result is that of the directory `N系` exactly when bash reads the
first digits before a `系` as the zone `N`. If these are the directory's own, that is so exactly for
the numerals of `NumeralFits`. -/
theorem zone_path_iff (p : ShpPath) :
    (p.GivesZone ↔ bashZone p.first = p.namedZone) ∧
      (zonePattern.search (p.top ++ ['/']) = none → (p.GivesZone ↔ NumeralFits p.zone)) := by
  have hiff : p.GivesZone ↔ bashZone p.first = p.namedZone := by
    rw [ShpPath.GivesZone, getSSrsForShp, search_text, Option.bind_some]
    exact srsText_injective.eq_iff
  refine ⟨hiff, ?_⟩
  intro htop
  have hfirst : p.first = p.zone := by
    rw [ShpPath.first, htop]
    rfl
  rw [hiff, hfirst]
  exact bashZone_iff p.zone_ne p.zone_digits

/-- A file in a directory `N系`. -/
def zonePath (root : String) (zone : String) (hne : zone.toList ≠ [])
    (hdigits : zone.toList.all Char.isDigit = true) : ShpPath where
  root := root.toList
  above := []
  zone := zone.toList
  below := []
  file := "a.shp".toList
  zone_ne := hne
  zone_digits := List.all_eq_true.mp hdigits
  one := fun _ h => absurd h List.not_mem_nil

theorem zone_path_ten :
    getSSrsForShp "/p/input_data/14条地図/10系/a.shp".toList = "EPSG:6678".toList := by
  let p := zonePath "/p" "10" (by decide) (by decide)
  have hgives : p.GivesZone := ((zone_path_iff p).2 (by decide +kernel)).mpr (by decide +kernel)
  have htext : p.text = "/p/input_data/14条地図/10系/a.shp".toList := by decide +kernel
  have hnamed : srsText p.namedZone = "EPSG:6678".toList := by decide +kernel
  rw [← htext, ← hnamed]
  exact hgives

/-- `010系` is taken for zone 8 and `08系` for none; a `9系` in the project root comes before the
directory's own number; and `2 ^ 64 + 1` is taken for 1. -/
theorem zone_path_misread :
    getSSrsForShp "/p/input_data/14条地図/010系/a.shp".toList = "EPSG:6676".toList ∧
    getSSrsForShp "/p/input_data/14条地図/08系/a.shp".toList = [] ∧
    getSSrsForShp "/9系/input_data/14条地図/10系/a.shp".toList = "EPSG:6677".toList ∧
    getSSrsForShp "/p/input_data/14条地図/18446744073709551617系/a.shp".toList =
      "EPSG:6669".toList ∧
    ¬ (zonePath "/p" "010" (by decide) (by decide)).GivesZone ∧
    ¬ (zonePath "/p" "08" (by decide) (by decide)).GivesZone ∧
    ¬ (zonePath "/9系" "10" (by decide) (by decide)).GivesZone ∧
    ¬ (zonePath "/p" "18446744073709551617" (by decide) (by decide)).GivesZone := by
  unfold ShpPath.GivesZone
  decide +kernel

end GdalFull.Pipeline.Srs
