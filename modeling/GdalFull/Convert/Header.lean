import GdalFull.Convert.Tochi
import GdalFull.Lib.FirstLine

/-!
# The coordinate columns of the temporary CSV

`single_csv_to_pmtiles.sh` names the coordinate columns to `ogr2ogr` by a look at the first
line of the temporary CSV: `X座標` and `Y座標` if `X座標` stands in it, `x` and `y` otherwise. It gets
there only if the preprocessor has printed a zone.

`delivers_iff` says when both are in the header that the preprocessor has written. A file of
nine columns without a header gets no `x`, and a header with a line feed before its `X座標` is
searched in its first line only.
-/

namespace GdalFull.Convert

open GdalFull.Lib

def smallX : Text := "x".toList

def smallY : Text := "y".toList

/-- `X_Y_OO`: the values of `X_POSSIBLE_NAMES` and `Y_POSSIBLE_NAMES`. -/
def selectColumns (tmp : Bytes) : Text × Text :=
  if grep xLabel (headLine tmp) then (xLabel, yLabel) else (smallX, smallY)

/-- The selection in its place: if no zone has been printed, the script ends with status 1 before
it. -/
def driverColumns (zone : Option Int) (tmp : Bytes) : Option (Text × Text) :=
  zone.map fun _ => selectColumns tmp

/-- The columns that are selected are in the header of the temporary CSV; for a file without a
header they are columns 8 and 7. -/
def Delivers (first : Record) (zone : Option Int) (header : Record) (data : List Record) : Prop :=
  ∀ columns, driverColumns zone (utf8Encode (csvWrite (header :: data))) = some columns →
    columns.1 ∈ header ∧ columns.2 ∈ header ∧
      (isGaiku first = false → header[8]? = some columns.1 ∧ header[7]? = some columns.2)

/-- The record after the first one has an integer from 1 to 19 in a column. -/
def ZoneAt (col : Nat) (rest : List Record) : Prop :=
  ∃ row cell z, rest[0]? = some row ∧ row[col]? = some cell ∧ pyInt (strip cell) = some z ∧
    1 ≤ z ∧ z ≤ 19

theorem delivers_none (first header : Record) (data : List Record) :
    Delivers first none header data := by
  intro columns h
  cases h

theorem delivers_some_iff {first header : Record} {zone : Int} {data : List Record} :
    Delivers first (some zone) header data ↔
      let columns := selectColumns (utf8Encode (csvWrite (header :: data)))
      columns.1 ∈ header ∧ columns.2 ∈ header ∧
        (isGaiku first = false → header[8]? = some columns.1 ∧ header[7]? = some columns.2) := by
  simp [Delivers, driverColumns]

/-- A zone is printed exactly if the second record has one. -/
theorem printZukei_isSome_iff (first : Record) (rest : List Record) (col : Nat) :
    (printZukei (first :: rest) col).isSome = true ↔ ZoneAt col rest := by
  rw [Option.isSome_iff_exists]
  simp only [printZukei_eq_some_iff, List.getElem?_cons_succ]
  constructor
  · rintro ⟨z, row, cell, h⟩
    exact ⟨row, cell, z, h⟩
  · rintro ⟨row, cell, z, h⟩
    exact ⟨z, row, cell, h⟩

/-- The selection in terms of the header record. -/
theorem grep_headLine_iff (header : Record) (data : List Record) :
    grep xLabel (headLine (utf8Encode (csvWrite (header :: data)))) = true ↔
      OnFirstLine xLabel header := by
  have hlabel : ∀ c ∈ xLabel, isSeparator c = false := by simp [xLabel, isSeparator, isNewline]
  have hcons : xLabel = 'X' :: "座標".toList := by decide
  rw [grep, decide_eq_true_eq, headLine_encode, hcons, encode_infix_iff (by decide), ← hcons]
  exact infix_firstLine_iff hlabel (by decide) header data

theorem selectColumns_label {header : Record} (h : OnFirstLine xLabel header)
    (data : List Record) :
    selectColumns (utf8Encode (csvWrite (header :: data))) = (xLabel, yLabel) := by
  rw [selectColumns, if_pos ((grep_headLine_iff header data).mpr h)]

theorem selectColumns_small {header : Record} (h : ¬ OnFirstLine xLabel header)
    (data : List Record) :
    selectColumns (utf8Encode (csvWrite (header :: data))) = (smallX, smallY) := by
  rw [selectColumns, if_neg (mt (grep_headLine_iff header data).mp h)]

/-! ## Files without a header -/

theorem not_onFirstLine {label : Text} {header : Record} (h : ∀ cell ∈ header, ¬ label <:+: cell) :
    ¬ OnFirstLine label header := by
  induction header with
  | nil => exact id
  | cons cell header ih =>
    rintro (hcell | ⟨_, hrest⟩)
    · exact h cell List.mem_cons_self (hcell.trans (List.takeWhile_prefix _).isInfix)
    · exact ih (fun c hc => h c (List.mem_cons_of_mem _ hc)) hrest

/-- The header that the script makes up has no `X` in it. -/
theorem notMem_tochiHeader {n : Nat} {cell : Text} (h : cell ∈ tochiHeader n) : 'X' ∉ cell := by
  obtain ⟨i, _, rfl⟩ := List.mem_map.mp h
  split_ifs
  · decide
  · decide
  · intro hmem
    rcases List.mem_append.mp hmem with hcol | hdigit
    · exact absurd hcol (by decide)
    · exact absurd (Nat.isDigit_of_mem_toDigits (by decide) (by decide) hdigit) (by decide)

theorem tochiHeader_not_onFirstLine (n : Nat) : ¬ OnFirstLine xLabel (tochiHeader n) := by
  apply not_onFirstLine
  intro cell hcell hlabel
  exact notMem_tochiHeader hcell (hlabel.subset (by decide))

theorem tochiHeader_columns_iff {n : Nat} (hn : 9 ≤ n) :
    (tochiHeader n)[8]? = some smallX ∧ (tochiHeader n)[7]? = some smallY ↔ n ≠ 9 := by
  constructor
  · rintro ⟨hx, _⟩ rfl
    exact absurd hx (by decide)
  · intro hne
    have h8 : 8 < n := by omega
    have h9 : 9 < n := by omega
    have h7 : 7 < n := by omega
    simp [tochiHeader, h7, h8, h9, smallX, smallY]

theorem delivers_headerless_iff {first : Record} (hfirst : isGaiku first = false)
    (hlen : 9 ≤ first.length) (zone : Int) (data : List Record) :
    Delivers first (some zone) (tochiHeader first.length) data ↔ first.length ≠ 9 := by
  rw [← tochiHeader_columns_iff hlen, delivers_some_iff,
    selectColumns_small (tochiHeader_not_onFirstLine first.length)]
  constructor
  · rintro ⟨_, _, hcols⟩
    exact hcols hfirst
  · intro hcols
    exact ⟨List.mem_of_getElem? hcols.1, List.mem_of_getElem? hcols.2, fun _ => hcols⟩

/-! ## Files with a header -/

theorem mem_map_swapLabel {header : Record} {label : Text} :
    label ∈ header.map swapLabel ↔ swapLabel label ∈ header := by
  constructor
  · intro h
    obtain ⟨cell, hcell, rfl⟩ := List.mem_map.mp h
    rwa [swapLabel_involutive cell]
  · intro h
    exact List.mem_map.mpr ⟨swapLabel label, h, swapLabel_involutive label⟩

theorem delivers_header_iff {first : Record} (hfirst : isGaiku first = true)
    (hx : xLabel ∈ first) (hy : yLabel ∈ first) (zone : Int) (data : List Record) :
    Delivers first (some zone) (first.map swapLabel) data ↔
      OnFirstLine xLabel (first.map swapLabel) ∨ smallX ∈ first ∧ smallY ∈ first := by
  by_cases hline : OnFirstLine xLabel (first.map swapLabel)
  · have hmem : xLabel ∈ first.map swapLabel ∧ yLabel ∈ first.map swapLabel :=
      ⟨mem_map_swapLabel.mpr hy, mem_map_swapLabel.mpr hx⟩
    rw [delivers_some_iff, selectColumns_label hline]
    simp [hline, hmem, hfirst]
  · have hsmallX : swapLabel smallX = smallX := by decide
    have hsmallY : swapLabel smallY = smallY := by decide
    rw [delivers_some_iff, selectColumns_small hline]
    dsimp only
    rw [mem_map_swapLabel, mem_map_swapLabel, hsmallX, hsmallY]
    simp [hline, hfirst]

/-- A statement that is only about the files for which a zone is printed. -/
theorem delivers_zone_iff {first header : Record} {rest data : List Record} {col : Nat} {P : Prop}
    (h : ∀ zone, Delivers first (some zone) header data ↔ P) :
    Delivers first (printZukei (first :: rest) col) header data ↔ (ZoneAt col rest → P) := by
  rw [← printZukei_isSome_iff first]
  cases printZukei (first :: rest) col with
  | none => simp [delivers_none]
  | some zone => simp [h zone]

/-- **The columns that the driver asks for.** For a file without a header and with nine columns
or more, or with `座標系`, `X座標` and `Y座標` in its first record, whatever is selected is delivered
exactly if the second record has no zone where one is looked for, or else a file without a header
has not nine columns, and a file with a header has, relabelled, `X座標` before its first line feed,
or has columns `x` and `y` of its own. -/
theorem delivers_iff (first : Record) (rest : List Record)
    (h : isGaiku first = false ∧ 9 ≤ first.length ∨
      zukeiLabel ∈ first ∧ xLabel ∈ first ∧ yLabel ∈ first) :
    (∃ zone header data, tochiPre (first :: rest) = some (zone, header :: data) ∧
        Delivers first zone header data) ↔
      (isGaiku first = false → ZoneAt 5 rest → first.length ≠ 9) ∧
      (isGaiku first = true → ZoneAt 11 rest → OnFirstLine xLabel (first.map swapLabel) ∨
        smallX ∈ first ∧ smallY ∈ first) := by
  rcases h with ⟨hfirst, hlen⟩ | ⟨hz, hx, hy⟩
  · have hzone : Delivers first (printZukei (first :: rest) 5) (tochiHeader first.length)
        (first :: rest) ↔ (ZoneAt 5 rest → first.length ≠ 9) :=
      delivers_zone_iff fun zone => delivers_headerless_iff hfirst hlen zone _
    rw [tochiPre_headerless hfirst]
    simp [hfirst, hzone]
  · have hfirst : isGaiku first = true := by simp [isGaiku, hz, hx]
    have hzone : Delivers first (printZukei (first :: rest) 11) (first.map swapLabel) rest ↔
        (ZoneAt 11 rest → OnFirstLine xLabel (first.map swapLabel) ∨
          smallX ∈ first ∧ smallY ∈ first) :=
      delivers_zone_iff fun zone => delivers_header_iff hfirst hx hy zone rest
    rw [tochiPre_header hfirst]
    simp [hfirst, hzone]

/-- The header of 14 columns, and a file of ten columns without a header. -/
theorem delivers_both :
    (∃ zone header data, tochiPre [gaikuHeader, gaikuRow "1" "2"] = some (zone, header :: data) ∧
      Delivers gaikuHeader zone header data) ∧
    ∃ zone header data, tochiPre (List.replicate 2 (List.replicate 10 "1".toList)) =
        some (zone, header :: data) ∧
      Delivers (List.replicate 10 "1".toList) zone header data := by
  have hgaiku := delivers_iff gaikuHeader [gaikuRow "1" "2"] (by decide)
  have hten := delivers_iff (List.replicate 10 "1".toList) [List.replicate 10 "1".toList]
    (by decide)
  constructor
  · refine hgaiku.mpr ⟨fun hfalse => absurd hfalse (by decide), fun _ _ => by decide⟩
  · refine hten.mpr ⟨fun _ _ => by decide, fun htrue => absurd htrue (by decide)⟩

/-- The header of 14 columns with a line feed in its first cell. -/
def brokenHeader : Record := "a\nb".toList :: gaikuHeader.tail

/-- Two records of nine columns get `y` but not `x`. The broken header has `X座標` in its second line,
and `x` and `y` are selected, which it does not have. -/
theorem delivers_neither :
    tochiPre (List.replicate 2 (List.replicate 9 "1".toList)) =
      some (some 1, tochiHeader 9 :: List.replicate 2 (List.replicate 9 "1".toList)) ∧
    driverColumns (some 1) (utf8Encode (csvWrite
      (tochiHeader 9 :: List.replicate 2 (List.replicate 9 "1".toList)))) =
        some (smallX, smallY) ∧
    smallX ∉ tochiHeader 9 ∧ smallY ∈ tochiHeader 9 ∧
    tochiPre [brokenHeader, gaikuRow "1" "2"] =
      some (some 9, [brokenHeader.map swapLabel, gaikuRow "1" "2"]) ∧
    driverColumns (some 9) (utf8Encode (csvWrite
      [brokenHeader.map swapLabel, gaikuRow "1" "2"])) = some (smallX, smallY) ∧
    smallX ∉ brokenHeader.map swapLabel ∧ smallY ∉ brokenHeader.map swapLabel := by
  decide

end GdalFull.Convert
