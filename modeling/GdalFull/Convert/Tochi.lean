import GdalFull.Lib.PyStr
import Mathlib.Data.List.Basic
import Mathlib.Tactic.Common

/-!
# The preprocessor of the point data and the two conversion routes

`csv_to_geoparquet_tochi.py` works on the records of a CSV file. If the first record is a
header with `座標系` and `X座標`, it writes the records with the labels `X座標` and `Y座標`
exchanged; otherwise it puts a header of its own before them. `csv_to_geopackage.sh` hands the
result to `ogr2ogr`, `csv_to_geoparquet.sh` hands over the CSV file itself, and both name the
columns `X座標` and `Y座標`.

`routes_agree_iff` compares the two routes on a row: since the labels are exchanged on one
route only, they agree when the row has the same number in both columns. `printed_zone_iff` is
about the zone that the script prints, which it takes from column 11 whatever stands in the header.
-/

namespace GdalFull.Convert

open GdalFull.Lib

abbrev Record := List Text

def zukeiLabel : Text := "座標系".toList

def xLabel : Text := "X座標".toList

def yLabel : Text := "Y座標".toList

/-- `is_gaiku`. -/
def isGaiku (first : Record) : Bool :=
  zukeiLabel ∈ first && xLabel ∈ first

/-- The zone that `--print-zukei` prints: the integer 1 to 19 in a column of the second record. -/
def printZukei (rows : List Record) (zukeiCol : Nat) : Option Int :=
  match (rows[1]?).bind (·[zukeiCol]?) with
  | none => none
  | some cell =>
    match pyInt (strip cell) with
    | none => none
    | some z => if 1 ≤ z ∧ z ≤ 19 then some z else none

theorem printZukei_eq_some_iff {rows : List Record} {zukeiCol : Nat} {z : Int} :
    printZukei rows zukeiCol = some z ↔
      ∃ row cell, rows[1]? = some row ∧ row[zukeiCol]? = some cell ∧
        pyInt (strip cell) = some z ∧ 1 ≤ z ∧ z ≤ 19 := by
  unfold printZukei
  constructor
  · intro h
    split at h
    · cases h
    · rename_i cell hcell
      obtain ⟨row, hrow, hcell⟩ := Option.bind_eq_some_iff.mp hcell
      split at h
      · cases h
      · rename_i z' hz'
        obtain ⟨hrange, hz⟩ := Option.ite_none_right_eq_some.mp h
        cases hz
        exact ⟨row, cell, hrow, hcell, hz', hrange⟩
  · rintro ⟨row, cell, hrow, hcell, hint, hrange⟩
    rw [hrow, Option.bind_some, hcell]
    dsimp only
    rw [hint]
    exact if_pos hrange

def swapLabel (cell : Text) : Text :=
  if cell = xLabel then yLabel else if cell = yLabel then xLabel else cell

/-- `header`, the header for a file without one. -/
def tochiHeader (ncols : Nat) : Record :=
  (List.range ncols).map fun i =>
    if i = 7 ∧ 8 < ncols then "y".toList
    else if i = 8 ∧ 9 < ncols then "x".toList
    else "col".toList ++ (Nat.toDigits 10 i)

/-- What the script prints with `--print-zukei` and the records that it writes; `none` for a
file without records. -/
def tochiPre (rows : List Record) : Option (Option Int × List Record) :=
  match rows with
  | [] => none
  | first :: rest =>
    if isGaiku first then some (printZukei rows 11, first.map swapLabel :: rest)
    else some (printZukei rows 5, tochiHeader first.length :: rows)

theorem tochiPre_header {first : Record} (h : isGaiku first = true) (rest : List Record) :
    tochiPre (first :: rest) =
      some (printZukei (first :: rest) 11, first.map swapLabel :: rest) := by
  simp [tochiPre, h]

theorem tochiPre_headerless {first : Record} (h : isGaiku first = false) (rest : List Record) :
    tochiPre (first :: rest) =
      some (printZukei (first :: rest) 5, tochiHeader first.length :: first :: rest) := by
  simp [tochiPre, h]

theorem tochiPre_cases {first : Record} {rest out : List Record} {zone : Option Int}
    (h : tochiPre (first :: rest) = some (zone, out)) :
    (isGaiku first = true ∧ out = first.map swapLabel :: rest) ∨
      isGaiku first = false ∧ out = tochiHeader first.length :: first :: rest := by
  cases hg : isGaiku first with
  | true =>
    rw [tochiPre_header hg] at h
    cases h
    exact Or.inl ⟨rfl, rfl⟩
  | false =>
    rw [tochiPre_headerless hg] at h
    cases h
    exact Or.inr ⟨rfl, rfl⟩

/-! ## The two routes -/

variable {V : Type}

/-- The cell of a row in the first column with a label. -/
def cellUnder (header row : Record) (label : Text) : Option Text :=
  (header.idxOf? label).bind (row[·]?)

/-- `ogr2ogr` with `X_POSSIBLE_NAMES=X座標` and `Y_POSSIBLE_NAMES=Y座標` on record `k` of a
file; `num` reads a cell as a coordinate. -/
def ogrPoint (num : Text → V) (rows : List Record) (k : Nat) : Option (V × V) := do
  let header ← rows.head?
  let row ← rows[k]?
  let x ← cellUnder header row xLabel
  let y ← cellUnder header row yLabel
  return (num x, num y)

/-- `csv_to_geopackage.sh`: nothing is handed over when the script prints no zone. -/
def geopackagePoint (num : Text → V) (rows : List Record) (k : Nat) : Option (V × V) :=
  match tochiPre rows with
  | some (some _, out) => ogrPoint num out k
  | _ => none

/-- `csv_to_geoparquet.sh`. -/
def geoparquetPoint (num : Text → V) (rows : List Record) (k : Nat) : Option (V × V) :=
  ogrPoint num rows k

theorem swapLabel_involutive : Function.Involutive swapLabel := by
  have hne : yLabel ≠ xLabel := by decide
  intro cell
  by_cases hx : cell = xLabel
  · simp [swapLabel, hx, hne]
  · by_cases hy : cell = yLabel
    · simp [swapLabel, hy, hne]
    · simp [swapLabel, hx, hy]

/-- Where the relabelled header has a label, the header has the other one. -/
theorem idxOf?_map_swapLabel (header : Record) (label : Text) :
    (header.map swapLabel).idxOf? label = header.idxOf? (swapLabel label) := by
  induction header with
  | nil => rfl
  | cons cell header ih =>
    rw [List.map_cons, List.idxOf?_cons, List.idxOf?_cons, ih]
    have hcell : (swapLabel cell == label) = (cell == swapLabel label) :=
      Bool.eq_iff_iff.mpr (by rw [beq_iff_eq, beq_iff_eq, swapLabel_involutive.eq_iff])
    rw [hcell]

theorem cellUnder_of_mem {header row : Record} {label : Text} (hmem : label ∈ header)
    (hlen : row.length = header.length) : ∃ cell, cellUnder header row label = some cell := by
  unfold cellUnder
  cases hi : header.idxOf? label with
  | none => exact absurd hmem (List.idxOf?_eq_none_iff.mp hi)
  | some i =>
    obtain ⟨hlt, _⟩ := List.idxOf?_eq_some_iff.mp hi
    exact ⟨row[i], List.getElem?_eq_getElem (by omega)⟩

theorem ogrPoint_succ (num : Text → V) (header : Record) {data : List Record} {k : Nat}
    {row : Record} (hrow : data[k]? = some row) {x y : Text}
    (hx : cellUnder header row xLabel = some x) (hy : cellUnder header row yLabel = some y) :
    ogrPoint num (header :: data) (k + 1) = some (num x, num y) := by
  simp [ogrPoint, hrow, hx, hy]

/-- **The two routes on one row.** They build the same point exactly when the GeoPackage route
reads no zone and builds none, or the row has one number under `X座標` and `Y座標`. -/
theorem routes_agree_iff (num : Text → V) (header : Record) (data : List Record) (k : Nat)
    (row : Record) (hz : zukeiLabel ∈ header) (hx : xLabel ∈ header) (hy : yLabel ∈ header)
    (hrow : data[k]? = some row) (hlen : row.length = header.length) :
    (∀ p q, geopackagePoint num (header :: data) (k + 1) = some p →
        geoparquetPoint num (header :: data) (k + 1) = some q → p = q) ↔
      printZukei (header :: data) 11 = none ∨
        (cellUnder header row xLabel).map num = (cellUnder header row yLabel).map num := by
  have hgaiku : isGaiku header = true := by simp [isGaiku, hz, hx]
  obtain ⟨x, hcx⟩ := cellUnder_of_mem hx hlen
  obtain ⟨y, hcy⟩ := cellUnder_of_mem hy hlen
  have hparquet : geoparquetPoint num (header :: data) (k + 1) = some (num x, num y) :=
    ogrPoint_succ num header hrow hcx hcy
  cases hzone : printZukei (header :: data) 11 with
  | none =>
    have hgpkg : geopackagePoint num (header :: data) (k + 1) = none := by
      rw [geopackagePoint, tochiPre, if_pos hgaiku, hzone]
    simp [hgpkg]
  | some zone =>
    have hsx : cellUnder (header.map swapLabel) row xLabel = some y := by
      rwa [cellUnder, idxOf?_map_swapLabel]
    have hsy : cellUnder (header.map swapLabel) row yLabel = some x := by
      rwa [cellUnder, idxOf?_map_swapLabel]
    have hgpkg : geopackagePoint num (header :: data) (k + 1) = some (num y, num x) := by
      rw [geopackagePoint, tochiPre, if_pos hgaiku, hzone]
      exact ogrPoint_succ num _ hrow hsx hsy
    rw [hgpkg, hparquet, hcx, hcy]
    constructor
    · intro h
      have hpair := h _ _ rfl rfl
      exact Or.inr (congrArg some (congrArg Prod.snd hpair))
    · rintro (h | h) p q hp hq
      · cases h
      · cases hp
        cases hq
        rw [Option.some.inj h]

/-- A header of 14 columns with `座標系` in column 11. -/
def gaikuHeader : Record :=
  List.replicate 11 "a".toList ++ [zukeiLabel, xLabel, yLabel]

def gaikuRow (x y : String) : Record :=
  List.replicate 11 "".toList ++ ["9".toList, x.toList, y.toList]

/-- A row with one number in both columns is placed at one spot. -/
theorem routes_agree_diagonal :
    ∃ p, geopackagePoint pyInt [gaikuHeader, gaikuRow "5" "05"] 1 = some p ∧
      geoparquetPoint pyInt [gaikuHeader, gaikuRow "5" "05"] 1 = some p := by
  have hagree := (routes_agree_iff pyInt gaikuHeader [gaikuRow "5" "05"] 0 (gaikuRow "5" "05")
    (by decide) (by decide) (by decide) rfl rfl).mpr (Or.inr (by decide))
  obtain ⟨p, hp⟩ : ∃ p, geopackagePoint pyInt [gaikuHeader, gaikuRow "5" "05"] 1 = some p :=
    ⟨(some 5, some 5), by decide⟩
  obtain ⟨q, hq⟩ : ∃ q, geoparquetPoint pyInt [gaikuHeader, gaikuRow "5" "05"] 1 = some q :=
    ⟨(some 5, some 5), by decide⟩
  exact ⟨p, hp, hagree p q hp hq ▸ hq⟩

/-- A row with `X座標` 1 and `Y座標` 2 is handed over as (2, 1) on one route and as (1, 2) on
the other. -/
theorem routes_swapped :
    geopackagePoint pyInt [gaikuHeader, gaikuRow "1" "2"] 1 = some (some 2, some 1) ∧
      geoparquetPoint pyInt [gaikuHeader, gaikuRow "1" "2"] 1 = some (some 1, some 2) := by
  decide

/-! ## The zone under the label -/

/-- The zone that a cell is a numeral for. -/
def cellZone (cell : Text) : Option Int :=
  (pyInt (strip cell)).bind fun z => if 1 ≤ z ∧ z ≤ 19 then some z else none

/-- The zone in the column `座標系` of the first data record. -/
def labelledZone (header : Record) (data : List Record) : Option Int :=
  data.head?.bind fun row => (cellUnder header row zukeiLabel).bind cellZone

/-- The script prints the zone in the column `座標系`, or nothing if there is none. -/
def PrintsLabelled (header : Record) (data : List Record) : Prop :=
  (tochiPre (header :: data)).map Prod.fst = some (labelledZone header data)

theorem printZukei_eq_bind (rows : List Record) (zukeiCol : Nat) :
    printZukei rows zukeiCol = rows[1]?.bind fun row => row[zukeiCol]?.bind cellZone := by
  rw [printZukei, ← Option.bind_assoc]
  cases (rows[1]?).bind (·[zukeiCol]?) with
  | none => rfl
  | some cell =>
    rw [Option.bind_some, cellZone]
    dsimp only
    cases pyInt (strip cell) <;> rfl

theorem printsLabelled_iff {header : Record} (hz : zukeiLabel ∈ header) (hx : xLabel ∈ header)
    (data : List Record) :
    PrintsLabelled header data ↔ ∀ row ∈ data.head?,
      row[11]?.bind cellZone = (cellUnder header row zukeiLabel).bind cellZone := by
  have hgaiku : isGaiku header = true := by simp [isGaiku, hz, hx]
  rw [PrintsLabelled, tochiPre_header hgaiku, Option.map_some, Option.some_inj,
    printZukei_eq_bind, List.getElem?_cons_succ, ← List.head?_eq_getElem?, labelledZone]
  cases data.head? <;> simp

/-- A record with zone 1 in one column and nothing else. -/
def oneZone (i : Nat) : Record :=
  List.replicate i [] ++ "1".toList :: List.replicate 12 []

theorem oneZone_self (i : Nat) : (oneZone i)[i]?.bind cellZone = some 1 := by
  have hcell : (oneZone i)[i]? = some "1".toList := by
    rw [oneZone, List.getElem?_append_right (by simp), List.length_replicate, Nat.sub_self]
    rfl
  rw [hcell]
  rfl

theorem oneZone_of_ne {i j : Nat} (h : j ≠ i) : (oneZone i)[j]?.bind cellZone = none := by
  have hempty : ∀ n k : Nat, (List.replicate n ([] : Text))[k]?.bind cellZone = none := by
    intro n k
    rw [List.getElem?_replicate]
    split <;> rfl
  by_cases hlt : j < i
  · rw [oneZone, List.getElem?_append_left (by simpa using hlt)]
    exact hempty i j
  · obtain ⟨k, hk⟩ : ∃ k, j - i = k + 1 := ⟨j - i - 1, by omega⟩
    rw [oneZone, List.getElem?_append_right (by simpa using Nat.le_of_not_lt hlt),
      List.length_replicate, hk, List.getElem?_cons_succ]
    exact hempty 12 k

/-- **The printed zone.** Under a header with `座標系` and `X座標`, the script prints the zone in the
column `座標系` exactly when the first data record has the same zone, or none, in column 11. So it
is with any records exactly when `座標系` first stands in column 11. -/
theorem printed_zone_iff (header : Record) (hz : zukeiLabel ∈ header) (hx : xLabel ∈ header) :
    (∀ data : List Record, PrintsLabelled header data ↔ ∀ row ∈ data.head?,
      row[11]?.bind cellZone = (cellUnder header row zukeiLabel).bind cellZone) ∧
    ((∀ data : List Record, PrintsLabelled header data) ↔
      header.idxOf? zukeiLabel = some 11) := by
  refine ⟨printsLabelled_iff hz hx, ?_⟩
  obtain ⟨i, hi⟩ : ∃ i, header.idxOf? zukeiLabel = some i := by
    cases hi : header.idxOf? zukeiLabel with
    | none => exact absurd hz (List.idxOf?_eq_none_iff.mp hi)
    | some i => exact ⟨i, rfl⟩
  have hcell : ∀ row, cellUnder header row zukeiLabel = row[i]? := fun row => by
    rw [cellUnder, hi, Option.bind_some]
  simp only [printsLabelled_iff hz hx, hcell, hi, Option.some.injEq]
  constructor
  · intro h
    by_contra hne
    have hrow := h [oneZone i] (oneZone i) rfl
    rw [oneZone_self, oneZone_of_ne (Ne.symm hne)] at hrow
    cases hrow
  · rintro rfl data row hrow
    rfl

/-- `座標系` in column 11: the zone 9 is printed. -/
theorem printed_zone_nine :
    PrintsLabelled gaikuHeader [gaikuRow "1" "2"] ∧
      labelledZone gaikuHeader [gaikuRow "1" "2"] = some 9 := by
  have hprints := (printed_zone_iff gaikuHeader (by decide) (by decide)).2.mpr rfl
  exact ⟨hprints [gaikuRow "1" "2"], by decide⟩

/-- `座標系` in column 0: the 3 in column 11 is printed, or nothing. -/
theorem printed_zone_shifted :
    (tochiPre [zukeiLabel :: xLabel :: yLabel :: List.replicate 9 "a".toList,
        "9".toList :: List.replicate 10 [] ++ ["3".toList]]).map Prod.fst = some (some 3) ∧
    labelledZone (zukeiLabel :: xLabel :: yLabel :: List.replicate 9 "a".toList)
        ["9".toList :: List.replicate 10 [] ++ ["3".toList]] = some 9 ∧
    (tochiPre [[zukeiLabel, xLabel, yLabel], ["9".toList, "1".toList, "2".toList]]).map
        Prod.fst = some none ∧
    labelledZone [zukeiLabel, xLabel, yLabel] [["9".toList, "1".toList, "2".toList]] = some 9 := by
  decide

end GdalFull.Convert
