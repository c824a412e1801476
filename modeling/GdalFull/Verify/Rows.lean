import GdalFull.Lib.CsvLines
import GdalFull.Verify.Count
import Mathlib.Algebra.BigOperators.Group.List.Basic
import Mathlib.Algebra.GroupWithZero.Nat

/-!
# Rows of the verifier and records of the converters

`count_csv_rows` counts the physical lines that are not blank, and the converters read the records
of `csv.reader`. A record with a line break inside quotes has several lines, and a record of blanks
has none that counts.

`countCsvRows_iff`: the two numbers are the same exactly when the lines that records have beyond
their first one are as many as the records of blanks.
-/

namespace GdalFull.Verify

open GdalFull.Lib

/-- The lines that `count_csv_rows` counts. -/
def lineCount (lines : List Text) : Nat :=
  (lines.filter fun line => !(strip line).isEmpty).length

/-- The records that are not empty. -/
def fullCount (rows : List (List Text)) : Nat :=
  rows.countP fun row => row ≠ []

/-- The records that are not empty, without the header. -/
def recordCount (rows : List (List Text)) (hasHeader : Bool) : Nat :=
  if hasHeader && 0 < fullCount rows then fullCount rows - 1 else fullCount rows

/-- The lines that count beyond the first one of each record. -/
def extraLines (groups : List (List Text)) : Nat :=
  (groups.map fun group => lineCount group - 1).sum

def IsEmptyLine (group : List Text) : Prop := ∃ line ∈ emptyLines, group = [line]

instance (group : List Text) : Decidable (IsEmptyLine group) :=
  inferInstanceAs (Decidable (∃ line ∈ emptyLines, group = [line]))

/-- The records of blanks alone. -/
def blankRecords (groups : List (List Text)) : Nat :=
  groups.countP fun group => lineCount group = 0 ∧ ¬ IsEmptyLine group

/-- The extra lines of the records, and all lines after the last record that can be read, are as
many as the records of blanks. -/
def Balanced (limit : Nat) (text : Text) : Prop :=
  let groups := lineGroups false (readlines text)
  let read := (csvYielded limit text).length
  extraLines (groups.take read) + lineCount (groups.drop read).flatten =
    blankRecords (groups.take read)

instance (limit : Nat) (text : Text) : Decidable (Balanced limit text) :=
  inferInstanceAs (Decidable (_ = _))

theorem lineCount_append (a b : List Text) : lineCount (a ++ b) = lineCount a + lineCount b := by
  rw [lineCount, List.filter_append, List.length_append]
  rfl

theorem lineCount_of_isEmptyLine {group : List Text} (h : IsEmptyLine group) :
    lineCount group = 0 := by
  have hall : ∀ line ∈ emptyLines, lineCount [line] = 0 := by decide
  obtain ⟨line, hline, rfl⟩ := h
  exact hall line hline

/-- The lines of records and the records, group by group. -/
theorem lineCount_add_blankRecords {rows groups : List (List Text)}
    (h : List.Forall₂ RecordOf rows groups) :
    lineCount groups.flatten + blankRecords groups = fullCount rows + extraLines groups := by
  induction h with
  | nil => rfl
  | @cons row group rows groups hrow _ ih =>
    have hblank : blankRecords (group :: groups) = blankRecords groups +
        if lineCount group = 0 ∧ ¬ IsEmptyLine group then 1 else 0 := by
      simp [blankRecords, List.countP_cons]
    have hfull : fullCount (row :: rows) = fullCount rows + if row ≠ [] then 1 else 0 := by
      simp [fullCount, List.countP_cons]
    have hextra : extraLines (group :: groups) = lineCount group - 1 + extraLines groups := by
      simp [extraLines]
    rw [List.flatten_cons, lineCount_append, hblank, hfull, hextra]
    have hempty : row = [] ↔ IsEmptyLine group := hrow
    by_cases hgroup : IsEmptyLine group
    · have hzero := lineCount_of_isEmptyLine hgroup
      rw [if_neg fun h => h.2 hgroup, if_neg fun h => h (hempty.mpr hgroup)]
      omega
    · have hne : row ≠ [] := mt hempty.mp hgroup
      rw [if_pos hne]
      by_cases hzero : lineCount group = 0
      · rw [if_pos ⟨hzero, hgroup⟩]
        omega
      · rw [if_neg fun h => hzero h.1]
        omega

theorem lineCount_eq_fullCount_iff (limit : Nat) (text : Text) :
    lineCount (readlines text) = fullCount (csvYielded limit text) ↔ Balanced limit text := by
  have hcount := lineCount_add_blankRecords (csvYielded_lineGroups limit text)
  have hsplit : lineCount (readlines text) =
      lineCount ((lineGroups false (readlines text)).take
          (csvYielded limit text).length).flatten +
        lineCount ((lineGroups false (readlines text)).drop
          (csvYielded limit text).length).flatten := by
    rw [← lineCount_append, ← List.flatten_append, List.take_append_drop, lineGroups_flatten]
  rw [Balanced, hsplit]
  omega

/-- **The count of the verifier.** It is the number of records exactly when the extra lines of
records and the records of blanks balance, or when there is a header and nothing after it on either
side. -/
theorem countCsvRows_iff (limit : Nat) (text : Text) (hasHeader : Bool) :
    countCsvRows text hasHeader = recordCount (csvYielded limit text) hasHeader ↔
      Balanced limit text ∨
        hasHeader = true ∧ lineCount (readlines text) ≤ 1 ∧
          fullCount (csvYielded limit text) ≤ 1 := by
  have hlines : countCsvRows text hasHeader =
      if hasHeader && 0 < lineCount (readlines text) then lineCount (readlines text) - 1
      else lineCount (readlines text) := rfl
  rw [← lineCount_eq_fullCount_iff, hlines, recordCount]
  cases hasHeader with
  | false => simp
  | true =>
    simp only [Bool.true_and, decide_eq_true_eq, true_and]
    split <;> split <;> omega

/-- Records on one line each, with an empty line between them. -/
example : Balanced 131072 "a,b\r\n1,\"2\"\r\n\r\n3,4".toList := by decide

/-- A line break inside quotes is counted as a row, and a line of blanks is not. -/
theorem countCsvRows_quoted :
    countCsvRows "a\n\"x\ny\"\n".toList false = 3 ∧
    recordCount (csvYielded 131072 "a\n\"x\ny\"\n".toList) false = 2 ∧
    countCsvRows "a\n \n".toList false = 1 ∧
    recordCount (csvYielded 131072 "a\n \n".toList) false = 2 := by
  decide

end GdalFull.Verify
