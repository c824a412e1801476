import GdalFull.Convert.Damage
import GdalFull.Lib.BlankLines
import GdalFull.Verify.Rows

/-!
# One file, two readings

`count_csv_rows` tries the codecs utf-8, utf-8-sig and cp932. The preprocessors of 土地活用 and 公図
try cp932 first, and go on to `errors="replace"`. So UTF-8 bytes that are also CP932 are counted as
one text and read as another one, and a file that no codec reads is read all the same.

`counted_records_iff`: the verifier counts the records that the preprocessors read exactly if a
codec reads the file, and the extra lines of records are as many as the records of blanks and the
lines that are blank in UTF-8 alone.
-/

namespace GdalFull.Verify

open GdalFull.Convert GdalFull.Lib

section Codecs

variable (cp : Cp932) (chunk : Nat)

/-! ## The text that is counted and the text that is read -/

/-- The text whose lines `count_csv_rows` counts. -/
def verifierText (bytes : Bytes) : Option Text :=
  (Decoder.whole utf8Decoder bytes).or ((Decoder.whole utf8SigDecoder bytes).or (cp.decode bytes))

/-- `count_csv_rows`, from the bytes of a file. -/
def countFile (header : Bool) (bytes : Bytes) : Option Nat :=
  (verifierText cp bytes).map (countCsvRows · header)

/-- The text that the two preprocessors read without `errors="replace"`, if no `csv.Error` ends them
before. -/
def scriptText (bytes : Bytes) : Option Text :=
  (cp.decode bytes).or ((Decoder.whole utf8Decoder bytes).or (Decoder.whole utf8SigDecoder bytes))

/-- The records of the preprocessors are those of the text. -/
theorem csvReader_scriptText {bytes : Bytes} {t : Text} (ht : scriptText cp bytes = some t)
    {rows : List Record} (h : (Kozu.readCsv cp chunk bytes).toOption = some rows) :
    csvReader Kozu.fieldLimit t = some rows := by
  rw [Kozu.readCsv] at h
  rcases Option.or_eq_some_iff.mp ht with hcp | ⟨hcp, ht⟩
  · rwa [Kozu.readFirst_whole hcp] at h
  · rw [Kozu.readFirst_none hcp] at h
    obtain ⟨_, _, h⟩ := Option.bind_eq_some_iff.mp h
    rcases Option.or_eq_some_iff.mp ht with hutf8 | ⟨hutf8, hsig⟩
    · rwa [Kozu.readFirst_whole hutf8] at h
    · rw [Kozu.readFirst_none hutf8] at h
      obtain ⟨_, _, h⟩ := Option.bind_eq_some_iff.mp h
      rwa [Kozu.readFirst_whole hsig] at h

/-- The text that is read is the counted one, or the counted one read as CP932. -/
theorem verifierText_of_scriptText {bytes : Bytes} {t : Text}
    (h : scriptText cp bytes = some t) :
    ∃ s, verifierText cp bytes = some s ∧ (t = s ∨ cp.decode (utf8Encode s) = some t) := by
  cases hutf8 : Decoder.whole utf8Decoder bytes with
  | some s =>
    refine ⟨s, by rw [verifierText, hutf8, Option.some_or], ?_⟩
    rcases Option.or_eq_some_iff.mp h with hcp | ⟨-, h⟩
    · rw [← utf8Encode_of_whole hutf8]
      exact Or.inr hcp
    · rw [hutf8, Option.some_or, Option.some.injEq] at h
      exact Or.inl h.symm
  | none =>
    refine ⟨t, ?_, Or.inl rfl⟩
    rw [verifierText, hutf8, Option.none_or]
    rcases Option.or_eq_some_iff.mp h with hcp | ⟨hcp, h⟩
    · have hbom : ¬ CutBom bytes := by
        intro hbom
        rw [decode_cutBom cp hbom] at hcp
        cases hcp
      rw [sigDecoder_whole_none hbom hutf8, Option.none_or, hcp]
    · rw [hutf8, Option.none_or] at h
      rw [h, Option.some_or]

/-- A file that no strict codec reads for the preprocessors is not counted. -/
theorem verifierText_none {bytes : Bytes} (h : scriptText cp bytes = none) :
    verifierText cp bytes = none := by
  obtain ⟨hcp, h⟩ := Option.or_eq_none_iff.mp h
  obtain ⟨hutf8, hsig⟩ := Option.or_eq_none_iff.mp h
  rw [verifierText, hutf8, hsig, hcp]
  rfl

/-! ## Lines and records -/

/-- The lines that are blank as they are counted and not as they are read. -/
def wideBlanks (counted read : Text) : Nat :=
  if read = counted then 0 else (readlines counted).countP wideBlank

theorem lineCount_eq_countP (lines : List Text) :
    lineCount lines = lines.countP fun line => !isBlank line := by
  simp only [lineCount, strip_isEmpty, List.countP_eq_length_filter]

/-- The lines that count in the two texts. -/
theorem lineCount_add_wideBlanks (hcp : cp.OneBlank) {s t : Text}
    (h : t = s ∨ cp.decode (utf8Encode s) = some t) :
    lineCount (readlines t) = lineCount (readlines s) + wideBlanks s t := by
  by_cases heq : t = s
  · rw [wideBlanks, if_pos heq, heq, Nat.add_zero]
  · rw [wideBlanks, if_neg heq, lineCount_eq_countP, lineCount_eq_countP,
      countP_full hcp (h.resolve_left heq)]

/-- The lines of a text that count beyond the first one of each record. -/
def surplusLines (t : Text) : Nat :=
  let groups := lineGroups false (readlines t)
  let read := (csvYielded Kozu.fieldLimit t).length
  extraLines (groups.take read) + lineCount (groups.drop read).flatten

/-- The records of blanks alone. -/
def blankOnes (t : Text) : Nat :=
  blankRecords ((lineGroups false (readlines t)).take (csvYielded Kozu.fieldLimit t).length)

theorem lineCount_add_blankOnes {t : Text} {rows : List Record}
    (h : csvReader Kozu.fieldLimit t = some rows) :
    lineCount (readlines t) + blankOnes t = fullCount rows + surplusLines t := by
  have hcount := lineCount_add_blankRecords (csvYielded_lineGroups Kozu.fieldLimit t)
  have hsplit : lineCount (readlines t) =
      lineCount ((lineGroups false (readlines t)).take
          (csvYielded Kozu.fieldLimit t).length).flatten +
        lineCount ((lineGroups false (readlines t)).drop
          (csvYielded Kozu.fieldLimit t).length).flatten := by
    rw [← lineCount_append, ← List.flatten_append, List.take_append_drop, lineGroups_flatten]
  rw [← csvYielded_of_csvReader h, surplusLines, blankOnes]
  omega

/-- **Counted and read.** For the bytes of a file that the preprocessors read: `count_csv_rows`
gives the number of their records exactly if a strict codec reads the file and the surplus lines are
as many as the records of blanks and the lines that are blank in UTF-8 alone, or if there is a
header and nothing behind it on either side. -/
theorem counted_records_iff (hcp : cp.OneBlank) {bytes : Bytes} {rows : List Record}
    (hread : (Kozu.readCsv cp chunk bytes).toOption = some rows) (header : Bool) :
    countFile cp header bytes = some (recordCount rows header) ↔
      ∃ s t, verifierText cp bytes = some s ∧ scriptText cp bytes = some t ∧
        (surplusLines t = blankOnes t + wideBlanks s t ∨
          header = true ∧ lineCount (readlines s) ≤ 1 ∧ fullCount rows ≤ 1) := by
  cases ht : scriptText cp bytes with
  | none => simp [countFile, verifierText_none cp ht]
  | some t =>
    obtain ⟨s, hs, hst⟩ := verifierText_of_scriptText cp ht
    have hlines := lineCount_add_wideBlanks cp hcp hst
    have hrecords := lineCount_add_blankOnes (csvReader_scriptText cp chunk ht hread)
    have hbalance : surplusLines t = blankOnes t + wideBlanks s t ↔
        lineCount (readlines s) = fullCount rows := by omega
    have hcount : countCsvRows s header =
        if header && 0 < lineCount (readlines s) then lineCount (readlines s) - 1
        else lineCount (readlines s) := rfl
    have hsame : countCsvRows s header = recordCount rows header ↔
        lineCount (readlines s) = fullCount rows ∨
          header = true ∧ lineCount (readlines s) ≤ 1 ∧ fullCount rows ≤ 1 := by
      rw [hcount, recordCount]
      cases header with
      | false => simp
      | true =>
        simp only [Bool.true_and, decide_eq_true_eq, true_and]
        split <;> split <;> omega
    rw [countFile, hs, Option.map_some, Option.some.injEq, hsame, ← hbalance]
    simp

end Codecs

/-- A file of 土地活用 with a line of a no-break space, which is two characters in CP932. -/
def noBreakCsv : Text := "1,2\n\u00A0\n3,4\n".toList

/-- Three records are read from it, and two are counted. -/
theorem counted_no_break :
    (Kozu.readCsv Kozu.sampleCp932 8192 (utf8Encode noBreakCsv)).toOption =
      some [["1".toList, "2".toList], ["ﾂ\uF8F0".toList], ["3".toList, "4".toList]] ∧
    countFile Kozu.sampleCp932 false (utf8Encode noBreakCsv) ≠ some 3 := by
  have hscript : Kozu.sampleCp932.decode (utf8Encode noBreakCsv) =
      some "1,2\nﾂ\uF8F0\n3,4\n".toList := by decide +kernel
  have hread : (Kozu.readCsv Kozu.sampleCp932 8192 (utf8Encode noBreakCsv)).toOption =
      some [["1".toList, "2".toList], ["ﾂ\uF8F0".toList], ["3".toList, "4".toList]] := by
    rw [Kozu.readCsv, Kozu.readFirst_whole hscript]
    decide
  have hcp : Kozu.sampleCp932.OneBlank := by
    intro b₁ b₂ c hpair hspace
    have hall : ∀ x ∈ Kozu.sampleTable, isSpace x.2.2 = false := by decide
    have hnot := hall _ (Kozu.samplePair_mem hpair)
    rw [hspace] at hnot
    cases hnot
  refine ⟨hread, fun hthree => ?_⟩
  obtain ⟨s, t, hs, ht, hbalance⟩ :=
    (counted_records_iff Kozu.sampleCp932 8192 hcp hread false).mp hthree
  rw [verifierText, whole_utf8Encode, Option.some_or, Option.some.injEq] at hs
  rw [scriptText, hscript, Option.some_or, Option.some.injEq] at ht
  subst hs ht
  revert hbalance
  decide

end GdalFull.Verify
