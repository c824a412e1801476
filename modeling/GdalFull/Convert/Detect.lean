import GdalFull.Convert.Bom
import GdalFull.Lib.Resync

/-!
# UTF-8 files of points

`csv_to_geoparquet_tochi.py` tries cp932 before utf-8. A UTF-8 file with `X座標` as a cell of its
first record, in any quotes, is never read as CP932: the last byte of `標` begins a pair, and what
follows the cell is no second byte.

`utf8_points`: so utf-8 reads the file, unless a `csv.Error` comes first. cp932 fails only when it
gets to the cell, and the lines before that have been read as CP932 by then. If one of them has a
field over the limit, the script ends there and writes nothing.
-/

namespace GdalFull.Convert

open GdalFull.Lib

/-! ## The codecs -/

/-- cp932 fails, or a line that was read before is over the limit. -/
theorem readRows_cp932 {cp : Cp932} (chunk : Nat) {t : Text}
    (h : cp.decode (utf8Encode t) = none) :
    (EarlyLinesFit cp chunk t →
      readRows Kozu.fieldLimit chunk cp.decoder (utf8Encode t) = .error .unicode) ∧
    (¬ EarlyLinesFit cp chunk t →
      readRows Kozu.fieldLimit chunk cp.decoder (utf8Encode t) = .error .csv) := by
  have hwhole : Decoder.whole cp.decoder (utf8Encode t) = none := h
  unfold EarlyLinesFit readRows
  rw [hwhole]
  cases Reader.start.feed Kozu.fieldLimit
      (completeLines (decodedChunks cp.decoder chunk (utf8Encode t))) with
  | none => exact ⟨nofun, fun _ => rfl⟩
  | some r => exact ⟨fun _ => rfl, fun hfit => absurd rfl hfit⟩

theorem readCsv_of_unicode {cp : Cp932} {chunk : Nat} {t : Text}
    (h : readRows Kozu.fieldLimit chunk cp.decoder (utf8Encode t) = .error .unicode) :
    Kozu.readCsv cp chunk (utf8Encode t) =
      (csvReader Kozu.fieldLimit t).elim (.error .csvError) .ok := by
  rw [Kozu.readCsv, Kozu.readFirst, h]
  dsimp only
  rw [Kozu.readFirst, Kozu.readRows_whole (whole_utf8Encode t)]
  cases csvReader Kozu.fieldLimit t <;> rfl

theorem readCsv_of_csv {cp : Cp932} {chunk : Nat} {bytes : Bytes}
    (h : readRows Kozu.fieldLimit chunk cp.decoder bytes = .error .csv) :
    Kozu.readCsv cp chunk bytes = .error .csvError := by
  rw [Kozu.readCsv, Kozu.readFirst, h]

theorem toOption_elim (rows : Option (List Record)) :
    (rows.elim (.error .csvError) .ok : Except Kozu.KozuError (List Record)).toOption = rows := by
  cases rows <;> rfl

/-! ## Lines before the label -/

/-- No line is read before cp932 fails, if the first record has no line break. -/
theorem earlyLinesFit_of_oneLine (cp : Cp932) (chunk : Nat) {t : Text} {header : Record}
    {rows : List Record} {limit : Nat} (h : csvReader limit t = some (header :: rows))
    (hx : xLabel ∈ header) (hcells : ∀ cell ∈ header, ∀ c ∈ cell, isNewline c = false) :
    EarlyLinesFit cp chunk t := by
  rw [EarlyLinesFit, completeLines_decodedChunks chunk h hcells ⟨xLabel, hx, decode_xLabel cp⟩]
  rfl

/-- **UTF-8 points are not taken for CP932.** For a UTF-8 file with `X座標` in the first record that
`csv.reader` yields, cp932 does not read the bytes. If the lines before that is found have no field
over the limit, the next codec, utf-8, decides, and the script runs on the records of the text. If
one has, the run ends with `csv.Error` and writes nothing. No such line is there if the first record
has no line break, and none in a file of at most as many bytes as the limit. -/
theorem utf8_points (cp : Cp932) (chunk : Nat) (bytes : Bytes) (t : Text) (header : Record)
    (hutf8 : Decoder.whole utf8Decoder bytes = some t)
    (hfirst : (csvYielded Kozu.fieldLimit t).head? = some header) (hx : xLabel ∈ header) :
    cp.decode bytes = none ∧
    (EarlyLinesFit cp chunk t →
      readRows Kozu.fieldLimit chunk cp.decoder bytes = .error .unicode ∧
      Kozu.readCsv cp chunk bytes = (csvReader Kozu.fieldLimit t).elim (.error .csvError) .ok ∧
      ∀ print prior, tochiRun cp chunk print prior bytes =
        tochiScript print prior (csvReader Kozu.fieldLimit t) .done) ∧
    (¬ EarlyLinesFit cp chunk t →
      Kozu.readCsv cp chunk bytes = .error .csvError ∧
      ∀ print prior, tochiRun cp chunk print prior bytes = ⟨1, [], prior⟩) ∧
    ((∀ cell ∈ header, ∀ c ∈ cell, isNewline c = false) ∨ bytes.length ≤ Kozu.fieldLimit →
      EarlyLinesFit cp chunk t) := by
  obtain rfl := utf8Encode_of_whole hutf8
  obtain ⟨rows, hrows⟩ := exists_csvReader_of_yielded hfirst
  have hdecode := decode_points cp hrows hx
  obtain ⟨hunicode, hcsv⟩ := readRows_cp932 chunk hdecode
  refine ⟨hdecode, ?_, ?_, ?_⟩
  · intro hfit
    have hread := readCsv_of_unicode (hunicode hfit)
    refine ⟨hunicode hfit, hread, ?_⟩
    intro print prior
    rw [tochiRun, hread, toOption_elim]
  · intro hover
    have hread := readCsv_of_csv (hcsv hover)
    refine ⟨hread, ?_⟩
    intro print prior
    rw [tochiRun, hread]
    rfl
  · rintro (hcells | hlen)
    · exact earlyLinesFit_of_oneLine cp chunk hrows hx hcells
    · exact earlyLinesFit_of_length_le cp chunk hlen

/-- A file in which the quotes of the cell `X座標` end inside it. -/
def quotedCsv : Text := "座標系,\"X座\"標,Y座標\n9,1,2\n".toList

theorem csvReader_quotedCsv : csvReader Kozu.fieldLimit quotedCsv =
    some [[zukeiLabel, xLabel, yLabel], ["9".toList, "1".toList, "2".toList]] := by
  decide +kernel

theorem utf8_points_quoted :
    labelCp932.decode (utf8Encode quotedCsv) = none ∧
    tochiRun labelCp932 8192 false none (utf8Encode quotedCsv) =
      ⟨0, [], some (utf8Encode (csvWrite
        [[zukeiLabel, yLabel, xLabel], ["9".toList, "1".toList, "2".toList]]))⟩ := by
  have hfirst : (csvYielded Kozu.fieldLimit quotedCsv).head? =
      some [zukeiLabel, xLabel, yLabel] := by
    rw [csvYielded_of_csvReader csvReader_quotedCsv]
    rfl
  obtain ⟨hdecode, hread, _, hfit⟩ := utf8_points labelCp932 8192 (utf8Encode quotedCsv) quotedCsv
    [zukeiLabel, xLabel, yLabel] (whole_utf8Encode quotedCsv) hfirst (by decide)
  refine ⟨hdecode, ?_⟩
  rw [(hread (hfit (Or.inr (by decide +kernel)))).2.2 false none, csvReader_quotedCsv]
  decide +kernel

/-- **A field over the limit.** The first cell of this header has 131074 bytes before a line feed,
and as many characters as CP932, while as UTF-8 all its cells are within the limit. -/
theorem utf8_points_overlong :
    csvReader Kozu.fieldLimit (csvWrite [longHeader 65537 8192 xLabel yLabel]) =
      some [longHeader 65537 8192 xLabel yLabel] ∧
    xLabel ∈ longHeader 65537 8192 xLabel yLabel ∧
    Kozu.readCsv labelCp932 8192 (utf8Encode (csvWrite [longHeader 65537 8192 xLabel yLabel])) =
      .error .csvError ∧
    tochiRun labelCp932 8192 false none
        (utf8Encode (csvWrite [longHeader 65537 8192 xLabel yLabel])) = ⟨1, [], none⟩ := by
  have hlimit : Kozu.fieldLimit = 131072 := rfl
  have hmem : xLabel ∈ longHeader 65537 8192 xLabel yLabel := by
    simp only [longHeader, List.mem_cons, true_or, or_true]
  have hover : ¬ EarlyLinesFit labelCp932 8192 (csvWrite [longHeader 65537 8192 xLabel yLabel]) :=
    not_earlyLinesFit_long labelCp932 (q := 8186) (k := 17) (by omega) (by rw [hlimit]; omega)
      (by omega) (by omega) (by decide) (by decide)
  have hread := readCsv_of_csv
    ((readRows_cp932 8192 (decode_labelled labelCp932 hmem [])).2 hover)
  refine ⟨csvReader_csvWrite _ (longHeader_within ?_ ?_), hmem, hread, ?_⟩
  · rw [hlimit]
    omega
  · rw [hlimit]
    omega
  · rw [tochiRun, hread]
    rfl

end GdalFull.Convert
