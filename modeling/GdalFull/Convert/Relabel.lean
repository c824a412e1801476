import GdalFull.Convert.Header
import GdalFull.Convert.Kozu
import GdalFull.Lib.CellCodec

/-!
# Relabelling a file twice

`csv_to_geoparquet_tochi.py` on the bytes of a file: the codecs are tried one after the other, and
what is written is UTF-8. A file with `X座標` in its header is relabelled; run on its own output, the
script takes that for UTF-8 again, since `X座標` ends with the byte `99`, which cp932 does not
accept before a comma or a line end (`decode_labelled`). So the labels are exchanged back
(`relabel_twice_iff`), unless a line that is read before that byte has a field over the limit.
-/

namespace GdalFull.Convert

open GdalFull.Lib

/-- The output of the script for an input file; `none` is exit status 1. Its first three codecs are
those of `csv_to_geoparquet_kozu.py`. The fourth, utf-8 with `errors="replace"`, does not fail, so
that the fifth is never tried. -/
def csvToGeoparquetTochi (cp : Cp932) (chunk : Nat) (bytes : Bytes) : Option Bytes :=
  ((Kozu.readCsv cp chunk bytes).toOption.bind tochiPre).map fun r => utf8Encode (csvWrite r.2)

/-- The records of a file in UTF-8. -/
def utf8Rows (bytes : Bytes) : Option (List Record) :=
  (Decoder.whole utf8Decoder bytes).bind (csvReader Kozu.fieldLimit)

/-- The lines of a UTF-8 file that are read before cp932 fails have no field over the limit. -/
def EarlyLinesFit (cp : Cp932) (chunk : Nat) (t : Text) : Prop :=
  (Reader.start.feed Kozu.fieldLimit
    (completeLines (decodedChunks cp.decoder chunk (utf8Encode t)))).isSome = true

/-! ## A header that is not CP932 -/

theorem decode_xLabel (cp : Cp932) : cp.decode (utf8Encode xLabel) = none := by
  have hbytes : utf8Encode xLabel = [0x58, 0xE5, 0xBA, 0xA7, 0xE6, 0xA8, 0x99] := by decide
  have hX : cp932Single 0x58 = some 'X' := by decide
  have hA7 : cp932Single 0xA7 = some 'ｧ' := by decide
  have hE5 : cp932Single 0xE5 = none := by decide
  have hE6 : cp932Single 0xE6 = none := by decide
  have h99 : cp932Single 0x99 = none := by decide
  rw [hbytes, decode_single cp hX, decode_pair cp hE5, decode_single cp hA7, decode_pair cp hE6,
    decode_lead cp h99]
  cases cp.pair 0xE5 0xBA <;> cases cp.pair 0xE6 0xA8 <;> rfl

/-- A first record with `X座標` keeps a file from being read as CP932. -/
theorem decode_points (cp : Cp932) {limit : Nat} {t : Text} {header : Record} {rows : List Record}
    (h : csvReader limit t = some (header :: rows)) (hx : xLabel ∈ header) :
    cp.decode (utf8Encode t) = none := by
  rw [Option.eq_none_iff_forall_ne_some]
  intro t' ht'
  have hcell := decode_cells ht' h header List.mem_cons_self xLabel hx
  rw [decode_xLabel] at hcell
  cases hcell

/-- **A header with `X座標` is not CP932.** -/
theorem decode_labelled (cp : Cp932) {header : Record} (h : xLabel ∈ header)
    (data : List Record) : cp.decode (utf8Encode (csvWrite (header :: data))) = none := by
  obtain ⟨limit, hlimit⟩ := exists_limit (header :: data)
  exact decode_points cp (csvReader_csvWrite _ hlimit) h

theorem utf8Encode_csvWrite (header : Record) (data : List Record) :
    utf8Encode (csvWrite (header :: data)) =
      utf8Encode (writeRow header) ++ utf8Encode (csvWrite data) := by
  rw [csvWrite, List.flatMap_cons, utf8Encode_append]
  rfl

theorem writeRow_lineEnd (row : Record) : ∃ s, writeRow row = s ++ ['\n'] := by
  unfold writeRow
  split
  · exact ⟨['\r'], rfl⟩
  · exact ⟨['"', '"', '\r'], rfl⟩
  · rename_i f fs _
    exact ⟨writeField f ++ (fs.flatMap fun g => ',' :: writeField g) ++ ['\r'], by simp⟩

/-- What is read before cp932 fails is not longer than the header. -/
theorem decodedChunks_length_le (cp : Cp932) (chunk : Nat) {header : Record}
    (h : xLabel ∈ header) (data : List Record) :
    (decodedChunks cp.decoder chunk (utf8Encode (csvWrite (header :: data)))).length ≤
      (utf8Encode (writeRow header)).length := by
  obtain ⟨p, hp, hdecode⟩ := decodedChunks_prefix cp chunk (utf8Encode (csvWrite (header :: data)))
  have htext := decode_length_le cp p hdecode
  have hshort : p.length ≤ (utf8Encode (writeRow header)).length := by
    by_contra hlt
    -- otherwise the header would have been decoded
    rw [utf8Encode_csvWrite] at hp
    obtain ⟨v, rfl⟩ := List.prefix_of_prefix_length_le (List.prefix_append _ _) hp (by omega)
    obtain ⟨s, hs⟩ := writeRow_lineEnd header
    have hwrite : csvWrite [header] = s ++ ['\n'] := by
      rw [csvWrite, List.flatMap_singleton, hs]
    have hnone := decode_labelled cp h []
    rw [hs] at hdecode
    have hsome := decode_upTo (by decide) hdecode
    rw [← hwrite, hnone] at hsome
    cases hsome
  omega

/-- A header of at most as many bytes as the limit has no field over it, however it is read. -/
theorem earlyLinesFit (cp : Cp932) (chunk : Nat) {header : Record} (h : xLabel ∈ header)
    (data : List Record) (hlen : (utf8Encode (writeRow header)).length ≤ Kozu.fieldLimit) :
    EarlyLinesFit cp chunk (csvWrite (header :: data)) := by
  have hchunks := decodedChunks_length_le cp chunk h data
  have hlines := completeLines_length_le
    (decodedChunks cp.decoder chunk (utf8Encode (csvWrite (header :: data))))
  apply feed_isSome
  change 0 + _ ≤ _
  omega

/-! ## One run and two runs -/

theorem readFirst_within {chunk : Nat} {bytes : Bytes} {decoders : List Decoder}
    {rows : List Record} (h : (Kozu.readFirst chunk bytes decoders).toOption = some rows) :
    ∀ row ∈ rows, ∀ f ∈ row, f.length ≤ Kozu.fieldLimit := by
  induction decoders with
  | nil =>
    rw [Kozu.readFirst] at h
    split at h
    · cases h
      exact csvReader_within ‹_›
    · cases h
  | cons decoder decoders ih =>
    cases hwhole : Decoder.whole decoder bytes with
    | some t =>
      rw [Kozu.readFirst_whole hwhole] at h
      exact csvReader_within h
    | none =>
      rw [Kozu.readFirst_none hwhole] at h
      obtain ⟨_, _, h⟩ := Option.bind_eq_some_iff.mp h
      exact ih h

theorem swapLabel_length (cell : Text) : (swapLabel cell).length = cell.length := by
  unfold swapLabel
  split
  · rename_i hx
    rw [hx]
    rfl
  · split
    · rename_i hy
      rw [hy]
      rfl
    · rfl

/-- What is written is read back as UTF-8. -/
theorem utf8Rows_csvWrite {rows : List Record}
    (h : ∀ row ∈ rows, ∀ f ∈ row, f.length ≤ Kozu.fieldLimit) :
    utf8Rows (utf8Encode (csvWrite rows)) = some rows := by
  rw [utf8Rows, whole_utf8Encode, Option.bind_some, csvReader_csvWrite rows h]

/-- The script on records with a header. -/
theorem csvToGeoparquetTochi_header {cp : Cp932} {chunk : Nat} {bytes : Bytes} {header : Record}
    {data : List Record} (hread : (Kozu.readCsv cp chunk bytes).toOption = some (header :: data))
    (hz : zukeiLabel ∈ header) (hx : xLabel ∈ header) :
    csvToGeoparquetTochi cp chunk bytes =
      some (utf8Encode (csvWrite (header.map swapLabel :: data))) := by
  have hgaiku : isGaiku header = true := by simp [isGaiku, hz, hx]
  rw [csvToGeoparquetTochi, hread, Option.bind_some, tochiPre_header hgaiku, Option.map_some]

/-- The records of a UTF-8 file that is not CP932. -/
theorem readCsv_utf8 {cp : Cp932} (chunk : Nat) {t : Text} (h : cp.decode (utf8Encode t) = none) :
    (EarlyLinesFit cp chunk t ∧
      (Kozu.readCsv cp chunk (utf8Encode t)).toOption = csvReader Kozu.fieldLimit t) ∨
    (¬ EarlyLinesFit cp chunk t ∧ (Kozu.readCsv cp chunk (utf8Encode t)).toOption = none) := by
  by_cases hfit : EarlyLinesFit cp chunk t
  · exact Or.inl ⟨hfit, Kozu.readCsv_rejected ⟨h, hfit⟩⟩
  · refine Or.inr ⟨hfit, ?_⟩
    rw [Kozu.readCsv_taken fun hrej => hfit hrej.2, Kozu.misread, h, Option.bind_none]

/-- The script on a file of its own with `X座標` in the header. -/
theorem readCsv_labelled (cp : Cp932) (chunk : Nat) {header : Record} (h : xLabel ∈ header)
    (data : List Record)
    (hlen : ∀ row ∈ header :: data, ∀ f ∈ row, f.length ≤ Kozu.fieldLimit) :
    ((Kozu.readCsv cp chunk (utf8Encode (csvWrite (header :: data)))).toOption =
        some (header :: data) ∧ EarlyLinesFit cp chunk (csvWrite (header :: data))) ∨
      (Kozu.readCsv cp chunk (utf8Encode (csvWrite (header :: data)))).toOption = none ∧
        ¬ EarlyLinesFit cp chunk (csvWrite (header :: data)) := by
  rw [← csvReader_csvWrite _ hlen]
  rcases readCsv_utf8 chunk (decode_labelled cp h data) with ⟨hfit, hread⟩ | ⟨hfit, hread⟩
  · exact Or.inl ⟨hread, hfit⟩
  · exact Or.inr ⟨hread, hfit⟩

/-- **Relabelling twice.** One run keeps the records and exchanges `X座標` and `Y座標` in the header. A
second run gives the records back exactly when the lines that are read of the first run's output
before cp932 fails have no field over the limit, which is so for a header of at most that many
bytes. -/
theorem relabel_twice_iff (cp : Cp932) (chunk : Nat) (bytes : Bytes) (header : Record)
    (data : List Record) (hread : Kozu.readCsv cp chunk bytes = .ok (header :: data))
    (hz : zukeiLabel ∈ header) (hx : xLabel ∈ header) (hy : yLabel ∈ header) :
    (csvToGeoparquetTochi cp chunk bytes).bind utf8Rows =
        some (header.map swapLabel :: data) ∧
    (((csvToGeoparquetTochi cp chunk bytes).bind (csvToGeoparquetTochi cp chunk)).bind utf8Rows =
        some (header :: data) ↔
      EarlyLinesFit cp chunk (csvWrite (header.map swapLabel :: data))) ∧
    ((utf8Encode (writeRow (header.map swapLabel))).length ≤ Kozu.fieldLimit →
      EarlyLinesFit cp chunk (csvWrite (header.map swapLabel :: data))) := by
  have hoption : (Kozu.readCsv cp chunk bytes).toOption = some (header :: data) := by
    rw [hread]
    rfl
  have hlen := readFirst_within hoption
  have hswapped : ∀ row ∈ header.map swapLabel :: data, ∀ f ∈ row,
      f.length ≤ Kozu.fieldLimit := by
    obtain ⟨hheader, hdata⟩ := List.forall_mem_cons.mp hlen
    refine List.forall_mem_cons.mpr ⟨?_, hdata⟩
    intro f hf
    obtain ⟨cell, hcell, rfl⟩ := List.mem_map.mp hf
    rw [swapLabel_length]
    exact hheader cell hcell
  have hback : (header.map swapLabel).map swapLabel = header := by
    rw [List.map_map, swapLabel_involutive.comp_self, List.map_id]
  have hz' : zukeiLabel ∈ header.map swapLabel := by
    rw [mem_map_swapLabel]
    exact hz
  have hx' : xLabel ∈ header.map swapLabel := by
    rw [mem_map_swapLabel]
    exact hy
  have hfirst : csvToGeoparquetTochi cp chunk bytes =
      some (utf8Encode (csvWrite (header.map swapLabel :: data))) :=
    csvToGeoparquetTochi_header hoption hz hx
  rw [hfirst, Option.bind_some, Option.bind_some]
  refine ⟨utf8Rows_csvWrite hswapped, ?_, earlyLinesFit cp chunk hx' data⟩
  rcases readCsv_labelled cp chunk hx' data hswapped with ⟨hok, hfit⟩ | ⟨hnone, hfit⟩
  · rw [csvToGeoparquetTochi_header hok hz' hx', hback, Option.bind_some]
    exact iff_of_true (utf8Rows_csvWrite hlen) hfit
  · rw [csvToGeoparquetTochi, hnone]
    exact iff_of_false (by simp) hfit

/-! ## Two files -/

/-- The part of CP932 that the two files below need. -/
def labelTable : List (UInt8 × UInt8 × Char) :=
  [(0x8D, 0xC0, '座'), (0x95, 0x57, '標'), (0x8C, 0x6E, '系'), (0x81, 0x7D, '±')]

def labelPair (b₁ b₂ : UInt8) : Option Char :=
  labelTable.findSome? fun x => if x.1 = b₁ ∧ x.2.1 = b₂ then some x.2.2 else none

def labelEncodeChar (c : Char) : Option Bytes :=
  if c.toNat < 0x80 then some [UInt8.ofNat c.toNat]
  else labelTable.findSome? fun x => if x.2.2 = c then some [x.1, x.2.1] else none

theorem labelPair_mem {b₁ b₂ : UInt8} {c : Char} (h : labelPair b₁ b₂ = some c) :
    (b₁, b₂, c) ∈ labelTable :=
  mem_of_findSome?_pair h

def labelCp932 : Cp932 where
  pair := labelPair
  encodeChar := labelEncodeChar
  trail := by
    intro b₁ b₂ c h
    have hall : ∀ x ∈ labelTable, 0x40 ≤ x.2.1.toNat := by decide
    exact hall _ (labelPair_mem h)
  wide := by
    intro b₁ b₂ c h
    have hall : ∀ x ∈ labelTable, 0x80 ≤ x.2.2.toNat := by decide
    exact hall _ (labelPair_mem h)
  unassigned := by
    intro b
    have hall : ∀ x ∈ labelTable, x.1 ≠ 0xEF := by decide
    apply Option.eq_none_iff_forall_ne_some.mpr
    intro c h
    exact hall _ (labelPair_mem h) rfl
  own := by
    intro b₁ b₂ c h hstart
    have hall : ∀ x ∈ labelTable, ¬ [x.1, x.2.1] <+: String.utf8EncodeChar x.2.2 := by decide
    exact absurd hstart (hall _ (labelPair_mem h))
  decode_encode := by
    intro c bytes h
    unfold labelEncodeChar at h
    split_ifs at h with hlt
    · cases h
      exact Or.inl ⟨_, rfl, cp932Single_asciiByte hlt⟩
    · have hall : ∀ x ∈ labelTable, cp932Single x.1 = none ∧
          labelPair x.1 x.2.1 = some x.2.2 := by decide
      obtain ⟨x, hx, hif⟩ := List.exists_of_findSome?_eq_some h
      obtain ⟨rfl, hbytes⟩ := Option.ite_none_right_eq_some.mp hif
      cases hbytes
      exact Or.inr ⟨x.1, x.2.1, rfl, hall x hx⟩

/-- The bytes of a text in CP932. -/
def labelBytes (t : Text) : Bytes :=
  t.flatMap fun c => (labelEncodeChar c).getD []

/-- A small file in CP932: after two runs the records are what they were. -/
theorem relabel_twice_small :
    ((csvToGeoparquetTochi labelCp932 8192 (labelBytes "座標系,X座標,Y座標\n9,1,2\n".toList)).bind
        (csvToGeoparquetTochi labelCp932 8192)).bind utf8Rows =
      some [[zukeiLabel, xLabel, yLabel], ["9".toList, "1".toList, "2".toList]] := by
  have hread : Kozu.readCsv labelCp932 8192 (labelBytes "座標系,X座標,Y座標\n9,1,2\n".toList) =
      .ok [[zukeiLabel, xLabel, yLabel], ["9".toList, "1".toList, "2".toList]] := by
    decide +kernel
  obtain ⟨_, htwice, hfit⟩ := relabel_twice_iff labelCp932 8192
    (labelBytes "座標系,X座標,Y座標\n9,1,2\n".toList) _ _ hread (by decide) (by decide) (by decide)
  exact htwice.mpr (hfit (by decide +kernel))

/-- A header whose first cell has `n` characters `±` and a line feed. -/
def longHeader (n p : Nat) (x y : Text) : Record :=
  [List.replicate n '±' ++ ['\n'], List.replicate p 'a', zukeiLabel, x, y]

/-- The end of such a header. -/
def longTail (x y : Text) : Text :=
  ',' :: zukeiLabel ++ ',' :: x ++ ',' :: y ++ ['\r', '\n']

theorem writeField_long (n : Nat) :
    writeField (List.replicate n '±' ++ ['\n']) =
      '"' :: (List.replicate n '±' ++ ['\n'] ++ ['"']) := by
  have hquote : ∀ m, (List.replicate m '±').flatMap doubleQuote = List.replicate m '±' := by
    intro m
    induction m with
    | zero => rfl
    | succ m ih =>
      rw [List.replicate_succ, List.flatMap_cons, ih]
      rfl
  have hany : (List.replicate n '±' ++ ['\n']).any isSeparator = true := by
    rw [List.any_append, Bool.or_eq_true]
    exact Or.inr (by decide)
  rw [writeField, if_pos hany, List.flatMap_append, hquote]
  rfl

theorem writeField_pad (p : Nat) : writeField (List.replicate p 'a') = List.replicate p 'a' := by
  have hany : (List.replicate p 'a').any isSeparator = false := by
    rw [List.any_eq_false]
    intro c hc
    rw [List.eq_of_mem_replicate hc]
    decide
  rw [writeField, hany]
  rfl

/-- The header as it is written, for two labels without separators. -/
theorem csvWrite_long (n p : Nat) {x y : Text} (hx : writeField x = x) (hy : writeField y = y) :
    csvWrite [longHeader n p x y] = '"' :: (List.replicate n '±' ++ ['\n'] ++ ['"']) ++
      (',' :: (List.replicate p 'a' ++ longTail x y)) := by
  have hz : writeField zukeiLabel = zukeiLabel := by decide
  have hrow : writeRow (longHeader n p x y) = writeField (List.replicate n '±' ++ ['\n']) ++
      (([List.replicate p 'a', zukeiLabel, x, y] : Record).flatMap fun g => ',' :: writeField g) ++
        ['\r', '\n'] := by
    refine writeRow.eq_3 _ _ ?_
    intro _ hnil
    cases hnil
  rw [csvWrite, List.flatMap_cons, List.flatMap_nil, List.append_nil, hrow, writeField_long]
  simp only [List.flatMap_cons, List.flatMap_nil, writeField_pad, hz, hx, hy, longTail,
    List.append_assoc, List.cons_append, List.nil_append]

theorem map_swapLabel_long (n p : Nat) :
    (longHeader n p xLabel yLabel).map swapLabel = longHeader n p yLabel xLabel := by
  have hplain : ∀ {cell : Text} {c : Char}, c ∈ cell → c ∉ xLabel → c ∉ yLabel →
      swapLabel cell = cell := by
    intro cell c hc hx hy
    have hnx : cell ≠ xLabel := fun h => hx (h ▸ hc)
    have hny : cell ≠ yLabel := fun h => hy (h ▸ hc)
    rw [swapLabel, if_neg hnx, if_neg hny]
  have hlong : swapLabel (List.replicate n '±' ++ ['\n']) = List.replicate n '±' ++ ['\n'] :=
    hplain (List.mem_append_right _ List.mem_cons_self) (by decide) (by decide)
  have hpad : swapLabel (List.replicate p 'a') = List.replicate p 'a' := by
    cases p with
    | zero => decide
    | succ p => exact hplain (List.mem_replicate.mpr ⟨by omega, rfl⟩) (by decide) (by decide)
  have hz : swapLabel zukeiLabel = zukeiLabel := by decide
  have hx : swapLabel xLabel = yLabel := by decide
  have hy : swapLabel yLabel = xLabel := by decide
  rw [longHeader, List.map_cons, List.map_cons, List.map_cons, List.map_cons, List.map_cons,
    List.map_nil, hlong, hpad, hz, hx, hy]
  rfl

/-- `±` in UTF-8, read as CP932. -/
def misreadLong (n : Nat) : Text :=
  (List.replicate n ['ﾂ', 'ｱ']).flatten

theorem decode_long (cp : Cp932) (n : Nat) :
    cp.decode (utf8Encode (List.replicate n '±')) = some (misreadLong n) := by
  have hbytes : String.utf8EncodeChar '±' = [0xC2, 0xB1] := by decide
  have hC2 : cp932Single 0xC2 = some 'ﾂ' := by decide
  have hB1 : cp932Single 0xB1 = some 'ｱ' := by decide
  induction n with
  | zero => rfl
  | succ n ih =>
    rw [List.replicate_succ, utf8Encode_cons, hbytes, List.cons_append, List.singleton_append,
      decode_single cp hC2, decode_single cp hB1, ih]
    rfl

theorem length_utf8Encode_long (n : Nat) : (utf8Encode (List.replicate n '±')).length = 2 * n := by
  induction n with
  | zero => rfl
  | succ n ih =>
    have hbytes : (String.utf8EncodeChar '±').length = 2 := by decide
    rw [List.replicate_succ, utf8Encode_cons, List.length_append, hbytes, ih]
    omega

theorem length_utf8Encode_ascii {t : Text} (h : Ascii t) : (utf8Encode t).length = t.length := by
  induction t with
  | nil => rfl
  | cons c t ih =>
    obtain ⟨hc, ht⟩ := List.forall_mem_cons.mp h
    rw [utf8Encode_ascii hc, List.length_cons, List.length_cons, ih ht]

theorem length_misreadLong (n : Nat) : (misreadLong n).length = 2 * n := by
  rw [misreadLong, List.length_flatten, List.map_replicate, List.sum_replicate_nat]
  simp only [List.length_cons, List.length_nil]
  omega

theorem misreadLong_plain (n : Nat) : ∀ c ∈ misreadLong n, isSeparator c = false := by
  intro c hc
  obtain ⟨l, hl, hmem⟩ := List.mem_flatten.mp hc
  rw [List.eq_of_mem_replicate hl] at hmem
  simp only [List.mem_cons, List.not_mem_nil, or_false] at hmem
  rcases hmem with rfl | rfl <;> decide

/-- The misread cell is over the limit. -/
theorem feed_misreadLong {n : Nat} (h : Kozu.fieldLimit < 2 * n) :
    Reader.start.feed Kozu.fieldLimit ('"' :: misreadLong n) = none := by
  have hstep : Reader.start.step Kozu.fieldLimit '"' =
      some { Reader.start with state := .inQuoted } := by
    simp [Reader.step, Reader.start, Reader.recordStep, Reader.fieldStep, isNewline]
  rw [Reader.feed, hstep, Option.bind_some]
  apply feed_overflow (misreadLong_plain n) (Nat.zero_le _)
  rw [length_misreadLong, Reader.start, List.length_nil]
  omega

/-- The bytes of such a header up to `q` characters of its second cell. -/
def longStart (n q : Nat) : Bytes :=
  0x22 :: (utf8Encode (List.replicate n '±') ++
    utf8Encode ('\n' :: '"' :: ',' :: List.replicate q 'a'))

theorem ascii_longPad (q : Nat) : Ascii ('\n' :: '"' :: ',' :: List.replicate q 'a') := by
  have hstart : Ascii ['\n', '"', ','] := by decide
  have hpad : Ascii (List.replicate q 'a') := by
    intro c hc
    rw [List.eq_of_mem_replicate hc]
    decide
  exact ascii_append.mpr ⟨hstart, hpad⟩

theorem length_longStart (n q : Nat) : (longStart n q).length = 2 * n + q + 4 := by
  rw [longStart, List.length_cons, List.length_append, length_utf8Encode_long,
    length_utf8Encode_ascii (ascii_longPad q)]
  simp only [List.length_cons, List.length_replicate]
  omega

theorem decode_longStart (cp : Cp932) (n q : Nat) :
    cp.decode (longStart n q) =
      some ('"' :: (misreadLong n ++ '\n' :: '"' :: ',' :: List.replicate q 'a')) := by
  have hquote : cp932Single 0x22 = some '"' := by decide
  rw [longStart, decode_single cp hquote, decode_append cp _ _ (decode_long cp n),
    decode_ascii cp (ascii_longPad q)]
  rfl

theorem longStart_append {n p q : Nat} (hq : q ≤ p) {x y : Text} (hx : writeField x = x)
    (hy : writeField y = y) :
    ∃ v, utf8Encode (csvWrite [longHeader n p x y]) = longStart n q ++ v := by
  have hsplit : List.replicate p 'a' = List.replicate q 'a' ++ List.replicate (p - q) 'a' := by
    rw [List.replicate_append_replicate, Nat.add_sub_cancel' hq]
  refine ⟨utf8Encode (List.replicate (p - q) 'a' ++ longTail x y), ?_⟩
  rw [csvWrite_long n p hx hy, hsplit, longStart, List.cons_append, List.cons_append,
    utf8Encode_ascii (by decide), ← utf8Encode_append, ← utf8Encode_append]
  refine congrArg₂ List.cons rfl (congrArg utf8Encode ?_)
  simp only [List.append_assoc, List.cons_append, List.nil_append]

/-- A cell that is over the limit as CP932 stops the reader before it gets to `X座標`, if the chunk
with the end of that cell's line ends before. -/
theorem not_earlyLinesFit_long (cp : Cp932) {n p q k chunk : Nat} (hchunk : 0 < chunk)
    (hlong : Kozu.fieldLimit < 2 * n) (hq : q ≤ p) (hk : 2 * n + q + 4 = k * chunk) {x y : Text}
    (hx : writeField x = x) (hy : writeField y = y) :
    ¬ EarlyLinesFit cp chunk (csvWrite [longHeader n p x y]) := by
  obtain ⟨v, hv⟩ := longStart_append (n := n) hq hx hy
  obtain ⟨more, hmore⟩ := decodedChunks_extends cp hchunk (v := v)
    ((length_longStart n q).trans hk) (decode_longStart cp n q)
  have hsplit : '"' :: (misreadLong n ++ '\n' :: '"' :: ',' :: List.replicate q 'a') ++ more =
      ('"' :: misreadLong n) ++ '\n' :: ('"' :: ',' :: List.replicate q 'a' ++ more) := by
    simp
  have hline : ∀ c ∈ '"' :: misreadLong n, isNewline c = false := by
    refine List.forall_mem_cons.mpr ⟨by decide, ?_⟩
    intro c hc
    exact (Bool.or_eq_false_iff.mp (misreadLong_plain n c hc)).2
  rw [EarlyLinesFit, hv, ← hmore, hsplit, feed_firstLine_none hline (feed_misreadLong hlong)]
  exact Bool.false_ne_true

/-- The cells of such a header are within the limit. -/
theorem longHeader_within {n p : Nat} (hn : n < Kozu.fieldLimit) (hp : p ≤ Kozu.fieldLimit) :
    ∀ row ∈ [longHeader n p xLabel yLabel], ∀ f ∈ row, f.length ≤ Kozu.fieldLimit := by
  have hlabels : ∀ f ∈ [zukeiLabel, xLabel, yLabel], f.length ≤ Kozu.fieldLimit := by decide
  refine List.forall_mem_singleton.mpr ?_
  refine List.forall_mem_cons.mpr ⟨?_, List.forall_mem_cons.mpr ⟨?_, hlabels⟩⟩
  · rw [List.length_append, List.length_replicate, List.length_singleton]
    exact hn
  · rw [List.length_replicate]
    exact hp

theorem readCsv_long {n p : Nat} (hn : n < Kozu.fieldLimit) (hp : p ≤ Kozu.fieldLimit) :
    Kozu.readCsv labelCp932 8192 (labelBytes (csvWrite [longHeader n p xLabel yLabel])) =
      .ok [longHeader n p xLabel yLabel] := by
  have hencode : ∀ c ∈ csvWrite [longHeader n p xLabel yLabel],
      (labelCp932.encodeChar c).isSome = true := by
    have hall : (['±', '\n', '"', 'a'] ++ longTail xLabel yLabel).all
        (fun c => (labelEncodeChar c).isSome) = true := by decide
    have hcomma : ',' ∈ longTail xLabel yLabel := by decide
    intro c hc
    apply List.all_eq_true.mp hall c
    rw [csvWrite_long n p (by decide) (by decide)] at hc
    simp only [List.mem_append, List.mem_cons, List.mem_replicate, List.not_mem_nil,
      or_false] at hc ⊢
    rcases hc with (rfl | (⟨_, rfl⟩ | rfl) | rfl) | rfl | ⟨_, rfl⟩ | hc
    · simp
    · simp
    · simp
    · simp
    · exact Or.inr hcomma
    · simp
    · exact Or.inr hc
  have hread := Kozu.readCsv_cp932 (encode_of_forall labelCp932 hencode) 8192
  rw [csvReader_csvWrite _ (longHeader_within hn hp)] at hread
  cases hrows : Kozu.readCsv labelCp932 8192
      (labelBytes (csvWrite [longHeader n p xLabel yLabel])) with
  | error e =>
    exact absurd ((congrArg Except.toOption hrows).symm.trans hread) (Option.some_ne_none _).symm
  | ok rows =>
    have hsome := (congrArg Except.toOption hrows).symm.trans hread
    exact congrArg Except.ok (Option.some.inj hsome)

/-- A header in CP932 with a cell of 65538 characters is read and relabelled, but as UTF-8 that cell
has 131074 bytes before its line feed. The second run takes them for CP932 characters, ends with
`csv.Error` and writes nothing. -/
theorem relabel_twice_overlong :
    Kozu.readCsv labelCp932 8192 (labelBytes (csvWrite [longHeader 65537 8192 xLabel yLabel])) =
      .ok [longHeader 65537 8192 xLabel yLabel] ∧
    csvToGeoparquetTochi labelCp932 8192
        (labelBytes (csvWrite [longHeader 65537 8192 xLabel yLabel])) =
      some (utf8Encode (csvWrite [longHeader 65537 8192 yLabel xLabel])) ∧
    csvToGeoparquetTochi labelCp932 8192
        (utf8Encode (csvWrite [longHeader 65537 8192 yLabel xLabel])) = none := by
  have hmem : ∀ x y : Text, zukeiLabel ∈ longHeader 65537 8192 x y ∧
      x ∈ longHeader 65537 8192 x y ∧ y ∈ longHeader 65537 8192 x y := by
    intro x y
    simp only [longHeader, List.mem_cons, true_or, or_true, and_self]
  have hlimit : Kozu.fieldLimit = 131072 := rfl
  have hread : Kozu.readCsv labelCp932 8192
      (labelBytes (csvWrite [longHeader 65537 8192 xLabel yLabel])) =
        .ok [longHeader 65537 8192 xLabel yLabel] :=
    readCsv_long (by rw [hlimit]; omega) (by rw [hlimit]; omega)
  have hfirst := csvToGeoparquetTochi_header (congrArg Except.toOption hread)
    (hmem xLabel yLabel).1 (hmem xLabel yLabel).2.1
  rw [map_swapLabel_long] at hfirst
  refine ⟨hread, hfirst, ?_⟩
  have hover : ¬ EarlyLinesFit labelCp932 8192 (csvWrite [longHeader 65537 8192 yLabel xLabel]) :=
    not_earlyLinesFit_long labelCp932 (q := 8186) (k := 17) (by omega) (by rw [hlimit]; omega)
      (by omega) (by omega) (by decide) (by decide)
  have hdecode := decode_labelled labelCp932 (hmem yLabel xLabel).2.2 []
  rw [csvToGeoparquetTochi, Kozu.readCsv_taken fun hrej => hover hrej.2, Kozu.misread, hdecode]
  rfl

end GdalFull.Convert
