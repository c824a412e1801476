import GdalFull.Lib.Mojibake

/-!
# The preprocessor of 公図 and its choice of an encoding

`csv_to_geoparquet_kozu.py` reads a CSV file with the first of the codecs cp932, utf-8 and
utf-8-sig that does not fail, finds the columns `X1` to `Y4`, and writes the records that are
long enough with a WKT polygon, in UTF-8.

`kozu_same_iff` compares the run on the UTF-8 bytes of a text with the run on its CP932 bytes.
UTF-8 bytes that happen to be CP932 are taken for CP932, and then the outputs are the same only
if what is written of the text is ASCII, or if both runs fail.
-/

namespace GdalFull.Convert.Kozu

open GdalFull.Lib

abbrev Record := List Text

inductive KozuError where
  | csvError
  | emptyCsv
  | noColumns
  deriving DecidableEq

/-- `csv.field_size_limit()`. -/
def fieldLimit : Nat := 131072

/-! ## Reading -/

/-- The loop over the encodings; `utf-8` with `errors="replace"` comes last and never fails. -/
def readFirst (chunk : Nat) (bytes : Bytes) : List Decoder → Except KozuError (List Record)
  | [] =>
    match csvReader fieldLimit (utf8Replace bytes) with
    | some rows => .ok rows
    | none => .error .csvError
  | decoder :: decoders =>
    match readRows fieldLimit chunk decoder bytes with
    | .ok rows => .ok rows
    | .error .csv => .error .csvError
    | .error .unicode => readFirst chunk bytes decoders

def readCsv (cp : Cp932) (chunk : Nat) (bytes : Bytes) : Except KozuError (List Record) :=
  readFirst chunk bytes [cp.decoder, utf8Decoder, utf8SigDecoder]

/-! ## Columns -/

def required : List Text :=
  ["X1", "Y1", "X2", "Y2", "X3", "Y3", "X4", "Y4"].map String.toList

/-- `h.strip().upper()`; of the characters that become `X` or `Y` alone, all are ASCII. -/
def hnorm (h : Text) : Text :=
  (strip h).map Char.toUpper

/-- `h.strip().upper().replace(" ", "")`. -/
def hnormNoBlank (h : Text) : Text :=
  (hnorm h).filter (· ≠ ' ')

/-- The last column whose header is `name`. -/
def columnOf (norm : Text → Text) (header : Record) (name : Text) : Option Nat :=
  header.zipIdx.foldl (fun found x => if norm x.1 = name then some x.2 else found) none

/-- `colmap`, in the order of `required`. -/
def colmap (header : Record) : Option (List Nat) :=
  match required.mapM (columnOf hnormNoBlank header) with
  | some cols => some cols
  | none =>
    match required.mapM (columnOf hnorm header) with
    | some cols => some cols
    | none => if 13 ≤ header.length then some [5, 6, 7, 8, 9, 10, 11, 12] else none

/-! ## Writing -/

/-- `wkt`; `floatRepr` is `float` and the text of its result. -/
def wkt (floatRepr : Text → Option Text) (cols : List Nat) (row : Record) : Text :=
  match cols.mapM fun i => (row[i]?).bind floatRepr with
  | some [x1, y1, x2, y2, x3, y3, x4, y4] =>
    "POLYGON((".toList ++ x1 ++ ' ' :: y1 ++ ',' :: x2 ++ ' ' :: y2 ++ ',' :: x3 ++ ' ' :: y3 ++
      ',' :: x4 ++ ' ' :: y4 ++ ',' :: x1 ++ ' ' :: y1 ++ "))".toList
  | _ => []

/-- A record that is long enough for all columns. -/
def kept (cols : List Nat) (row : Record) : Bool :=
  cols.foldl max 0 < row.length

def outRows (floatRepr : Text → Option Text) (rows : List Record) :
    Except KozuError (List Record) :=
  match rows with
  | [] => .error .emptyCsv
  | header :: data =>
    match colmap header with
    | none => .error .noColumns
    | some cols =>
      .ok ((header ++ ["WKT".toList]) ::
        (data.filter (kept cols)).map fun row => row ++ [wkt floatRepr cols row])

/-- The output file of a run that exits 0; the run exits 1 with an error. -/
def kozuMain (cp : Cp932) (chunk : Nat) (floatRepr : Text → Option Text) (bytes : Bytes) :
    Except KozuError Bytes := do
  let rows ← readCsv cp chunk bytes
  let out ← outRows floatRepr rows
  return utf8Encode (csvWrite out)

/-! ## One text, two encodings -/

/-- The records have a header with the columns. -/
def Usable (rows : Option (List Record)) : Prop :=
  ∃ header data cols, rows = some (header :: data) ∧ colmap header = some cols

/-- The header and the records that are written are ASCII. -/
def AsciiKept (rows : Option (List Record)) : Prop :=
  ∀ header data cols, rows = some (header :: data) → colmap header = some cols →
    (∀ cell ∈ header, Ascii cell) ∧ ∀ row ∈ data.filter (kept cols), ∀ cell ∈ row, Ascii cell

/-- The records that come of the UTF-8 bytes of a text when they are taken for CP932. -/
def misread (cp : Cp932) (t : Text) : Option (List Record) :=
  (cp.decode (utf8Encode t)).bind (csvReader fieldLimit)

/-- The UTF-8 bytes of a text are not CP932, and no line that is read before that is found has
a field over the limit. -/
def Rejected (cp : Cp932) (chunk : Nat) (t : Text) : Prop :=
  cp.decode (utf8Encode t) = none ∧
    (Reader.start.feed fieldLimit
      (completeLines (decodedChunks cp.decoder chunk (utf8Encode t)))).isSome = true

/-- What is written for the records, `none` for exit status 1. -/
def outFile (floatRepr : Text → Option Text) (rows : Option (List Record)) : Option Bytes :=
  rows.bind fun rows => (outRows floatRepr rows).toOption.map fun out => utf8Encode (csvWrite out)

theorem kozuMain_of_readCsv (cp : Cp932) (chunk : Nat) (floatRepr : Text → Option Text)
    (bytes : Bytes) :
    (kozuMain cp chunk floatRepr bytes).toOption =
      outFile floatRepr (readCsv cp chunk bytes).toOption := by
  unfold kozuMain outFile
  cases readCsv cp chunk bytes with
  | error e => rfl
  | ok rows =>
    change (outRows floatRepr rows >>= fun out => pure (utf8Encode (csvWrite out))).toOption =
      (outRows floatRepr rows).toOption.map fun out => utf8Encode (csvWrite out)
    cases outRows floatRepr rows <;> rfl

theorem readRows_whole {chunk : Nat} {decoder : Decoder} {bytes : Bytes} {text : Text}
    (h : decoder.whole bytes = some text) :
    readRows fieldLimit chunk decoder bytes =
      match csvReader fieldLimit text with
      | some rows => .ok rows
      | none => .error .csv := by
  cases hcsv : csvReader fieldLimit text <;> simp only [readRows, h, hcsv]

/-- The first codec that reads the whole file decides. -/
theorem readFirst_whole {chunk : Nat} {decoder : Decoder} {decoders : List Decoder}
    {bytes : Bytes} {text : Text} (h : decoder.whole bytes = some text) :
    (readFirst chunk bytes (decoder :: decoders)).toOption = csvReader fieldLimit text := by
  rw [readFirst, readRows_whole h]
  cases csvReader fieldLimit text <;> rfl

/-- After a codec that fails the next one is tried, unless a line that was read before has a field
over the limit. -/
theorem readFirst_none {chunk : Nat} {decoder : Decoder} {decoders : List Decoder} {bytes : Bytes}
    (h : decoder.whole bytes = none) :
    (readFirst chunk bytes (decoder :: decoders)).toOption =
      (Reader.start.feed fieldLimit (completeLines (decodedChunks decoder chunk bytes))).bind
        fun _ => (readFirst chunk bytes decoders).toOption := by
  rw [readFirst, readRows, h]
  dsimp only
  cases Reader.start.feed fieldLimit (completeLines (decodedChunks decoder chunk bytes)) <;> rfl

theorem readCsv_cp932 {cp : Cp932} {t : Text} {bytes : Bytes} (h : cp.encode t = some bytes)
    (chunk : Nat) : (readCsv cp chunk bytes).toOption = csvReader fieldLimit t :=
  readFirst_whole (decode_encode cp h)

/-- UTF-8 bytes are read as UTF-8 after cp932 has failed. -/
theorem readCsv_rejected {cp : Cp932} {chunk : Nat} {t : Text} (h : Rejected cp chunk t) :
    (readCsv cp chunk (utf8Encode t)).toOption = csvReader fieldLimit t := by
  obtain ⟨hdecode, hfeed⟩ := h
  obtain ⟨r, hr⟩ := Option.isSome_iff_exists.mp hfeed
  rw [readCsv, readFirst_none hdecode, hr, Option.bind_some]
  exact readFirst_whole (whole_utf8Encode t)

theorem readCsv_taken {cp : Cp932} {chunk : Nat} {t : Text} (h : ¬ Rejected cp chunk t) :
    (readCsv cp chunk (utf8Encode t)).toOption = misread cp t := by
  rw [misread, readCsv]
  cases hdecode : cp.decode (utf8Encode t) with
  | some t' => exact readFirst_whole hdecode
  | none =>
    rw [readFirst_none hdecode]
    cases hfeed : Reader.start.feed fieldLimit
        (completeLines (decodedChunks cp.decoder chunk (utf8Encode t))) with
    | none => rfl
    | some r => exact absurd ⟨hdecode, by rw [hfeed]; rfl⟩ h

/-! ## What is written -/

theorem outFile_eq_none_iff (floatRepr : Text → Option Text) (rows : Option (List Record)) :
    outFile floatRepr rows = none ↔ ¬ Usable rows := by
  cases rows with
  | none => simp [outFile, Usable]
  | some rows =>
    cases rows with
    | nil => simp [outFile, outRows, Usable, Except.toOption]
    | cons header data =>
      cases hcols : colmap header with
      | none => simp [outFile, outRows, Usable, Except.toOption, hcols]
      | some cols => simp [outFile, outRows, Usable, Except.toOption, hcols]

/-- Two files are the same when the header and the kept records are. -/
theorem outFile_eq_iff (floatRepr : Text → Option Text) {header header' : Record}
    {data data' : List Record} {cols cols' : List Nat} (hcols : colmap header = some cols)
    (hcols' : colmap header' = some cols') :
    outFile floatRepr (some (header' :: data')) = outFile floatRepr (some (header :: data)) ↔
      header' = header ∧ data'.filter (kept cols) = data.filter (kept cols) := by
  have hout : ∀ {header : Record} {data : List Record} {cols : List Nat},
      colmap header = some cols → outFile floatRepr (some (header :: data)) =
        some (utf8Encode (csvWrite ((header ++ ["WKT".toList]) ::
          (data.filter (kept cols)).map fun row => row ++ [wkt floatRepr cols row]))) := by
    intro header data cols hcols
    simp [outFile, outRows, Except.toOption, hcols]
  have hinj : Function.Injective fun row : Record => row ++ [wkt floatRepr cols row] := by
    intro row₁ row₂ h
    exact (List.append_inj' h rfl).1
  rw [hout hcols, hout hcols', Option.some_inj, utf8Encode_injective.eq_iff,
    csvWrite_injective.eq_iff, List.cons.injEq, List.append_cancel_right_eq]
  constructor
  · rintro ⟨rfl, hdata⟩
    cases hcols.symm.trans hcols'
    exact ⟨rfl, hinj.list_map hdata⟩
  · rintro ⟨rfl, hdata⟩
    cases hcols.symm.trans hcols'
    exact ⟨rfl, by rw [hdata]⟩

/-- The output for a misread text is that for the text when what is written of it is ASCII. -/
theorem outFile_twin_iff {cp : Cp932} (floatRepr : Text → Option Text) {rows rows' : List Record}
    (h : List.Forall₂ (List.Forall₂ (Twin cp)) rows rows') (husable : Usable (some rows))
    (husable' : Usable (some rows')) :
    outFile floatRepr (some rows') = outFile floatRepr (some rows) ↔ AsciiKept (some rows) := by
  obtain ⟨header, data, cols, hrows, hcols⟩ := husable
  obtain ⟨header', data', cols', hrows', hcols'⟩ := husable'
  cases hrows
  cases hrows'
  obtain ⟨hheader, hdata⟩ := List.forall₂_cons.mp h
  have hrecord : ∀ {row row' : Record}, List.Forall₂ (Twin cp) row row' →
      (row' = row ↔ ∀ cell ∈ row, Ascii cell) := forall₂_eq_iff Twin.eq_iff
  have hkept : List.Forall₂ (List.Forall₂ (Twin cp)) (data.filter (kept cols))
      (data'.filter (kept cols)) := by
    refine List.rel_filter ?_ hdata
    intro row row' hrow
    simp only [kept, hrow.length_eq]
  rw [outFile_eq_iff floatRepr hcols hcols', hrecord hheader, forall₂_eq_iff hrecord hkept]
  constructor
  · intro hascii header₁ data₁ cols₁ heq hcols₁
    cases heq
    cases hcols.symm.trans hcols₁
    exact hascii
  · intro hascii
    exact hascii header data cols rfl hcols

theorem outFile_misread_iff (cp : Cp932) (floatRepr : Text → Option Text) (t : Text)
    (husable : Usable (csvReader fieldLimit t)) (husable' : Usable (misread cp t)) :
    outFile floatRepr (misread cp t) = outFile floatRepr (csvReader fieldLimit t) ↔
      AsciiKept (csvReader fieldLimit t) := by
  obtain ⟨header', data', _, hrows', _⟩ := id husable'
  obtain ⟨header, data, _, hrows, _⟩ := id husable
  obtain ⟨t', ht', hread'⟩ := Option.bind_eq_some_iff.mp hrows'
  have hrelated := csvReader_sameShape twin_congruent (sameShape_of_decode twin_of_decode ht')
    hrows hread'
  rw [hrows'] at husable' ⊢
  rw [hrows] at husable ⊢
  exact outFile_twin_iff floatRepr hrelated husable husable'

/-- **When the encoding does not matter.** The run on the UTF-8 bytes of a text and the run on
its CP932 bytes have the same exit status and the same output exactly if cp932 rejects the
UTF-8 bytes, or neither the text nor what it is misread as has the columns, or both have them
and the text is ASCII where it is written. -/
theorem kozu_same_iff (cp : Cp932) (chunk : Nat) (floatRepr : Text → Option Text) (t : Text)
    (bytes : Bytes) (h : cp.encode t = some bytes) :
    (kozuMain cp chunk floatRepr (utf8Encode t)).toOption =
        (kozuMain cp chunk floatRepr bytes).toOption ↔
      Rejected cp chunk t ∨
      ¬ Usable (csvReader fieldLimit t) ∧ ¬ Usable (misread cp t) ∨
      Usable (csvReader fieldLimit t) ∧ Usable (misread cp t) ∧
        AsciiKept (csvReader fieldLimit t) := by
  rw [kozuMain_of_readCsv, kozuMain_of_readCsv, readCsv_cp932 h]
  by_cases hrej : Rejected cp chunk t
  · rw [readCsv_rejected hrej]
    exact iff_of_true rfl (Or.inl hrej)
  · rw [readCsv_taken hrej]
    by_cases hu : Usable (csvReader fieldLimit t)
    · by_cases hu' : Usable (misread cp t)
      · rw [outFile_misread_iff cp floatRepr t hu hu']
        simp only [hrej, hu, hu', not_true_eq_false, false_and, true_and, false_or]
      · have hnone := (outFile_eq_none_iff floatRepr _).mpr hu'
        have hsome := mt (outFile_eq_none_iff floatRepr _).mp (not_not.mpr hu)
        rw [hnone]
        simp only [hrej, hu, hu', not_true_eq_false, false_and, and_false, or_false, iff_false]
        exact fun heq => hsome heq.symm
    · by_cases hu' : Usable (misread cp t)
      · have hnone := (outFile_eq_none_iff floatRepr _).mpr hu
        have hsome := mt (outFile_eq_none_iff floatRepr _).mp (not_not.mpr hu')
        rw [hnone]
        simp only [hrej, hu, hu', not_true_eq_false, false_and, and_false, or_false, iff_false]
        exact hsome
      · rw [(outFile_eq_none_iff floatRepr _).mpr hu, (outFile_eq_none_iff floatRepr _).mpr hu']
        exact iff_of_true rfl (Or.inr (Or.inl ⟨hu, hu'⟩))

/-! ## Two texts -/

/-- The part of CP932 that the two texts below need. -/
def sampleTable : List (UInt8 × UInt8 × Char) :=
  [(0x82, 0xA0, 'あ'), (0xE3, 0x81, '縺'), (0x82, 0xE3, 'ゅ'), (0x81, 0x82, '≠')]

def samplePair (b₁ b₂ : UInt8) : Option Char :=
  sampleTable.findSome? fun x => if x.1 = b₁ ∧ x.2.1 = b₂ then some x.2.2 else none

def sampleEncodeChar (c : Char) : Option Bytes :=
  if c = 'あ' then some [0x82, 0xA0]
  else if c.toNat < 0x80 then some [UInt8.ofNat c.toNat]
  else none

theorem samplePair_mem {b₁ b₂ : UInt8} {c : Char} (h : samplePair b₁ b₂ = some c) :
    (b₁, b₂, c) ∈ sampleTable :=
  mem_of_findSome?_pair h

def sampleCp932 : Cp932 where
  pair := samplePair
  encodeChar := sampleEncodeChar
  trail := by
    intro b₁ b₂ c h
    have hall : ∀ x ∈ sampleTable, 0x40 ≤ x.2.1.toNat := by decide
    exact hall _ (samplePair_mem h)
  wide := by
    intro b₁ b₂ c h
    have hall : ∀ x ∈ sampleTable, 0x80 ≤ x.2.2.toNat := by decide
    exact hall _ (samplePair_mem h)
  unassigned := by
    intro b
    have hall : ∀ x ∈ sampleTable, x.1 ≠ 0xEF := by decide
    apply Option.eq_none_iff_forall_ne_some.mpr
    intro c h
    exact hall _ (samplePair_mem h) rfl
  own := by
    intro b₁ b₂ c h hprefix
    have hall : ∀ x ∈ sampleTable, ¬ [x.1, x.2.1] <+: String.utf8EncodeChar x.2.2 := by decide
    exact absurd hprefix (hall _ (samplePair_mem h))
  decode_encode := by
    intro c bytes h
    unfold sampleEncodeChar at h
    split_ifs at h with hc hlt
    · cases h
      subst hc
      exact Or.inr ⟨0x82, 0xA0, rfl, by decide, by decide⟩
    · cases h
      exact Or.inl ⟨_, rfl, cp932Single_asciiByte hlt⟩

/-- Its UTF-8 bytes are not CP932: `82` begins a pair, and a comma follows. -/
def oneKanaText : Text := "あ,X1,Y1,X2,Y2,X3,Y3,X4,Y4".toList

def oneKanaBytes : Bytes :=
  [0x82, 0xA0] ++ utf8Encode ",X1,Y1,X2,Y2,X3,Y3,X4,Y4".toList

/-- Both byte strings come out as the one text. -/
theorem kozu_same_kana :
    utf8Encode oneKanaText ≠ oneKanaBytes ∧
      (kozuMain sampleCp932 8192 some (utf8Encode oneKanaText)).toOption =
        (kozuMain sampleCp932 8192 some oneKanaBytes).toOption := by
  have hencode : sampleCp932.encode oneKanaText = some oneKanaBytes := by decide
  have hrejected : Rejected sampleCp932 8192 oneKanaText := ⟨by decide, by decide⟩
  exact ⟨by decide, (kozu_same_iff sampleCp932 8192 some oneKanaText _ hencode).mpr
    (Or.inl hrejected)⟩

/-- The same with `ああ`; its UTF-8 bytes are also the CP932 bytes of `縺ゅ≠`. -/
def kanaText : Text := "ああ,X1,Y1,X2,Y2,X3,Y3,X4,Y4".toList

def kanaBytes : Bytes :=
  [0x82, 0xA0, 0x82, 0xA0] ++ utf8Encode ",X1,Y1,X2,Y2,X3,Y3,X4,Y4".toList

/-- Both runs exit 0, and the run on the UTF-8 bytes writes `縺ゅ≠` for `ああ`. -/
theorem kozu_mojibake :
    sampleCp932.encode kanaText = some kanaBytes ∧
    kozuMain sampleCp932 8192 some (utf8Encode kanaText) =
      .ok (utf8Encode "縺ゅ≠,X1,Y1,X2,Y2,X3,Y3,X4,Y4,WKT\r\n".toList) ∧
    kozuMain sampleCp932 8192 some kanaBytes =
      .ok (utf8Encode "ああ,X1,Y1,X2,Y2,X3,Y3,X4,Y4,WKT\r\n".toList) ∧
    (kozuMain sampleCp932 8192 some (utf8Encode kanaText)).toOption ≠
      (kozuMain sampleCp932 8192 some kanaBytes).toOption := by
  decide

end GdalFull.Convert.Kozu
