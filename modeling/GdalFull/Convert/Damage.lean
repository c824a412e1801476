import GdalFull.Convert.Bom
import GdalFull.Lib.Resync

/-!
# A damaged byte

A file in CP932 in which one byte is replaced may not be CP932 any more. The codecs that
`csv_to_geoparquet_tochi.py` then tries are those of UTF-8, and utf-8 with `errors="replace"` does
not fail, so that cp932 with `errors="replace"` is never reached. So the whole file is read as
UTF-8, and every cell that is not ASCII comes out as another text, not only the damaged one.

`damage_iff`: the damage stays in its cell exactly if the other cells are ASCII, as long as the new
byte does not move the separators and no field gets over the limit. For a file with a header, whose
labels are not ASCII, it never does. A file that comes out as the first one or two bytes of a byte
order mark is empty for utf-8-sig, and nothing is written.
-/

namespace GdalFull.Convert

open GdalFull.Lib

/-! ## Reading a damaged file -/

/-- One or two bytes of a byte order mark, and nothing else. -/
def CutBom (bytes : Bytes) : Prop :=
  bytes ≠ [] ∧ bytes.length < 3 ∧ bytes <+: utf8Bom

instance (bytes : Bytes) : Decidable (CutBom bytes) :=
  inferInstanceAs (Decidable (_ ∧ _ ∧ _))

theorem sigDecoder_whole_none {bytes : Bytes} (hbom : ¬ CutBom bytes)
    (h : Decoder.whole utf8Decoder bytes = none) : Decoder.whole utf8SigDecoder bytes = none := by
  have hutf8 : ∀ t, utf8Decoder bytes ≠ some (t, []) := by
    intro t ht
    rw [Decoder.whole, ht] at h
    cases h
  have hsig : ∀ t, utf8SigDecoder bytes ≠ some (t, []) := by
    intro t ht
    unfold utf8SigDecoder at ht
    split_ifs at ht with hshort hmark
    · have hnil : bytes = [] := by_contra fun hne => hbom ⟨hne, hshort⟩
      subst hnil
      exact hutf8 [] (by rw [utf8Decoder])
    · obtain ⟨rest, rfl⟩ := hmark
      have hrest : (utf8Bom ++ rest).drop 3 = rest := rfl
      rw [hrest] at ht
      have hbytes := utf8Decoder_some ht
      rw [List.append_nil] at hbytes
      apply hutf8 ('\uFEFF' :: t)
      rw [hbytes, ← utf8Encode_bom, utf8Decoder_encode]
    · exact hutf8 t ht
  unfold Decoder.whole
  split
  · rename_i t ht
    exact absurd ht (hsig t)
  · rfl

/-- Once no codec reads the whole file, what is read is read with replacement characters. -/
theorem readFirst_replace {chunk : Nat} {bytes : Bytes} {decoders : List Decoder}
    (hnone : ∀ d ∈ decoders, Decoder.whole d bytes = none) {rows : List Record}
    (h : (Kozu.readFirst chunk bytes decoders).toOption = some rows) :
    csvReader Kozu.fieldLimit (utf8Replace bytes) = some rows := by
  induction decoders with
  | nil =>
    rw [Kozu.readFirst] at h
    cases hcsv : csvReader Kozu.fieldLimit (utf8Replace bytes) with
    | none =>
      rw [hcsv] at h
      cases h
    | some l =>
      rw [hcsv] at h
      exact h
  | cons d decoders ih =>
    obtain ⟨hd, hrest⟩ := List.forall_mem_cons.mp hnone
    rw [Kozu.readFirst_none hd] at h
    obtain ⟨_, _, h⟩ := Option.bind_eq_some_iff.mp h
    exact ih hrest h

/-- Its first two bytes are a lead byte of CP932 and a byte that no character has behind it. -/
theorem decode_cutBom (cp : Cp932) {bytes : Bytes} (hbom : CutBom bytes) :
    cp.decode bytes = none := by
  obtain ⟨hne, hlen, tail, htail⟩ := hbom
  match bytes, hne, hlen with
  | [b], _, _ =>
    cases htail
    exact decode_lead cp (by decide)
  | [b, b'], _, _ =>
    cases htail
    rw [decode_pair cp (by decide), cp.unassigned]
    rfl

/-- A byte order mark that is cut short is read as an empty file. -/
theorem readCsv_cutBom {cp : Cp932} {chunk : Nat} {bytes : Bytes} (hbom : CutBom bytes)
    {rows : List Record} (h : (Kozu.readCsv cp chunk bytes).toOption = some rows) : rows = [] := by
  have hutf8 : Decoder.whole utf8Decoder bytes = none := by
    obtain ⟨hne, hlen, tail, htail⟩ := hbom
    match bytes, hne, hlen with
    | [b], _, _ =>
      cases htail
      decide +kernel
    | [b, b'], _, _ =>
      cases htail
      decide +kernel
  have hsig : Decoder.whole utf8SigDecoder bytes = some [] := by
    rw [Decoder.whole, utf8SigDecoder, if_pos hbom.2]
  rw [Kozu.readCsv, Kozu.readFirst_none (decode_cutBom cp hbom)] at h
  obtain ⟨_, _, h⟩ := Option.bind_eq_some_iff.mp h
  rw [Kozu.readFirst_none hutf8] at h
  obtain ⟨_, _, h⟩ := Option.bind_eq_some_iff.mp h
  rw [Kozu.readFirst_whole hsig] at h
  cases h
  rfl

/-- A file that is not CP932 is read as UTF-8, with replacement characters where it is none. -/
theorem readCsv_replace {cp : Cp932} {chunk : Nat} {bytes : Bytes} (hcp : cp.decode bytes = none)
    (hbom : ¬ CutBom bytes) {rows : List Record}
    (h : (Kozu.readCsv cp chunk bytes).toOption = some rows) :
    csvReader Kozu.fieldLimit (utf8Replace bytes) = some rows := by
  cases hutf8 : Decoder.whole utf8Decoder bytes with
  | none =>
    apply readFirst_replace _ h
    intro d hd
    rcases List.mem_cons.mp hd with rfl | hd
    · exact hcp
    · rcases List.mem_cons.mp hd with rfl | hd
      · exact hutf8
      · rw [List.mem_singleton.mp hd]
        exact sigDecoder_whole_none hbom hutf8
  | some t =>
    rw [Kozu.readCsv, Kozu.readFirst_none hcp] at h
    obtain ⟨_, _, h⟩ := Option.bind_eq_some_iff.mp h
    rw [Kozu.readFirst_whole hutf8] at h
    rw [utf8Replace_of_whole hutf8, h]

/-- A file of at most as many bytes as the limit is read. -/
theorem readFirst_isSome {chunk : Nat} {bytes : Bytes} (hlen : bytes.length ≤ Kozu.fieldLimit)
    {decoders : List Decoder}
    (hdecoders : ∀ d ∈ decoders, ∀ {p : Bytes} {t : Text} {rest : Bytes}, d p = some (t, rest) →
      t.length ≤ p.length) :
    (Kozu.readFirst chunk bytes decoders).toOption.isSome = true := by
  induction decoders with
  | nil =>
    obtain ⟨rows, hrows⟩ := exists_csvReader (Nat.le_trans (utf8Replace_length_le bytes) hlen)
    rw [Kozu.readFirst, hrows]
    rfl
  | cons d decoders ih =>
    obtain ⟨hd, hrest⟩ := List.forall_mem_cons.mp hdecoders
    cases hwhole : Decoder.whole d bytes with
    | some t =>
      have ht : t.length ≤ bytes.length := by
        unfold Decoder.whole at hwhole
        split at hwhole
        · rename_i s hs
          cases hwhole
          exact hd hs
        · cases hwhole
      obtain ⟨rows, hrows⟩ := exists_csvReader (Nat.le_trans ht hlen)
      rw [Kozu.readFirst_whole hwhole, hrows]
      rfl
    | none =>
      obtain ⟨r, hr⟩ := Option.isSome_iff_exists.mp (feed_decodedChunks hd chunk hlen)
      rw [Kozu.readFirst_none hwhole, hr]
      exact ih hrest

theorem length_le_utf8Encode (t : Text) : t.length ≤ (utf8Encode t).length := by
  induction t with
  | nil => exact Nat.le_refl 0
  | cons c t ih =>
    have hpos := c.utf8Size_pos
    rw [utf8Encode_cons, List.length_append, String.length_utf8EncodeChar, List.length_cons]
    omega

theorem utf8Decoder_length_le {bytes : Bytes} {t : Text} {rest : Bytes}
    (h : utf8Decoder bytes = some (t, rest)) : t.length ≤ bytes.length := by
  have hlen := length_le_utf8Encode t
  rw [utf8Decoder_some h, List.length_append]
  omega

theorem utf8SigDecoder_length_le {bytes : Bytes} {t : Text} {rest : Bytes}
    (h : utf8SigDecoder bytes = some (t, rest)) : t.length ≤ bytes.length := by
  unfold utf8SigDecoder at h
  split_ifs at h
  · cases h
    exact Nat.zero_le _
  · have hlen := utf8Decoder_length_le h
    rw [List.length_drop] at hlen
    omega
  · exact utf8Decoder_length_le h

theorem readCsv_isSome (cp : Cp932) (chunk : Nat) {bytes : Bytes}
    (h : bytes.length ≤ Kozu.fieldLimit) :
    (Kozu.readCsv cp chunk bytes).toOption.isSome = true := by
  apply readFirst_isSome h
  intro d hd
  rcases List.mem_cons.mp hd with rfl | hd
  · exact decoder_length_le cp
  · rcases List.mem_cons.mp hd with rfl | hd
    · exact utf8Decoder_length_le
    · rw [List.mem_singleton.mp hd]
      exact utf8SigDecoder_length_le

/-! ## Damage that stays in its cell -/

/-- The cell is one of `座標系` and `X座標` in the header. -/
def IsLabelCell (first : Record) (p : Nat × Nat) : Prop :=
  p.1 = 0 ∧ (first[p.2]? = some zukeiLabel ∨ first[p.2]? = some xLabel)

/-- Where a cell is written. -/
def outPlace (first : Record) (p : Nat × Nat) : Nat × Nat :=
  if isGaiku first then p else (p.1 + 1, p.2)

/-- The records of a file and those of the damaged file are classified the same way, unless the
damaged cell is one of the labels, and what is written is the same in every other cell. -/
def Local (p : Nat × Nat) (rows rows' : List Record) : Prop :=
  ∃ first rest first' rest' zone zone' out out',
    rows = first :: rest ∧ rows' = first' :: rest' ∧
    tochiPre rows = some (zone, out) ∧ tochiPre rows' = some (zone', out') ∧
    (¬ IsLabelCell first p → isGaiku first' = isGaiku first) ∧
    SameBut (outPlace first p) out out'

/-- The damage stays local: both files are read, and the outputs differ in the damaged cell at
most. -/
def StaysLocal (cp : Cp932) (chunk : Nat) (p : Nat × Nat) (bytes bytes' : Bytes) : Prop :=
  ∃ rows rows', (Kozu.readCsv cp chunk bytes).toOption = some rows ∧
    (Kozu.readCsv cp chunk bytes').toOption = some rows' ∧ Local p rows rows'

/-- The records of the bytes as such. -/
def rawRows (bytes : Bytes) : List Record :=
  (csvReader bytes.length (rawText bytes)).getD []

/-- The damaged file is read and is not taken for an empty one, the new byte does not move the other
cells, and these are ASCII. -/
structure Harmless (cp : Cp932) (chunk : Nat) (p : Nat × Nat) (bytes bytes' : Bytes)
    (rows : List Record) : Prop where
  read : (Kozu.readCsv cp chunk bytes').toOption.isSome = true
  noBom : ¬ CutBom bytes'
  inPlace : SameBut p (rawRows bytes) (rawRows bytes')
  ascii : ∀ i j cell, (i, j) ≠ p → cellAt rows i j = some cell → Ascii cell

theorem csvReader_rawRows (bytes : Bytes) :
    csvReader bytes.length (rawText bytes) = some (rawRows bytes) := by
  have hlen : (rawText bytes).length ≤ bytes.length := Nat.le_of_eq (List.length_map _)
  obtain ⟨rows, hrows⟩ := exists_csvReader hlen
  rw [rawRows, hrows, Option.getD_some]

/-- A header has a label beside any one cell. -/
theorem exists_label {first : Record} (h : isGaiku first = true) (k : Nat) :
    ∃ j label, j ≠ k ∧ first[j]? = some label ∧ (label = zukeiLabel ∨ label = xLabel) := by
  simp only [isGaiku, Bool.and_eq_true, decide_eq_true_eq] at h
  obtain ⟨i, hi⟩ := List.mem_iff_getElem?.mp h.1
  obtain ⟨j, hj⟩ := List.mem_iff_getElem?.mp h.2
  by_cases hik : i = k
  · refine ⟨j, xLabel, ?_, hj, Or.inr rfl⟩
    rintro rfl
    rw [hik, hj] at hi
    exact absurd (Option.some.inj hi) (by decide)
  · exact ⟨i, zukeiLabel, hik, hi, Or.inl rfl⟩

theorem not_ascii_label {label : Text} (h : label = zukeiLabel ∨ label = xLabel) :
    ¬ Ascii label ∧ ¬ Ascii (swapLabel label) := by
  rcases h with rfl | rfl
  · exact ⟨by decide, by decide⟩
  · exact ⟨by decide, by decide⟩

/-- A header in which all cells but one are ASCII is none. -/
theorem not_isGaiku {first : Record} {k : Nat}
    (h : ∀ j cell, j ≠ k → first[j]? = some cell → Ascii cell) : isGaiku first = false := by
  by_contra hg
  rw [Bool.not_eq_false] at hg
  obtain ⟨j, label, hjk, hj, hlabel⟩ := exists_label hg k
  exact (not_ascii_label hlabel).1 (h j label hjk hj)

theorem cellAt_head (first : Record) (rest : List Record) (j : Nat) :
    cellAt (first :: rest) 0 j = first[j]? := rfl

/-- The same with a header in front. -/
theorem sameBut_cons_iff {header : Record} {p : Nat × Nat} {rows rows' : List Record} :
    SameBut (p.1 + 1, p.2) (header :: rows) (header :: rows') ↔ SameBut p rows rows' := by
  constructor
  · intro h
    refine ⟨(List.cons.inj h.lengths).2, ?_⟩
    intro i j hij
    apply h.cells (i + 1) j
    intro heq
    obtain ⟨hi, hj⟩ := Prod.mk.inj heq
    exact hij (Prod.ext (Nat.succ.inj hi) hj)
  · intro h
    refine ⟨?_, ?_⟩
    · rw [List.map_cons, List.map_cons, h.lengths]
    · intro i j hij
      cases i with
      | zero => rfl
      | succ i =>
        apply h.cells i j
        rintro rfl
        exact hij rfl

theorem local_of_sameBut {p : Nat × Nat} {rows rows' : List Record} (hne : rows ≠ [])
    (h : SameBut p rows rows')
    (hascii : ∀ i j cell, (i, j) ≠ p → cellAt rows i j = some cell → Ascii cell) :
    Local p rows rows' := by
  obtain ⟨first, rest, rfl⟩ := List.exists_cons_of_ne_nil hne
  cases rows' with
  | nil => cases h.lengths
  | cons first' rest' =>
    have hcol : ∀ j, j ≠ p.2 → (0, j) ≠ p := by
      rintro j hj rfl
      exact hj rfl
    have hg : isGaiku first = false :=
      not_isGaiku fun j cell hj hcell => hascii 0 j cell (hcol j hj) hcell
    have hg' : isGaiku first' = false := by
      apply not_isGaiku
      intro j cell hj hcell
      apply hascii 0 j cell (hcol j hj)
      rw [← h.cells 0 j (hcol j hj)]
      exact hcell
    have hlen : first'.length = first.length := (List.cons.inj h.lengths).1
    refine ⟨first, rest, first', rest', _, _, _, _, rfl, rfl, tochiPre_headerless hg rest,
      tochiPre_headerless hg' rest', fun _ => hg'.trans hg.symm, ?_⟩
    rw [outPlace, hg, if_neg Bool.false_ne_true, hlen]
    exact sameBut_cons_iff.mpr h

/-- Records of ASCII cells are read alike in CP932 and in UTF-8. -/
theorem sameBut_of_harmless {cp : Cp932} {chunk : Nat} {p : Nat × Nat} {bytes bytes' : Bytes}
    {t : Text} {rows rows' : List Record} (hdecode : cp.decode bytes = some t)
    (hcsv : csvReader Kozu.fieldLimit t = some rows)
    (hcsv' : csvReader Kozu.fieldLimit (utf8Replace bytes') = some rows')
    (h : Harmless cp chunk p bytes bytes' rows) : SameBut p rows rows' := by
  have hraw := forall₂_decode hdecode (csvReader_rawRows bytes) hcsv
  have hraw' := forall₂_replace (csvReader_rawRows bytes') hcsv'
  refine ⟨?_, ?_⟩
  · rw [map_length_eq hraw', h.inPlace.lengths, map_length_eq hraw]
  · intro i j hij
    have hcell := cellAt_rel hraw i j
    have hcell' := cellAt_rel hraw' i j
    have hascii := h.ascii i j
    rw [h.inPlace.cells i j hij] at hcell'
    generalize cellAt (rawRows bytes) i j = raw at hcell hcell'
    generalize cellAt rows i j = cell at hcell hascii ⊢
    generalize cellAt rows' i j = cell' at hcell' ⊢
    cases hcell with
    | none =>
      cases hcell'
      rfl
    | some hf =>
      cases hcell' with
      | some hf' =>
        have hsame := hf (Or.inr (hascii _ hij rfl))
        rw [hsame] at hascii ⊢
        rw [hf' (Or.inl (hascii _ hij rfl))]

/-! ## Damage that does not -/

/-- A file with a header is changed elsewhere: another label is read as another text. -/
theorem not_local_of_isGaiku {cp : Cp932} {p : Nat × Nat} {first : Record}
    {rest rows' : List Record} (hg : isGaiku first = true)
    (hcells : ∀ i j, (i, j) ≠ p → Option.Rel (Reread cp) (cellAt rows' i j)
      (cellAt (first :: rest) i j)) : ¬ Local p (first :: rest) rows' := by
  rintro ⟨_, _, first', rest', zone, zone', out, out', hrows, rfl, hpre, hpre', _, hbut⟩
  cases hrows
  obtain ⟨j, label, hjp, hj, hlabel⟩ := exists_label hg p.2
  have hij : (0, j) ≠ p := by
    rintro rfl
    exact hjp rfl
  rw [tochiPre_header hg] at hpre
  cases hpre
  rw [outPlace, hg, if_pos rfl] at hbut
  have hout : cellAt out' 0 j = some (swapLabel label) := by
    rw [hbut.cells 0 j hij, cellAt_head, List.getElem?_map, hj]
    rfl
  rcases tochiPre_cases hpre' with ⟨_, rfl⟩ | ⟨_, rfl⟩
  · rw [cellAt_head, List.getElem?_map] at hout
    obtain ⟨cell, hcell, hswap⟩ := Option.map_eq_some_iff.mp hout
    have hrel := hcells 0 j hij
    rw [cellAt_head, cellAt_head, hj, hcell] at hrel
    have hsame := swapLabel_involutive.injective hswap
    cases hrel with
    | some hreread => exact (not_ascii_label hlabel).1 (hreread.ascii hsame.symm)
  · rw [cellAt_head] at hout
    exact (not_ascii_label hlabel).2 (ascii_of_mem_tochiHeader (List.mem_of_getElem? hout))

/-- If the damage stays local, the records differ in one cell at most. -/
theorem sameBut_of_local {cp : Cp932} {p : Nat × Nat} {rows rows' : List Record}
    (hlengths : rows'.map List.length = rows.map List.length)
    (hcells : ∀ i j, (i, j) ≠ p → Option.Rel (Reread cp) (cellAt rows' i j) (cellAt rows i j))
    (h : Local p rows rows') : SameBut p rows rows' := by
  obtain ⟨first, rest, first', rest', zone, zone', out, out', rfl, rfl, hpre, hpre', _, hbut⟩ :=
    id h
  cases hg : isGaiku first with
  | true => exact absurd h (not_local_of_isGaiku hg hcells)
  | false =>
    rw [tochiPre_headerless hg] at hpre
    cases hpre
    rw [outPlace, hg, if_neg Bool.false_ne_true] at hbut
    rcases tochiPre_cases hpre' with ⟨_, rfl⟩ | ⟨_, rfl⟩
    · -- one record is missing
      have hout := congrArg List.length hbut.lengths
      have hin := congrArg List.length hlengths
      simp only [List.length_map, List.length_cons] at hout hin
      omega
    · have hlen : first'.length = first.length := (List.cons.inj hlengths).1
      rw [hlen] at hbut
      exact sameBut_cons_iff.mp hbut

section OneByte

variable {cp : Cp932} (chunk : Nat) {pre post : Bytes} {b x : UInt8} {t : Text}
  {rows : List Record}

/-- Harmless damage stays in its cell. -/
theorem staysLocal_of_harmless (hdecode : cp.decode (pre ++ b :: post) = some t)
    (hcsv : csvReader Kozu.fieldLimit t = some rows)
    (hdamaged : cp.decode (pre ++ x :: post) = none) {p : Nat × Nat}
    (h : Harmless cp chunk p (pre ++ b :: post) (pre ++ x :: post) rows) :
    StaysLocal cp chunk p (pre ++ b :: post) (pre ++ x :: post) := by
  obtain ⟨rows', hread'⟩ := Option.isSome_iff_exists.mp h.read
  have hread : (Kozu.readCsv cp chunk (pre ++ b :: post)).toOption = some rows := by
    rw [Kozu.readCsv, Kozu.readFirst_whole hdecode, hcsv]
  have hbut := sameBut_of_harmless hdecode hcsv (readCsv_replace hdamaged h.noBom hread') h
  have ht : t ≠ [] := by
    rintro rfl
    exact absurd (decode_eq_nil cp hdecode) (by simp)
  exact ⟨rows, rows', hread, hread', local_of_sameBut (csvReader_ne_nil ht hcsv) hbut h.ascii⟩

/-- Damage by a byte that is no separator stays in its cell only if it is harmless. -/
theorem harmless_of_staysLocal (hcp : cp.NoReplacement)
    (hdecode : cp.decode (pre ++ b :: post) = some t)
    (hcsv : csvReader Kozu.fieldLimit t = some rows)
    (hdamaged : cp.decode (pre ++ x :: post) = none) (hb : isSepByte b = false)
    (hx : isSepByte x = false)
    (h : StaysLocal cp chunk (place (rawText pre)) (pre ++ b :: post) (pre ++ x :: post)) :
    Harmless cp chunk (place (rawText pre)) (pre ++ b :: post) (pre ++ x :: post) rows := by
  obtain ⟨rows₁, rows', hread, hread', hlocal⟩ := h
  rw [Kozu.readCsv, Kozu.readFirst_whole hdecode, hcsv] at hread
  cases hread
  have hbom : ¬ CutBom (pre ++ x :: post) := by
    intro hbom
    obtain ⟨_, _, _, _, _, _, _, _, _, hcons, _⟩ := hlocal
    rw [readCsv_cutBom hbom hread'] at hcons
    cases hcons
  obtain ⟨hlengths, hcells⟩ := csvReader_damaged splits_replace (splits_decode cp)
    (reread_congruent cp) ⟨by decide, Or.inr (Twin.ascii (by decide))⟩
    (fun hs hs' => by
      cases hs
      exact reread_of_decode hcp hs') hx hb rfl hdecode (readCsv_replace hdamaged hbom hread') hcsv
  have hbut := sameBut_of_local hlengths.symm hcells hlocal
  refine ⟨by rw [hread']; rfl, hbom, ?_, ?_⟩
  · have hraw := csvReader_rawRows (pre ++ b :: post)
    have hraw' := csvReader_rawRows (pre ++ x :: post)
    rw [rawText_append] at hraw hraw'
    exact csvReader_replace (List.forall_mem_singleton.mpr hb) (List.forall_mem_singleton.mpr hx)
      (List.cons_ne_nil _ _) (List.cons_ne_nil _ _) hraw hraw'
  · intro i j cell hij hcell
    have hrel := hcells i j hij
    rw [hbut.cells i j hij, hcell] at hrel
    cases hrel with
    | some hreread => exact hreread.ascii rfl

end OneByte

/-- **Damage is local only among ASCII cells.** A byte of a CP932 file is replaced so that the file
is not CP932 any more. If the damaged file is read and is not a byte order mark that is cut short,
the new byte leaves the other cells where they are and these are ASCII, then the damage stays in its
cell. If neither byte is a separator, it does so only then. -/
theorem damage_iff (cp : Cp932) (hcp : cp.NoReplacement) (chunk : Nat) (pre post : Bytes)
    (b x : UInt8) (t : Text) (rows : List Record) (hdecode : cp.decode (pre ++ b :: post) = some t)
    (hcsv : csvReader Kozu.fieldLimit t = some rows)
    (hdamaged : cp.decode (pre ++ x :: post) = none) :
    (Harmless cp chunk (place (rawText pre)) (pre ++ b :: post) (pre ++ x :: post) rows →
      StaysLocal cp chunk (place (rawText pre)) (pre ++ b :: post) (pre ++ x :: post)) ∧
    (isSepByte b = false → isSepByte x = false →
      (StaysLocal cp chunk (place (rawText pre)) (pre ++ b :: post) (pre ++ x :: post) ↔
        Harmless cp chunk (place (rawText pre)) (pre ++ b :: post) (pre ++ x :: post) rows)) := by
  have hsuff := @staysLocal_of_harmless cp chunk pre post b x t rows hdecode hcsv hdamaged
    (place (rawText pre))
  refine ⟨hsuff, ?_⟩
  intro hb hx
  exact ⟨harmless_of_staysLocal chunk hcp hdecode hcsv hdamaged hb hx, hsuff⟩

/-! ## Two files with `±` damaged -/

theorem noReplacement_labelCp932 : labelCp932.NoReplacement := by
  intro b₁ b₂ h
  have hall : ∀ x ∈ labelTable, x.2.2 ≠ '�' := by decide
  exact hall _ (labelPair_mem h) rfl

/-- A file without a header: the other cells are ASCII. -/
theorem damage_ascii :
    StaysLocal labelCp932 8192 (0, 1) (labelBytes "a,±\n1,2\n".toList)
      ([0x61, 0x2C, 0x81] ++ 0x20 :: labelBytes "\n1,2\n".toList) := by
  have hbytes : labelBytes "a,±\n1,2\n".toList =
      [0x61, 0x2C, 0x81] ++ 0x7D :: labelBytes "\n1,2\n".toList := by decide +kernel
  have hplace : place (rawText [0x61, 0x2C, 0x81]) = (0, 1) := by decide +kernel
  have hcsv : csvReader Kozu.fieldLimit "a,±\n1,2\n".toList =
      some [["a".toList, "±".toList], ["1".toList, "2".toList]] := by decide +kernel
  have hraw : rawRows ([0x61, 0x2C, 0x81] ++ 0x7D :: labelBytes "\n1,2\n".toList) =
      [] ++ (["a".toList] ++ [byteChar 0x81, byteChar 0x7D] :: []) ::
        [["1".toList, "2".toList]] := by decide +kernel
  have hraw' : rawRows ([0x61, 0x2C, 0x81] ++ 0x20 :: labelBytes "\n1,2\n".toList) =
      [] ++ (["a".toList] ++ [byteChar 0x81, byteChar 0x20] :: []) ::
        [["1".toList, "2".toList]] := by decide +kernel
  rw [hbytes, ← hplace]
  refine (damage_iff labelCp932 noReplacement_labelCp932 8192 _ _ _ _ "a,±\n1,2\n".toList _
    (by decide +kernel) hcsv (by decide +kernel)).1 ⟨?_, by decide +kernel, ?_, ?_⟩
  · exact readCsv_isSome _ _ (by decide +kernel)
  · rw [hplace, hraw, hraw']
    exact sameBut_cell [] ["a".toList] _ _ [] [["1".toList, "2".toList]]
  · rw [hplace]
    intro i j cell hij hcell
    match i, j with
    | 0, 0 =>
      cases hcell
      decide
    | 0, 1 => exact absurd rfl hij
    | 0, _ + 2 => cases hcell
    | 1, 0 =>
      cases hcell
      decide
    | 1, 1 =>
      cases hcell
      decide
    | 1, _ + 2 => cases hcell
    | _ + 2, _ => cases hcell

/-- A file with a header, in CP932, up to the first byte of `±`. -/
def headerStart : Bytes := labelBytes "座標系,X座標,Y座標\n9,".toList ++ [0x81]

/-- **Damage spreads.** With one byte of `±` damaged the header is not found any more. -/
theorem damage_spreads :
    labelBytes "座標系,X座標,Y座標\n9,±,2\n".toList =
      headerStart ++ 0x7D :: labelBytes ",2\n".toList ∧
    labelCp932.decode (headerStart ++ 0x7D :: labelBytes ",2\n".toList) =
      some "座標系,X座標,Y座標\n9,±,2\n".toList ∧
    labelCp932.decode (headerStart ++ 0x20 :: labelBytes ",2\n".toList) = none ∧
    place (rawText headerStart) = (1, 1) ∧
    ¬ StaysLocal labelCp932 8192 (1, 1) (headerStart ++ 0x7D :: labelBytes ",2\n".toList)
      (headerStart ++ 0x20 :: labelBytes ",2\n".toList) := by
  have hdecode : labelCp932.decode (headerStart ++ 0x7D :: labelBytes ",2\n".toList) =
      some "座標系,X座標,Y座標\n9,±,2\n".toList := by decide +kernel
  have hdamaged : labelCp932.decode (headerStart ++ 0x20 :: labelBytes ",2\n".toList) = none := by
    decide +kernel
  have hplace : place (rawText headerStart) = (1, 1) := by decide +kernel
  have hcsv : csvReader Kozu.fieldLimit "座標系,X座標,Y座標\n9,±,2\n".toList =
      some [[zukeiLabel, xLabel, yLabel], ["9".toList, "±".toList, "2".toList]] := by
    decide +kernel
  refine ⟨by decide +kernel, hdecode, hdamaged, hplace, ?_⟩
  rw [← hplace]
  intro hlocal
  have hharmless := harmless_of_staysLocal 8192 noReplacement_labelCp932 hdecode hcsv hdamaged
    (by decide) (by decide) hlocal
  exact not_ascii_zukeiLabel (hharmless.ascii 0 0 zukeiLabel (by rw [hplace]; decide) rfl)

end GdalFull.Convert
