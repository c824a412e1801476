import GdalFull.Convert.Blocks
import GdalFull.Convert.Relabel

/-!
# A file with a byte order mark

Both preprocessors try the codec utf-8-sig, which drops a byte order mark, after utf-8, which keeps
it as a character of the first cell. So a UTF-8 file with a mark is never read with utf-8-sig.

`bom_iff`: the mark makes no difference exactly if neither the file nor the file with the mark gets
as far as an output. Any output that is written differs in its first records.
-/

namespace GdalFull.Convert

open GdalFull.Lib

/-- `csv_to_geoparquet_tochi.py` on a file, with and without `--print-zukei`. -/
def tochiRun (cp : Cp932) (chunk : Nat) (print : Bool) (prior : Option Bytes) (bytes : Bytes) :
    ScriptEnd :=
  tochiScript print prior (Kozu.readCsv cp chunk bytes).toOption .done

/-- `csv_to_geoparquet_kozu.py` on a file. -/
def kozuRun (cp : Cp932) (chunk : Nat) (floatRepr : Text → Option Text) (prior : Option Bytes)
    (bytes : Bytes) : ScriptEnd :=
  kozuScript floatRepr prior (Kozu.readCsv cp chunk bytes).toOption .done

/-! ## The output of the two scripts -/

theorem ascii_of_mem_tochiHeader {n : Nat} {cell : Text} (h : cell ∈ tochiHeader n) :
    Ascii cell := by
  obtain ⟨i, _, rfl⟩ := List.mem_map.mp h
  split_ifs
  · decide
  · decide
  · intro c hc
    rcases List.mem_append.mp hc with hcol | hdigit
    · have hall : Ascii "col".toList := by decide
      exact hall c hcol
    · have hdigit := Nat.isDigit_of_mem_toDigits (by decide) (by decide) hdigit
      simp only [Char.isDigit, Bool.and_eq_true, decide_eq_true_eq, ge_iff_le] at hdigit
      have hle : c.toNat ≤ 57 := UInt32.le_iff_toNat_le.mp hdigit.2
      omega

theorem not_ascii_zukeiLabel : ¬ Ascii zukeiLabel := by decide

/-- The header of a file with a header is not one that the script makes up. -/
theorem map_swapLabel_ne_tochiHeader {first : Record} (h : isGaiku first = true) (n : Nat) :
    first.map swapLabel ≠ tochiHeader n := by
  intro heq
  have hz : zukeiLabel ∈ first := by
    simp only [isGaiku, Bool.and_eq_true, decide_eq_true_eq] at h
    exact h.1
  have hmem : zukeiLabel ∈ first.map swapLabel := by
    rw [mem_map_swapLabel]
    exact hz
  rw [heq] at hmem
  exact not_ascii_zukeiLabel (ascii_of_mem_tochiHeader hmem)

/-- What is written shows what was read. -/
theorem eq_of_tochiPre {rows rows' : List Record} {zone zone' : Option Int} {out : List Record}
    (h : tochiPre rows = some (zone, out)) (h' : tochiPre rows' = some (zone', out)) :
    rows' = rows := by
  cases rows with
  | nil => cases h
  | cons first rest =>
    cases rows' with
    | nil => cases h'
    | cons first' rest' =>
      rcases tochiPre_cases h with ⟨hg, rfl⟩ | ⟨_, rfl⟩
      · rcases tochiPre_cases h' with ⟨_, hout⟩ | ⟨_, hout⟩
        · obtain ⟨hfirst, hrest⟩ := List.cons.inj hout
          rw [swapLabel_involutive.injective.list_map hfirst, hrest]
        · exact absurd (List.cons.inj hout).1 (map_swapLabel_ne_tochiHeader hg _)
      · rcases tochiPre_cases h' with ⟨hg', hout⟩ | ⟨_, hout⟩
        · exact absurd (List.cons.inj hout).1.symm (map_swapLabel_ne_tochiHeader hg' _)
        · exact (List.cons.inj hout).2.symm

theorem exists_tochiPre {rows : List Record} (h : rows ≠ []) :
    ∃ zone out, tochiPre rows = some (zone, out) := by
  cases rows with
  | nil => exact absurd rfl h
  | cons first rest =>
    cases hg : isGaiku first with
    | true => exact ⟨_, _, tochiPre_header hg rest⟩
    | false => exact ⟨_, _, tochiPre_headerless hg rest⟩

theorem tochiScript_some (print : Bool) (prior : Option Bytes) {rows : List Record}
    {zone : Option Int} {out : List Record} (h : tochiPre rows = some (zone, out)) :
    tochiScript print prior (some rows) .done =
      ⟨0, if print then zoneLine zone else [], some (utf8Encode (csvWrite out))⟩ := by
  rw [tochiScript, Option.bind_some, h]
  rfl

/-- The script ends in the same way for two files that are read differently only if it fails. -/
theorem tochiScript_eq_iff (print : Bool) (prior : Option Bytes) {rows rows' : Option (List Record)}
    (hne : rows ≠ some []) (hne' : rows' ≠ some [])
    (hdiff : ∀ l l', rows = some l → rows' = some l' → l' ≠ l) :
    tochiScript print prior rows' .done = tochiScript print prior rows .done ↔
      rows' = none ∧ rows = none := by
  have hnone : tochiScript print prior none .done = ⟨1, [], prior⟩ := rfl
  cases rows with
  | none =>
    cases rows' with
    | none => exact iff_of_true rfl ⟨rfl, rfl⟩
    | some l' =>
      obtain ⟨zone', out', h'⟩ := exists_tochiPre (fun hnil => hne' (congrArg some hnil))
      rw [tochiScript_some print prior h', hnone]
      exact iff_of_false nofun nofun
  | some l =>
    obtain ⟨zone, out, h⟩ := exists_tochiPre (fun hnil => hne (congrArg some hnil))
    rw [tochiScript_some print prior h]
    refine iff_of_false ?_ nofun
    cases rows' with
    | none =>
      rw [hnone]
      nofun
    | some l' =>
      obtain ⟨zone', out', h'⟩ := exists_tochiPre (fun hnil => hne' (congrArg some hnil))
      rw [tochiScript_some print prior h']
      intro heq
      have htmp := congrArg ScriptEnd.tmp heq
      have hout : out' = out := csvWrite_injective (utf8Encode_injective (Option.some.inj htmp))
      rw [hout] at h'
      exact hdiff l l' rfl rfl (eq_of_tochiPre h h')

theorem kozuScript_eq (floatRepr : Text → Option Text) (prior : Option Bytes)
    (rows : Option (List Record)) :
    kozuScript floatRepr prior rows .done =
      match Kozu.outFile floatRepr rows with
      | none => ⟨1, [], prior⟩
      | some file => ⟨0, [], some file⟩ := by
  cases rows with
  | none => rfl
  | some l =>
    unfold kozuScript Kozu.outFile
    rw [Option.bind_some, Option.bind_some]
    cases (Kozu.outRows floatRepr l).toOption <;> rfl

/-- The same for 公図: the header is written in front. -/
theorem kozuScript_eq_iff (floatRepr : Text → Option Text) (prior : Option Bytes)
    {rows rows' : Option (List Record)}
    (hdiff : ∀ l l', rows = some l → rows' = some l' → l'.head? ≠ l.head?) :
    kozuScript floatRepr prior rows' .done = kozuScript floatRepr prior rows .done ↔
      ¬ Kozu.Usable rows' ∧ ¬ Kozu.Usable rows := by
  rw [kozuScript_eq, kozuScript_eq, ← Kozu.outFile_eq_none_iff floatRepr rows,
    ← Kozu.outFile_eq_none_iff floatRepr rows']
  cases hout : Kozu.outFile floatRepr rows with
  | none =>
    cases hout' : Kozu.outFile floatRepr rows' with
    | none => exact iff_of_true rfl ⟨rfl, rfl⟩
    | some file' => exact iff_of_false nofun nofun
  | some file =>
    refine iff_of_false ?_ nofun
    cases hout' : Kozu.outFile floatRepr rows' with
    | none => nofun
    | some file' =>
      intro heq
      have hfile : file' = file := Option.some.inj (congrArg ScriptEnd.tmp heq)
      have husable : Kozu.Usable rows := by
        by_contra hu
        rw [(Kozu.outFile_eq_none_iff floatRepr rows).mpr hu] at hout
        cases hout
      have husable' : Kozu.Usable rows' := by
        by_contra hu
        rw [(Kozu.outFile_eq_none_iff floatRepr rows').mpr hu] at hout'
        cases hout'
      obtain ⟨header, data, cols, rfl, hcols⟩ := husable
      obtain ⟨header', data', cols', rfl, hcols'⟩ := husable'
      have hsame : Kozu.outFile floatRepr (some (header' :: data')) =
          Kozu.outFile floatRepr (some (header :: data)) := by
        rw [hout, hout', hfile]
      have hheader := ((Kozu.outFile_eq_iff floatRepr hcols hcols').mp hsame).1
      exact hdiff _ _ rfl rfl (congrArg some hheader)

/-! ## Reading a file with a mark -/

theorem utf8Encode_bom (t : Text) : utf8Encode ('\uFEFF' :: t) = utf8Bom ++ utf8Encode t := by
  have hbom : String.utf8EncodeChar '\uFEFF' = utf8Bom := by decide
  rw [utf8Encode_cons, hbom]

/-- cp932 fails at the mark. -/
theorem decode_bom (cp : Cp932) (bytes : Bytes) : cp.decode (utf8Bom ++ bytes) = none := by
  have hlead : cp932Single 0xEF = none := by decide
  change cp.decode (0xEF :: 0xBB :: 0xBF :: bytes) = none
  rw [decode_pair cp hlead, cp.unassigned]
  rfl

theorem decodedChunks_bom (cp : Cp932) (chunk : Nat) (bytes : Bytes) :
    decodedChunks cp.decoder chunk (utf8Bom ++ bytes) = [] := by
  obtain ⟨p, hp, hdecode⟩ := decodedChunks_prefix cp chunk (utf8Bom ++ bytes)
  cases p with
  | nil => exact (Option.some.inj hdecode).symm
  | cons b p =>
    obtain ⟨rfl, _⟩ := List.cons_prefix_cons.mp hp
    obtain ⟨c, _, _, _, _, ⟨hsingle, _⟩ | ⟨_, b₂, _, hpair⟩⟩ := decode_cons cp hdecode
    · have hlead : cp932Single 0xEF = none := by decide
      rw [hlead] at hsingle
      cases hsingle
    · rw [cp.unassigned] at hpair
      cases hpair

/-- A UTF-8 file with a mark is read as UTF-8, and nothing of it before. -/
theorem rejected_bom (cp : Cp932) (chunk : Nat) (t : Text) :
    Kozu.Rejected cp chunk ('\uFEFF' :: t) := by
  rw [Kozu.Rejected, utf8Encode_bom, decodedChunks_bom]
  exact ⟨decode_bom cp _, rfl⟩

theorem readCsv_bom (cp : Cp932) (chunk : Nat) (t : Text) :
    (Kozu.readCsv cp chunk (utf8Bom ++ utf8Encode t)).toOption =
      csvReader Kozu.fieldLimit ('\uFEFF' :: t) := by
  rw [← utf8Encode_bom, Kozu.readCsv_rejected (rejected_bom cp chunk t)]

/-- **A byte order mark is not transparent.** For a UTF-8 file that is not CP932, the runs on the
file with the mark and without it have the same exit status, zone and output exactly if both fail:
for `csv_to_geoparquet_tochi.py`, with or without `--print-zukei`, both files have a field over the
limit, and for `csv_to_geoparquet_kozu.py` neither has the columns. -/
theorem bom_iff (cp : Cp932) (chunk : Nat) (floatRepr : Text → Option Text) (prior : Option Bytes)
    (t : Text) (h : cp.decode (utf8Encode t) = none) :
    (∀ print, tochiRun cp chunk print prior (utf8Bom ++ utf8Encode t) =
        tochiRun cp chunk print prior (utf8Encode t) ↔
      csvReader Kozu.fieldLimit ('\uFEFF' :: t) = none ∧
        (EarlyLinesFit cp chunk t → csvReader Kozu.fieldLimit t = none)) ∧
    (kozuRun cp chunk floatRepr prior (utf8Bom ++ utf8Encode t) =
        kozuRun cp chunk floatRepr prior (utf8Encode t) ↔
      ¬ Kozu.Usable (csvReader Kozu.fieldLimit ('\uFEFF' :: t)) ∧
        (EarlyLinesFit cp chunk t → ¬ Kozu.Usable (csvReader Kozu.fieldLimit t))) := by
  have hplain : isSeparator '\uFEFF' = false := by decide
  have ht : t ≠ [] := by
    rintro rfl
    cases h
  have hne' : csvReader Kozu.fieldLimit ('\uFEFF' :: t) ≠ some [] :=
    fun hnil => csvReader_ne_nil (List.cons_ne_nil _ _) hnil rfl
  have hunusable : ¬ Kozu.Usable none := by
    rintro ⟨_, _, _, hnone, _⟩
    cases hnone
  unfold tochiRun kozuRun
  rw [readCsv_bom]
  rcases readCsv_utf8 chunk h with ⟨hfit, hread⟩ | ⟨hfit, hread⟩
  · have hhead : ∀ l l', csvReader Kozu.fieldLimit t = some l →
        csvReader Kozu.fieldLimit ('\uFEFF' :: t) = some l' → l'.head? ≠ l.head? :=
      fun l l' hl hl' => csvReader_cons_ne hplain hl hl'
    rw [hread, forall_prop_of_true hfit, forall_prop_of_true hfit]
    constructor
    · intro print
      refine tochiScript_eq_iff print prior (fun hnil => csvReader_ne_nil ht hnil rfl) hne' ?_
      intro l l' hl hl' heq
      exact hhead l l' hl hl' (congrArg List.head? heq)
    · exact kozuScript_eq_iff floatRepr prior hhead
  · -- the file without the mark is not read
    have hhead : ∀ l l', (none : Option (List Record)) = some l →
        csvReader Kozu.fieldLimit ('\uFEFF' :: t) = some l' → l'.head? ≠ l.head? := nofun
    rw [hread]
    constructor
    · intro print
      rw [tochiScript_eq_iff print prior (Option.some_ne_none []).symm hne' nofun]
      simp only [hfit, false_implies]
    · rw [kozuScript_eq_iff floatRepr prior hhead]
      simp only [hfit, false_implies, hunusable, not_false_eq_true]

/-! ## Files with and without the columns -/

theorem earlyLinesFit_of_length_le (cp : Cp932) (chunk : Nat) {t : Text}
    (h : (utf8Encode t).length ≤ Kozu.fieldLimit) : EarlyLinesFit cp chunk t :=
  feed_decodedChunks (decoder_length_le cp) chunk h

/-- A small file of points. -/
def pointCsv : Text := "座標系,X座標,Y座標,,,,,,,,,\n,,,,,,,,,,,9\n".toList

/-- A small file of 公図. -/
def cornerCsv : Text := "X1,Y1,X2,Y2,X3,Y3,X4,Y4,X座標\n".toList

theorem csvReader_pointCsv : csvReader Kozu.fieldLimit pointCsv =
    some [zukeiLabel :: xLabel :: yLabel :: List.replicate 9 [],
      List.replicate 11 [] ++ ["9".toList]] := by
  decide +kernel

theorem csvReader_pointCsv_bom : csvReader Kozu.fieldLimit ('\uFEFF' :: pointCsv) =
    some [('\uFEFF' :: zukeiLabel) :: xLabel :: yLabel :: List.replicate 9 [],
      List.replicate 11 [] ++ ["9".toList]] := by
  decide +kernel

theorem not_usable {header : Record} (data : List Record) (h : Kozu.colmap header = none) :
    ¬ Kozu.Usable (some (header :: data)) := by
  rintro ⟨header', data', cols, hrows, hcols⟩
  cases hrows
  rw [h] at hcols
  cases hcols

/-- A file of points is not one of 公図, with or without the mark. -/
theorem bom_no_columns :
    kozuRun labelCp932 8192 some none (utf8Bom ++ utf8Encode pointCsv) =
      kozuRun labelCp932 8192 some none (utf8Encode pointCsv) := by
  have hreject : labelCp932.decode (utf8Encode pointCsv) = none := by decide +kernel
  apply (bom_iff labelCp932 8192 some none pointCsv hreject).2.mpr
  rw [csvReader_pointCsv, csvReader_pointCsv_bom]
  exact ⟨not_usable _ (by decide +kernel), fun _ => not_usable _ (by decide +kernel)⟩

/-- **A zone is lost, and a file.** With the mark the first label is not found any more: the zone of
the points is not printed, and the columns of 公図 are not all there. -/
theorem bom_lost :
    labelCp932.decode (utf8Encode pointCsv) = none ∧
    labelCp932.decode (utf8Encode cornerCsv) = none ∧
    (tochiRun labelCp932 8192 true none (utf8Encode pointCsv)).stdout = "9\n".toList ∧
    (tochiRun labelCp932 8192 true none (utf8Bom ++ utf8Encode pointCsv)).stdout = [] ∧
    (kozuRun labelCp932 8192 some none (utf8Encode cornerCsv)).exit = 0 ∧
    (kozuRun labelCp932 8192 some none (utf8Bom ++ utf8Encode cornerCsv)).exit = 1 := by
  have hpoint : labelCp932.decode (utf8Encode pointCsv) = none := by decide +kernel
  have hcorner : labelCp932.decode (utf8Encode cornerCsv) = none := by decide +kernel
  have hread : (Kozu.readCsv labelCp932 8192 (utf8Encode pointCsv)).toOption =
      csvReader Kozu.fieldLimit pointCsv :=
    Kozu.readCsv_rejected ⟨hpoint, earlyLinesFit_of_length_le _ _ (by decide +kernel)⟩
  have hread' : (Kozu.readCsv labelCp932 8192 (utf8Encode cornerCsv)).toOption =
      csvReader Kozu.fieldLimit cornerCsv :=
    Kozu.readCsv_rejected ⟨hcorner, earlyLinesFit_of_length_le _ _ (by decide +kernel)⟩
  refine ⟨hpoint, hcorner, ?_, ?_, ?_, ?_⟩
  · rw [tochiRun, hread, csvReader_pointCsv]
    decide +kernel
  · rw [tochiRun, readCsv_bom, csvReader_pointCsv_bom]
    decide +kernel
  · rw [kozuRun, hread']
    decide +kernel
  · rw [kozuRun, readCsv_bom]
    decide +kernel

end GdalFull.Convert
