import GdalFull.Convert.Kozu

/-!
# The polygons of 公図

`csv_to_geoparquet_kozu.py` takes the corners of each polygon from eight columns and appends the
ring to the record.

* `corner_columns`: the columns are those of the labels `X1` to `Y4` if all eight are in the header,
  and the columns 5 to 12 otherwise, whatever their labels are.
* `polygon_iff`: each record gets its ring in the column of the header `WKT` exactly when the
  records have as many cells as the header (or have the ring there already) and reach the last
  column.
-/

namespace GdalFull.Convert.Kozu

open GdalFull.Lib

/-! ## The ring -/

/-- The points `(x1, y1)`, `(x2, y2)` and so on. -/
def corners : List Text → List (Text × Text)
  | x :: y :: rest => (x, y) :: corners rest
  | _ => []

/-- `POLYGON((x1 y1,x2 y2,...,x1 y1))`, with the first point once more at the end. -/
def closedRing (points : List (Text × Text)) : Text :=
  "POLYGON((".toList ++
    [','].intercalate ((points ++ points.take 1).map fun p => p.1 ++ ' ' :: p.2) ++ "))".toList

/-- The ring of a record, or nothing if a coordinate is missing or is no number. -/
def ringCell (floatRepr : Text → Option Text) (cols : List Nat) (row : Record) : Text :=
  match cols.mapM fun i => (row[i]?).bind floatRepr with
  | some coords => closedRing (corners coords)
  | none => []

theorem mapM_eq_some_iff {α β : Type} {f : α → Option β} {xs : List α} {ys : List β} :
    xs.mapM f = some ys ↔ List.Forall₂ (fun x y => f x = some y) xs ys := by
  induction xs generalizing ys with
  | nil =>
    rw [List.mapM_nil, List.forall₂_nil_left_iff]
    exact ⟨fun h => (Option.some.inj h).symm, fun h => congrArg some h.symm⟩
  | cons x xs ih =>
    rw [List.mapM_cons]
    constructor
    · intro h
      obtain ⟨y, hy, hrest⟩ := Option.bind_eq_some_iff.mp h
      obtain ⟨ys', hys, hcons⟩ := Option.bind_eq_some_iff.mp hrest
      cases hcons
      exact List.Forall₂.cons hy (ih.mp hys)
    · intro h
      cases h with
      | cons hy hys =>
        rw [hy, ih.mpr hys]
        rfl

theorem mapM_isSome_iff {α β : Type} {f : α → Option β} {xs : List α} :
    (xs.mapM f).isSome = true ↔ ∀ x ∈ xs, (f x).isSome = true := by
  induction xs with
  | nil => simp
  | cons x xs ih =>
    rw [List.mapM_cons, List.forall_mem_cons, ← ih]
    cases f x with
    | none => simp
    | some y => cases xs.mapM f <;> simp

theorem closedRing_corners (x1 y1 x2 y2 x3 y3 x4 y4 : Text) :
    closedRing (corners [x1, y1, x2, y2, x3, y3, x4, y4]) =
      "POLYGON((".toList ++ x1 ++ ' ' :: y1 ++ ',' :: x2 ++ ' ' :: y2 ++ ',' :: x3 ++ ' ' :: y3 ++
        ',' :: x4 ++ ' ' :: y4 ++ ',' :: x1 ++ ' ' :: y1 ++ "))".toList := by
  have hpoints : corners [x1, y1, x2, y2, x3, y3, x4, y4] =
      [(x1, y1), (x2, y2), (x3, y3), (x4, y4)] := rfl
  have hjoin : ∀ a b c d e : Text, [','].intercalate [a, b, c, d, e] =
      a ++ ',' :: (b ++ ',' :: (c ++ ',' :: (d ++ ',' :: e))) := by
    intro a b c d e
    simp [List.intercalate]
  unfold closedRing
  generalize "POLYGON((".toList = start
  generalize "))".toList = stop
  rw [hpoints]
  simp only [List.take_succ_cons, List.take_zero, List.cons_append, List.nil_append, List.map_cons,
    List.map_nil, hjoin, List.append_assoc]

theorem exists_of_length_eight {α : Type} {l : List α} (h : l.length = 8) :
    ∃ a b c d e f g i, l = [a, b, c, d, e, f, g, i] := by
  rcases l with _ | ⟨a, _ | ⟨b, _ | ⟨c, _ | ⟨d, _ | ⟨e, _ | ⟨f, _ | ⟨g, _ | ⟨i,
    _ | ⟨j, rest⟩⟩⟩⟩⟩⟩⟩⟩⟩ <;> simp at h
  exact ⟨a, b, c, d, e, f, g, i, rfl⟩

theorem wkt_eq_ringCell (floatRepr : Text → Option Text) {cols : List Nat} (h : cols.length = 8)
    (row : Record) : wkt floatRepr cols row = ringCell floatRepr cols row := by
  unfold wkt ringCell
  cases hcoords : cols.mapM fun i => (row[i]?).bind floatRepr with
  | none => rfl
  | some coords =>
    have hlen : coords.length = 8 := (mapM_eq_some_iff.mp hcoords).length_eq.symm.trans h
    obtain ⟨x1, y1, x2, y2, x3, y3, x4, y4, rfl⟩ := exists_of_length_eight hlen
    exact (closedRing_corners x1 y1 x2 y2 x3 y3 x4 y4).symm

/-! ## The columns -/

/-- All eight labels are in the header. -/
def Labelled (header : Record) : Prop :=
  ∀ name ∈ required, ∃ h ∈ header, hnormNoBlank h = name

instance (header : Record) : Decidable (Labelled header) :=
  inferInstanceAs (Decidable (∀ name ∈ required, ∃ h ∈ header, hnormNoBlank h = name))

/-- The column has the label. -/
def HasLabel (header : Record) (name : Text) (i : Nat) : Prop :=
  ∃ h, header[i]? = some h ∧ hnormNoBlank h = name

def fixedColumns : List Nat := [5, 6, 7, 8, 9, 10, 11, 12]

theorem zipIdx_concat {α : Type} (l : List α) (a : α) :
    (l ++ [a]).zipIdx = l.zipIdx ++ [(a, l.length)] := by
  rw [List.zipIdx_append, Nat.zero_add]
  rfl

theorem columnOf_concat (norm : Text → Text) (header : Record) (h name : Text) :
    columnOf norm (header ++ [h]) name =
      if norm h = name then some header.length else columnOf norm header name := by
  rw [columnOf, zipIdx_concat, List.foldl_append]
  rfl

theorem columnOf_some {norm : Text → Text} {header : Record} {name : Text} {i : Nat}
    (h : columnOf norm header name = some i) :
    ∃ cell, header[i]? = some cell ∧ norm cell = name := by
  induction header using List.reverseRecOn with
  | nil => cases h
  | append_singleton header last ih =>
    rw [columnOf_concat] at h
    split at h
    · rename_i hlast
      cases h
      exact ⟨last, List.getElem?_concat_length, hlast⟩
    · obtain ⟨cell, hcell, hname⟩ := ih h
      have hlt := (List.getElem?_eq_some_iff.mp hcell).1
      exact ⟨cell, (List.getElem?_append_left hlt).trans hcell, hname⟩

theorem columnOf_isSome {norm : Text → Text} {header : Record} {name : Text} :
    (columnOf norm header name).isSome = true ↔ ∃ h ∈ header, norm h = name := by
  induction header using List.reverseRecOn with
  | nil => simp [columnOf]
  | append_singleton header last ih =>
    rw [columnOf_concat]
    split
    · rename_i hlast
      exact iff_of_true rfl ⟨last, List.mem_append_right _ List.mem_cons_self, hlast⟩
    · rename_i hlast
      rw [ih]
      simp [or_and_right, exists_or, hlast]

theorem mapM_columnOf_isSome {norm : Text → Text} {header : Record} {names : List Text} :
    (names.mapM (columnOf norm header)).isSome = true ↔
      ∀ name ∈ names, ∃ h ∈ header, norm h = name :=
  mapM_isSome_iff.trans (forall₂_congr fun _ _ => columnOf_isSome)

/-- No label has a blank. -/
theorem required_noBlank : ∀ name ∈ required, name.filter (· ≠ ' ') = name := by decide

/-- The second search finds nothing that the first one does not. -/
theorem labelled_of_hnorm {header : Record}
    (h : ∀ name ∈ required, ∃ cell ∈ header, hnorm cell = name) : Labelled header := by
  intro name hname
  obtain ⟨cell, hmem, hcell⟩ := h name hname
  refine ⟨cell, hmem, ?_⟩
  rw [hnormNoBlank, hcell, required_noBlank name hname]

/-- The columns of a header with all labels. -/
theorem colmap_labelled {header : Record} (h : Labelled header) :
    ∃ cols, colmap header = some cols ∧ List.Forall₂ (HasLabel header) required cols := by
  obtain ⟨cols, hcols⟩ := Option.isSome_iff_exists.mp (mapM_columnOf_isSome.mpr h)
  refine ⟨cols, ?_, ?_⟩
  · rw [colmap, hcols]
  · exact (mapM_eq_some_iff.mp hcols).imp fun name i hi => columnOf_some hi

/-- The columns of a header in which a label is missing. -/
theorem colmap_of_not_labelled {header : Record} (h : ¬ Labelled header) :
    colmap header = if 13 ≤ header.length then some fixedColumns else none := by
  have hfirst : required.mapM (columnOf hnormNoBlank header) = none := by
    rw [← Option.not_isSome_iff_eq_none, mapM_columnOf_isSome]
    exact h
  have hsecond : required.mapM (columnOf hnorm header) = none := by
    rw [← Option.not_isSome_iff_eq_none, mapM_columnOf_isSome]
    exact fun hall => h (labelled_of_hnorm hall)
  rw [colmap, hfirst, hsecond]
  rfl

theorem colmap_length {header : Record} {cols : List Nat} (h : colmap header = some cols) :
    cols.length = 8 := by
  by_cases hlabel : Labelled header
  · obtain ⟨cols', hcols, hforall⟩ := colmap_labelled hlabel
    cases h.symm.trans hcols
    exact hforall.length_eq.symm
  · rw [colmap_of_not_labelled hlabel] at h
    cases (Option.ite_none_right_eq_some.mp h).2
    rfl

/-! ## The output -/

/-- The header, and the records that reach the last column with their ring. -/
def polygonRows (floatRepr : Text → Option Text) (cols : List Nat) (header : Record)
    (data : List Record) : List Record :=
  (header ++ ["WKT".toList]) ::
    (data.filter (kept cols)).map fun row => row ++ [ringCell floatRepr cols row]

theorem kozuMain_eq {cp : Cp932} {chunk : Nat} {floatRepr : Text → Option Text} {bytes : Bytes}
    {header : Record} {data : List Record} (hread : readCsv cp chunk bytes = .ok (header :: data)) :
    kozuMain cp chunk floatRepr bytes =
      match colmap header with
      | none => .error .noColumns
      | some cols => .ok (utf8Encode (csvWrite (polygonRows floatRepr cols header data))) := by
  rw [kozuMain, hread]
  change (outRows floatRepr (header :: data) >>= fun out => pure (utf8Encode (csvWrite out))) = _
  rw [outRows]
  cases hcols : colmap header with
  | none => rfl
  | some cols =>
    have hwkt : (data.filter (kept cols)).map (fun row => row ++ [wkt floatRepr cols row]) =
        (data.filter (kept cols)).map fun row => row ++ [ringCell floatRepr cols row] := by
      refine List.map_congr_left fun row _ => ?_
      rw [wkt_eq_ringCell floatRepr (colmap_length hcols)]
    dsimp only
    rw [hwkt]
    rfl

/-- **The columns of the corners.** With all eight labels in the header, each coordinate is taken
from a column with its label. Otherwise the columns 5 to 12 are taken, or, in a header of fewer than
13 cells, nothing is written. -/
theorem corner_columns (cp : Cp932) (chunk : Nat) (floatRepr : Text → Option Text) (bytes : Bytes)
    (header : Record) (data : List Record) (hread : readCsv cp chunk bytes = .ok (header :: data)) :
    if Labelled header then
      ∃ cols, List.Forall₂ (HasLabel header) required cols ∧
        kozuMain cp chunk floatRepr bytes =
          .ok (utf8Encode (csvWrite (polygonRows floatRepr cols header data)))
    else if 13 ≤ header.length then
      kozuMain cp chunk floatRepr bytes =
        .ok (utf8Encode (csvWrite (polygonRows floatRepr fixedColumns header data)))
    else kozuMain cp chunk floatRepr bytes = .error .noColumns := by
  rw [kozuMain_eq hread]
  by_cases hlabel : Labelled header
  · obtain ⟨cols, hcols, hforall⟩ := colmap_labelled hlabel
    rw [if_pos hlabel, hcols]
    exact ⟨cols, hforall, rfl⟩
  · rw [if_neg hlabel, colmap_of_not_labelled hlabel]
    by_cases hwide : 13 ≤ header.length
    · rw [if_pos hwide, if_pos hwide]
    · rw [if_neg hwide, if_neg hwide]

/-- A header of 13 cells in which `Y4` is missing, and a record. -/
def partlyLabelled : Text :=
  ("X1,Y1,X2,Y2,X3,Y3,X4,a,b,c,d,e,f\n" ++
    "1.5,2.5,3.5,4.5,5.5,6.5,7.5,8.5,9.5,10.5,11.5,12.5,13.5\n").toList

/-- A header with all labels. The numbers here are such that `float` gives their text back. -/
def allLabelled : Text :=
  "X1,Y1,X2,Y2,X3,Y3,X4,Y4\n1.5,2.5,3.5,4.5,5.5,6.5,7.5,8.5\n".toList

theorem corner_columns_labelled :
    ∃ cols, List.Forall₂ (HasLabel required) required cols ∧
      kozuMain sampleCp932 8192 some (utf8Encode allLabelled) =
        .ok (utf8Encode (csvWrite (polygonRows some cols required
          [["1.5", "2.5", "3.5", "4.5", "5.5", "6.5", "7.5", "8.5"].map String.toList]))) := by
  have hlabel : Labelled required := by decide
  have hcolumns := corner_columns sampleCp932 8192 some (utf8Encode allLabelled) required
    [["1.5", "2.5", "3.5", "4.5", "5.5", "6.5", "7.5", "8.5"].map String.toList] (by decide +kernel)
  rw [if_pos hlabel] at hcolumns
  exact hcolumns

/-- Column 0 has the label `X1` and the value 1.5, and the polygon begins with the value 6.5 of
column 5. -/
theorem corner_columns_dropped :
    kozuMain sampleCp932 8192 some (utf8Encode partlyLabelled) =
      .ok (utf8Encode ("X1,Y1,X2,Y2,X3,Y3,X4,a,b,c,d,e,f,WKT\r\n".toList ++
        "1.5,2.5,3.5,4.5,5.5,6.5,7.5,8.5,9.5,10.5,11.5,12.5,13.5,".toList ++
        "\"POLYGON((6.5 7.5,8.5 9.5,10.5 11.5,12.5 13.5,6.5 7.5))\"\r\n".toList)) := by
  decide +kernel

/-! ## The column of the ring -/

/-- One record for each record that is not empty, with its cells first, and the ring in the column
of the header `WKT`. -/
def PolygonUnderHeader (floatRepr : Text → Option Text) (cols : List Nat) (header : Record)
    (data out : List Record) : Prop :=
  ∃ written, out = (header ++ ["WKT".toList]) :: written ∧
    List.Forall₂ (fun row w => row <+: w ∧ w[header.length]? = some (ringCell floatRepr cols row))
      (data.filter (· ≠ [])) written

/-- The ring comes to stand in the column after the header's. -/
def FitsHeader (floatRepr : Text → Option Text) (cols : List Nat) (header row : Record) : Prop :=
  kept cols row = true ∧
    (row.length = header.length ∨
      row[header.length]? = some (ringCell floatRepr cols row))

theorem ring_under_header_iff {floatRepr : Text → Option Text} {cols : List Nat}
    {header row : Record} :
    (row ++ [ringCell floatRepr cols row])[header.length]? = some (ringCell floatRepr cols row) ↔
      row.length = header.length ∨
        row[header.length]? = some (ringCell floatRepr cols row) := by
  rcases Nat.lt_trichotomy header.length row.length with hlt | heq | hgt
  · rw [List.getElem?_append_left hlt]
    exact (or_iff_right (by omega)).symm
  · refine iff_of_true ?_ (Or.inl heq.symm)
    rw [heq, List.getElem?_concat_length]
  · refine iff_of_false ?_ ?_
    · rw [List.getElem?_eq_none (by rw [List.length_append, List.length_singleton]; omega)]
      exact nofun
    · rw [List.getElem?_eq_none (by omega)]
      rintro (h | h)
      · omega
      · cases h

/-- The records that are written match those of the input exactly when none of these is left out
and each gets its ring under the header. -/
theorem forall₂_kept_iff {floatRepr : Text → Option Text} {cols : List Nat} {header : Record}
    {rows : List Record} :
    List.Forall₂ (fun row w => row <+: w ∧ w[header.length]? = some (ringCell floatRepr cols row))
        rows ((rows.filter (kept cols)).map fun row => row ++ [ringCell floatRepr cols row]) ↔
      ∀ row ∈ rows, FitsHeader floatRepr cols header row := by
  constructor
  · intro h
    have hall : ∀ row ∈ rows, kept cols row = true := by
      have hlen := h.length_eq
      rw [List.length_map] at hlen
      exact List.length_filter_eq_length_iff.mp hlen.symm
    rw [List.filter_eq_self.mpr hall, List.forall₂_map_right_iff, List.forall₂_same] at h
    exact fun row hrow => ⟨hall row hrow, ring_under_header_iff.mp (h row hrow).2⟩
  · intro h
    rw [List.filter_eq_self.mpr fun row hrow => (h row hrow).1, List.forall₂_map_right_iff,
      List.forall₂_same]
    exact fun row hrow => ⟨List.prefix_append row _, ring_under_header_iff.mpr (h row hrow).2⟩

theorem polygonUnderHeader_iff {floatRepr : Text → Option Text} {cols : List Nat}
    {header : Record} {data : List Record} :
    PolygonUnderHeader floatRepr cols header data (polygonRows floatRepr cols header data) ↔
      ∀ row ∈ data, row ≠ [] → FitsHeader floatRepr cols header row := by
  have hempty : data.filter (kept cols) = (data.filter (· ≠ [])).filter (kept cols) := by
    rw [List.filter_filter]
    refine List.filter_congr fun row _ => ?_
    cases row with
    | nil => simp [kept]
    | cons c row => simp
  have hrows : PolygonUnderHeader floatRepr cols header data
        (polygonRows floatRepr cols header data) ↔
      List.Forall₂ (fun row w => row <+: w ∧ w[header.length]? = some (ringCell floatRepr cols row))
        (data.filter (· ≠ [])) (((data.filter (· ≠ [])).filter (kept cols)).map fun row =>
          row ++ [ringCell floatRepr cols row]) := by
    rw [← hempty]
    constructor
    · rintro ⟨written, hout, hforall⟩
      rw [(List.cons.inj hout).2]
      exact hforall
    · intro hforall
      exact ⟨_, rfl, hforall⟩
  rw [hrows, forall₂_kept_iff]
  simp only [List.mem_filter, decide_eq_true_eq, and_imp]

/-- **One record in, one record out.** Of a file that the script accepts, each record that is not
empty is written with its ring under the header `WKT` exactly when each of them reaches the last of
the eight columns and has as many cells as the header, or has the ring there itself. -/
theorem polygon_iff (cp : Cp932) (chunk : Nat) (floatRepr : Text → Option Text) (bytes file : Bytes)
    (h : kozuMain cp chunk floatRepr bytes = .ok file) :
    ∃ header data cols, readCsv cp chunk bytes = .ok (header :: data) ∧
      colmap header = some cols ∧
      ((∃ out, file = utf8Encode (csvWrite out) ∧
          PolygonUnderHeader floatRepr cols header data out) ↔
        ∀ row ∈ data, row ≠ [] → FitsHeader floatRepr cols header row) := by
  cases hread : readCsv cp chunk bytes with
  | error e =>
    rw [kozuMain, hread] at h
    cases h
  | ok rows =>
    cases rows with
    | nil =>
      rw [kozuMain, hread] at h
      cases h
    | cons header data =>
      rw [kozuMain_eq hread] at h
      cases hcols : colmap header with
      | none =>
        rw [hcols] at h
        cases h
      | some cols =>
        rw [hcols] at h
        cases h
        refine ⟨header, data, cols, rfl, hcols, ?_⟩
        rw [← polygonUnderHeader_iff]
        constructor
        · rintro ⟨out, hfile, hout⟩
          rw [csvWrite_injective (utf8Encode_injective hfile)]
          exact hout
        · intro hout
          exact ⟨_, rfl, hout⟩

/-- A record with as many cells as the header. -/
theorem polygon_regular :
    ∃ header data cols,
      readCsv sampleCp932 8192 (utf8Encode allLabelled) = .ok (header :: data) ∧
      colmap header = some cols ∧
      ((∃ out, utf8Encode ("X1,Y1,X2,Y2,X3,Y3,X4,Y4,WKT\r\n".toList ++
          "1.5,2.5,3.5,4.5,5.5,6.5,7.5,8.5,".toList ++
          "\"POLYGON((1.5 2.5,3.5 4.5,5.5 6.5,7.5 8.5,1.5 2.5))\"\r\n".toList) =
            utf8Encode (csvWrite out) ∧ PolygonUnderHeader some cols header data out) ↔
        ∀ row ∈ data, row ≠ [] → FitsHeader some cols header row) :=
  polygon_iff sampleCp932 8192 some (utf8Encode allLabelled) _ (by decide +kernel)

/-- A header of eight cells with a record of nine and one of two. -/
def raggedText : Text :=
  "X1,Y1,X2,Y2,X3,Y3,X4,Y4\n1.5,2.5,3.5,4.5,5.5,6.5,7.5,8.5,9.5\n1.5,2.5\n".toList

/-- The polygon of the first record comes after the column `WKT`, and the second record is left
out. -/
theorem polygon_ragged :
    kozuMain sampleCp932 8192 some (utf8Encode raggedText) =
      .ok (utf8Encode ("X1,Y1,X2,Y2,X3,Y3,X4,Y4,WKT\r\n".toList ++
        "1.5,2.5,3.5,4.5,5.5,6.5,7.5,8.5,9.5,".toList ++
        "\"POLYGON((1.5 2.5,3.5 4.5,5.5 6.5,7.5 8.5,1.5 2.5))\"\r\n".toList)) ∧
    ¬ FitsHeader some [0, 1, 2, 3, 4, 5, 6, 7] required
      (["1.5", "2.5", "3.5", "4.5", "5.5", "6.5", "7.5", "8.5", "9.5"].map String.toList) ∧
    ¬ FitsHeader some [0, 1, 2, 3, 4, 5, 6, 7] required (["1.5", "2.5"].map String.toList) ∧
    ∃ header data cols, readCsv sampleCp932 8192 (utf8Encode raggedText) = .ok (header :: data) ∧
      colmap header = some cols ∧
      ¬ PolygonUnderHeader some cols header data (polygonRows some cols header data) := by
  have hlong : ¬ FitsHeader some [0, 1, 2, 3, 4, 5, 6, 7] required
      (["1.5", "2.5", "3.5", "4.5", "5.5", "6.5", "7.5", "8.5", "9.5"].map String.toList) := by
    unfold FitsHeader
    decide +kernel
  have hshort : ¬ FitsHeader some [0, 1, 2, 3, 4, 5, 6, 7] required
      (["1.5", "2.5"].map String.toList) := by
    unfold FitsHeader
    decide +kernel
  refine ⟨by decide +kernel, hlong, hshort, required,
    [["1.5", "2.5", "3.5", "4.5", "5.5", "6.5", "7.5", "8.5", "9.5"].map String.toList,
      ["1.5", "2.5"].map String.toList], [0, 1, 2, 3, 4, 5, 6, 7], by decide +kernel,
    by decide +kernel, ?_⟩
  intro hpolygon
  exact hshort (polygonUnderHeader_iff.mp hpolygon _ (by simp) (by decide))

end GdalFull.Convert.Kozu
