import GdalFull.Convert.Polygon

/-!
# The search for the columns of 公図

`csv_to_geoparquet_kozu.py` searches the header twice for the labels `X1` to `Y4`: once into a
dictionary, with the blanks inside a cell removed, and, if a label is missing, once more into eight
variables, with the blanks kept. Then it falls back on fixed positions.

`second_search_redundant`: the second search never finds all eight labels after the first one has
failed, whatever the header is and whatever `upper` does. So the script may go on to the fixed
positions at once. `colmap_eq_resolve` says that `colmap` is what the two searches give.
-/

namespace GdalFull.Convert.Kozu

open GdalFull.Lib

/-! ## The two searches -/

/-- A `dict` from labels to column numbers. -/
abbrev ColumnDict := Text → Option Nat

/-- The literal `{"X1": ..., "Y1": ..., ...}`. -/
def labelled (cols : List Nat) : ColumnDict := fun name =>
  (required.zip cols).lookup name

section Search

variable (upper : Text → Text)

/-- `h.strip().upper()`, the `hnorm` of the second search. -/
def cellUpper (h : Text) : Text := upper (strip h)

/-- `h.strip().upper().replace(" ", "")`, the `hnorm` of the first search. -/
def cellLabel (h : Text) : Text := (cellUpper upper h).filter (· ≠ ' ')

/-- One cell of the first search. -/
def setLabel (colmap : ColumnDict) (cell : Text × Nat) : ColumnDict :=
  if required.contains (cellLabel upper cell.1) then
    Function.update colmap (cellLabel upper cell.1) (some cell.2)
  else colmap

/-- `colmap` after the first search. -/
def firstSearch (header : Record) : ColumnDict :=
  header.zipIdx.foldl (setLabel upper) fun _ => none

/-- `idx_x1` to `idx_y4`. -/
structure Indices where
  x1 : Option Nat
  y1 : Option Nat
  x2 : Option Nat
  y2 : Option Nat
  x3 : Option Nat
  y3 : Option Nat
  x4 : Option Nat
  y4 : Option Nat

def Indices.none : Indices :=
  ⟨.none, .none, .none, .none, .none, .none, .none, .none⟩

def Indices.toList (idx : Indices) : List (Option Nat) :=
  [idx.x1, idx.y1, idx.x2, idx.y2, idx.x3, idx.y3, idx.x4, idx.y4]

/-- One cell of the second search. -/
def setIndex (idx : Indices) (cell : Text × Nat) : Indices :=
  let hnorm := cellUpper upper cell.1
  if hnorm = "X1".toList then { idx with x1 := some cell.2 }
  else if hnorm = "Y1".toList then { idx with y1 := some cell.2 }
  else if hnorm = "X2".toList then { idx with x2 := some cell.2 }
  else if hnorm = "Y2".toList then { idx with y2 := some cell.2 }
  else if hnorm = "X3".toList then { idx with x3 := some cell.2 }
  else if hnorm = "Y3".toList then { idx with y3 := some cell.2 }
  else if hnorm = "X4".toList then { idx with x4 := some cell.2 }
  else if hnorm = "Y4".toList then { idx with y4 := some cell.2 }
  else idx

def secondSearch (header : Record) : Indices :=
  header.zipIdx.foldl (setIndex upper) .none

/-- `colmap` after both searches and the fixed positions, or the exit with an error. -/
def resolve (header : Record) : Except KozuError ColumnDict :=
  if required.all fun k => (firstSearch upper header k).isSome then .ok (firstSearch upper header)
  else
    match (secondSearch upper header).toList.mapM id with
    | some cols => .ok (labelled cols)
    | none =>
      if 13 ≤ header.length then .ok (labelled [5, 6, 7, 8, 9, 10, 11, 12]) else .error .noColumns

/-- The same without the second search. -/
def resolveOnce (header : Record) : Except KozuError ColumnDict :=
  if required.all fun k => (firstSearch upper header k).isSome then .ok (firstSearch upper header)
  else if 13 ≤ header.length then .ok (labelled [5, 6, 7, 8, 9, 10, 11, 12])
  else .error .noColumns

end Search

/-- Each of the eight labels is found by the first search. -/
def AllLabels (upper : Text → Text) (header : Record) : Prop :=
  ∀ name ∈ required, ∃ h ∈ header, cellLabel upper h = name

instance (upper : Text → Text) (header : Record) : Decidable (AllLabels upper header) :=
  inferInstanceAs (Decidable (∀ name ∈ required, ∃ h ∈ header, cellLabel upper h = name))

/-- The last column whose cell has the label. -/
def LastLabel (norm : Text → Text) (header : Record) (name : Text) (i : Nat) : Prop :=
  (∃ h, header[i]? = some h ∧ norm h = name) ∧
    ∀ j h, i < j → header[j]? = some h → norm h ≠ name

/-! ## Both searches, label by label -/

theorem lastLabel_concat {norm : Text → Text} {header : Record} {h name : Text} {i : Nat} :
    LastLabel norm (header ++ [h]) name i ↔
      if norm h = name then i = header.length else LastLabel norm header name i := by
  have hlen : (header ++ [h]).length = header.length + 1 := List.length_append
  have hlast : (header ++ [h])[header.length]? = some h := List.getElem?_concat_length
  have hbefore : ∀ j, j ≠ header.length → (header ++ [h])[j]? = header[j]? := by
    intro j hj
    by_cases hlt : j < header.length
    · exact List.getElem?_append_left hlt
    · rw [List.getElem?_eq_none (by omega), List.getElem?_eq_none (by omega)]
  split
  · rename_i hname
    constructor
    · rintro ⟨⟨cell, hcell, _⟩, hafter⟩
      have hlt := (List.getElem?_eq_some_iff.mp hcell).1
      by_contra hne
      exact hafter header.length h (by omega) hlast hname
    · rintro rfl
      refine ⟨⟨h, hlast, hname⟩, ?_⟩
      intro j cell hj hcell
      have hlt := (List.getElem?_eq_some_iff.mp hcell).1
      omega
  · rename_i hname
    -- the cell at the end is not the one
    have hne : ∀ {j cell}, (header ++ [h])[j]? = some cell → norm cell = name →
        j ≠ header.length := by
      rintro j cell hcell hlabel rfl
      cases hlast.symm.trans hcell
      exact hname hlabel
    constructor
    · rintro ⟨⟨cell, hcell, hlabel⟩, hafter⟩
      refine ⟨⟨cell, (hbefore i (hne hcell hlabel)).symm.trans hcell, hlabel⟩, ?_⟩
      intro j d hj hd
      have hlt := (List.getElem?_eq_some_iff.mp hd).1
      exact hafter j d hj ((hbefore j (by omega)).trans hd)
    · rintro ⟨⟨cell, hcell, hlabel⟩, hafter⟩
      have hlt := (List.getElem?_eq_some_iff.mp hcell).1
      refine ⟨⟨cell, (hbefore i (by omega)).trans hcell, hlabel⟩, ?_⟩
      intro j d hj hd hdname
      exact hafter j d hj ((hbefore j (hne hd hdname)).symm.trans hd) hdname

/-- What a search keeps is the last column with the label. -/
theorem columnOf_eq_some_iff {norm : Text → Text} {header : Record} {name : Text} {i : Nat} :
    columnOf norm header name = some i ↔ LastLabel norm header name i := by
  induction header using List.reverseRecOn with
  | nil => simp [columnOf, LastLabel]
  | append_singleton header h ih =>
    rw [columnOf_concat, lastLabel_concat, ← ih]
    split
    · rw [Option.some_inj, eq_comm]
    · rfl

theorem setLabel_apply (upper : Text → Text) (colmap : ColumnDict) (cell : Text × Nat)
    (name : Text) :
    setLabel upper colmap cell name =
      if cellLabel upper cell.1 = name ∧ name ∈ required then some cell.2 else colmap name := by
  unfold setLabel
  by_cases hname : cellLabel upper cell.1 = name
  · rw [hname]
    by_cases hmem : name ∈ required
    · rw [if_pos (List.contains_iff_mem.mpr hmem), if_pos ⟨rfl, hmem⟩, Function.update_self]
    · have hno : ¬ (name = name ∧ name ∈ required) := fun h => hmem h.2
      rw [if_neg fun h => hmem (List.contains_iff_mem.mp h), if_neg hno]
  · have hno : ¬ (cellLabel upper cell.1 = name ∧ name ∈ required) := fun h => hname h.1
    rw [if_neg hno]
    split
    · exact Function.update_of_ne (Ne.symm hname) _ _
    · rfl

/-- The dictionary has the last column of each label, and nothing else. -/
theorem firstSearch_apply (upper : Text → Text) (header : Record) (name : Text) :
    firstSearch upper header name =
      if name ∈ required then columnOf (cellLabel upper) header name else none := by
  induction header using List.reverseRecOn with
  | nil =>
    split
    · rfl
    · rfl
  | append_singleton header h ih =>
    rw [firstSearch, zipIdx_concat, List.foldl_append, List.foldl_cons, List.foldl_nil,
      setLabel_apply, ← firstSearch, ih, columnOf_concat]
    by_cases hmem : name ∈ required
    · simp only [hmem, and_true, if_true]
    · simp only [hmem, and_false, if_false]

theorem setIndex_toList (upper : Text → Text) (idx : Indices) (cell : Text × Nat) :
    (setIndex upper idx cell).toList =
      List.zipWith (fun name i => if cellUpper upper cell.1 = name then some cell.2 else i)
        required idx.toList := by
  unfold setIndex
  generalize cellUpper upper cell.1 = hnorm
  dsimp only
  split_ifs with h₁ h₂ h₃ h₄ h₅ h₆ h₇ h₈
  case neg =>
    simp only [Indices.toList, required, List.map_cons, List.map_nil, List.zipWith_cons_cons,
      List.zipWith_nil_left, h₁, h₂, h₃, h₄, h₅, h₆, h₇, h₈, if_false]
  all_goals
    subst hnorm
    rfl

/-- The eight variables have the last columns of the labels. -/
theorem secondSearch_toList (upper : Text → Text) (header : Record) :
    (secondSearch upper header).toList = required.map (columnOf (cellUpper upper) header) := by
  induction header using List.reverseRecOn with
  | nil => rfl
  | append_singleton header h ih =>
    rw [secondSearch, zipIdx_concat, List.foldl_append, List.foldl_cons, List.foldl_nil,
      setIndex_toList, ← secondSearch, ih, List.zipWith_map_right, List.zipWith_self]
    exact List.map_congr_left fun name _ => (columnOf_concat _ header h name).symm

/-! ## The second search -/

variable {upper : Text → Text}

theorem firstSearch_all_iff {header : Record} :
    (required.all fun k => (firstSearch upper header k).isSome) = true ↔
      AllLabels upper header := by
  rw [List.all_eq_true]
  refine forall₂_congr fun name hname => ?_
  rw [firstSearch_apply, if_pos hname, columnOf_isSome]

/-- Removing the blanks does not hide a label. -/
theorem cellLabel_of_cellUpper {h name : Text} (hname : name ∈ required)
    (hcell : cellUpper upper h = name) : cellLabel upper h = name := by
  rw [cellLabel, hcell, required_noBlank name hname]

/-- If the first search misses a label, so does the second one. -/
theorem secondSearch_eq_none {header : Record} (h : ¬ AllLabels upper header) :
    (secondSearch upper header).toList.mapM id = none := by
  rw [secondSearch_toList, List.mapM_map, Function.id_comp, ← Option.not_isSome_iff_eq_none,
    mapM_columnOf_isSome]
  intro hall
  apply h
  intro name hname
  obtain ⟨cell, hmem, hcell⟩ := hall name hname
  exact ⟨cell, hmem, cellLabel_of_cellUpper hname hcell⟩

theorem resolve_of_allLabels {header : Record} (h : AllLabels upper header) :
    resolve upper header = .ok (firstSearch upper header) :=
  if_pos (firstSearch_all_iff.mpr h)

theorem resolve_of_not_allLabels {header : Record} (h : ¬ AllLabels upper header) :
    resolve upper header =
      if 13 ≤ header.length then .ok (labelled fixedColumns) else .error .noColumns := by
  rw [resolve, if_neg (mt firstSearch_all_iff.mp h), secondSearch_eq_none h]
  rfl

/-- **The second search is redundant.** With it and without it, the script takes the last column of
each label if the first search finds all eight, else the columns 5 to 12 if there are 13, and else
it exits with an error. -/
theorem second_search_redundant (upper : Text → Text) (header : Record) :
    resolve upper header = resolveOnce upper header ∧
    if AllLabels upper header then
      ∃ colmap, resolve upper header = .ok colmap ∧
        ∀ name i, colmap name = some i ↔
          name ∈ required ∧ LastLabel (cellLabel upper) header name i
    else if 13 ≤ header.length then resolve upper header = .ok (labelled fixedColumns)
    else resolve upper header = .error .noColumns := by
  by_cases h : AllLabels upper header
  · have honce : resolveOnce upper header = .ok (firstSearch upper header) :=
      if_pos (firstSearch_all_iff.mpr h)
    rw [resolve_of_allLabels h, honce, if_pos h]
    refine ⟨rfl, _, rfl, ?_⟩
    intro name i
    rw [firstSearch_apply, Option.ite_none_right_eq_some, columnOf_eq_some_iff]
  · have honce : resolveOnce upper header =
        if 13 ≤ header.length then .ok (labelled fixedColumns) else .error .noColumns :=
      if_neg (mt firstSearch_all_iff.mp h)
    rw [resolve_of_not_allLabels h, honce, if_neg h]
    refine ⟨rfl, ?_⟩
    split
    · rfl
    · rfl

/-! ## The columns of the model -/

/-- A test for the labels that gives the same answers finds the same columns. -/
theorem columnOf_congr {norm norm' : Text → Text} {name : Text}
    (h : ∀ cell, norm cell = name ↔ norm' cell = name) (header : Record) :
    columnOf norm header name = columnOf norm' header name := by
  unfold columnOf
  simp only [h]

/-- For an `upper` that makes the labels of the same cells as the one of ASCII does, as that of
Python is, `colmap` has the columns which are looked up in the dictionary. -/
theorem colmap_eq_resolve
    (hupper : ∀ s, ∀ name ∈ required, (upper s).filter (· ≠ ' ') = name ↔
      (s.map Char.toUpper).filter (· ≠ ' ') = name) (header : Record) :
    colmap header = (resolve upper header).toOption.bind fun dict => required.mapM dict := by
  have hlabel : ∀ name ∈ required, ∀ cell,
      cellLabel upper cell = name ↔ hnormNoBlank cell = name :=
    fun name hname cell => hupper (strip cell) name hname
  have hall : AllLabels upper header ↔ Labelled header := by
    refine forall₂_congr fun name hname => exists_congr fun cell => ?_
    rw [hlabel name hname cell]
  by_cases h : Labelled header
  · have hdict : required.map (firstSearch upper header) =
        required.map (columnOf hnormNoBlank header) := by
      refine List.map_congr_left fun name hname => ?_
      rw [firstSearch_apply, if_pos hname, columnOf_congr (hlabel name hname)]
    have hsame : required.mapM (firstSearch upper header) =
        required.mapM (columnOf hnormNoBlank header) := by
      have hid := congrArg (List.mapM id) hdict
      rwa [List.mapM_map, List.mapM_map] at hid
    obtain ⟨cols, hcols⟩ := Option.isSome_iff_exists.mp (mapM_columnOf_isSome.mpr h)
    rw [resolve_of_allLabels (hall.mpr h), colmap, hcols]
    exact (hsame.trans hcols).symm
  · rw [colmap_of_not_labelled h, resolve_of_not_allLabels (mt hall.mp h)]
    split
    · rfl
    · rfl

end GdalFull.Convert.Kozu
