import GdalFull.Lib.CsvLines

/-!
# One cell of a CSV file

The reader decides by its state alone where a cell ends. So what it makes of the rest of a text does
not depend on what it has read before (`feed_frame`), and `CsvState.cellRest` is what it still adds
to the cell that it is in.

* `csvReader_replace`: a text without separators in place of another one changes one cell.
* `csvReader_cons_ne`: a character in front of a file changes its first record, also if the first
  cell is in quotes and is not any more.
-/

namespace GdalFull.Lib

/-! ## The limit -/

theorem step_unique {limit limit' : Nat} {r r₁ r₂ : Reader} {c : Char}
    (h₁ : r.step limit c = some r₁) (h₂ : r.step limit' c = some r₂) : r₁ = r₂ := by
  unfold Reader.step Reader.recordStep Reader.fieldStep Reader.add at h₁ h₂
  cases hstate : r.state <;> rw [hstate] at h₁ h₂ <;> dsimp only at h₁ h₂ <;>
    split_ifs at h₁ h₂ <;> exact Option.some.inj (h₁.symm.trans h₂)

/-- Two limits that a text is within give the same records. -/
theorem feed_unique {limit limit' : Nat} {r r₁ r₂ : Reader} {t : Text}
    (h₁ : r.feed limit t = some r₁) (h₂ : r.feed limit' t = some r₂) : r₁ = r₂ := by
  induction t generalizing r with
  | nil => exact Option.some.inj (h₁.symm.trans h₂)
  | cons c t ih =>
    obtain ⟨m₁, hstep₁, hrest₁⟩ := Option.bind_eq_some_iff.mp h₁
    obtain ⟨m₂, hstep₂, hrest₂⟩ := Option.bind_eq_some_iff.mp h₂
    cases step_unique hstep₁ hstep₂
    exact ih hrest₁ hrest₂

/-- A reader for a text that is within the limit. -/
theorem exists_feed {limit : Nat} {t : Text} (h : t.length ≤ limit) :
    ∃ r, Reader.start.feed limit t = some r := by
  apply Option.isSome_iff_exists.mp
  apply feed_isSome
  change 0 + t.length ≤ limit
  omega

theorem exists_csvReader {limit : Nat} {t : Text} (h : t.length ≤ limit) :
    ∃ rows, csvReader limit t = some rows := by
  obtain ⟨r, hr⟩ := exists_feed h
  exact ⟨r.finish, by rw [csvReader, hr, Option.map_some]⟩

theorem csvReader_of_length_le {limit limit' : Nat} {t : Text} {rows : List (List Text)}
    (h : csvReader limit t = some rows) (hlen : t.length ≤ limit') :
    csvReader limit' t = some rows := by
  obtain ⟨r, hfeed, rfl⟩ := Option.map_eq_some_iff.mp h
  obtain ⟨r', hfeed'⟩ := exists_feed hlen
  rw [csvReader, hfeed', feed_unique hfeed' hfeed, Option.map_some]

/-- Texts of one shape are read to related records, also with two limits. -/
theorem forall₂_of_sameShape {R : Text → Text → Prop} (hR : Congruent R) {limit limit' : Nat}
    {t t' : Text} (ht : SameShape R t t') {rows rows' : List (List Text)}
    (h : csvReader limit t = some rows) (h' : csvReader limit' t' = some rows') :
    List.Forall₂ (List.Forall₂ R) rows rows' :=
  csvReader_sameShape hR ht (csvReader_of_length_le h (Nat.le_add_right t.length t'.length))
    (csvReader_of_length_le h' (Nat.le_add_left t'.length t.length))

/-! ## The rest of a cell -/

/-- The character ends the cell. -/
def CsvState.ends (s : CsvState) (c : Char) : Bool :=
  s ≠ .inQuoted && (c = ',' || isNewline c)

/-- The character opens or closes quotes. -/
def CsvState.drops (s : CsvState) (c : Char) : Bool :=
  c = '"' && (s = .startField || s = .inQuoted)

/-- What is added to the cell in which the reader is. -/
def CsvState.cellRest : CsvState → Text → Text
  | _, [] => []
  | s, c :: t =>
    if s.ends c then []
    else if s.drops c then (s.next c).cellRest t
    else c :: (s.next c).cellRest t

theorem isNewline_comma : isNewline ',' = false := by decide

theorem isNewline_quote : isNewline '"' = false := by decide

/-- The characters that the reader tells apart, case by case. -/
theorem char_cases (c : Char) :
    isNewline c = true ∧ c ≠ ',' ∧ c ≠ '"' ∨ c = ',' ∨ c = '"' ∨
      isNewline c = false ∧ c ≠ ',' ∧ c ≠ '"' := by
  by_cases hcomma : c = ','
  · exact Or.inr (Or.inl hcomma)
  · by_cases hquote : c = '"'
    · exact Or.inr (Or.inr (Or.inl hquote))
    · cases hnl : isNewline c with
      | true => exact Or.inl ⟨rfl, hcomma, hquote⟩
      | false => exact Or.inr (Or.inr (Or.inr ⟨rfl, hcomma, hquote⟩))

/-- A character inside a record ends the cell or the record, opens or closes quotes, or is added to
the cell. -/
theorem step_inRecord (limit : Nat) {s : CsvState} (hs : ¬ s.AtStart) (d : Text) (fs : List Text)
    (records : List (List Text)) (c : Char) :
    Reader.step limit ⟨s, d, fs, records⟩ c =
      if s.ends c then
        if c = ',' then some ⟨.startField, [], fs ++ [d], records⟩
        else some ⟨.afterNewline c, [], [], records ++ [fs ++ [d]]⟩
      else if s.drops c then some ⟨s.next c, d, fs, records⟩
      else if d.length < limit then some ⟨s.next c, d ++ [c], fs, records⟩
      else none := by
  unfold Reader.step Reader.fieldStep Reader.add Reader.save Reader.endRecord CsvState.next
    CsvState.fieldNext CsvState.ends CsvState.drops CsvState.afterNewline
  cases s
  case startRecord => exact absurd (Or.inl rfl) hs
  case afterCr => exact absurd (Or.inr rfl) hs
  all_goals
    rcases char_cases c with ⟨h₁, h₂, h₃⟩ | rfl | rfl | ⟨h₁, h₂, h₃⟩
    · simp [h₁, h₂, h₃]
    · simp [isNewline_comma]
    · simp [isNewline_quote]
    · simp [h₁, h₂, h₃]

theorem not_atStart_next {s : CsvState} (hs : ¬ s.AtStart) {c : Char} (hc : s.ends c = false) :
    ¬ (s.next c).AtStart := by
  unfold CsvState.ends at hc
  unfold CsvState.next CsvState.fieldNext
  cases s
  case startRecord => exact absurd (Or.inl rfl) hs
  case afterCr => exact absurd (Or.inr rfl) hs
  all_goals
    rcases char_cases c with ⟨h₁, h₂, h₃⟩ | rfl | rfl | ⟨h₁, h₂, h₃⟩
    · simp_all [CsvState.AtStart]
    · simp_all [isNewline_comma, CsvState.AtStart]
    · simp [isNewline_quote, CsvState.AtStart]
    · simp [h₁, h₂, h₃, CsvState.AtStart]

theorem atStart_afterNewline (c : Char) : (CsvState.afterNewline c).AtStart := by
  unfold CsvState.afterNewline CsvState.AtStart
  split
  · exact Or.inr rfl
  · exact Or.inl rfl

/-- A character where a record is expected is an empty line or belongs to the line end before, or it
begins a record. -/
theorem step_atStart {s : CsvState} (hs : s.AtStart) (c : Char) :
    (∃ s' new, s'.AtStart ∧ ∀ limit records r,
      Reader.step limit ⟨s, [], [], records⟩ c = some r → r = ⟨s', [], [], records ++ new⟩) ∨
    ∃ s' d fs, ¬ s'.AtStart ∧ ∀ limit records r,
      Reader.step limit ⟨s, [], [], records⟩ c = some r → r = ⟨s', d, fs, records⟩ := by
  by_cases hlf : s = .afterCr ∧ c = '\n'
  · obtain ⟨rfl, rfl⟩ := hlf
    refine Or.inl ⟨.startRecord, [], Or.inl rfl, ?_⟩
    intro limit records r h
    rw [List.append_nil]
    exact (Option.some.inj h).symm
  · have hstep : ∀ limit records, Reader.step limit ⟨s, [], [], records⟩ c =
        Reader.recordStep limit ⟨s, [], [], records⟩ c := by
      intro limit records
      rcases hs with rfl | rfl
      · rfl
      · exact if_neg fun hc => hlf ⟨rfl, hc⟩
    simp only [hstep]
    unfold Reader.recordStep Reader.fieldStep Reader.add
    rcases char_cases c with ⟨h₁, h₂, h₃⟩ | rfl | rfl | ⟨h₁, h₂, h₃⟩
    · refine Or.inl ⟨.afterNewline c, [[]], atStart_afterNewline c, ?_⟩
      intro limit records r h
      rw [if_pos h₁] at h
      exact (Option.some.inj h).symm
    · exact Or.inr ⟨.startField, [], [[]], nofun, fun _ _ _ h => (Option.some.inj h).symm⟩
    · exact Or.inr ⟨.inQuoted, [], [], nofun, fun _ _ _ h => (Option.some.inj h).symm⟩
    · refine Or.inr ⟨.inField, [c], [], nofun, ?_⟩
      intro limit records r h
      simp only [h₁, h₂, h₃, Bool.false_eq_true, if_false, Option.ite_none_right_eq_some] at h
      exact (Option.some.inj h.2).symm

/-- **What follows a cell.** The rest of a text is read to the same cells and records whatever has
been read before. -/
theorem feed_frame (t : Text) :
    (∀ s : CsvState, ¬ s.AtStart → ∃ cells rest, ∀ limit d fs records r,
      Reader.feed limit ⟨s, d, fs, records⟩ t = some r →
        r.finish = records ++ (fs ++ (d ++ s.cellRest t) :: cells) :: rest) ∧
    ∀ s : CsvState, s.AtStart → ∃ rest, ∀ limit records r,
      Reader.feed limit ⟨s, [], [], records⟩ t = some r → r.finish = records ++ rest := by
  induction t with
  | nil =>
    constructor
    · intro s hs
      refine ⟨[], [], ?_⟩
      intro limit d fs records r h
      cases h
      cases s
      case startRecord => exact absurd (Or.inl rfl) hs
      case afterCr => exact absurd (Or.inr rfl) hs
      all_goals simp [Reader.finish, CsvState.cellRest]
    · intro s hs
      refine ⟨[], ?_⟩
      intro limit records r h
      cases h
      rw [List.append_nil]
      rcases hs with rfl | rfl <;> rfl
  | cons c t ih =>
    obtain ⟨ihcell, ihstart⟩ := ih
    constructor
    · intro s hs
      cases hends : s.ends c with
      | true =>
        by_cases hcomma : c = ','
        · obtain ⟨cells, rest, hrest⟩ := ihcell .startField (by simp [CsvState.AtStart])
          refine ⟨CsvState.startField.cellRest t :: cells, rest, ?_⟩
          intro limit d fs records r h
          rw [Reader.feed, step_inRecord limit hs, if_pos hends, if_pos hcomma] at h
          rw [hrest limit _ _ _ r h]
          simp [CsvState.cellRest, hends]
        · obtain ⟨rest, hrest⟩ := ihstart _ (atStart_afterNewline c)
          refine ⟨[], rest, ?_⟩
          intro limit d fs records r h
          rw [Reader.feed, step_inRecord limit hs, if_pos hends, if_neg hcomma] at h
          rw [hrest limit _ r h]
          simp [CsvState.cellRest, hends]
      | false =>
        obtain ⟨cells, rest, hrest⟩ := ihcell _ (not_atStart_next hs hends)
        refine ⟨cells, rest, ?_⟩
        intro limit d fs records r h
        rw [Reader.feed, step_inRecord limit hs, hends, if_neg Bool.false_ne_true] at h
        cases hdrops : s.drops c with
        | true =>
          rw [hdrops, if_pos rfl] at h
          rw [hrest limit _ _ _ r h]
          simp [CsvState.cellRest, hends, hdrops]
        | false =>
          rw [hdrops, if_neg Bool.false_ne_true] at h
          obtain ⟨mid, hadd, h⟩ := Option.bind_eq_some_iff.mp h
          cases (Option.ite_none_right_eq_some.mp hadd).2
          rw [hrest limit _ _ _ r h]
          simp [CsvState.cellRest, hends, hdrops]
    · intro s hs
      rcases step_atStart hs c with ⟨s', new, hs', hstep⟩ | ⟨s', d, fs, hs', hstep⟩
      · obtain ⟨rest, hrest⟩ := ihstart s' hs'
        refine ⟨new ++ rest, ?_⟩
        intro limit records r h
        obtain ⟨mid, hmid, h⟩ := Option.bind_eq_some_iff.mp h
        rw [hstep limit records mid hmid] at h
        rw [hrest limit _ r h, List.append_assoc]
      · obtain ⟨cells, rest, hrest⟩ := ihcell s' hs'
        refine ⟨(fs ++ (d ++ s'.cellRest t) :: cells) :: rest, ?_⟩
        intro limit records r h
        obtain ⟨mid, hmid, h⟩ := Option.bind_eq_some_iff.mp h
        rw [hstep limit records mid hmid] at h
        exact hrest limit _ _ _ r h

/-! ## Another text in a cell -/

def cellAt (rows : List (List Text)) (i j : Nat) : Option Text :=
  (rows[i]?).bind (·[j]?)

/-- The same records, but for one cell. -/
structure SameBut (p : Nat × Nat) (rows rows' : List (List Text)) : Prop where
  lengths : rows'.map List.length = rows.map List.length
  cells : ∀ i j, (i, j) ≠ p → cellAt rows' i j = cellAt rows i j

theorem sameBut_cell (records : List (List Text)) (fs : List Text) (d d' : Text)
    (cells : List Text) (rest : List (List Text)) :
    SameBut (records.length, fs.length) (records ++ (fs ++ d :: cells) :: rest)
      (records ++ (fs ++ d' :: cells) :: rest) := by
  refine ⟨by simp, ?_⟩
  intro i j hne
  unfold cellAt
  by_cases hi : i = records.length
  · have hj : j ≠ fs.length := fun hj => hne (by rw [hi, hj])
    subst hi
    simp only [List.getElem?_append_right (Nat.le_refl _), Nat.sub_self, List.getElem?_cons_zero,
      Option.bind_some]
    rcases Nat.lt_or_gt_of_ne hj with hlt | hgt
    · rw [List.getElem?_append_left hlt, List.getElem?_append_left hlt]
    · obtain ⟨k, rfl⟩ := Nat.exists_eq_add_of_lt hgt
      have hk : fs.length + k + 1 - fs.length = k + 1 := by omega
      rw [List.getElem?_append_right (by omega), List.getElem?_append_right (by omega), hk,
        List.getElem?_cons_succ, List.getElem?_cons_succ]
  · rcases Nat.lt_or_gt_of_ne hi with hlt | hgt
    · rw [List.getElem?_append_left hlt, List.getElem?_append_left hlt]
    · obtain ⟨k, rfl⟩ := Nat.exists_eq_add_of_lt hgt
      have hk : records.length + k + 1 - records.length = k + 1 := by omega
      rw [List.getElem?_append_right (by omega), List.getElem?_append_right (by omega), hk,
        List.getElem?_cons_succ, List.getElem?_cons_succ]

/-- The record and the column in which a text goes on after some beginning. -/
def place (a : Text) : Nat × Nat :=
  match Reader.start.feed a.length a with
  | some r => (r.records.length, r.fields.length)
  | none => (0, 0)

theorem place_of_feed {limit : Nat} {a : Text} {r : Reader}
    (h : Reader.start.feed limit a = some r) : place a = (r.records.length, r.fields.length) := by
  obtain ⟨r', h'⟩ := exists_feed (Nat.le_refl a.length)
  cases feed_unique h h'
  rw [place, h']

/-- Text without separators stays in the cell. -/
theorem place_append {a s : Text} (hs : ∀ c ∈ s, isSeparator c = false) :
    place (a ++ s) = place a := by
  obtain ⟨r, h⟩ := exists_feed (Nat.le_refl (a ++ s).length)
  rw [place_of_feed h]
  rw [feed_append] at h
  obtain ⟨mid, hmid, h⟩ := Option.bind_eq_some_iff.mp h
  rw [place_of_feed hmid, feed_plain hs h]
  cases s <;> rfl

theorem feed_run {limit : Nat} {r r' : Reader} {s : Text} (hs : ∀ c ∈ s, isSeparator c = false)
    (hne : s ≠ []) (h : r.feed limit s = some r') :
    r' = ⟨r.state.plain, r.field ++ s, r.fields, r.records⟩ := by
  rw [feed_plain hs h]
  cases s with
  | nil => exact absurd rfl hne
  | cons c s => rfl

/-- **One run of text.** A text without separators in place of another one changes one cell. -/
theorem csvReader_replace {limit limit' : Nat} {a s s' z : Text}
    (hs : ∀ c ∈ s, isSeparator c = false) (hs' : ∀ c ∈ s', isSeparator c = false)
    (hne : s ≠ []) (hne' : s' ≠ []) {rows rows' : List (List Text)}
    (h : csvReader limit (a ++ (s ++ z)) = some rows)
    (h' : csvReader limit' (a ++ (s' ++ z)) = some rows') : SameBut (place a) rows rows' := by
  obtain ⟨r, hfeed, rfl⟩ := Option.map_eq_some_iff.mp h
  obtain ⟨r', hfeed', rfl⟩ := Option.map_eq_some_iff.mp h'
  rw [feed_append] at hfeed hfeed'
  obtain ⟨m, hm, hfeed⟩ := Option.bind_eq_some_iff.mp hfeed
  obtain ⟨m', hm', hfeed'⟩ := Option.bind_eq_some_iff.mp hfeed'
  cases feed_unique hm hm'
  rw [feed_append] at hfeed hfeed'
  obtain ⟨e, he, hfeed⟩ := Option.bind_eq_some_iff.mp hfeed
  obtain ⟨e', he', hfeed'⟩ := Option.bind_eq_some_iff.mp hfeed'
  rw [feed_run hs hne he] at hfeed
  rw [feed_run hs' hne' he'] at hfeed'
  have hplain : ¬ m.state.plain.AtStart := by
    cases m.state <;> nofun
  obtain ⟨cells, rest, hframe⟩ := (feed_frame z).1 _ hplain
  rw [place_of_feed hm, hframe _ _ _ _ _ hfeed, hframe _ _ _ _ _ hfeed']
  exact sameBut_cell _ _ _ _ _ _

/-! ## A character in front -/

/-- The end of a cell without quotes. -/
def endsCell (c : Char) : Bool := c = ',' || isNewline c

theorem cellRest_inField_cons (c : Char) (t : Text) :
    CsvState.inField.cellRest (c :: t) =
      if endsCell c then [] else c :: CsvState.inField.cellRest t := by
  rw [CsvState.cellRest]
  change (if endsCell c then [] else _) = _
  by_cases hc : endsCell c = true
  · rw [if_pos hc, if_pos hc]
  · have hc' : c ≠ ',' ∧ isNewline c = false := by simpa [endsCell] using hc
    simp [hc, CsvState.drops, CsvState.next, hc']

theorem cellRest_inQuoted_cons (c : Char) (t : Text) :
    CsvState.inQuoted.cellRest (c :: t) =
      if c = '"' then CsvState.quoteInQuoted.cellRest t
      else c :: CsvState.inQuoted.cellRest t := by
  by_cases hc : c = '"'
  · simp [CsvState.cellRest, CsvState.ends, CsvState.drops, CsvState.next, hc]
  · simp [CsvState.cellRest, CsvState.ends, CsvState.drops, CsvState.next, hc]

theorem cellRest_quoteInQuoted_cons (c : Char) (t : Text) :
    CsvState.quoteInQuoted.cellRest (c :: t) =
      if c = '"' then c :: CsvState.inQuoted.cellRest t
      else CsvState.inField.cellRest (c :: t) := by
  rw [cellRest_inField_cons, CsvState.cellRest]
  change (if endsCell c then [] else _) = _
  by_cases hquote : c = '"'
  · subst hquote
    rfl
  · by_cases hc : endsCell c = true
    · rw [if_pos hc, if_neg hquote, if_pos hc]
    · have hc' : c ≠ ',' ∧ isNewline c = false := by simpa [endsCell] using hc
      simp [hc, hquote, CsvState.drops, CsvState.next, hc']

theorem not_endsCell_of_mem {t : Text} {c : Char} (h : c ∈ CsvState.inField.cellRest t) :
    endsCell c = false := by
  induction t with
  | nil => cases h
  | cons d t ih =>
    rw [cellRest_inField_cons] at h
    split_ifs at h with hd
    · cases h
    · rcases List.mem_cons.mp h with rfl | h
      · exact Bool.not_eq_true _ ▸ hd
      · exact ih h

/-- Read without quotes a cell gets at least as long, unless its quotes hold separators. -/
theorem cellRest_length_le (t : Text) :
    ((∃ c ∈ CsvState.inQuoted.cellRest t, endsCell c = true) ∨
      (CsvState.inQuoted.cellRest t).length ≤ (CsvState.inField.cellRest t).length) ∧
    ((∃ c ∈ CsvState.quoteInQuoted.cellRest t, endsCell c = true) ∨
      (CsvState.quoteInQuoted.cellRest t).length ≤ (CsvState.inField.cellRest t).length) := by
  induction t with
  | nil => exact ⟨Or.inr (Nat.le_refl 0), Or.inr (Nat.le_refl 0)⟩
  | cons c t ih =>
    obtain ⟨ihquoted, ihquote⟩ := ih
    rw [cellRest_inQuoted_cons, cellRest_quoteInQuoted_cons]
    by_cases hquote : c = '"'
    · subst hquote
      have hplain : CsvState.inField.cellRest ('"' :: t) =
          '"' :: CsvState.inField.cellRest t := cellRest_inField_cons _ t
      rw [if_pos rfl, if_pos rfl, hplain, List.length_cons, List.length_cons]
      constructor
      · rcases ihquote with hsep | hle
        · exact Or.inl hsep
        · exact Or.inr (Nat.le_succ_of_le hle)
      · rcases ihquoted with ⟨d, hd, hends⟩ | hle
        · exact Or.inl ⟨d, List.mem_cons_of_mem _ hd, hends⟩
        · exact Or.inr (Nat.succ_le_succ hle)
    · rw [if_neg hquote, if_neg hquote]
      refine ⟨?_, Or.inr (Nat.le_refl _)⟩
      by_cases hends : endsCell c = true
      · exact Or.inl ⟨c, List.mem_cons_self, hends⟩
      · rw [cellRest_inField_cons, if_neg hends, List.length_cons, List.length_cons]
        rcases ihquoted with ⟨d, hd, hends⟩ | hle
        · exact Or.inl ⟨d, List.mem_cons_of_mem _ hd, hends⟩
        · exact Or.inr (Nat.succ_le_succ hle)

theorem not_endsCell {c : Char} (hc : isSeparator c = false) : endsCell c = false := by
  simp only [isSeparator, Bool.or_eq_false_iff] at hc
  rw [endsCell, hc.1.1, hc.2]
  rfl

/-- A cell in quotes, and the same text behind a character. -/
theorem cellRest_quoted_ne {c : Char} (hc : isSeparator c = false) (t : Text) :
    c :: CsvState.inField.cellRest ('"' :: t) ≠ CsvState.inQuoted.cellRest t := by
  intro heq
  rcases (cellRest_length_le t).1 with ⟨d, hd, hends⟩ | hle
  · rw [← heq] at hd
    rcases List.mem_cons.mp hd with rfl | hd
    · exact absurd hends (Bool.not_eq_true _ ▸ not_endsCell hc)
    · exact absurd hends (Bool.not_eq_true _ ▸ not_endsCell_of_mem hd)
  · have hplain : CsvState.inField.cellRest ('"' :: t) =
        '"' :: CsvState.inField.cellRest t := cellRest_inField_cons _ t
    rw [← heq, hplain, List.length_cons, List.length_cons] at hle
    omega

/-- The first record, by the first character of the file. -/
theorem csvReader_head {limit : Nat} {c : Char} {t : Text} {rows : List (List Text)}
    (h : csvReader limit (c :: t) = some rows) :
    isNewline c = true ∧ rows.head? = some [] ∨
    c = ',' ∧ (∃ cells, rows.head? = some ([] :: cells)) ∨
    c = '"' ∧ (∃ cells, rows.head? = some (CsvState.inQuoted.cellRest t :: cells)) ∨
    isSeparator c = false ∧
      ∃ cells, rows.head? = some ((c :: CsvState.inField.cellRest t) :: cells) := by
  obtain ⟨r, hfeed, rfl⟩ := Option.map_eq_some_iff.mp h
  obtain ⟨m, hstep, hrest⟩ := Option.bind_eq_some_iff.mp hfeed
  rcases char_cases c with ⟨hnl, -, -⟩ | rfl | rfl | ⟨hnl, hcomma, hquote⟩
  · have hm : m = ⟨.afterNewline c, [], [], [[]]⟩ := by
      change (if isNewline c then _ else _) = _ at hstep
      rw [if_pos hnl] at hstep
      exact (Option.some.inj hstep).symm
    obtain ⟨rest, hframe⟩ := (feed_frame t).2 _ (atStart_afterNewline c)
    rw [hm] at hrest
    rw [hframe _ _ _ hrest]
    exact Or.inl ⟨hnl, rfl⟩
  · have hm : m = ⟨.startField, [], [[]], []⟩ := (Option.some.inj hstep).symm
    obtain ⟨cells, rest, hframe⟩ := (feed_frame t).1 .startField (by simp [CsvState.AtStart])
    rw [hm] at hrest
    rw [hframe _ _ _ _ _ hrest]
    exact Or.inr (Or.inl ⟨rfl, _, rfl⟩)
  · have hm : m = ⟨.inQuoted, [], [], []⟩ := (Option.some.inj hstep).symm
    obtain ⟨cells, rest, hframe⟩ := (feed_frame t).1 .inQuoted (by simp [CsvState.AtStart])
    rw [hm] at hrest
    rw [hframe _ _ _ _ _ hrest]
    exact Or.inr (Or.inr (Or.inl ⟨rfl, cells, rfl⟩))
  · have hc : isSeparator c = false := by simp [isSeparator, hnl, hcomma, hquote]
    have hm : m = ⟨.inField, [c], [], []⟩ := by
      rw [step_plain hc] at hstep
      exact (Option.some.inj (Option.ite_none_right_eq_some.mp hstep).2).symm
    obtain ⟨cells, rest, hframe⟩ := (feed_frame t).1 .inField (by simp [CsvState.AtStart])
    rw [hm] at hrest
    rw [hframe _ _ _ _ _ hrest]
    exact Or.inr (Or.inr (Or.inr ⟨hc, cells, rfl⟩))

/-- A file that is not empty has a record. -/
theorem csvReader_ne_nil {limit : Nat} {t : Text} (ht : t ≠ []) {rows : List (List Text)}
    (h : csvReader limit t = some rows) : rows ≠ [] := by
  cases t with
  | nil => exact absurd rfl ht
  | cons c t =>
    rintro rfl
    rcases csvReader_head h with ⟨_, h⟩ | ⟨_, _, h⟩ | ⟨_, _, h⟩ | ⟨_, _, h⟩ <;> cases h

/-- **A character in front.** It changes the first record of a file, whatever the file begins
with. -/
theorem csvReader_cons_ne {limit limit' : Nat} {c : Char} (hc : isSeparator c = false) {t : Text}
    {rows rows' : List (List Text)} (h : csvReader limit t = some rows)
    (h' : csvReader limit' (c :: t) = some rows') : rows'.head? ≠ rows.head? := by
  obtain ⟨cells', hhead'⟩ : ∃ cells, rows'.head? =
      some ((c :: CsvState.inField.cellRest t) :: cells) := by
    rcases csvReader_head h' with ⟨hnl, _⟩ | ⟨rfl, _⟩ | ⟨rfl, _⟩ | ⟨_, hhead⟩
    · simp [isSeparator, hnl] at hc
    · cases hc
    · cases hc
    · exact hhead
  rw [hhead']
  cases t with
  | nil =>
    cases h
    exact Option.some_ne_none _
  | cons d t =>
    rcases csvReader_head h with ⟨_, hhead⟩ | ⟨_, cells, hhead⟩ | ⟨rfl, cells, hhead⟩ |
        ⟨hd, cells, hhead⟩
    · rw [hhead]
      simp
    · rw [hhead]
      simp
    · rw [hhead]
      intro heq
      exact cellRest_quoted_ne hc t (List.cons.inj (Option.some.inj heq)).1
    · rw [hhead, cellRest_inField_cons, if_neg (Bool.eq_false_iff.mp (not_endsCell hd))]
      intro heq
      have hlen := congrArg List.length (List.cons.inj (Option.some.inj heq)).1
      simp only [List.length_cons] at hlen
      omega

end GdalFull.Lib
