import GdalFull.Lib.CsvCells

/-!
# The bytes of one cell

A CSV file in UTF-8 that can be read as CP932 has only cells that can be read so on their own
(`decode_cells`): the separators stay where they are, whatever the quotes around a cell, and so the
decoder is between two characters on both sides of it. A cell that cannot be read as CP932 therefore
keeps the whole file from being read as CP932, and its line as well
(`completeLines_decodedChunks`).
-/

namespace GdalFull.Lib

/-! ## The first record -/

theorem step_records {limit : Nat} {r r' : Reader} {c : Char} (h : r.step limit c = some r') :
    r.records <+: r'.records := by
  rcases step_cases h with ⟨state, hadd⟩ | rfl | ⟨record, _, rfl⟩ | ⟨state, rfl⟩
  · cases (Option.ite_none_right_eq_some.mp hadd).2
    exact List.prefix_rfl
  · exact List.prefix_rfl
  · exact List.prefix_append r.records [record]
  · exact List.prefix_rfl

theorem feed_records {limit : Nat} {r r' : Reader} {t : Text} (h : r.feed limit t = some r') :
    r.records <+: r'.records := by
  induction t generalizing r with
  | nil =>
    cases h
    exact List.prefix_rfl
  | cons c t ih =>
    obtain ⟨mid, hstep, hrest⟩ := Option.bind_eq_some_iff.mp h
    exact (step_records hstep).trans (ih hrest)

theorem Reader.records_finish (r : Reader) : r.records <+: r.finish := by
  unfold Reader.finish
  split
  · exact List.prefix_rfl
  · exact List.prefix_rfl
  · exact List.prefix_append _ _

/-- A lower limit only ends the records earlier. -/
theorem Reader.yielded_prefix {limit limit' : Nat} {r r' : Reader} {t : Text}
    (h : r.feed limit' t = some r') : r.yielded limit t <+: r'.finish := by
  induction t generalizing r with
  | nil =>
    cases h
    exact List.prefix_rfl
  | cons c t ih =>
    rw [Reader.yielded]
    cases hstep : r.step limit c with
    | none => exact (feed_records h).trans r'.records_finish
    | some mid =>
      obtain ⟨mid', hstep', hrest⟩ := Option.bind_eq_some_iff.mp h
      cases step_unique hstep hstep'
      exact ih hrest

/-- The first record is the same without the limit. -/
theorem exists_csvReader_of_yielded {limit : Nat} {t : Text} {header : List Text}
    (h : (csvYielded limit t).head? = some header) :
    ∃ rows, csvReader t.length t = some (header :: rows) := by
  obtain ⟨r, hfeed⟩ := exists_feed (Nat.le_refl t.length)
  obtain ⟨first, hfirst⟩ := List.head?_eq_some_iff.mp h
  have hprefix : csvYielded limit t <+: r.finish := Reader.yielded_prefix hfeed
  obtain ⟨rest, hrest⟩ := hprefix
  refine ⟨first ++ rest, ?_⟩
  rw [csvReader, hfeed, Option.map_some, ← hrest, hfirst, List.cons_append]

theorem Reader.finish_of_not_atStart {r : Reader} (h : ¬ r.state.AtStart) :
    r.finish = r.records ++ [r.fields ++ [r.field]] := by
  unfold CsvState.AtStart at h
  unfold Reader.finish
  cases hstate : r.state <;> simp_all

/-- A first record that has no line end in a cell is the first line of the file. -/
theorem csvReader_firstLine {limit : Nat} {s t : Text} {c : Char} {header : List Text}
    {rows : List (List Text)} (hs : ∀ d ∈ s, isNewline d = false) (hc : isNewline c = true)
    (h : csvReader limit (s ++ c :: t) = some (header :: rows)) (hne : header ≠ [])
    (hcells : ∀ cell ∈ header, ∀ d ∈ cell, isNewline d = false) :
    csvReader limit s = some [header] := by
  have hquote : c ≠ '"' := by
    rintro rfl
    cases hc
  -- an empty line would be the first record
  have hline : s ≠ [] := by
    rintro rfl
    rcases csvReader_head h with ⟨_, hhead⟩ | ⟨rfl, _⟩ | ⟨rfl, _⟩ | ⟨hsep, _⟩
    · exact hne (Option.some.inj hhead)
    · cases hc
    · exact hquote rfl
    · simp [isSeparator, hc] at hsep
  obtain ⟨r, hr, hrecords, hstate⟩ : ∃ r, Reader.start.feed limit s = some r ∧ r.records = [] ∧
      ¬ r.state.AtStart := by
    rcases feed_body hs (c :: t) with hfail | ⟨r, hr, hrecords, hstate⟩
    · have hnil : csvYielded limit (s ++ c :: t) = [] := hfail
      rw [csvYielded_of_csvReader h] at hnil
      cases hnil
    · exact ⟨r, hr, hrecords, hstate hline⟩
  obtain ⟨last, hfeed, hrows⟩ := Option.map_eq_some_iff.mp h
  rw [feed_append, hr, Option.bind_some] at hfeed
  have hheader : header = r.fields ++ [r.field] := by
    obtain ⟨mid, hstep, hafter⟩ := Option.bind_eq_some_iff.mp hfeed
    rcases step_newline hc hstate hstep with ⟨hquoted, _, _⟩ | ⟨_, rfl⟩
    · -- the line end would be in a cell
      obtain ⟨cells, rest, hframe⟩ := (feed_frame (c :: t)).1 r.state hstate
      have hlast := hframe limit r.field r.fields r.records last hfeed
      rw [hrows, hrecords, hquoted, cellRest_inQuoted_cons, if_neg hquote] at hlast
      obtain ⟨rfl, _⟩ := List.cons.inj hlast
      have hplain := hcells _ (List.mem_append_right _ List.mem_cons_self) c
        (List.mem_append_right _ List.mem_cons_self)
      rw [hplain] at hc
      cases hc
    · obtain ⟨more, hmore⟩ := (feed_records hafter).trans last.records_finish
      rw [hrows, Reader.endRecord, hrecords] at hmore
      exact (List.cons.inj hmore).1.symm
  rw [csvReader, hr, Option.map_some, Reader.finish_of_not_atStart hstate, hrecords, hheader]
  rfl

/-! ## Cells -/

variable {cp : Cp932}

/-- Texts are read as CP932 piece by piece. -/
theorem decode_congruent :
    Congruent fun s s' : Text => cp.decode (utf8Encode s) = some s' where
  nil := rfl
  append := by
    intro s s' t t' hs ht
    rw [utf8Encode_append, decode_append cp _ _ hs, ht, Option.map_some]
  separator := by
    intro c hc
    have hlt := isSeparator_lt hc
    exact decode_ascii cp (List.forall_mem_singleton.mpr (by omega))

theorem forall_of_forall₂ {α : Type} {R : α → α → Prop} {P : α → Prop}
    (hR : ∀ {x x'}, R x x' → P x) {l l' : List α} (h : List.Forall₂ R l l') : ∀ x ∈ l, P x := by
  induction h with
  | nil => exact fun x hx => absurd hx List.not_mem_nil
  | cons hx _ ih => exact List.forall_mem_cons.mpr ⟨hR hx, ih⟩

/-- **Every cell of a file that is read as CP932 is read as CP932**, in any quotes. -/
theorem decode_cells {limit : Nat} {t t' : Text} (h : cp.decode (utf8Encode t) = some t')
    {rows : List (List Text)} (hrows : csvReader limit t = some rows) :
    ∀ row ∈ rows, ∀ cell ∈ row, (cp.decode (utf8Encode cell)).isSome = true := by
  obtain ⟨rows', hrows'⟩ := exists_csvReader (Nat.le_refl t'.length)
  have hrelated := forall₂_of_sameShape decode_congruent (sameShape_of_decode id h) hrows hrows'
  refine forall_of_forall₂ ?_ hrelated
  intro row row' hrow
  refine forall_of_forall₂ ?_ hrow
  intro cell cell' hcell
  exact Option.isSome_of_eq_some hcell

/-! ## Lines -/

/-- A text up to a separator is read when it is read with something behind it. -/
theorem decode_upTo {s t : Text} {c : Char} (hc : isSeparator c = true) {v : Bytes}
    (h : cp.decode (utf8Encode (s ++ [c]) ++ v) = some t) :
    (cp.decode (utf8Encode (s ++ [c]))).isSome = true := by
  have hlt := isSeparator_lt hc
  have hascii : Ascii [c] := List.forall_mem_singleton.mpr (by omega)
  have hbyte : (UInt8.ofNat c.toNat).toNat < 0x40 := by
    rw [toNat_asciiByte (by omega)]
    exact hlt
  have hbytes : utf8Encode [c] = [UInt8.ofNat c.toNat] := utf8Encode_ascii (by omega) []
  rw [utf8Encode_append, hbytes, List.append_assoc, List.singleton_append] at h
  obtain ⟨s', _, hs', _, _⟩ := decode_split cp hbyte _ _ h
  rw [utf8Encode_append, decode_append cp _ _ hs', decode_ascii cp hascii]
  rfl

theorem completeLines_eq_nil {t : Text} (h : ∀ c ∈ t, isNewline c = false) :
    completeLines t = [] := by
  rw [completeLines]
  split
  · rename_i hlast
    have hlf := h _ (List.mem_of_getLast? hlast)
    cases hlf
  · cases hlines : readlines t with
    | nil => rfl
    | cons line lines =>
      obtain ⟨body, rest, _, rfl, hrest, hend⟩ := readlines_cons hlines
      have hplain := fun c hc => h c (List.mem_append_left rest hc)
      rcases hend with rfl | rfl | ⟨rfl, _⟩ | ⟨_, _, rfl⟩
      · cases hplain '\n' (by simp)
      · cases hplain '\n' (by simp)
      · cases hplain '\r' (by simp)
      · cases hrest
        rfl

/-- What is decoded of a file has no line end, if the first line cannot be read as CP932. -/
theorem plain_of_decode {p : Bytes} {u t : Text} (hp : p <+: utf8Encode t)
    (hdecode : cp.decode p = some u)
    (hline : ∀ s c rest, t = s ++ c :: rest → (∀ d ∈ s, isNewline d = false) →
      isNewline c = true → cp.decode (utf8Encode s) = none) :
    ∀ d ∈ u, isNewline d = false := by
  intro d hd
  by_contra hnl
  rw [Bool.not_eq_false] at hnl
  have hlt : ∀ {c : Char}, isNewline c = true → c.toNat < 0x40 := by
    intro c hc
    exact isSeparator_lt (by simp [isSeparator, hc])
  obtain ⟨b, hb, hbyte, rfl⟩ := ascii_mem_of_decode cp (by have := hlt hnl; omega) p hdecode hd
  have hmem := mem_of_mem_utf8Encode hbyte (hp.mem hb)
  cases hfind : t.find? isNewline with
  | none => exact List.find?_eq_none.mp hfind _ hmem hnl
  | some c =>
    obtain ⟨hc, s, rest, rfl, hs⟩ := List.find?_eq_some_iff_append.mp hfind
    have hs' : ∀ d ∈ s, isNewline d = false := by simpa using hs
    have hascii : c.toNat < 0x80 := by
      have := hlt hc
      omega
    rw [utf8Encode_append, utf8Encode_ascii hascii] at hp
    rcases Nat.lt_or_ge (utf8Encode s).length p.length with hlong | hshort
    · -- the decoded bytes go beyond the line end
      have hstart : utf8Encode s ++ [UInt8.ofNat c.toNat] <+:
          utf8Encode s ++ UInt8.ofNat c.toNat :: utf8Encode rest := ⟨utf8Encode rest, by simp⟩
      obtain ⟨v, rfl⟩ := List.prefix_of_prefix_length_le hstart hp
        (by rw [List.length_append]; exact hlong)
      rw [List.append_assoc, List.singleton_append] at hdecode
      have hsmall : (UInt8.ofNat c.toNat).toNat < 0x40 := by
        rw [toNat_asciiByte hascii]
        exact hlt hc
      obtain ⟨s', _, hdecoded, _, _⟩ := decode_split cp hsmall _ _ hdecode
      rw [hline s c rest rfl hs' hc] at hdecoded
      cases hdecoded
    · -- they end in the line
      have hin := List.prefix_of_prefix_length_le hp (List.prefix_append _ _) hshort
      have hchar := mem_of_mem_utf8Encode hbyte (hin.mem hb)
      rw [hs' _ hchar] at hnl
      cases hnl

/-- **No line is read.** A first record whose cells have no line end, and one of which cannot be
read as CP932, is not complete when the codec cp932 fails. -/
theorem completeLines_decodedChunks (chunk : Nat) {limit : Nat} {t : Text} {header : List Text}
    {rows : List (List Text)} (h : csvReader limit t = some (header :: rows))
    (hcells : ∀ cell ∈ header, ∀ d ∈ cell, isNewline d = false)
    (hbad : ∃ cell ∈ header, cp.decode (utf8Encode cell) = none) :
    completeLines (decodedChunks cp.decoder chunk (utf8Encode t)) = [] := by
  obtain ⟨cell, hcell, hnone⟩ := hbad
  apply completeLines_eq_nil
  obtain ⟨p, hp, hdecode⟩ := decodedChunks_prefix cp chunk (utf8Encode t)
  refine plain_of_decode hp hdecode ?_
  rintro s c rest rfl hs hc
  rw [Option.eq_none_iff_forall_ne_some]
  intro s' hs'
  have hfirst := csvReader_firstLine hs hc h (List.ne_nil_of_mem hcell) hcells
  have hsome := decode_cells hs' hfirst header List.mem_cons_self cell hcell
  rw [hnone] at hsome
  cases hsome

end GdalFull.Lib
