import GdalFull.Lib.CsvLines

/-!
# Blank lines of UTF-8 text that is read as CP932

A line end is one byte below `40`, so it is a line end in both readings, and the lines of the two
texts correspond (`readlines_decode`). A line that is blank as CP932 is ASCII and is blank as UTF-8
too. A line of blanks outside ASCII is not: as CP932 its first character is a half-width one or
a kanji. So the lines that are not blank are more in CP932, by these lines (`countP_full`).
-/

namespace GdalFull.Lib

/-- `81 40`, the ideographic space, is the only pair for a blank. -/
def Cp932.OneBlank (cp : Cp932) : Prop :=
  ∀ b₁ b₂ c, cp.pair b₁ b₂ = some c → isSpace c = true → b₁ = 0x81 ∧ b₂ = 0x40

/-! ## Blank lines -/

def isBlank (line : Text) : Bool := line.all isSpace

theorem strip_isEmpty (line : Text) : (strip line).isEmpty = isBlank line := by
  unfold strip isBlank
  rw [Bool.eq_iff_iff, List.isEmpty_iff, List.rdropWhile_eq_nil_iff, List.all_eq_true]
  constructor
  · intro h
    rw [← List.takeWhile_append_dropWhile (p := isSpace) (l := line)]
    intro c hc
    rcases List.mem_append.mp hc with hc | hc
    · exact List.mem_takeWhile_imp hc
    · exact h c hc
  · intro h c hc
    exact h c ((List.dropWhile_sublist _).mem hc)

/-- A line of blanks that are not all ASCII. -/
def wideBlank (line : Text) : Bool := isBlank line && !decide (Ascii line)

theorem isSpace_le {c : Char} (h : isSpace c = true) : c.toNat ≤ 0x3000 := by
  have hmem := mem_spaceCodes h
  have hall : ∀ n ∈ spaceCodes, n ≤ 0x3000 := by decide
  exact hall _ hmem

/-! ## Lines -/

theorem readlines_crlf {line : Text} (h : ∀ c ∈ line, isNewline c = false) (t : Text) :
    readlines (line ++ '\r' :: '\n' :: t) = (line ++ ['\r', '\n']) :: readlines t := by
  induction line with
  | nil => simp [readlines]
  | cons c line ih =>
    obtain ⟨hc, hline⟩ := List.forall_mem_cons.mp h
    simp only [isNewline, Bool.or_eq_false_iff, decide_eq_false_iff_not] at hc
    rw [List.cons_append, readlines.eq_3 _ _ (fun _ hcr => absurd hcr hc.2), ih hline]
    simp [hc]

theorem readlines_cr {line : Text} (h : ∀ c ∈ line, isNewline c = false) {t : Text}
    (ht : t.head? ≠ some '\n') :
    readlines (line ++ '\r' :: t) = (line ++ ['\r']) :: readlines t := by
  induction line with
  | nil =>
    rw [List.nil_append, readlines.eq_3]
    · simp
    · rintro rest - rfl
      exact ht rfl
  | cons c line ih =>
    obtain ⟨hc, hline⟩ := List.forall_mem_cons.mp h
    simp only [isNewline, Bool.or_eq_false_iff, decide_eq_false_iff_not] at hc
    rw [List.cons_append, readlines.eq_3 _ _ (fun _ hcr => absurd hcr hc.2), ih hline]
    simp [hc]

theorem readlines_last {line : Text} (h : ∀ c ∈ line, isNewline c = false) (hne : line ≠ []) :
    readlines line = [line] := by
  induction line with
  | nil => exact absurd rfl hne
  | cons c line ih =>
    obtain ⟨hc, hline⟩ := List.forall_mem_cons.mp h
    simp only [isNewline, Bool.or_eq_false_iff, decide_eq_false_iff_not] at hc
    rw [readlines.eq_3 _ _ (fun _ hcr => absurd hcr hc.2)]
    cases line with
    | nil => simp [readlines, hc]
    | cons d line => simp [ih hline, hc]

section Decode

variable {cp : Cp932}

/-- An ASCII character that is read was in the text. -/
theorem mem_of_decode {c : Char} (hc : c.toNat < 0x80) {s s' : Text}
    (h : cp.decode (utf8Encode s) = some s') (hmem : c ∈ s') : c ∈ s := by
  obtain ⟨b, hb, hlt, rfl⟩ := ascii_mem_of_decode cp hc _ h hmem
  exact mem_of_mem_utf8Encode hlt hb

theorem decode_body {s s' : Text} (h : cp.decode (utf8Encode s) = some s')
    (hs : ∀ c ∈ s, isNewline c = false) : ∀ c ∈ s', isNewline c = false := by
  intro c hc
  by_contra hnl
  rw [Bool.not_eq_false] at hnl
  have hlt : c.toNat < 0x80 := by
    simp only [isNewline, Bool.or_eq_true, decide_eq_true_eq] at hnl
    rcases hnl with rfl | rfl <;> decide
  have hmem := mem_of_decode hlt h hc
  rw [hs c hmem] at hnl
  cases hnl

/-- A text is read in two parts around a character whose byte is below `40`. -/
theorem decode_around {c : Char} (hc : c.toNat < 0x40) {s r t' : Text}
    (h : cp.decode (utf8Encode (s ++ c :: r)) = some t') :
    ∃ s' r', cp.decode (utf8Encode s) = some s' ∧ cp.decode (utf8Encode r) = some r' ∧
      t' = s' ++ c :: r' := by
  have hbyte := toNat_asciiByte (c := c) (by omega)
  rw [utf8Encode_append, utf8Encode_ascii (by omega)] at h
  obtain ⟨s', r', hs', hr', rfl⟩ := decode_split cp (by omega) _ _ h
  exact ⟨s', r', hs', hr', by rw [hbyte, Char.ofNat_toNat]⟩

theorem decode_concat {c : Char} (hc : c.toNat < 0x80) {s s' : Text}
    (h : cp.decode (utf8Encode s) = some s') (u : Text) (hu : Ascii u) :
    cp.decode (utf8Encode (s ++ c :: u)) = some (s' ++ c :: u) := by
  have hascii : Ascii (c :: u) := List.forall_mem_cons.mpr ⟨hc, hu⟩
  rw [utf8Encode_append, decode_append cp _ _ h, decode_ascii cp hascii]
  rfl

/-- A line feed comes first in what is read only if it does in the text. -/
theorem head?_of_decode {s s' : Text} (h : cp.decode (utf8Encode s) = some s')
    (hs : s.head? ≠ some '\n') : s'.head? ≠ some '\n' := by
  cases s with
  | nil =>
    cases h
    simp
  | cons c s =>
    by_cases hc : c.toNat < 0x80
    · rw [utf8Encode_ascii hc, decode_single cp (cp932Single_asciiByte hc)] at h
      obtain ⟨r, -, rfl⟩ := Option.map_eq_some_iff.mp h
      exact hs
    · obtain ⟨b₁, b₂, bs, heq, hbytes, -⟩ := utf8EncodeChar_wide (c := c) (by omega)
      have hb := hbytes b₁ List.mem_cons_self
      rw [utf8Encode_cons, heq, List.cons_append] at h
      obtain ⟨v, rest, r', rfl, -, ⟨hv, -⟩ | ⟨-, y, -, hv⟩⟩ := decode_cons cp h
      · rw [List.head?_cons, Ne, Option.some.injEq]
        rintro rfl
        rcases cp932Single_wide hb hv with h' | ⟨-, h'⟩
        · exact absurd h' (by decide)
        · exact absurd h' (by decide)
      · rw [List.head?_cons, Ne, Option.some.injEq]
        rintro rfl
        exact absurd (cp.wide hv) (by decide)

/-- **The lines of the two readings.** -/
theorem readlines_decode {t t' : Text} (h : cp.decode (utf8Encode t) = some t') :
    List.Forall₂ (fun line line' => cp.decode (utf8Encode line) = some line')
      (readlines t) (readlines t') := by
  cases hlines : readlines t with
  | nil =>
    obtain rfl := eq_nil_of_readlines hlines
    cases h
    exact List.Forall₂.nil
  | cons line lines =>
    obtain ⟨body, rest, hbody, rfl, rfl, hend⟩ := readlines_cons hlines
    have hlf : Char.toNat '\n' < 0x40 := by decide
    have hcr : Char.toNat '\r' < 0x40 := by decide
    -- the line and its line end are read, and the rest after them
    rcases hend with rfl | rfl | ⟨rfl, hhead⟩ | ⟨rfl, hne, rfl⟩
    · rw [List.append_assoc, List.singleton_append] at h
      obtain ⟨s', r', hs', hr', rfl⟩ := decode_around hlf h
      rw [readlines_line (decode_body hs' hbody)]
      exact .cons (decode_concat (by omega) hs' [] (by simp [Ascii])) (readlines_decode hr')
    · rw [List.append_assoc, List.cons_append, List.singleton_append] at h
      obtain ⟨s', r', hs', hr', rfl⟩ := decode_around hcr h
      obtain ⟨e', r'', he', hr'', rfl⟩ := decode_around (s := []) hlf hr'
      cases he'
      rw [List.nil_append, readlines_crlf (decode_body hs' hbody)]
      exact .cons (decode_concat (by omega) hs' ['\n'] (by simp [Ascii])) (readlines_decode hr'')
    · rw [List.append_assoc, List.singleton_append] at h
      obtain ⟨s', r', hs', hr', rfl⟩ := decode_around hcr h
      rw [readlines_cr (decode_body hs' hbody) (head?_of_decode hr' hhead)]
      exact .cons (decode_concat (by omega) hs' [] (by simp [Ascii])) (readlines_decode hr')
    · rw [List.append_nil] at h
      have hne' : t' ≠ [] := by
        rintro rfl
        exact hne (utf8Encode_eq_nil (decode_eq_nil cp h))
      rw [readlines_last (decode_body h hbody) hne', readlines]
      exact .cons h .nil
termination_by t.length
decreasing_by
  all_goals
    subst_vars
    simp
    omega

/-! ## What is blank in both -/

/-- A line that is read as blanks is ASCII. -/
theorem blank_of_decode (hcp : cp.OneBlank) {s s' : Text}
    (h : cp.decode (utf8Encode s) = some s') (hblank : isBlank s' = true) : Ascii s := by
  induction s generalizing s' with
  | nil => simp [Ascii]
  | cons c s ih =>
    by_cases hc : c.toNat < 0x80
    · rw [utf8Encode_ascii hc, decode_single cp (cp932Single_asciiByte hc)] at h
      obtain ⟨r, hr, rfl⟩ := Option.map_eq_some_iff.mp h
      rw [isBlank, List.all_cons, Bool.and_eq_true] at hblank
      exact List.forall_mem_cons.mpr ⟨hc, ih hr hblank.2⟩
    · exfalso
      obtain ⟨b₁, b₂, bs, heq, hbytes, hfirst⟩ := utf8EncodeChar_wide (c := c) (by omega)
      have hb := hbytes b₁ List.mem_cons_self
      have hge : 0xC2 ≤ b₁.toNat := by omega
      rw [utf8Encode_cons, heq, List.cons_append] at h
      obtain ⟨v, rest, r', rfl, -, ⟨hv, -⟩ | ⟨-, y, -, hv⟩⟩ := decode_cons cp h
      · -- half-width katakana are no blanks
        rw [isBlank, List.all_cons, Bool.and_eq_true] at hblank
        have hle := isSpace_le hblank.1
        rcases cp932Single_wide hb hv with h' | ⟨h', -⟩ <;> omega
      · rw [isBlank, List.all_cons, Bool.and_eq_true] at hblank
        obtain ⟨rfl, -⟩ := hcp _ _ _ hv hblank.1
        exact absurd hge (by decide)

/-- One line: it is full in both readings, blank in both, or blank in UTF-8 alone. -/
theorem full_of_decode (hcp : cp.OneBlank) {s s' : Text}
    (h : cp.decode (utf8Encode s) = some s') :
    (if (!isBlank s') = true then 1 else 0) =
      (if (!isBlank s) = true then 1 else 0) + if wideBlank s = true then 1 else 0 := by
  by_cases hascii : Ascii s
  · have heq := (decode_ascii cp hascii).symm.trans h
    rw [← Option.some.inj heq, wideBlank]
    simp [hascii]
  · have hfull : isBlank s' = false := by
      rw [Bool.eq_false_iff]
      exact fun hblank => hascii (blank_of_decode hcp h hblank)
    rw [hfull, wideBlank]
    cases isBlank s <;> simp [hascii]

/-- **Full lines.** In CP932 there are more of them, by the lines of wide blanks. -/
theorem countP_full (hcp : cp.OneBlank) {t t' : Text} (h : cp.decode (utf8Encode t) = some t') :
    (readlines t').countP (fun line => !isBlank line) =
      (readlines t).countP (fun line => !isBlank line) + (readlines t).countP wideBlank := by
  have hlines := readlines_decode h
  generalize readlines t = lines, readlines t' = lines' at hlines
  induction hlines with
  | nil => rfl
  | cons hline _ ih =>
    have hone := full_of_decode hcp hline
    rw [List.countP_cons, List.countP_cons, List.countP_cons, ih, hone]
    omega

end Decode

end GdalFull.Lib
