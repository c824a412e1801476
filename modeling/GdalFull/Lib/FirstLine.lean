import GdalFull.Lib.Mojibake
import Mathlib.Data.List.Infix

/-!
# A label in the first line of a file

`head -1 FILE | grep -q LABEL` looks for a label in the bytes before the first line feed. For
UTF-8 and a label that begins with an ASCII character this is a search among the characters
(`encode_infix_iff`). The first line of a CSV file is the first record, or less when a field
has a line feed in it (`infix_firstLine_iff`).
-/

namespace GdalFull.Lib

/-- `head -1`, without the line feed. -/
def headLine (bytes : Bytes) : Bytes :=
  bytes.takeWhile (· ≠ 0x0A)

/-- `grep -q`, for a pattern without special characters. -/
def grep (label : Text) (line : Bytes) : Bool :=
  utf8Encode label <:+: line

/-! ## Characters instead of bytes -/

theorem encode_isPrefix_iff {label t : Text} :
    utf8Encode label <+: utf8Encode t ↔ label <+: t := by
  constructor
  · intro h
    induction label generalizing t with
    | nil => exact List.nil_prefix
    | cons c label ih =>
      obtain ⟨rest, hrest⟩ := h
      cases t with
      | nil =>
        have hnil := (List.append_eq_nil_iff.mp hrest).1
        cases utf8Encode_eq_nil hnil
      | cons d t =>
        rw [utf8Encode_cons, utf8Encode_cons, List.append_assoc] at hrest
        have hc := utf8Next_encode c (utf8Encode label ++ rest)
        rw [hrest, utf8Next_encode] at hc
        cases hc
        have htail : utf8Encode label <+: utf8Encode t := ⟨rest, List.append_cancel_left hrest⟩
        exact List.cons_prefix_cons.mpr ⟨rfl, ih htail⟩
  · rintro ⟨rest, rfl⟩
    rw [utf8Encode_append]
    exact List.prefix_append _ _

theorem infix_of_infix_append {α : Type} {b : α} {l w u : List α} (hb : b ∉ w)
    (h : b :: l <:+: w ++ u) : b :: l <:+: u := by
  induction w with
  | nil => exact h
  | cons a w ih =>
    rw [List.mem_cons, not_or] at hb
    rcases List.infix_cons_iff.mp h with h | h
    · exact absurd (List.cons_prefix_cons.mp h).1 hb.1
    · exact ih hb.2 h

/-- The bytes of a label that begins with an ASCII character only stand where it stands. -/
theorem encode_infix_iff {c : Char} (hc : c.toNat < 0x80) {label t : Text} :
    utf8Encode (c :: label) <:+: utf8Encode t ↔ c :: label <:+: t := by
  constructor
  · intro h
    induction t with
    | nil => cases utf8Encode_eq_nil (List.infix_nil.mp h)
    | cons d t ih =>
      by_cases hd : d.toNat < 0x80
      · rw [utf8Encode_ascii hd] at h
        rcases List.infix_cons_iff.mp h with h | h
        · rw [← utf8Encode_ascii hd] at h
          exact (encode_isPrefix_iff.mp h).isInfix
        · exact List.infix_cons (ih h)
      · obtain ⟨b₁, b₂, bs, heq, hwide, _⟩ := utf8EncodeChar_wide (c := d) (by omega)
        have hbyte : UInt8.ofNat c.toNat ∉ String.utf8EncodeChar d := by
          intro hmem
          have h80 := hwide _ (heq ▸ hmem)
          rw [toNat_asciiByte hc] at h80
          omega
        rw [utf8Encode_cons d, utf8Encode_ascii hc] at h
        have htail := infix_of_infix_append hbyte h
        rw [← utf8Encode_ascii hc] at htail
        exact List.infix_cons (ih htail)
  · rintro ⟨pre, rest, rfl⟩
    rw [utf8Encode_append, utf8Encode_append]
    exact List.infix_append _ _ _

theorem headLine_encode (t : Text) :
    headLine (utf8Encode t) = utf8Encode (t.takeWhile (· ≠ '\n')) := by
  induction t with
  | nil => rfl
  | cons c t ih =>
    by_cases hc : c = '\n'
    · subst hc
      rfl
    · have hbytes : ∀ b ∈ String.utf8EncodeChar c, decide (b ≠ 0x0A) = true := by
        intro b hb
        rw [decide_eq_true_eq]
        rintro rfl
        have hmem : (0x0A : UInt8) ∈ utf8Encode [c] := by
          rw [utf8Encode_cons]
          exact List.mem_append_left _ hb
        have hnew := mem_of_mem_utf8Encode (by decide) hmem
        exact hc (List.mem_singleton.mp hnew).symm
      rw [headLine] at ih
      rw [List.takeWhile_cons_of_pos (by simpa using hc), utf8Encode_cons, utf8Encode_cons,
        headLine, List.takeWhile_append_of_pos hbytes, ih]

/-! ## The first line of a CSV file -/

/-- A label stands in a header, before the first line feed in it. -/
def OnFirstLine (label : Text) : List Text → Prop
  | [] => False
  | cell :: cells =>
    label <:+: cell.takeWhile (· ≠ '\n') ∨ '\n' ∉ cell ∧ OnFirstLine label cells

instance decidableOnFirstLine (label : Text) :
    (header : List Text) → Decidable (OnFirstLine label header)
  | [] => inferInstanceAs (Decidable False)
  | cell :: cells =>
    have := decidableOnFirstLine label cells
    inferInstanceAs (Decidable
      (label <:+: cell.takeWhile (· ≠ '\n') ∨ '\n' ∉ cell ∧ OnFirstLine label cells))

theorem infix_append_cons_iff {α : Type} {label s t : List α} {c : α} (hc : c ∉ label) :
    label <:+: s ++ c :: t ↔ label <:+: s ∨ label <:+: t := by
  constructor
  · rintro ⟨pre, rest, h⟩
    rcases List.append_eq_append_iff.mp h with ⟨more, rfl, _⟩ | ⟨more, hlabel, hrest⟩
    · exact Or.inl (List.infix_append' pre label more |>.trans (by simp))
    · cases more with
      | nil => exact Or.inl ⟨pre, [], by simpa using hlabel⟩
      | cons d more =>
        obtain ⟨rfl, rfl⟩ := List.cons.inj hrest
        rcases List.append_eq_append_iff.mp hlabel with ⟨gap, _, rfl⟩ | ⟨gap, _, hmore⟩
        · exact absurd (List.mem_append_right gap List.mem_cons_self) hc
        · cases gap with
          | nil =>
            rw [List.nil_append] at hmore
            exact absurd (hmore ▸ List.mem_cons_self) hc
          | cons e gap =>
            obtain ⟨_, rfl⟩ := List.cons.inj hmore
            exact Or.inr (List.infix_append gap label rest)
  · rintro (h | h)
    · exact h.trans (List.prefix_append s _).isInfix
    · exact h.trans (List.infix_cons (List.infix_refl t) |>.trans
        (List.suffix_append s _).isInfix)

theorem notMem_doubleQuote {a : Text} (ha : '\n' ∉ a) : '\n' ∉ a.flatMap doubleQuote := by
  intro hmem
  obtain ⟨c, hc, hnew⟩ := List.mem_flatMap.mp hmem
  by_cases hquote : c = '"'
  · simp [doubleQuote, hquote] at hnew
  · rw [doubleQuote, if_neg hquote, List.mem_singleton] at hnew
    exact ha (hnew ▸ hc)

theorem notMem_writeField {f : Text} (hf : '\n' ∉ f) : '\n' ∉ writeField f := by
  unfold writeField
  split
  · simpa using notMem_doubleQuote hf
  · exact hf

/-- A line ends at the first line feed. -/
theorem takeWhile_newline {a : Text} (ha : '\n' ∉ a) (b : Text) :
    (a ++ b).takeWhile (· ≠ '\n') = a ++ b.takeWhile (· ≠ '\n') := by
  apply List.takeWhile_append_of_pos
  intro c hc
  rw [decide_eq_true_eq]
  exact fun hnew => ha (hnew ▸ hc)

section Label

variable {label : Text} (hlabel : ∀ c ∈ label, isSeparator c = false)
include hlabel

theorem separator_notMem {c : Char} (hc : isSeparator c = true) : c ∉ label := by
  intro hmem
  rw [hlabel c hmem] at hc
  cases hc

theorem infix_cons_separator {c : Char} (hc : isSeparator c = true) (t : Text) :
    label <:+: c :: t ↔ label <:+: t := by
  have h := infix_append_cons_iff (s := []) (t := t) (separator_notMem hlabel hc)
  rw [List.nil_append] at h
  rw [h, or_iff_right_iff_imp]
  exact fun hnil => hnil.trans List.nil_infix

theorem infix_concat_separator {c : Char} (hc : isSeparator c = true) (s : Text) :
    label <:+: s ++ [c] ↔ label <:+: s := by
  rw [infix_append_cons_iff (separator_notMem hlabel hc), or_iff_left_iff_imp]
  exact fun hnil => hnil.trans List.nil_infix

theorem infix_doubleQuote_iff (s f : Text) :
    label <:+: s ++ f.flatMap doubleQuote ↔ label <:+: s ++ f := by
  induction f generalizing s with
  | nil => rfl
  | cons c f ih =>
    by_cases hc : c = '"'
    · subst hc
      have hquote : isSeparator '"' = true := by decide
      have hcons : ('"' :: f).flatMap doubleQuote = '"' :: ('"' :: f.flatMap doubleQuote) := rfl
      rw [hcons, infix_append_cons_iff (separator_notMem hlabel hquote),
        infix_cons_separator hlabel hquote, infix_append_cons_iff (separator_notMem hlabel hquote)]
      exact or_congr_right (ih [])
    · have hcons : (c :: f).flatMap doubleQuote = c :: f.flatMap doubleQuote := by
        simp [doubleQuote, hc]
      have hih := ih (s ++ [c])
      rw [List.append_assoc, List.append_assoc] at hih
      rw [hcons]
      exact hih

theorem infix_writeField_iff (f : Text) : label <:+: writeField f ↔ label <:+: f := by
  have hquote : isSeparator '"' = true := by decide
  unfold writeField
  split
  · rw [infix_cons_separator hlabel hquote, infix_concat_separator hlabel hquote]
    exact infix_doubleQuote_iff hlabel [] f
  · rfl

/-- A field with a line feed ends the line inside it; another one ends at its separator. -/
theorem infix_field_iff (f : Text) {c : Char} (hc : isSeparator c = true) (hnew : c ≠ '\n')
    (rest : Text) :
    label <:+: (writeField f ++ c :: rest).takeWhile (· ≠ '\n') ↔
      label <:+: f.takeWhile (· ≠ '\n') ∨
        '\n' ∉ f ∧ label <:+: rest.takeWhile (· ≠ '\n') := by
  by_cases hf : '\n' ∈ f
  · obtain ⟨a, b, rfl, ha⟩ := List.eq_append_cons_of_mem hf
    have hwrite : writeField (a ++ '\n' :: b) ++ c :: rest =
        ('"' :: a.flatMap doubleQuote) ++ '\n' :: (b.flatMap doubleQuote ++ '"' :: c :: rest) := by
      have hany : (a ++ '\n' :: b).any isSeparator = true :=
        List.any_eq_true.mpr ⟨'\n', hf, by decide⟩
      have hnl : doubleQuote '\n' = ['\n'] := by decide
      rw [writeField, if_pos hany, List.flatMap_append, List.flatMap_cons, hnl]
      simp
    have hopen : '\n' ∉ '"' :: a.flatMap doubleQuote := by
      simpa using notMem_doubleQuote ha
    have hdq := infix_doubleQuote_iff hlabel [] a
    rw [List.nil_append, List.nil_append] at hdq
    rw [hwrite, takeWhile_newline hopen, takeWhile_newline ha,
      List.takeWhile_cons_of_neg (by simp), List.takeWhile_cons_of_neg (by simp),
      List.append_nil, List.append_nil, infix_cons_separator hlabel (by decide), hdq]
    simp
  · have hall := takeWhile_newline hf []
    rw [List.append_nil, List.takeWhile_nil, List.append_nil] at hall
    rw [takeWhile_newline (notMem_writeField hf),
      List.takeWhile_cons_of_pos (by simpa using hnew),
      infix_append_cons_iff (separator_notMem hlabel hc), infix_writeField_iff hlabel, hall]
    simp only [hf, not_false_eq_true, true_and]

theorem infix_fields_iff (hne : label ≠ []) (fs : List Text) (f rest : Text) :
    label <:+: (writeField f ++ ((fs.flatMap fun g => ',' :: writeField g) ++
        '\r' :: '\n' :: rest)).takeWhile (· ≠ '\n') ↔ OnFirstLine label (f :: fs) := by
  induction fs generalizing f with
  | nil =>
    have hnil : ¬ label <:+: [] := fun h => hne (List.infix_nil.mp h)
    rw [List.flatMap_nil, List.nil_append, infix_field_iff hlabel f (by decide) (by decide),
      List.takeWhile_cons_of_neg (by simp)]
    simp [OnFirstLine, hnil]
  | cons g fs ih =>
    rw [List.flatMap_cons, List.cons_append, List.cons_append, List.append_assoc,
      infix_field_iff hlabel f (by decide) (by decide), ih]
    rfl

/-- **The first line of a CSV file.** A label without separators stands in it exactly if it
stands in the header before the first line feed. -/
theorem infix_firstLine_iff (hne : label ≠ []) (header : List Text) (rows : List (List Text)) :
    label <:+: (csvWrite (header :: rows)).takeWhile (· ≠ '\n') ↔ OnFirstLine label header := by
  have hnil : ¬ label <:+: [] := fun h => hne (List.infix_nil.mp h)
  rw [csvWrite, List.flatMap_cons]
  cases header with
  | nil =>
    have hline : (writeRow [] ++ rows.flatMap writeRow).takeWhile (· ≠ '\n') = ['\r'] := rfl
    rw [hline, infix_cons_separator hlabel (by decide)]
    simp [OnFirstLine, hnil]
  | cons f fs =>
    by_cases hempty : f = [] ∧ fs = []
    · obtain ⟨rfl, rfl⟩ := hempty
      have hline : (writeRow [[]] ++ rows.flatMap writeRow).takeWhile (· ≠ '\n') =
        ['"', '"', '\r'] := rfl
      rw [hline, infix_cons_separator hlabel (by decide), infix_cons_separator hlabel (by decide),
        infix_cons_separator hlabel (by decide)]
      simp [OnFirstLine, hnil]
    · rw [writeRow.eq_3 f fs fun hf hfs => hempty ⟨hf, hfs⟩, List.append_assoc, List.append_assoc]
      exact infix_fields_iff hlabel hne fs f (rows.flatMap writeRow)

end Label

end GdalFull.Lib
