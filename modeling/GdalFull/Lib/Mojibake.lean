import GdalFull.Lib.Codec

/-!
# UTF-8 text that is read as CP932

No ASCII byte below `40` is the second byte of a pair, so the separators of CSV stay where they
are (`sameShape_of_decode`). Between them a text is read as itself when it is ASCII, and as
another text when it is not (`Twin.eq_iff`): the first character outside ASCII comes out as
another one, or as itself with one more character behind it.
-/

namespace GdalFull.Lib

variable (cp : Cp932)

def Ascii (t : Text) : Prop := ∀ c ∈ t, c.toNat < 0x80

instance (t : Text) : Decidable (Ascii t) :=
  List.decidableBAll (fun c : Char => c.toNat < 0x80) t

theorem ascii_append {s t : Text} : Ascii (s ++ t) ↔ Ascii s ∧ Ascii t := by
  simp only [Ascii, List.mem_append]
  constructor
  · intro h
    exact ⟨fun c hc => h c (Or.inl hc), fun c hc => h c (Or.inr hc)⟩
  · rintro ⟨hs, ht⟩ c (hc | hc)
    · exact hs c hc
    · exact ht c hc

/-- Related lists are equal when each element is one that its partner is equal to. -/
theorem forall₂_eq_iff {α : Type} {R : α → α → Prop} {P : α → Prop}
    (hR : ∀ {x x'}, R x x' → (x' = x ↔ P x)) {l l' : List α} (h : List.Forall₂ R l l') :
    l' = l ↔ ∀ x ∈ l, P x := by
  induction h with
  | nil => simp
  | cons hx _ ih =>
    rw [List.cons.injEq, hR hx, ih, List.forall_mem_cons]

/-! ## Separators -/

theorem cp932Single_ascii {b : UInt8} (hb : b.toNat < 0x80) :
    cp932Single b = some (Char.ofNat b.toNat) := by
  have hle : b ≤ 0x80 := UInt8.le_iff_toNat_le.mpr (by
    change b.toNat ≤ 0x80
    omega)
  rw [cp932Single, if_pos hle]

/-- The byte of an ASCII character. -/
theorem toNat_asciiByte {c : Char} (hc : c.toNat < 0x80) :
    (UInt8.ofNat c.toNat).toNat = c.toNat := by
  rw [UInt8.toNat_ofNat']
  omega

theorem cp932Single_asciiByte {c : Char} (hc : c.toNat < 0x80) :
    cp932Single (UInt8.ofNat c.toNat) = some c := by
  have hbyte := toNat_asciiByte hc
  rw [cp932Single_ascii (by omega), hbyte, Char.ofNat_toNat]

theorem decode_ascii {t : Text} (h : Ascii t) : cp.decode (utf8Encode t) = some t := by
  induction t with
  | nil => rfl
  | cons c t ih =>
    obtain ⟨hc, ht⟩ := List.forall_mem_cons.mp h
    rw [utf8Encode_ascii hc, decode_single cp (cp932Single_asciiByte hc), ih ht]
    rfl

/-- A byte below `40` is read for itself, whatever stands before it. -/
theorem decode_split {b : UInt8} (hb : b.toNat < 0x40) (u v : Bytes) {t : Text}
    (h : cp.decode (u ++ b :: v) = some t) :
    ∃ s r, cp.decode u = some s ∧ cp.decode v = some r ∧ t = s ++ Char.ofNat b.toNat :: r := by
  cases u with
  | nil =>
    rw [List.nil_append, decode_single cp (cp932Single_ascii (by omega))] at h
    obtain ⟨r, hr, rfl⟩ := Option.map_eq_some_iff.mp h
    exact ⟨[], r, rfl, hr, rfl⟩
  | cons x u =>
    obtain ⟨c, rest, t', rfl, ht', ⟨hx, rfl⟩ | ⟨hx, y, hrest, hpair⟩⟩ := decode_cons cp h
    · obtain ⟨s, r, hs, hr, rfl⟩ := decode_split hb u v ht'
      exact ⟨c :: s, r, by rw [decode_single cp hx, hs]; rfl, hr, rfl⟩
    · cases u with
      | nil =>
        -- the byte would be the second one of a pair
        cases hrest
        have := cp.trail hpair
        omega
      | cons y u =>
        cases hrest
        obtain ⟨s, r, hs, hr, rfl⟩ := decode_split hb u v ht'
        exact ⟨c :: s, r, by rw [decode_pair cp hx, hpair, Option.bind_some, hs]; rfl, hr, rfl⟩

/-- A byte outside ASCII that is read alone gives `80`, or a character far above. -/
theorem cp932Single_wide {b : UInt8} {c : Char} (hb : 0x80 ≤ b.toNat)
    (h : cp932Single b = some c) : 0xF8F0 ≤ c.toNat ∨ b.toNat = 0x80 ∧ c.toNat = 0x80 := by
  have hlt := b.toNat_lt
  have hpos : ∀ n, 0xE000 ≤ n → n < 0x110000 → (Char.ofNat n).toNat = n := by
    intro n hge hlt
    have hvalid : n.isValidChar := Or.inr ⟨by omega, hlt⟩
    rw [Char.ofNat, dif_pos hvalid]
    rfl
  unfold cp932Single at h
  split_ifs at h with h₁ h₂ h₃ h₄
  · have hle : b.toNat ≤ 0x80 := UInt8.le_iff_toNat_le.mp h₁
    have heq : b.toNat = 0x80 := by omega
    cases h
    exact Or.inr ⟨heq, by rw [heq]; rfl⟩
  · cases h
    exact Or.inl (by decide)
  · cases h
    have hge : 0xA1 ≤ b.toNat := UInt8.le_iff_toNat_le.mp h₃.1
    have hle : b.toNat ≤ 0xDF := UInt8.le_iff_toNat_le.mp h₃.2
    rw [hpos _ (by omega) (by omega)]
    omega
  · cases h
    have hge : 0xFD ≤ b.toNat := UInt8.le_iff_toNat_le.mp h₄
    rw [hpos _ (by omega) (by omega)]
    omega

/-- An ASCII character that is read was there as a byte. -/
theorem ascii_mem_of_decode {c : Char} (hc : c.toNat < 0x80) (bytes : Bytes) {t : Text}
    (h : cp.decode bytes = some t) (hmem : c ∈ t) :
    ∃ b ∈ bytes, b.toNat < 0x80 ∧ Char.ofNat b.toNat = c := by
  cases bytes with
  | nil =>
    cases h
    cases hmem
  | cons b bytes =>
    obtain ⟨d, rest, t', rfl, ht', ⟨hb, rfl⟩ | ⟨_, b₂, rfl, hpair⟩⟩ := decode_cons cp h
    · rcases List.mem_cons.mp hmem with rfl | hmem
      · by_cases hlt : b.toNat < 0x80
        · rw [cp932Single_ascii hlt] at hb
          exact ⟨b, List.mem_cons_self, hlt, Option.some.inj hb⟩
        · rcases cp932Single_wide (by omega) hb with h | h <;> omega
      · obtain ⟨x, hx, hbyte⟩ := ascii_mem_of_decode hc bytes ht' hmem
        exact ⟨x, List.mem_cons_of_mem _ hx, hbyte⟩
    · rcases List.mem_cons.mp hmem with rfl | hmem
      · have := cp.wide hpair
        omega
      · obtain ⟨x, hx, hbyte⟩ := ascii_mem_of_decode hc rest ht' hmem
        exact ⟨x, List.mem_cons_of_mem _ (List.mem_cons_of_mem _ hx), hbyte⟩

/-- An ASCII byte of a UTF-8 text is a character of it. -/
theorem mem_of_mem_utf8Encode {t : Text} {b : UInt8} (hb : b.toNat < 0x80)
    (hmem : b ∈ utf8Encode t) : Char.ofNat b.toNat ∈ t := by
  obtain ⟨c, hc, hbc⟩ := List.mem_flatMap.mp hmem
  by_cases hlt : c.toNat < 0x80
  · rw [utf8EncodeChar_ascii hlt, List.mem_singleton] at hbc
    have hnat : b.toNat = c.toNat := by
      rw [hbc, UInt8.toNat_ofNat']
      omega
    rw [hnat, Char.ofNat_toNat]
    exact hc
  · obtain ⟨b₁, b₂, bs, heq, hwide, _⟩ := utf8EncodeChar_wide (c := c) (by omega)
    rw [heq] at hbc
    have := hwide b hbc
    omega

theorem isSeparator_iff (c : Char) :
    isSeparator c = true ↔ c = ',' ∨ c = '"' ∨ c = '\n' ∨ c = '\r' := by
  simp [isSeparator, isNewline, or_assoc]

theorem isSeparator_lt {c : Char} (h : isSeparator c = true) : c.toNat < 0x40 := by
  rcases (isSeparator_iff c).mp h with rfl | rfl | rfl | rfl <;> decide

/-- No separator comes up where there was none. -/
theorem decode_plain {s s' : Text} (h : cp.decode (utf8Encode s) = some s')
    (hs : ∀ c ∈ s, isSeparator c = false) : ∀ c ∈ s', isSeparator c = false := by
  intro c hc
  by_contra hsep
  rw [Bool.not_eq_false] at hsep
  have hlt := isSeparator_lt hsep
  obtain ⟨b, hb, hb80, rfl⟩ := ascii_mem_of_decode cp (by omega) _ h hc
  have hmem := mem_of_mem_utf8Encode hb80 hb
  rw [hs _ hmem] at hsep
  cases hsep

theorem decode_eq_nil {bytes : Bytes} (h : cp.decode bytes = some []) : bytes = [] := by
  cases bytes with
  | nil => rfl
  | cons b bytes =>
    obtain ⟨c, _, t', hcons, _⟩ := decode_cons cp h
    cases hcons

theorem utf8Encode_eq_nil {s : Text} (h : utf8Encode s = []) : s = [] := by
  cases s with
  | nil => rfl
  | cons c s =>
    have hcons : String.utf8EncodeChar c ++ utf8Encode s = [] := h
    exact absurd (List.append_eq_nil_iff.mp hcons).1 String.utf8EncodeChar_ne_nil

/-! ## The text between separators -/

/-- No text that starts with this character is read. -/
def Blocked (v : Char) : Prop :=
  0x80 ≤ v.toNat ∧ ∀ s, cp.decode (utf8Encode (v :: s)) = none

/-- The read text leaves the text at some place: the next characters differ, or the text is at
its end and cannot go on with the character that was read. -/
def Parts (f f' : Text) : Prop :=
  ∃ p v r', f' = p ++ v :: r' ∧ ((∃ u r, f = p ++ u :: r ∧ u ≠ v) ∨ f = p ∧ Blocked cp v)

/-- A text and what is read for it. -/
structure Twin (f f' : Text) : Prop where
  cases : Ascii f ∧ f' = f ∨ ¬ Ascii f ∧ Parts cp f f'
  head : ∀ v s, f = v :: s → ¬ Blocked cp v

variable {cp}

theorem Parts.ne {f f' : Text} (h : Parts cp f f') : f' ≠ f := by
  obtain ⟨p, v, r', rfl, ⟨u, r, rfl, hne⟩ | ⟨rfl, _⟩⟩ := h
  · intro heq
    have htail := List.append_cancel_left heq
    cases htail
    exact hne rfl
  · intro heq
    have hlen := congrArg List.length heq
    simp at hlen

theorem Twin.eq_iff {f f' : Text} (h : Twin cp f f') : f' = f ↔ Ascii f := by
  rcases h.cases with ⟨hascii, heq⟩ | ⟨hascii, hparts⟩
  · exact iff_of_true heq hascii
  · exact iff_of_false hparts.ne hascii

theorem Twin.nil : Twin cp [] [] := by
  refine ⟨Or.inl ⟨?_, rfl⟩, ?_⟩
  · intro c hc
    cases hc
  · intro v s h
    cases h

theorem Twin.ascii {c : Char} (hc : c.toNat < 0x80) : Twin cp [c] [c] := by
  refine ⟨Or.inl ⟨?_, rfl⟩, ?_⟩
  · intro d hd
    rwa [List.mem_singleton.mp hd]
  · rintro v s h ⟨hv, _⟩
    cases h
    omega

/-- What is read before is not changed by what is read behind it. -/
theorem Parts.append_right {f f' g g' : Text} (h : Parts cp f f')
    (hg : ∀ v s, g = v :: s → ¬ Blocked cp v) : Parts cp (f ++ g) (f' ++ g') := by
  obtain ⟨p, v, r', rfl, ⟨u, r, rfl, hne⟩ | ⟨rfl, hblocked⟩⟩ := h
  · exact ⟨p, v, r' ++ g', by simp, Or.inl ⟨u, r ++ g, by simp, hne⟩⟩
  · refine ⟨f, v, r' ++ g', by simp, ?_⟩
    cases g with
    | nil => exact Or.inr ⟨by simp, hblocked⟩
    | cons x g =>
      refine Or.inl ⟨x, g, rfl, ?_⟩
      rintro rfl
      exact hg x g rfl hblocked

theorem Parts.append_left {g g' : Text} (h : Parts cp g g') (f : Text) :
    Parts cp (f ++ g) (f ++ g') := by
  obtain ⟨p, v, r', rfl, ⟨u, r, rfl, hne⟩ | ⟨rfl, hblocked⟩⟩ := h
  · exact ⟨f ++ p, v, r', by simp, Or.inl ⟨u, r, by simp, hne⟩⟩
  · exact ⟨f ++ g, v, r', by simp, Or.inr ⟨rfl, hblocked⟩⟩

theorem Twin.append {f f' g g' : Text} (hf : Twin cp f f') (hg : Twin cp g g') :
    Twin cp (f ++ g) (f' ++ g') := by
  constructor
  · rw [ascii_append]
    rcases hf.cases with ⟨hfa, rfl⟩ | ⟨hfa, hparts⟩
    · rcases hg.cases with ⟨hga, rfl⟩ | ⟨hga, hparts⟩
      · exact Or.inl ⟨⟨hfa, hga⟩, rfl⟩
      · exact Or.inr ⟨fun h => hga h.2, hparts.append_left _⟩
    · exact Or.inr ⟨fun h => hfa h.1, hparts.append_right hg.head⟩
  · intro v s h
    cases f with
    | nil => exact hg.head v s h
    | cons x f =>
      cases h
      exact hf.head v f rfl

theorem twin_congruent : Congruent (Twin cp) where
  nil := Twin.nil
  append := Twin.append
  separator := fun hc => Twin.ascii (by have := isSeparator_lt hc; omega)

/-- After `鬯` comes the half-width `ｯ`, and with it no text goes on. -/
theorem blocked_tsu : Blocked cp 'ｯ' := by
  refine ⟨by decide, ?_⟩
  intro s
  have hbytes : utf8Encode ('ｯ' :: s) = 0xEF :: 0xBD :: 0xAF :: utf8Encode s := rfl
  have hlead : cp932Single 0xEF = none := by decide
  rw [hbytes, decode_pair cp hlead, cp.unassigned]
  rfl

/-- A character outside ASCII is not read as itself by its first byte. -/
theorem cp932Single_ne {c v : Char} {b : UInt8} {bs : Bytes}
    (hc : String.utf8EncodeChar c = b :: bs) (hwide : 0x80 ≤ c.toNat)
    (h : cp932Single b = some v) : v ≠ c := by
  obtain ⟨b₁, b₂, bs', heq, hbytes, hfirst⟩ := utf8EncodeChar_wide hwide
  rw [heq] at hc
  obtain ⟨rfl, _⟩ := List.cons.inj hc
  have hb := hbytes b₁ List.mem_cons_self
  rcases hfirst with ⟨hsmall, hge, _⟩ | ⟨hge, hle⟩
  · rintro rfl
    rcases cp932Single_wide hb h with h' | h' <;> omega
  · have hnone : cp932Single b₁ = none := by
      unfold cp932Single
      simp only [UInt8.le_iff_toNat_le, ← UInt8.toNat_inj]
      rw [if_neg, if_neg, if_neg, if_neg] <;> simp <;> omega
    rw [hnone] at h
    cases h

/-- Where the text is first outside ASCII, what is read parts from it. -/
theorem parts_of_decode_wide {c : Char} {s s' : Text} (hwide : 0x80 ≤ c.toNat)
    (h : cp.decode (String.utf8EncodeChar c ++ utf8Encode s) = some s') :
    Parts cp (c :: s) s' := by
  obtain ⟨b₁, b₂, bs, heq, _⟩ := utf8EncodeChar_wide hwide
  rw [heq, List.cons_append] at h
  obtain ⟨v, rest, r', rfl, hr', ⟨hb, _⟩ | ⟨_, y, hrest, hv⟩⟩ := decode_cons cp h
  · exact ⟨[], v, r', rfl, Or.inl ⟨c, s, rfl, (cp932Single_ne heq hwide hb).symm⟩⟩
  · cases hrest
    by_cases hvc : v = c
    · subst hvc
      obtain ⟨rfl, rfl, rfl⟩ := cp.own hv ⟨bs, by rw [heq]; rfl⟩
      have hbs : bs = [0xAF] := by
        have hform : String.utf8EncodeChar '鬯' = [0xE9, 0xAC, 0xAF] := by decide
        rw [hform] at heq
        cases heq
        rfl
      have htsu : cp932Single 0xAF = some 'ｯ' := by decide
      rw [hbs] at hr'
      obtain ⟨q, hq, rfl⟩ :=
        Option.map_eq_some_iff.mp ((decode_single cp htsu (utf8Encode s)).symm.trans hr')
      refine ⟨['鬯'], 'ｯ', q, rfl, ?_⟩
      cases s with
      | nil => exact Or.inr ⟨rfl, blocked_tsu⟩
      | cons x s =>
        refine Or.inl ⟨x, s, rfl, ?_⟩
        rintro rfl
        rw [blocked_tsu.2 s] at hq
        cases hq
    · exact ⟨[], v, r', rfl, Or.inl ⟨c, s, rfl, fun hcv => hvc hcv.symm⟩⟩

/-- What UTF-8 text is read as. -/
theorem twin_of_decode {s s' : Text} (h : cp.decode (utf8Encode s) = some s') : Twin cp s s' := by
  have hhead : ∀ v r, s = v :: r → ¬ Blocked cp v := by
    rintro v r rfl ⟨_, hnone⟩
    rw [hnone r] at h
    cases h
  refine ⟨?_, hhead⟩
  clear hhead
  induction s generalizing s' with
  | nil =>
    cases h
    exact Twin.nil.cases
  | cons c s ih =>
    have hcons : utf8Encode (c :: s) = String.utf8EncodeChar c ++ utf8Encode s := rfl
    rw [hcons] at h
    by_cases hc : c.toNat < 0x80
    · rw [utf8EncodeChar_ascii hc, List.singleton_append,
        decode_single cp (cp932Single_asciiByte hc)] at h
      obtain ⟨t', ht', rfl⟩ := Option.map_eq_some_iff.mp h
      have hascii : Ascii (c :: s) ↔ Ascii s := by
        simp [Ascii, hc]
      rw [hascii]
      rcases ih ht' with ⟨hs, rfl⟩ | ⟨hs, hparts⟩
      · exact Or.inl ⟨hs, rfl⟩
      · exact Or.inr ⟨hs, hparts.append_left [c]⟩
    · right
      refine ⟨fun hascii => hc (hascii c List.mem_cons_self), ?_⟩
      exact parts_of_decode_wide (by omega) h

/-- Two texts have the separators of CSV at the same places when one is what is read for the
other. -/
theorem sameShape_of_decode {R : Text → Text → Prop}
    (hR : ∀ {s s' : Text}, cp.decode (utf8Encode s) = some s' → R s s') {t t' : Text}
    (h : cp.decode (utf8Encode t) = some t') : SameShape R t t' := by
  have hrun : ∀ {s s' : Text}, cp.decode (utf8Encode s) = some s' →
      (∀ c ∈ s, isSeparator c = false) → RelatedRun R s s' := by
    intro s s' h hs
    refine ⟨hs, decode_plain cp h hs, ?_, hR h⟩
    constructor
    · rintro rfl
      cases h
      rfl
    · rintro rfl
      exact utf8Encode_eq_nil (decode_eq_nil cp h)
  cases hfind : t.find? isSeparator with
  | none => exact .run (hrun h (by simpa using List.find?_eq_none.mp hfind))
  | some c =>
    obtain ⟨hc, s, r, rfl, hs⟩ := List.find?_eq_some_iff_append.mp hfind
    have hlt := isSeparator_lt hc
    have hbyte := toNat_asciiByte (c := c) (by omega)
    have hbytes : utf8Encode (s ++ c :: r) =
        utf8Encode s ++ UInt8.ofNat c.toNat :: utf8Encode r := by
      simp [utf8Encode, utf8EncodeChar_ascii (c := c) (by omega)]
    rw [hbytes] at h
    obtain ⟨s', r', hs', hr', rfl⟩ := decode_split cp (by omega) _ _ h
    rw [hbyte, Char.ofNat_toNat]
    exact .cons (hrun hs' (by simpa using hs)) hc (sameShape_of_decode hR hr')
termination_by t.length
decreasing_by
  subst_vars
  simp
  omega

end GdalFull.Lib
