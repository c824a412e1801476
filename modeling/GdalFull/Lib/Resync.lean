import GdalFull.Lib.Chunks
import GdalFull.Lib.CsvCells

/-!
# Decoders that keep the separators

A comma, a quote or a line end is read for itself by cp932 and by utf-8 with `errors="replace"`,
whatever stands before it: neither takes a byte below `40` for a part of another character. So a
decoder falls into step again at the next separator (`Splits`), and the texts that two decoders make
of the same bytes have one shape.

`csvReader_damaged`: if one byte that is no separator is replaced by another one, and the file is
then read with another decoder, the cells are still those of the same bytes, but for one.
-/

namespace GdalFull.Lib

/-! ## Bytes as characters -/

def byteChar (b : UInt8) : Char := Char.ofNat b.toNat

/-- The bytes of a file, each as a character. -/
def rawText (bytes : Bytes) : Text := bytes.map byteChar

def isSepByte (b : UInt8) : Bool := isSeparator (byteChar b)

theorem toNat_byteChar (b : UInt8) : (byteChar b).toNat = b.toNat := by
  have hlt := b.toNat_lt
  have hvalid : b.toNat.isValidChar := Or.inl (by omega)
  rw [byteChar, Char.ofNat, dif_pos hvalid]
  rfl

theorem isSepByte_lt {b : UInt8} (h : isSepByte b = true) : b.toNat < 0x40 := by
  rw [← toNat_byteChar b]
  exact isSeparator_lt h

theorem cp932Single_sepByte {b : UInt8} (h : isSepByte b = true) :
    cp932Single b = some (byteChar b) := by
  have hlt := isSepByte_lt h
  exact cp932Single_ascii (by omega)

theorem utf8EncodeChar_byteChar {b : UInt8} (hb : b.toNat < 0x80) :
    String.utf8EncodeChar (byteChar b) = [b] := by
  have hchar := toNat_byteChar b
  rw [utf8EncodeChar_ascii (by omega), hchar, UInt8.ofNat_toNat]

/-! ## UTF-8, character by character -/

theorem utf8Next_eq_some_iff {bytes : Bytes} {c : Char} :
    utf8Next bytes = some c ↔ String.utf8EncodeChar c <+: bytes := by
  constructor
  · intro h
    have hsplit := ByteArray.eq_of_utf8DecodeChar?_eq_some h
    have hlist := congrArg (fun a => a.data.toList) hsplit
    simp only [List.data_toByteArray, ByteArray.data_append, Array.toList_append] at hlist
    exact ⟨_, hlist.symm⟩
  · rintro ⟨rest, rfl⟩
    exact utf8Next_encode c rest

theorem utf8Replace_encode (c : Char) (rest : Bytes) :
    utf8Replace (String.utf8EncodeChar c ++ rest) = c :: utf8Replace rest := by
  have hnext := utf8Next_encode c rest
  have hdrop : (String.utf8EncodeChar c ++ rest).drop c.utf8Size = rest := by
    rw [← String.length_utf8EncodeChar c, List.drop_left]
  obtain ⟨b, bs, hb⟩ := List.exists_cons_of_ne_nil (String.utf8EncodeChar_ne_nil (c := c))
  rw [hb, List.cons_append] at hnext hdrop ⊢
  rw [utf8Replace, hnext]
  dsimp only
  rw [hdrop]

theorem utf8Replace_none {b : UInt8} {bytes : Bytes} (h : utf8Next (b :: bytes) = none) :
    utf8Replace (b :: bytes) =
      '�' :: utf8Replace (bytes.drop (utf8BadLength (b :: bytes) - 1)) := by
  rw [utf8Replace, h]

theorem encode_append_drop {bytes : Bytes} {c : Char} (h : utf8Next bytes = some c) :
    String.utf8EncodeChar c ++ bytes.drop c.utf8Size = bytes := by
  obtain ⟨rest, rfl⟩ := utf8Next_eq_some_iff.mp h
  rw [← String.length_utf8EncodeChar c, List.drop_left]

/-- An ASCII byte does not go on a character. -/
theorem utf8Next_append {a : UInt8} (u : Bytes) {b : UInt8} (hb : b.toNat < 0x80) (v : Bytes) :
    utf8Next (a :: u ++ b :: v) = utf8Next (a :: u) := by
  apply Option.ext
  intro c
  rw [utf8Next_eq_some_iff, utf8Next_eq_some_iff]
  constructor
  · intro h
    by_cases hlen : (String.utf8EncodeChar c).length ≤ (a :: u).length
    · exact List.prefix_of_prefix_length_le h (List.prefix_append _ _) hlen
    · -- the ASCII byte would be one of the later bytes of the character
      have hstart : a :: u ++ [b] <+: a :: u ++ b :: v := ⟨v, by simp⟩
      obtain ⟨rest, hrest⟩ := List.prefix_of_prefix_length_le hstart h (by
        rw [List.length_append, List.length_singleton]
        omega)
      have hwide : 0x80 ≤ c.toNat := by
        by_contra hc
        rw [utf8EncodeChar_ascii (by omega), List.length_singleton, List.length_cons] at hlen
        omega
      obtain ⟨b₁, b₂, bs, heq, hbytes, _⟩ := utf8EncodeChar_wide hwide
      have hmem : b ∈ b₁ :: b₂ :: bs := by
        rw [← heq, ← hrest]
        simp
      have hge := hbytes b hmem
      omega
  · intro h
    exact h.trans (List.prefix_append _ _)

theorem utf8Second_ascii (a : UInt8) {b : UInt8} (hb : b.toNat < 0x80) :
    utf8Second a b = false := by
  have hlow : ∀ lo : UInt8, 0x80 ≤ lo.toNat → decide (lo ≤ b) = false := by
    intro lo hlo
    rw [decide_eq_false_iff_not, UInt8.le_iff_toNat_le]
    omega
  have hlo : decide ((if a = 0xE0 then 0xA0 else if a = 0xF0 then 0x90 else 0x80 : UInt8) ≤ b) =
      false := by
    split_ifs <;> exact hlow _ (by decide)
  rw [utf8Second, hlo]
  simp

/-- Nor does it go on bytes that are no character. -/
theorem utf8BadLength_append {a : UInt8} (u : Bytes) {b : UInt8} (hb : b.toNat < 0x80) (v : Bytes) :
    (u ++ b :: v).drop (utf8BadLength (a :: u ++ b :: v) - 1) =
      u.drop (utf8BadLength (a :: u) - 1) ++ b :: v := by
  have hsecond := utf8Second_ascii a hb
  have hthird : decide (0x80 ≤ b) = false := by
    rw [decide_eq_false_iff_not, UInt8.le_iff_toNat_le]
    exact Nat.not_le.mpr hb
  match u with
  | [] =>
    have hone : utf8BadLength (a :: b :: v) = 1 := by
      cases v <;> simp [utf8BadLength, utf8Incomplete, hsecond]
    simp [hone]
  | [a₂] =>
    have hthree : utf8Incomplete [a, a₂, b] = false := by simp [utf8Incomplete, hthird]
    have hwith : utf8BadLength (a :: a₂ :: b :: v) = if utf8Incomplete [a, a₂] then 2 else 1 := by
      change (if utf8Incomplete [a, a₂, b] then 3 else _) = _
      rw [hthree]
      rfl
    have halone : utf8BadLength [a, a₂] = if utf8Incomplete [a, a₂] then 3 else 1 := by
      cases hinc : utf8Incomplete [a, a₂] <;> simp [utf8BadLength, hinc]
    rw [List.cons_append, List.singleton_append, hwith, halone]
    cases utf8Incomplete [a, a₂] <;> rfl
  | a₂ :: a₃ :: u =>
    have hle : utf8BadLength (a :: a₂ :: a₃ :: u) - 1 ≤ (a₂ :: a₃ :: u).length := by
      unfold utf8BadLength
      split_ifs <;> simp
    exact List.drop_append_of_le_length hle
/-- **An ASCII byte is read for itself**, whatever stands before it. -/
theorem utf8Replace_append (u : Bytes) {b : UInt8} (hb : b.toNat < 0x80) (v : Bytes) :
    utf8Replace (u ++ b :: v) = utf8Replace u ++ byteChar b :: utf8Replace v := by
  match u with
  | [] =>
    have hnil : utf8Replace [] = [] := by rw [utf8Replace]
    have hchar := utf8Replace_encode (byteChar b) v
    rw [utf8EncodeChar_byteChar hb, List.singleton_append] at hchar
    rw [List.nil_append, hnil, hchar]
    rfl
  | a :: u =>
    cases h : utf8Next (a :: u) with
    | none =>
      have hnone : utf8Next (a :: (u ++ b :: v)) = none := by
        rw [← List.cons_append, utf8Next_append u hb v, h]
      rw [List.cons_append, utf8Replace_none hnone, utf8Replace_none h, ← List.cons_append,
        utf8BadLength_append u hb v, utf8Replace_append _ hb v]
      rfl
    | some c =>
      obtain ⟨rest, hrest⟩ := utf8Next_eq_some_iff.mp h
      rw [← hrest, List.append_assoc, utf8Replace_encode, utf8Replace_encode,
        utf8Replace_append rest hb v]
      rfl
termination_by u.length
decreasing_by
  · rw [List.length_drop, List.length_cons]
    omega
  · have hlen := congrArg List.length hrest
    have hpos := c.utf8Size_pos
    rw [List.length_append, String.length_utf8EncodeChar] at hlen
    omega

/-- An ASCII character that is read was there as a byte. -/
theorem ascii_mem_of_utf8Replace {c : Char} (hc : c.toNat < 0x80) (bytes : Bytes)
    (h : c ∈ utf8Replace bytes) : ∃ b ∈ bytes, byteChar b = c := by
  fun_induction utf8Replace bytes with
  | case1 => cases h
  | case2 b bytes d hd ih =>
    have hsplit := encode_append_drop hd
    rcases List.mem_cons.mp h with rfl | h
    · refine ⟨UInt8.ofNat c.toNat, ?_, ?_⟩
      · rw [← hsplit, utf8EncodeChar_ascii hc]
        exact List.mem_append_left _ List.mem_cons_self
      · rw [byteChar, toNat_asciiByte hc, Char.ofNat_toNat]
    · obtain ⟨x, hx, hxc⟩ := ih h
      exact ⟨x, List.mem_of_mem_drop hx, hxc⟩
  | case3 b bytes hnone ih =>
    rcases List.mem_cons.mp h with rfl | h
    · exact absurd hc (by decide)
    · obtain ⟨x, hx, hxc⟩ := ih h
      exact ⟨x, List.mem_cons_of_mem _ (List.mem_of_mem_drop hx), hxc⟩

/-- Without a replacement character the bytes were UTF-8. -/
theorem utf8Encode_utf8Replace {bytes : Bytes} (h : '�' ∉ utf8Replace bytes) :
    utf8Encode (utf8Replace bytes) = bytes := by
  fun_induction utf8Replace bytes with
  | case1 => rfl
  | case2 b bytes c hc ih =>
    rw [List.mem_cons, not_or] at h
    rw [utf8Encode_cons, ih h.2, encode_append_drop hc]
  | case3 b bytes hnone ih => exact absurd List.mem_cons_self h

theorem utf8Replace_utf8Encode (t : Text) : utf8Replace (utf8Encode t) = t := by
  induction t with
  | nil =>
    rw [utf8Encode, List.flatMap_nil, utf8Replace]
  | cons c t ih => rw [utf8Encode_cons, utf8Replace_encode, ih]

theorem utf8Replace_length_le (bytes : Bytes) : (utf8Replace bytes).length ≤ bytes.length := by
  fun_induction utf8Replace bytes with
  | case1 => exact Nat.le_refl 0
  | case2 b bytes c hc ih =>
    have hpos := c.utf8Size_pos
    rw [List.length_drop, List.length_cons] at ih
    rw [List.length_cons, List.length_cons]
    omega
  | case3 b bytes hnone ih =>
    rw [List.length_drop] at ih
    rw [List.length_cons, List.length_cons]
    omega

theorem utf8Decoder_some {bytes : Bytes} {t : Text} {rest : Bytes}
    (h : utf8Decoder bytes = some (t, rest)) : bytes = utf8Encode t ++ rest := by
  fun_induction utf8Decoder bytes generalizing t with
  | case1 =>
    cases h
    rfl
  | case2 b bytes c hc ih =>
    obtain ⟨r, hr, hmap⟩ := Option.map_eq_some_iff.mp h
    cases hmap
    rw [utf8Encode_cons, List.append_assoc, ← ih hr, encode_append_drop hc]
  | case3 b bytes hnone hinc =>
    cases h
    rfl
  | case4 => cases h

theorem utf8Encode_of_whole {bytes : Bytes} {t : Text}
    (h : Decoder.whole utf8Decoder bytes = some t) : bytes = utf8Encode t := by
  unfold Decoder.whole at h
  split at h
  · rename_i s hs
    cases h
    rw [utf8Decoder_some hs, List.append_nil]
  · cases h

/-- What utf-8 reads in strict mode it reads in this mode too. -/
theorem utf8Replace_of_whole {bytes : Bytes} {t : Text}
    (h : Decoder.whole utf8Decoder bytes = some t) : utf8Replace bytes = t := by
  rw [utf8Encode_of_whole h, utf8Replace_utf8Encode]

/-! ## Decoders that split at the separators -/

/-- The decoder takes a separator for itself and makes none of other bytes. -/
structure Splits (f : Bytes → Option Text) : Prop where
  nil : f [] = some []
  sep : ∀ u {b}, isSepByte b = true → ∀ v,
    f (u ++ b :: v) = (f u).bind fun s => (f v).map fun r => s ++ byteChar b :: r
  plain : ∀ {u s}, f u = some s → (∀ b ∈ u, isSepByte b = false) →
    ∀ c ∈ s, isSeparator c = false
  eq_nil : ∀ {u}, f u = some [] → u = []

theorem splits_raw : Splits fun bytes => some (rawText bytes) where
  nil := rfl
  sep := by
    intro u b _ v
    simp [rawText]
  plain := by
    intro u s h hu c hc
    cases h
    obtain ⟨b, hb, rfl⟩ := List.mem_map.mp hc
    exact hu b hb
  eq_nil := by
    intro u h
    exact List.map_eq_nil_iff.mp (Option.some.inj h)

/-- A separator that is read was a separator among the bytes. -/
theorem plain_of_ascii {u : Bytes} {s : Text}
    (h : ∀ c ∈ s, c.toNat < 0x80 → ∃ b ∈ u, byteChar b = c)
    (hu : ∀ b ∈ u, isSepByte b = false) : ∀ c ∈ s, isSeparator c = false := by
  intro c hc
  by_contra hsep
  rw [Bool.not_eq_false] at hsep
  have hlt := isSeparator_lt hsep
  obtain ⟨b, hb, rfl⟩ := h c hc (by omega)
  rw [← isSepByte, hu b hb] at hsep
  cases hsep

theorem splits_replace : Splits fun bytes => some (utf8Replace bytes) where
  nil := by rw [utf8Replace]
  sep := by
    intro u b hb v
    have hlt := isSepByte_lt hb
    rw [utf8Replace_append u (by omega) v]
    rfl
  plain := by
    intro u s h hu
    cases h
    exact plain_of_ascii (fun c hc hlt => ascii_mem_of_utf8Replace hlt u hc) hu
  eq_nil := by
    intro u h
    cases u with
    | nil => rfl
    | cons b u =>
      rw [utf8Replace] at h
      split at h <;> cases h

theorem splits_decode (cp : Cp932) : Splits cp.decode where
  nil := rfl
  sep := by
    intro u b hb v
    have hlt := isSepByte_lt hb
    cases hu : cp.decode u with
    | none =>
      rw [Option.bind_none, Option.eq_none_iff_forall_ne_some]
      intro t ht
      obtain ⟨s, _, hs, _⟩ := decode_split cp hlt u v ht
      rw [hu] at hs
      cases hs
    | some s =>
      rw [decode_append cp u _ hu, decode_single cp (cp932Single_sepByte hb), Option.bind_some,
        Option.map_map]
      rfl
  plain := by
    intro u s h hu
    refine plain_of_ascii ?_ hu
    intro c hc hlt
    obtain ⟨b, hb, _, hbc⟩ := ascii_mem_of_decode cp hlt u h hc
    exact ⟨b, hb, hbc⟩
  eq_nil := decode_eq_nil cp

variable {f g : Bytes → Option Text} {R : Text → Text → Prop}

theorem relatedRun_of_splits (hf : Splits f) (hg : Splits g) {bytes : Bytes} {s s' : Text}
    (h : f bytes = some s) (h' : g bytes = some s') (hplain : ∀ b ∈ bytes, isSepByte b = false)
    (hR : R s s') : RelatedRun R s s' := by
  refine ⟨hf.plain h hplain, hg.plain h' hplain, ?_, hR⟩
  constructor
  · rintro rfl
    rw [hf.eq_nil h, hg.nil] at h'
    exact (Option.some.inj h').symm
  · rintro rfl
    rw [hg.eq_nil h', hf.nil] at h
    exact (Option.some.inj h).symm

/-- Two decoders give texts of one shape. -/
theorem sameShape_of_splits (hf : Splits f) (hg : Splits g)
    (hrun : ∀ {bytes s s'}, f bytes = some s → g bytes = some s' → R s s') (bytes : Bytes)
    {t t' : Text} (h : f bytes = some t) (h' : g bytes = some t') : SameShape R t t' := by
  cases hfind : bytes.find? isSepByte with
  | none =>
    have hplain : ∀ b ∈ bytes, isSepByte b = false := by
      simpa using List.find?_eq_none.mp hfind
    exact .run (relatedRun_of_splits hf hg h h' hplain (hrun h h'))
  | some b =>
    obtain ⟨hb, u, v, rfl, hu⟩ := List.find?_eq_some_iff_append.mp hfind
    have hplain : ∀ b ∈ u, isSepByte b = false := by simpa using hu
    rw [hf.sep u hb v] at h
    rw [hg.sep u hb v] at h'
    obtain ⟨s, hs, h⟩ := Option.bind_eq_some_iff.mp h
    obtain ⟨s', hs', h'⟩ := Option.bind_eq_some_iff.mp h'
    obtain ⟨r, hr, rfl⟩ := Option.map_eq_some_iff.mp h
    obtain ⟨r', hr', rfl⟩ := Option.map_eq_some_iff.mp h'
    exact .cons (relatedRun_of_splits hf hg hs hs' hplain (hrun hs hs')) hb
      (sameShape_of_splits hf hg hrun v hr hr')
termination_by bytes.length
decreasing_by
  subst_vars
  simp
  omega

/-- Bytes up to a separator, or none. -/
def ToSep (u : Bytes) : Prop := u = [] ∨ ∃ u' b, u = u' ++ [b] ∧ isSepByte b = true

/-- Bytes from a separator on, or none. -/
def FromSep (v : Bytes) : Prop := v = [] ∨ ∃ b v', v = b :: v' ∧ isSepByte b = true

theorem Splits.toSep (hf : Splits f) {u : Bytes} (hu : ToSep u) (v : Bytes) :
    f (u ++ v) = (f u).bind fun s => (f v).map (s ++ ·) := by
  rcases hu with rfl | ⟨u', b, rfl, hb⟩
  · rw [hf.nil, Option.bind_some, List.nil_append]
    cases f v <;> rfl
  · rw [List.append_assoc, List.singleton_append, hf.sep u' hb v, hf.sep u' hb [], hf.nil]
    cases f u' <;> cases f v <;> simp

theorem Splits.fromSep (hf : Splits f) {v : Bytes} (hv : FromSep v) (u : Bytes) :
    f (u ++ v) = (f u).bind fun s => (f v).map (s ++ ·) := by
  rcases hv with rfl | ⟨b, v', rfl, hb⟩
  · rw [hf.nil, List.append_nil]
    cases f u <;> simp
  · have hv := hf.sep [] hb v'
    rw [List.nil_append, hf.nil, Option.bind_some] at hv
    rw [hf.sep u hb v', hv]
    cases f u <;> cases f v' <;> simp

/-- The bytes up to the last separator, and the rest. -/
theorem exists_toSep (bytes : Bytes) :
    ∃ u p, bytes = u ++ p ∧ ToSep u ∧ ∀ b ∈ p, isSepByte b = false := by
  induction bytes with
  | nil => exact ⟨[], [], rfl, Or.inl rfl, nofun⟩
  | cons b bytes ih =>
    obtain ⟨u, p, rfl, hu, hp⟩ := ih
    rcases hu with rfl | ⟨u', b', rfl, hb'⟩
    · cases hb : isSepByte b with
      | true => exact ⟨[b], p, rfl, Or.inr ⟨[], b, rfl, hb⟩, hp⟩
      | false => exact ⟨[], b :: p, rfl, Or.inl rfl, List.forall_mem_cons.mpr ⟨hb, hp⟩⟩
    · exact ⟨b :: (u' ++ [b']), p, rfl, Or.inr ⟨b :: u', b', rfl, hb'⟩, hp⟩

/-- The bytes before the first separator, and the rest. -/
theorem exists_fromSep (bytes : Bytes) :
    ∃ q v, bytes = q ++ v ∧ FromSep v ∧ ∀ b ∈ q, isSepByte b = false := by
  induction bytes with
  | nil => exact ⟨[], [], rfl, Or.inl rfl, nofun⟩
  | cons b bytes ih =>
    cases hb : isSepByte b with
    | true => exact ⟨[], b :: bytes, rfl, Or.inr ⟨b, bytes, rfl, hb⟩, nofun⟩
    | false =>
      obtain ⟨q, v, rfl, hv, hq⟩ := ih
      exact ⟨b :: q, v, rfl, hv, List.forall_mem_cons.mpr ⟨hb, hq⟩⟩

/-! ## Another byte -/

theorem RelatedRun.append (hR : Congruent R) {s s' r r' : Text} (h : RelatedRun R s s')
    (h' : RelatedRun R r r') : RelatedRun R (s ++ r) (s' ++ r') where
  plain := List.forall_mem_append.mpr ⟨h.plain, h'.plain⟩
  plain' := List.forall_mem_append.mpr ⟨h.plain', h'.plain'⟩
  nil_iff := by rw [List.append_eq_nil_iff, List.append_eq_nil_iff, h.nil_iff, h'.nil_iff]
  related := hR.append h.related h'.related

theorem SameShape.append (hR : Congruent R) {t t' r r' : Text} (h : SameShape R t t')
    (h' : SameShape R r r') : SameShape R (t ++ r) (t' ++ r') := by
  induction h with
  | run hs =>
    cases h' with
    | run hs' => exact .run (hs.append hR hs')
    | cons hs' hc ht =>
      rw [← List.append_assoc, ← List.append_assoc]
      exact .cons (hs.append hR hs') hc ht
  | cons hs hc _ ih =>
    rw [List.append_assoc, List.append_assoc]
    exact .cons hs hc ih

theorem place_sameShape (hR : Congruent R) {t t' : Text} (h : SameShape R t t') :
    place t' = place t := by
  obtain ⟨r, hr⟩ := exists_feed (Nat.le_add_right t.length t'.length)
  obtain ⟨r', hr'⟩ := exists_feed (Nat.le_add_left t'.length t.length)
  have hstart : Reader.start.Related R Reader.start := ⟨rfl, hR.nil, .nil, .nil⟩
  have hend := hstart.feed hR h hr hr'
  rw [place_of_feed hr, place_of_feed hr', hend.records.length_eq, hend.fields.length_eq]

theorem congruent_true : Congruent fun _ _ => True :=
  ⟨trivial, fun _ _ => trivial, fun _ => trivial⟩

/-- Where a decoder goes on is where the bytes go on. -/
theorem place_of_splits (hf : Splits f) {u : Bytes} {s : Text} (h : f u = some s) :
    place s = place (rawText u) :=
  place_sameShape congruent_true
    (sameShape_of_splits splits_raw hf (fun _ _ => trivial) u rfl h)

theorem rawText_append (u v : Bytes) : rawText (u ++ v) = rawText u ++ rawText v :=
  List.map_append

theorem rel_getElem? {α β : Type} {S : α → β → Prop} {l : List α} {l' : List β}
    (h : List.Forall₂ S l l') (i : Nat) : Option.Rel S l[i]? l'[i]? := by
  induction h generalizing i with
  | nil => exact .none
  | cons hx _ ih =>
    cases i with
    | zero => exact .some hx
    | succ i => exact ih i

/-- Cells of related records are related. -/
theorem cellAt_rel {rows rows' : List (List Text)}
    (h : List.Forall₂ (List.Forall₂ R) rows rows') (i j : Nat) :
    Option.Rel R (cellAt rows i j) (cellAt rows' i j) := by
  unfold cellAt
  have hrow := rel_getElem? h i
  generalize rows[i]? = row at hrow ⊢
  generalize rows'[i]? = row' at hrow ⊢
  cases hrow with
  | none => exact .none
  | some hrow => exact rel_getElem? hrow j

theorem map_length_eq {rows rows' : List (List Text)}
    (h : List.Forall₂ (List.Forall₂ R) rows rows') :
    rows'.map List.length = rows.map List.length := by
  induction h with
  | nil => rfl
  | cons hrow _ ih => rw [List.map_cons, List.map_cons, hrow.length_eq, ih]

/-- The text around a run without separators. -/
theorem exists_run (hf : Splits f) {u p q v : Bytes} (hu : ToSep u) (hv : FromSep v)
    {t : Text} (h : f (u ++ p ++ (q ++ v)) = some t) :
    ∃ a s z, f u = some a ∧ f (p ++ q) = some s ∧ f v = some z ∧ t = a ++ (s ++ z) := by
  rw [List.append_assoc, ← List.append_assoc p, hf.toSep hu, hf.fromSep hv] at h
  obtain ⟨a, ha, h⟩ := Option.bind_eq_some_iff.mp h
  obtain ⟨r, hr, rfl⟩ := Option.map_eq_some_iff.mp h
  obtain ⟨s, hs, hr⟩ := Option.bind_eq_some_iff.mp hr
  obtain ⟨z, hz, rfl⟩ := Option.map_eq_some_iff.mp hr
  exact ⟨a, s, z, ha, hs, hz, rfl⟩

/-- Texts of one shape but for one run: the cells are related, but for one. -/
theorem csvReader_otherRun (hR : Congruent R) (hself : R ['x'] ['x']) {a a' s s' z z' : Text}
    (ha : SameShape R a a') (hz : SameShape R z z') (hs : ∀ c ∈ s, isSeparator c = false)
    (hs' : ∀ c ∈ s', isSeparator c = false) (hne : s ≠ []) (hne' : s' ≠ []) {limit limit' : Nat}
    {rows rows' : List (List Text)} (h : csvReader limit (a ++ (s ++ z)) = some rows)
    (h' : csvReader limit' (a' ++ (s' ++ z')) = some rows') :
    rows'.map List.length = rows.map List.length ∧
      ∀ i j, (i, j) ≠ place a → Option.Rel R (cellAt rows i j) (cellAt rows' i j) := by
  -- both texts with one character in place of the run
  have hplain : ∀ c ∈ ['x'], isSeparator c = false := List.forall_mem_singleton.mpr (by decide)
  have hmid : SameShape R (a ++ (['x'] ++ z)) (a' ++ (['x'] ++ z')) :=
    ha.append hR ((SameShape.run ⟨hplain, hplain, Iff.rfl, hself⟩).append hR hz)
  obtain ⟨m, hm⟩ := exists_csvReader (Nat.le_refl (a ++ (['x'] ++ z)).length)
  obtain ⟨m', hm'⟩ := exists_csvReader (Nat.le_refl (a' ++ (['x'] ++ z')).length)
  have hrows := forall₂_of_sameShape hR hmid hm hm'
  have hbut := csvReader_replace hs hplain hne (List.cons_ne_nil _ _) h hm
  have hbut' := csvReader_replace hs' hplain hne' (List.cons_ne_nil _ _) h' hm'
  rw [place_sameShape hR ha] at hbut'
  refine ⟨?_, ?_⟩
  · rw [← hbut.lengths, ← hbut'.lengths, map_length_eq hrows]
  · intro i j hij
    rw [← hbut.cells i j hij, ← hbut'.cells i j hij]
    exact cellAt_rel hrows i j

/-- **One byte.** A file in which one byte that is no separator is replaced by another one, read
with one decoder, and the file as it was, read with another one: the cells but one are what the two
decoders make of the same bytes. -/
theorem csvReader_damaged (hf : Splits f) (hg : Splits g) (hR : Congruent R)
    (hself : R ['x'] ['x'])
    (hrun : ∀ {bytes s s'}, f bytes = some s → g bytes = some s' → R s s')
    {pre post : Bytes} {x y : UInt8} (hx : isSepByte x = false) (hy : isSepByte y = false)
    {t t' : Text} (ht : f (pre ++ x :: post) = some t) (ht' : g (pre ++ y :: post) = some t')
    {limit limit' : Nat} {rows rows' : List (List Text)} (h : csvReader limit t = some rows)
    (h' : csvReader limit' t' = some rows') :
    rows'.map List.length = rows.map List.length ∧
      ∀ i j, (i, j) ≠ place (rawText pre) →
        Option.Rel R (cellAt rows i j) (cellAt rows' i j) := by
  obtain ⟨u, p, rfl, hu, hp⟩ := exists_toSep pre
  obtain ⟨q, v, rfl, hv, hq⟩ := exists_fromSep post
  rw [← List.cons_append] at ht ht'
  obtain ⟨a, s, z, ha, hs, hz, rfl⟩ := exists_run hf hu hv ht
  obtain ⟨a', s', z', ha', hs', hz', rfl⟩ := exists_run hg hu hv ht'
  have hplace : place a = place (rawText (u ++ p)) := by
    rw [rawText_append, place_append, place_of_splits hf ha]
    intro c hc
    obtain ⟨b, hb, rfl⟩ := List.mem_map.mp hc
    exact hp b hb
  have hrun₁ : ∀ b ∈ p ++ x :: q, isSepByte b = false :=
    List.forall_mem_append.mpr ⟨hp, List.forall_mem_cons.mpr ⟨hx, hq⟩⟩
  have hrun₂ : ∀ b ∈ p ++ y :: q, isSepByte b = false :=
    List.forall_mem_append.mpr ⟨hp, List.forall_mem_cons.mpr ⟨hy, hq⟩⟩
  have hne : s ≠ [] := by
    rintro rfl
    exact absurd (hf.eq_nil hs) (by simp)
  have hne' : s' ≠ [] := by
    rintro rfl
    exact absurd (hg.eq_nil hs') (by simp)
  rw [← hplace]
  exact csvReader_otherRun hR hself (sameShape_of_splits hf hg hrun u ha ha')
    (sameShape_of_splits hf hg hrun v hz hz') (hf.plain hs hrun₁) (hg.plain hs' hrun₂) hne hne' h h'

/-! ## What the codecs have in common -/

/-- If one of the texts is ASCII, the other one is the same. -/
def AsciiAlike (f f' : Text) : Prop := Ascii f ∨ Ascii f' → f' = f

theorem asciiAlike_congruent : Congruent AsciiAlike where
  nil := fun _ => rfl
  append := by
    intro f f' g g' hf hg h
    rw [ascii_append, ascii_append] at h
    rcases h with ⟨h₁, h₂⟩ | ⟨h₁, h₂⟩
    · rw [hf (Or.inl h₁), hg (Or.inl h₂)]
    · rw [hf (Or.inr h₁), hg (Or.inr h₂)]
  separator := fun _ _ => rfl

theorem rawText_utf8Encode {t : Text} (h : Ascii t) : rawText (utf8Encode t) = t := by
  induction t with
  | nil => rfl
  | cons c t ih =>
    obtain ⟨hc, ht⟩ := List.forall_mem_cons.mp h
    rw [utf8Encode_ascii hc, rawText, List.map_cons, ← rawText, ih ht, byteChar, toNat_asciiByte hc,
      Char.ofNat_toNat]

theorem utf8Encode_rawText {bytes : Bytes} (h : Ascii (rawText bytes)) :
    utf8Encode (rawText bytes) = bytes := by
  induction bytes with
  | nil => rfl
  | cons b bytes ih =>
    obtain ⟨hb, hbytes⟩ := List.forall_mem_cons.mp h
    rw [toNat_byteChar] at hb
    have hcons : rawText (b :: bytes) = byteChar b :: rawText bytes := rfl
    rw [hcons, utf8Encode_cons, utf8EncodeChar_byteChar hb, ih hbytes]
    rfl

theorem asciiAlike_replace (bytes : Bytes) : AsciiAlike (rawText bytes) (utf8Replace bytes) := by
  rintro (hraw | htext)
  · have hbytes := utf8Replace_utf8Encode (rawText bytes)
    rwa [utf8Encode_rawText hraw] at hbytes
  · have hnone : '�' ∉ utf8Replace bytes := fun hmem => absurd (htext _ hmem) (by decide)
    have hbytes := rawText_utf8Encode htext
    rw [utf8Encode_utf8Replace hnone] at hbytes
    exact hbytes.symm

theorem asciiAlike_decode {cp : Cp932} (bytes : Bytes) {t : Text} (h : cp.decode bytes = some t) :
    AsciiAlike (rawText bytes) t := by
  rintro (hraw | htext)
  · have hbytes := decode_ascii cp hraw
    rw [utf8Encode_rawText hraw, h] at hbytes
    exact Option.some.inj hbytes
  · induction bytes generalizing t with
    | nil =>
      cases h
      rfl
    | cons b bytes ih =>
      obtain ⟨c, rest, t', rfl, ht', ⟨hb, rfl⟩ | ⟨_, b₂, _, hpair⟩⟩ := decode_cons cp h
      · obtain ⟨hc, htext⟩ := List.forall_mem_cons.mp htext
        have hlt : b.toNat < 0x80 := by
          by_contra hge
          rcases cp932Single_wide (by omega) hb with hwide | hwide <;> omega
        rw [cp932Single_ascii hlt] at hb
        rw [ih ht' htext, ← Option.some.inj hb]
        rfl
      · have hwide := cp.wide hpair
        have hc := htext c List.mem_cons_self
        omega

/-- The records of the bytes, and what cp932 reads. -/
theorem forall₂_decode {cp : Cp932} {bytes : Bytes} {t : Text} (h : cp.decode bytes = some t)
    {limit limit' : Nat} {rows rows' : List (List Text)}
    (hrows : csvReader limit (rawText bytes) = some rows)
    (hrows' : csvReader limit' t = some rows') :
    List.Forall₂ (List.Forall₂ AsciiAlike) rows rows' := by
  refine forall₂_of_sameShape asciiAlike_congruent
    (sameShape_of_splits splits_raw (splits_decode cp) ?_ bytes rfl h) hrows hrows'
  intro bytes s s' hs hs'
  cases hs
  exact asciiAlike_decode bytes hs'

/-- The same for utf-8. -/
theorem forall₂_replace {bytes : Bytes} {limit limit' : Nat} {rows rows' : List (List Text)}
    (hrows : csvReader limit (rawText bytes) = some rows)
    (hrows' : csvReader limit' (utf8Replace bytes) = some rows') :
    List.Forall₂ (List.Forall₂ AsciiAlike) rows rows' := by
  refine forall₂_of_sameShape asciiAlike_congruent
    (sameShape_of_splits splits_raw splits_replace ?_ bytes rfl rfl) hrows hrows'
  intro bytes s s' hs hs'
  cases hs
  cases hs'
  exact asciiAlike_replace bytes

/-- CP932 does not have the replacement character. -/
def Cp932.NoReplacement (cp : Cp932) : Prop := ∀ b₁ b₂, cp.pair b₁ b₂ ≠ some '�'

theorem cp932Single_ne_replacement (b : UInt8) : cp932Single b ≠ some '�' := by
  have hall : ∀ n : Fin 256, cp932Single (UInt8.ofFin n) ≠ some '�' := by decide +kernel
  exact hall b.toFin

theorem replacement_notMem {cp : Cp932} (hcp : cp.NoReplacement) (bytes : Bytes) {t : Text}
    (h : cp.decode bytes = some t) : '�' ∉ t := by
  cases bytes with
  | nil =>
    cases h
    exact List.not_mem_nil
  | cons b bytes =>
    obtain ⟨c, rest, t', rfl, ht', ⟨hb, rfl⟩ | ⟨_, b₂, rfl, hpair⟩⟩ := decode_cons cp h
    · have hrest := replacement_notMem hcp bytes ht'
      rw [List.mem_cons, not_or]
      refine ⟨?_, hrest⟩
      rintro rfl
      exact cp932Single_ne_replacement b hb
    · have hrest := replacement_notMem hcp rest ht'
      rw [List.mem_cons, not_or]
      refine ⟨?_, hrest⟩
      rintro rfl
      exact hcp b b₂ hpair

/-- A text that is read with replacement characters, and what cp932 reads for it. -/
def Reread (cp : Cp932) (f f' : Text) : Prop := '�' ∉ f' ∧ ('�' ∈ f ∨ Twin cp f f')

theorem reread_congruent (cp : Cp932) : Congruent (Reread cp) where
  nil := ⟨List.not_mem_nil, Or.inr Twin.nil⟩
  append := by
    rintro f f' g g' ⟨hf', hf⟩ ⟨hg', hg⟩
    refine ⟨fun hmem => (List.mem_append.mp hmem).elim hf' hg', ?_⟩
    rcases hf with hf | hf
    · exact Or.inl (List.mem_append_left _ hf)
    · rcases hg with hg | hg
      · exact Or.inl (List.mem_append_right _ hg)
      · exact Or.inr (hf.append hg)
  separator := by
    intro c hc
    have hlt := isSeparator_lt hc
    refine ⟨?_, Or.inr (Twin.ascii (by omega))⟩
    intro hmem
    rw [← List.mem_singleton.mp hmem] at hlt
    exact absurd hlt (by decide)

theorem Reread.ascii {cp : Cp932} {f f' : Text} (h : Reread cp f f') (heq : f' = f) :
    Ascii f' := by
  obtain ⟨hf', hmem | htwin⟩ := h
  · rw [← heq] at hmem
    exact absurd hmem hf'
  · rw [heq]
    exact htwin.eq_iff.mp heq

theorem reread_of_decode {cp : Cp932} (hcp : cp.NoReplacement) {bytes : Bytes} {f' : Text}
    (h : cp.decode bytes = some f') : Reread cp (utf8Replace bytes) f' := by
  refine ⟨replacement_notMem hcp bytes h, ?_⟩
  by_cases hmem : '�' ∈ utf8Replace bytes
  · exact Or.inl hmem
  · refine Or.inr (twin_of_decode ?_)
    rw [utf8Encode_utf8Replace hmem]
    exact h

end GdalFull.Lib
