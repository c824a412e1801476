import GdalFull.Lib.Csv

/-!
# Codecs and text files

A strict incremental decoder takes the bytes that have arrived and gives the decoded text and
the bytes of an incomplete last character, which are an error if the file ends there, or fails.
UTF-8 is that of Lean; of CP932 the single bytes are given, and the table of byte pairs is a
parameter with the facts about it that are used.

A text file is decoded in chunks while the CSV reader takes its lines, so that a `csv.Error`
in an early line comes before a decoding error in a later chunk (`readRows`).
-/

namespace GdalFull.Lib

abbrev Bytes := List UInt8

abbrev Decoder := Bytes → Option (Text × Bytes)

/-! ## UTF-8 -/

def utf8Encode (t : Text) : Bytes :=
  t.flatMap String.utf8EncodeChar

def utf8Next (bytes : Bytes) : Option Char :=
  bytes.toByteArray.utf8DecodeChar? 0

/-- The second byte of a character of three or four bytes. -/
def utf8Second (a b : UInt8) : Bool :=
  let lo := if a = 0xE0 then 0xA0 else if a = 0xF0 then 0x90 else 0x80
  let hi := if a = 0xED then 0x9F else if a = 0xF4 then 0x8F else 0xBF
  0xE0 ≤ a && a ≤ 0xF4 && lo ≤ b && b ≤ hi

/-- The first bytes of a character, but not all of them. -/
def utf8Incomplete : Bytes → Bool
  | [a] => 0xC2 ≤ a && a ≤ 0xF4
  | [a, b] => utf8Second a b
  | [a, b, c] => 0xF0 ≤ a && utf8Second a b && 0x80 ≤ c && c ≤ 0xBF
  | _ => false

theorem drop_utf8Size_length_lt {b : UInt8} {bytes : Bytes} {c : Char} :
    ((b :: bytes).drop c.utf8Size).length < (b :: bytes).length := by
  have hpos := c.utf8Size_pos
  rw [List.length_drop, List.length_cons]
  omega

/-- The codec `utf-8`, strict. -/
def utf8Decoder : Decoder
  | [] => some ([], [])
  | b :: bytes =>
    match utf8Next (b :: bytes) with
    | some c => (utf8Decoder ((b :: bytes).drop c.utf8Size)).map fun r => (c :: r.1, r.2)
    | none => if utf8Incomplete (b :: bytes) then some ([], b :: bytes) else none
termination_by bytes => bytes.length
decreasing_by exact drop_utf8Size_length_lt

def utf8Bom : Bytes := [0xEF, 0xBB, 0xBF]

/-- The codec `utf-8-sig`, strict. It waits for the rest of a byte order mark that is cut short, and
a file that ends there is empty for it. -/
def utf8SigDecoder : Decoder := fun bytes =>
  if bytes.length < 3 ∧ bytes <+: utf8Bom then some ([], [])
  else if utf8Bom <+: bytes then utf8Decoder (bytes.drop 3)
  else utf8Decoder bytes

/-- The number of bytes that one replacement character stands for. -/
def utf8BadLength (bytes : Bytes) : Nat :=
  if utf8Incomplete (bytes.take 3) then 3 else if utf8Incomplete (bytes.take 2) then 2 else 1

/-- The codec `utf-8` with `errors="replace"`. -/
def utf8Replace : Bytes → Text
  | [] => []
  | b :: bytes =>
    match utf8Next (b :: bytes) with
    | some c => c :: utf8Replace ((b :: bytes).drop c.utf8Size)
    | none => '�' :: utf8Replace (bytes.drop (utf8BadLength (b :: bytes) - 1))
termination_by bytes => bytes.length
decreasing_by
  · exact drop_utf8Size_length_lt
  · rw [List.length_drop, List.length_cons]
    omega

theorem utf8Next_encode (c : Char) (rest : Bytes) :
    utf8Next (String.utf8EncodeChar c ++ rest) = some c := by
  rw [utf8Next, List.toByteArray_append]
  exact ByteArray.utf8DecodeChar?_utf8EncodeChar_append

theorem utf8Decoder_encode (t : Text) : utf8Decoder (utf8Encode t) = some (t, []) := by
  induction t with
  | nil => rw [utf8Encode, List.flatMap_nil, utf8Decoder]
  | cons c t ih =>
    have hnext := utf8Next_encode c (utf8Encode t)
    have hdrop : (String.utf8EncodeChar c ++ utf8Encode t).drop c.utf8Size = utf8Encode t := by
      rw [← String.length_utf8EncodeChar c, List.drop_left]
    have hcons : utf8Encode (c :: t) = String.utf8EncodeChar c ++ utf8Encode t := rfl
    obtain ⟨b, bs, hb⟩ := List.exists_cons_of_ne_nil (String.utf8EncodeChar_ne_nil (c := c))
    rw [hcons]
    rw [hb, List.cons_append] at hnext hdrop ⊢
    rw [utf8Decoder, hnext]
    dsimp only
    rw [hdrop, ih]
    rfl

theorem utf8Encode_cons (c : Char) (t : Text) :
    utf8Encode (c :: t) = String.utf8EncodeChar c ++ utf8Encode t := rfl

theorem utf8Encode_append (s t : Text) : utf8Encode (s ++ t) = utf8Encode s ++ utf8Encode t :=
  List.flatMap_append

theorem utf8Encode_injective : Function.Injective utf8Encode := by
  intro t₁ t₂ h
  have h₁ := utf8Decoder_encode t₁
  rw [h, utf8Decoder_encode] at h₁
  exact (congrArg Prod.fst (Option.some.inj h₁)).symm

theorem utf8EncodeChar_ascii {c : Char} (hc : c.toNat < 0x80) :
    String.utf8EncodeChar c = [UInt8.ofNat c.toNat] := by
  have hle : c.val.toNat ≤ 0x7f := by
    change c.toNat ≤ 0x7f
    omega
  simp only [String.utf8EncodeChar, if_pos hle]
  rfl

theorem utf8Encode_ascii {c : Char} (hc : c.toNat < 0x80) (t : Text) :
    utf8Encode (c :: t) = UInt8.ofNat c.toNat :: utf8Encode t := by
  rw [utf8Encode_cons, utf8EncodeChar_ascii hc, List.singleton_append]

/-- A character outside ASCII is written with at least two bytes, all of them outside ASCII. -/
theorem utf8EncodeChar_wide {c : Char} (hc : 0x80 ≤ c.toNat) :
    ∃ b₁ b₂ bs, String.utf8EncodeChar c = b₁ :: b₂ :: bs ∧
      (∀ b ∈ b₁ :: b₂ :: bs, 0x80 ≤ b.toNat) ∧
      (c.toNat < 0x800 ∧ 0xC2 ≤ b₁.toNat ∧ b₁.toNat ≤ 0xDF ∨
        0xE0 ≤ b₁.toNat ∧ b₁.toNat ≤ 0xF7) := by
  have hval : c.val.toNat = c.toNat := rfl
  unfold String.utf8EncodeChar
  simp only [hval]
  split_ifs
  · omega
  · refine ⟨_, _, _, rfl, ?_, Or.inl ?_⟩
    · simp only [List.mem_cons, List.not_mem_nil, or_false, forall_eq_or_imp, forall_eq,
        UInt8.toNat_ofNat']
      omega
    · simp only [UInt8.toNat_ofNat']
      omega
  · refine ⟨_, _, _, rfl, ?_, Or.inr ?_⟩
    · simp only [List.mem_cons, List.not_mem_nil, or_false, forall_eq_or_imp, forall_eq,
        UInt8.toNat_ofNat']
      omega
    · simp only [UInt8.toNat_ofNat']
      omega
  · refine ⟨_, _, _, rfl, ?_, Or.inr ?_⟩
    · simp only [List.mem_cons, List.not_mem_nil, or_false, forall_eq_or_imp, forall_eq,
        UInt8.toNat_ofNat']
      omega
    · simp only [UInt8.toNat_ofNat']
      omega

/-! ## CP932 -/

/-- The single bytes of CP932. -/
def cp932Single (b : UInt8) : Option Char :=
  if b ≤ 0x80 then some (Char.ofNat b.toNat)
  else if b = 0xA0 then some (Char.ofNat 0xF8F0)
  else if 0xA1 ≤ b ∧ b ≤ 0xDF then some (Char.ofNat (0xFEC0 + b.toNat))
  else if 0xFD ≤ b then some (Char.ofNat (0xF8F1 - 0xFD + b.toNat))
  else none

/-- The byte pairs of CP932, and the encoder. A second byte is at least `40`, a pair never
stands for an ASCII character, and `EF` begins no pair. `E9 AC` is the only pair that is also
the beginning of the UTF-8 form of its character. -/
structure Cp932 where
  pair : UInt8 → UInt8 → Option Char
  encodeChar : Char → Option Bytes
  trail : ∀ {b₁ b₂ c}, pair b₁ b₂ = some c → 0x40 ≤ b₂.toNat
  wide : ∀ {b₁ b₂ c}, pair b₁ b₂ = some c → 0x80 ≤ c.toNat
  unassigned : ∀ b, pair 0xEF b = none
  own : ∀ {b₁ b₂ c}, pair b₁ b₂ = some c → [b₁, b₂] <+: String.utf8EncodeChar c →
    b₁ = 0xE9 ∧ b₂ = 0xAC ∧ c = '鬯'
  decode_encode : ∀ {c bytes}, encodeChar c = some bytes →
    (∃ b, bytes = [b] ∧ cp932Single b = some c) ∨
      ∃ b₁ b₂, bytes = [b₁, b₂] ∧ cp932Single b₁ = none ∧ pair b₁ b₂ = some c

/-- A pair that is looked up in a table is in it. -/
theorem mem_of_findSome?_pair {table : List (UInt8 × UInt8 × Char)} {b₁ b₂ : UInt8} {c : Char}
    (h : (table.findSome? fun x => if x.1 = b₁ ∧ x.2.1 = b₂ then some x.2.2 else none) = some c) :
    (b₁, b₂, c) ∈ table := by
  obtain ⟨x, hx, hif⟩ := List.exists_of_findSome?_eq_some h
  obtain ⟨⟨rfl, rfl⟩, hc⟩ := Option.ite_none_right_eq_some.mp hif
  cases hc
  exact hx

variable (cp : Cp932)

/-- The codec `cp932`, strict. -/
def Cp932.decoder : Decoder
  | [] => some ([], [])
  | [b] =>
    match cp932Single b with
    | some c => some ([c], [])
    | none => some ([], [b])
  | b₁ :: b₂ :: bytes =>
    match cp932Single b₁ with
    | some c => (Cp932.decoder (b₂ :: bytes)).map fun r => (c :: r.1, r.2)
    | none =>
      match cp.pair b₁ b₂ with
      | some c => (Cp932.decoder bytes).map fun r => (c :: r.1, r.2)
      | none => none

/-- `t.encode("cp932")`. -/
def Cp932.encode (t : Text) : Option Bytes :=
  (t.mapM cp.encodeChar).map List.flatten

/-- A whole byte string, decoded. -/
def Decoder.whole (decoder : Decoder) (bytes : Bytes) : Option Text :=
  match decoder bytes with
  | some (t, []) => some t
  | _ => none

theorem whole_utf8Encode (t : Text) : Decoder.whole utf8Decoder (utf8Encode t) = some t := by
  rw [Decoder.whole, utf8Decoder_encode]

def Cp932.decode (bytes : Bytes) : Option Text :=
  Decoder.whole cp.decoder bytes

theorem decode_lead {b : UInt8} (h : cp932Single b = none) : cp.decode [b] = none := by
  simp [Cp932.decode, Decoder.whole, Cp932.decoder, h]

theorem decode_single {b : UInt8} {c : Char} (h : cp932Single b = some c) (bytes : Bytes) :
    cp.decode (b :: bytes) = (cp.decode bytes).map (c :: ·) := by
  cases bytes with
  | nil => simp [Cp932.decode, Decoder.whole, Cp932.decoder, h]
  | cons b₂ bytes =>
    simp only [Cp932.decode, Decoder.whole, Cp932.decoder, h]
    cases cp.decoder (b₂ :: bytes) with
    | none => rfl
    | some r =>
      obtain ⟨t, tail⟩ := r
      cases tail <;> rfl

theorem decode_pair {b₁ b₂ : UInt8} (h : cp932Single b₁ = none) (bytes : Bytes) :
    cp.decode (b₁ :: b₂ :: bytes) =
      (cp.pair b₁ b₂).bind fun c => (cp.decode bytes).map (c :: ·) := by
  simp only [Cp932.decode, Decoder.whole, Cp932.decoder, h]
  cases cp.pair b₁ b₂ with
  | none => rfl
  | some c =>
    dsimp only [Option.bind_some]
    cases cp.decoder bytes with
    | none => rfl
    | some r =>
      obtain ⟨t, tail⟩ := r
      cases tail <;> rfl

/-- What is read begins with a single byte or with a pair. -/
theorem decode_cons {b : UInt8} {bytes : Bytes} {t : Text} (h : cp.decode (b :: bytes) = some t) :
    ∃ c rest t', t = c :: t' ∧ cp.decode rest = some t' ∧
      (cp932Single b = some c ∧ bytes = rest ∨
        cp932Single b = none ∧ ∃ b₂, bytes = b₂ :: rest ∧ cp.pair b b₂ = some c) := by
  cases hb : cp932Single b with
  | some c =>
    rw [decode_single cp hb] at h
    obtain ⟨t', ht', rfl⟩ := Option.map_eq_some_iff.mp h
    exact ⟨c, bytes, t', rfl, ht', Or.inl ⟨rfl, rfl⟩⟩
  | none =>
    cases bytes with
    | nil =>
      rw [decode_lead cp hb] at h
      cases h
    | cons b₂ bytes =>
      rw [decode_pair cp hb] at h
      obtain ⟨c, hc, h⟩ := Option.bind_eq_some_iff.mp h
      obtain ⟨t', ht', rfl⟩ := Option.map_eq_some_iff.mp h
      exact ⟨c, bytes, t', rfl, ht', Or.inr ⟨rfl, b₂, rfl, hc⟩⟩

/-- What is encoded is decoded. -/
theorem decode_encode {t : Text} {bytes : Bytes} (h : cp.encode t = some bytes) :
    cp.decode bytes = some t := by
  obtain ⟨parts, hparts, rfl⟩ := Option.map_eq_some_iff.mp h
  clear h
  induction t generalizing parts with
  | nil =>
    cases hparts
    rfl
  | cons c t ih =>
    rw [List.mapM_cons] at hparts
    obtain ⟨part, hpart, hbind⟩ := Option.bind_eq_some_iff.mp hparts
    obtain ⟨rest, hrest, hcons⟩ := Option.bind_eq_some_iff.mp hbind
    cases hcons
    have htail := ih rest hrest
    rw [List.flatten_cons]
    rcases cp.decode_encode hpart with ⟨b, rfl, hb⟩ | ⟨b₁, b₂, rfl, hb₁, hb⟩
    · rw [List.singleton_append, decode_single cp hb, htail]
      rfl
    · rw [List.cons_append, List.singleton_append, decode_pair cp hb₁, hb, Option.bind_some, htail]
      rfl

/-! ## CSV files -/

inductive ReadError where
  | unicode
  | csv
  deriving DecidableEq

/-- The lines of a text that are complete, so that no further chunk is read for them. A `\r` at
the end may be followed by `\n`. -/
def completeLines (text : Text) : Text :=
  let lines := readlines text
  if text.getLast? = some '\n' then text else lines.dropLast.flatten

/-- The text of the chunks before the one in which a decoder fails. -/
def decodedChunks (decoder : Decoder) (chunk : Nat) (bytes : Bytes) : Text :=
  let accepted := (List.range (bytes.length / chunk + 2)).filterMap fun n =>
    (decoder (bytes.take (n * chunk))).map Prod.fst
  accepted.getLast?.getD []

/-- `list(csv.reader(f))` for a file that is decoded in chunks. -/
def readRows (limit chunk : Nat) (decoder : Decoder) (bytes : Bytes) :
    Except ReadError (List (List Text)) :=
  match decoder.whole bytes with
  | some text =>
    match csvReader limit text with
    | some rows => .ok rows
    | none => .error .csv
  | none =>
    match Reader.start.feed limit (completeLines (decodedChunks decoder chunk bytes)) with
    | some _ => .error .unicode
    | none => .error .csv

end GdalFull.Lib
