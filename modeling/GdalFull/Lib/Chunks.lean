import GdalFull.Lib.Mojibake

/-!
# What is read of a file before its decoder fails

`decodedChunks` is the text of the chunks before the one in which a decoder fails, and
`completeLines` are the lines of it that a CSV reader gets. For cp932: the text is that of some
beginning of the file (`decodedChunks_prefix`), it is not longer than that (`decode_length_le`), and
it goes on from the text of any whole number of chunks that can be decoded
(`decodedChunks_extends`).
-/

namespace GdalFull.Lib

variable (cp : Cp932)

/-- What the decoder gives is the text of a beginning of its bytes. -/
theorem decoder_some (bytes : Bytes) {t : Text} {rest : Bytes}
    (h : cp.decoder bytes = some (t, rest)) : ∃ p, bytes = p ++ rest ∧ cp.decode p = some t := by
  fun_induction Cp932.decoder cp bytes generalizing t with
  | case1 =>
    cases h
    exact ⟨[], rfl, rfl⟩
  | case2 b c hc =>
    cases h
    refine ⟨[b], rfl, ?_⟩
    rw [decode_single cp hc]
    rfl
  | case3 b hb =>
    cases h
    exact ⟨[], rfl, rfl⟩
  | case4 b₁ b₂ bytes c hc ih =>
    obtain ⟨r, hr, hmap⟩ := Option.map_eq_some_iff.mp h
    cases hmap
    obtain ⟨p, hp, hdecode⟩ := ih hr
    refine ⟨b₁ :: p, by rw [List.cons_append, ← hp], ?_⟩
    rw [decode_single cp hc, hdecode]
    rfl
  | case5 b₁ b₂ bytes hb c hc ih =>
    obtain ⟨r, hr, hmap⟩ := Option.map_eq_some_iff.mp h
    cases hmap
    obtain ⟨p, hp, hdecode⟩ := ih hr
    refine ⟨b₁ :: b₂ :: p, by rw [List.cons_append, List.cons_append, ← hp], ?_⟩
    rw [decode_pair cp hb, hc, Option.bind_some, hdecode]
    rfl
  | case6 => cases h

theorem decode_length_le (bytes : Bytes) {t : Text} (h : cp.decode bytes = some t) :
    t.length ≤ bytes.length := by
  cases bytes with
  | nil =>
    cases h
    exact Nat.le_refl 0
  | cons b bytes =>
    obtain ⟨c, rest, t', rfl, ht', ⟨_, rfl⟩ | ⟨_, b₂, rfl, _⟩⟩ := decode_cons cp h
    · have hrest := decode_length_le bytes ht'
      rw [List.length_cons, List.length_cons]
      omega
    · have hrest := decode_length_le rest ht'
      rw [List.length_cons, List.length_cons, List.length_cons]
      omega

theorem decoder_length_le {bytes : Bytes} {t : Text} {rest : Bytes}
    (h : cp.decoder bytes = some (t, rest)) : t.length ≤ bytes.length := by
  obtain ⟨p, rfl, hp⟩ := decoder_some cp bytes h
  have hlen := decode_length_le cp p hp
  rw [List.length_append]
  omega

theorem decoder_single {b : UInt8} {c : Char} (h : cp932Single b = some c) (bytes : Bytes) :
    cp.decoder (b :: bytes) = (cp.decoder bytes).map fun r => (c :: r.1, r.2) := by
  cases bytes with
  | nil => simp [Cp932.decoder, h]
  | cons b₂ bytes => simp [Cp932.decoder, h]

/-- After bytes that are decoded completely, the decoder goes on from the next one. -/
theorem decoder_append (u v : Bytes) {s : Text} (h : cp.decode u = some s) :
    cp.decoder (u ++ v) = (cp.decoder v).map fun r => (s ++ r.1, r.2) := by
  cases u with
  | nil =>
    cases h
    rw [List.nil_append]
    cases cp.decoder v <;> rfl
  | cons b u =>
    obtain ⟨c, rest, s', rfl, hs', ⟨hb, rfl⟩ | ⟨hb, b₂, rfl, hpair⟩⟩ := decode_cons cp h
    · have hrest := decoder_append u v hs'
      rw [List.cons_append, decoder_single cp hb, hrest, Option.map_map]
      rfl
    · have hrest := decoder_append rest v hs'
      rw [List.cons_append, List.cons_append, Cp932.decoder, hb]
      dsimp only
      rw [hpair]
      dsimp only
      rw [hrest, Option.map_map]
      rfl

theorem decode_append (u v : Bytes) {s : Text} (h : cp.decode u = some s) :
    cp.decode (u ++ v) = (cp.decode v).map (s ++ ·) := by
  rw [Cp932.decode, Cp932.decode, Decoder.whole, Decoder.whole, decoder_append cp u v h]
  cases cp.decoder v with
  | none => rfl
  | some r =>
    obtain ⟨t, tail⟩ := r
    cases tail <;> rfl

/-- A text whose characters can be encoded. -/
theorem encode_of_forall {t : Text} (h : ∀ c ∈ t, (cp.encodeChar c).isSome = true) :
    cp.encode t = some (t.flatMap fun c => (cp.encodeChar c).getD []) := by
  have hmap : t.mapM cp.encodeChar = some (t.map fun c => (cp.encodeChar c).getD []) := by
    induction t with
    | nil => rfl
    | cons c t ih =>
      obtain ⟨hc, ht⟩ := List.forall_mem_cons.mp h
      obtain ⟨bytes, hbytes⟩ := Option.isSome_iff_exists.mp hc
      rw [List.mapM_cons, hbytes, ih ht, List.map_cons, hbytes]
      rfl
  rw [Cp932.encode, hmap]
  rfl

/-! ## Chunks -/

theorem decodedChunks_eq (decoder : Decoder) (chunk : Nat) (bytes : Bytes) :
    decodedChunks decoder chunk bytes = [] ∨
      ∃ n rest, decoder (bytes.take n) = some (decodedChunks decoder chunk bytes, rest) := by
  rw [decodedChunks]
  cases hlast : ((List.range (bytes.length / chunk + 2)).filterMap fun n =>
      (decoder (bytes.take (n * chunk))).map Prod.fst).getLast? with
  | none => exact Or.inl rfl
  | some t =>
    have hmem := List.mem_of_getLast? hlast
    obtain ⟨n, _, hn⟩ := List.mem_filterMap.mp hmem
    obtain ⟨⟨t', rest⟩, hdecoder, rfl⟩ := Option.map_eq_some_iff.mp hn
    exact Or.inr ⟨n * chunk, rest, hdecoder⟩

/-- The text of the chunks is that of a beginning of the file. -/
theorem decodedChunks_prefix (chunk : Nat) (bytes : Bytes) :
    ∃ p, p <+: bytes ∧ cp.decode p = some (decodedChunks cp.decoder chunk bytes) := by
  rcases decodedChunks_eq cp.decoder chunk bytes with hnil | ⟨n, rest, hdecoder⟩
  · rw [hnil]
    exact ⟨[], List.nil_prefix, rfl⟩
  · obtain ⟨p, hp, hdecode⟩ := decoder_some cp _ hdecoder
    have htake : p <+: bytes.take n := ⟨rest, hp.symm⟩
    exact ⟨p, htake.trans (List.take_prefix n bytes), hdecode⟩

/-- The text goes on from that of any chunks which can be decoded. -/
theorem decodedChunks_extends {chunk n : Nat} (hchunk : 0 < chunk) {u v : Bytes} {s : Text}
    (hlen : u.length = n * chunk) (h : cp.decode u = some s) :
    s <+: decodedChunks cp.decoder chunk (u ++ v) := by
  have hn : n < (u ++ v).length / chunk + 2 := by
    have hdiv : n ≤ (u ++ v).length / chunk := by
      rw [Nat.le_div_iff_mul_le hchunk, List.length_append]
      omega
    omega
  -- the chunks from the `n`-th on that are accepted, of which there is at least the `n`-th
  have hsplit : List.range ((u ++ v).length / chunk + 2) =
      List.range n ++ List.range' n ((u ++ v).length / chunk + 2 - n) := by
    have happend := @List.range'_append_1 0 n ((u ++ v).length / chunk + 2 - n)
    rw [Nat.zero_add, Nat.add_sub_cancel' (Nat.le_of_lt hn)] at happend
    rw [List.range_eq_range', List.range_eq_range', happend]
  have haccepted : ∀ m, n ≤ m → ∀ t, ((cp.decoder ((u ++ v).take (m * chunk))).map Prod.fst) =
      some t → s <+: t := by
    intro m hm t ht
    have hle : u.length ≤ m * chunk := hlen ▸ Nat.mul_le_mul_right chunk hm
    rw [List.take_append, List.take_of_length_le hle, decoder_append cp _ _ h, Option.map_map] at ht
    obtain ⟨r, _, rfl⟩ := Option.map_eq_some_iff.mp ht
    exact List.prefix_append s r.1
  have hfirst : (cp.decoder ((u ++ v).take (n * chunk))).map Prod.fst = some s := by
    rw [← hlen, List.take_left]
    have hself := decoder_append cp u [] h
    rw [List.append_nil] at hself
    rw [hself]
    simp [Cp932.decoder]
  rw [decodedChunks, hsplit, List.filterMap_append, List.getLast?_append]
  cases hlast : ((List.range' n ((u ++ v).length / chunk + 2 - n)).filterMap fun m =>
      (cp.decoder ((u ++ v).take (m * chunk))).map Prod.fst).getLast? with
  | none =>
    rw [List.getLast?_eq_none_iff, List.filterMap_eq_nil_iff] at hlast
    have hnone := hlast n (List.mem_range'_1.mpr ⟨Nat.le_refl n, by omega⟩)
    rw [hfirst] at hnone
    cases hnone
  | some t =>
    obtain ⟨m, hm, ht⟩ := List.mem_filterMap.mp (List.mem_of_getLast? hlast)
    exact haccepted m (List.mem_range'_1.mp hm).1 t ht

/-! ## Lines -/

theorem readlines_flatten (t : Text) : (readlines t).flatten = t := by
  fun_induction readlines t <;> simp_all

theorem completeLines_length_le (t : Text) : (completeLines t).length ≤ t.length := by
  rw [completeLines]
  split
  · exact Nat.le_refl _
  · obtain ⟨last, hlast⟩ := List.dropLast_prefix (readlines t)
    have hsplit : t = (readlines t).dropLast.flatten ++ last.flatten := by
      rw [← List.flatten_append, hlast, readlines_flatten]
    have hlen := congrArg List.length hsplit
    rw [List.length_append] at hlen
    omega

theorem readlines_line {line : Text} (h : ∀ c ∈ line, isNewline c = false) (t : Text) :
    readlines (line ++ '\n' :: t) = (line ++ ['\n']) :: readlines t := by
  induction line with
  | nil => simp [readlines]
  | cons c line ih =>
    have hc := h c List.mem_cons_self
    have hrest := ih fun d hd => h d (List.mem_cons_of_mem c hd)
    simp only [isNewline, Bool.or_eq_false_iff, decide_eq_false_iff_not] at hc
    rw [List.cons_append, readlines.eq_3 _ _ (fun _ hcr => absurd hcr hc.2), hrest]
    simp [hc]

/-- A file that is not longer than the limit has no field over it, however far it is decoded. -/
theorem feed_decodedChunks {decoder : Decoder}
    (hdecoder : ∀ {p : Bytes} {t : Text} {rest : Bytes}, decoder p = some (t, rest) →
      t.length ≤ p.length) {limit : Nat} (chunk : Nat) {bytes : Bytes}
    (hlen : bytes.length ≤ limit) :
    (Reader.start.feed limit
      (completeLines (decodedChunks decoder chunk bytes))).isSome = true := by
  have hlines := completeLines_length_le (decodedChunks decoder chunk bytes)
  have hchunks : (decodedChunks decoder chunk bytes).length ≤ bytes.length := by
    rcases decodedChunks_eq decoder chunk bytes with hnil | ⟨n, rest, hsome⟩
    · rw [hnil]
      exact Nat.zero_le _
    · exact Nat.le_trans (hdecoder hsome) (List.length_take_le' n bytes)
  apply feed_isSome
  change 0 + _ ≤ limit
  omega

/-- A line that is followed by something is complete. -/
theorem completeLines_line {line : Text} (h : ∀ c ∈ line, isNewline c = false) (t : Text) :
    line ++ ['\n'] <+: completeLines (line ++ '\n' :: t) := by
  rw [completeLines]
  split
  · exact ⟨t, by simp⟩
  · rw [readlines_line h]
    cases hlines : readlines t with
    | nil =>
      have hnil : t = [] := by
        rw [← readlines_flatten t, hlines]
        rfl
      simp_all
    | cons first lines =>
      rw [List.dropLast_cons_of_ne_nil (List.cons_ne_nil first lines), List.flatten_cons]
      exact List.prefix_append _ _

/-- A first line that the reader cannot take is not taken, whatever follows. -/
theorem feed_firstLine_none {limit : Nat} {r : Reader} {line : Text}
    (h : ∀ c ∈ line, isNewline c = false) (hfeed : r.feed limit line = none) (t : Text) :
    r.feed limit (completeLines (line ++ '\n' :: t)) = none := by
  obtain ⟨rest, hrest⟩ := completeLines_line h t
  rw [← hrest, List.append_assoc, feed_append, hfeed, Option.bind_none]

end GdalFull.Lib
