import Mathlib.Data.List.DropRight

/-!
# Text operations of Python

Strings are lists of characters. The operations follow the documentation of `str` and of
text files that are opened with `newline=""`.
-/

namespace GdalFull.Lib

abbrev Text := List Char

/-- `c.isspace()`. -/
def isSpace (c : Char) : Bool :=
  let n := c.toNat
  (9 ≤ n && n ≤ 13) || (28 ≤ n && n ≤ 32) || n == 0x85 || n == 0xA0 || n == 0x1680 ||
    (0x2000 ≤ n && n ≤ 0x200A) || n == 0x2028 || n == 0x2029 || n == 0x202F || n == 0x205F ||
    n == 0x3000

/-- `s.strip()`. -/
def strip (s : Text) : Text :=
  (s.dropWhile isSpace).rdropWhile isSpace

/-- `f.readlines()`: a line ends with `\n`, `\r` or `\r\n`, which is kept. -/
def readlines : Text → List Text
  | [] => []
  | '\r' :: '\n' :: rest => ['\r', '\n'] :: readlines rest
  | c :: rest =>
    if c = '\n' ∨ c = '\r' then [c] :: readlines rest
    else
      match readlines rest with
      | [] => [[c]]
      | line :: lines => (c :: line) :: lines

/-- The characters at which `splitlines` ends a line. -/
def lineBreak (c : Char) : Bool :=
  let n := c.toNat
  (10 ≤ n && n ≤ 13) || (28 ≤ n && n ≤ 30) || n == 0x85 || n == 0x2028 || n == 0x2029

/-- `s.splitlines()`. -/
def splitlines : Text → List Text
  | [] => []
  | '\r' :: '\n' :: rest => [] :: splitlines rest
  | c :: rest =>
    if lineBreak c then [] :: splitlines rest
    else
      match splitlines rest with
      | [] => [[c]]
      | line :: lines => (c :: line) :: lines

theorem splitlines_cons_plain {c : Char} (h : lineBreak c = false) {rest line : Text}
    {lines : List Text} (hrest : splitlines rest = line :: lines) :
    splitlines (c :: rest) = (c :: line) :: lines := by
  have hr : c ≠ '\r' := by
    rintro rfl
    exact absurd h (by decide)
  rw [splitlines.eq_3 _ _ (fun _ hcr => absurd hcr hr), h, hrest]
  rfl

theorem splitlines_cons_break {c : Char} (h : lineBreak c = true) (rest : Text) :
    ∃ lines, splitlines (c :: rest) = [] :: lines := by
  by_cases hcrlf : ∃ r, c = '\r' ∧ rest = '\n' :: r
  · obtain ⟨r, rfl, rfl⟩ := hcrlf
    exact ⟨_, rfl⟩
  · have hne : ∀ r, c = '\r' → rest = '\n' :: r → False := fun r hc hr => hcrlf ⟨r, hc, hr⟩
    rw [splitlines.eq_3 _ _ hne, if_pos h]
    exact ⟨_, rfl⟩

theorem splitlines_append_plain {a : Text} (h : ∀ c ∈ a, lineBreak c = false) {rest line : Text}
    {lines : List Text} (hrest : splitlines rest = line :: lines) :
    splitlines (a ++ rest) = (a ++ line) :: lines := by
  induction a with
  | nil => exact hrest
  | cons c a ih =>
    exact splitlines_cons_plain (h c List.mem_cons_self)
      (ih fun d hd => h d (List.mem_cons_of_mem c hd))

theorem splitlines_ne_nil {s : Text} (h : s ≠ []) : splitlines s ≠ [] := by
  fun_cases splitlines s <;> simp_all

/-- Text after a line break is split on its own. The break ends the last line before it, or it
follows the end of that line and is an empty line itself. -/
theorem splitlines_break {c : Char} (hc : lineBreak c = true) (s : Text) {t : Text}
    (ht : c = '\r' → t.head? ≠ some '\n') :
    splitlines (s ++ c :: t) = splitlines s ++ splitlines t ∨
      splitlines (s ++ c :: t) = splitlines s ++ [] :: splitlines t := by
  fun_induction splitlines s with
  | case1 =>
    have hne : ∀ r, c = '\r' → t = '\n' :: r → False := fun r hr ht' => ht hr (by rw [ht']; rfl)
    right
    rw [List.nil_append, splitlines.eq_3 _ _ hne, if_pos hc]
    rfl
  | case2 rest ih => exact ih.imp (congrArg ([] :: ·)) (congrArg ([] :: ·))
  | case3 d rest hne hd ih =>
    by_cases hcr : d = '\r' ∧ rest ++ c :: t = '\n' :: t ∧ rest = []
    · obtain ⟨rfl, hnew, rfl⟩ := hcr
      obtain ⟨rfl, _⟩ := List.cons.inj hnew
      exact Or.inl rfl
    · have hstart : ∀ r, d = '\r' → rest ++ c :: t = '\n' :: r → False := by
        intro r hr hrest
        cases rest with
        | nil =>
          obtain ⟨rfl, rfl⟩ := List.cons.inj hrest
          exact hcr ⟨hr, rfl, rfl⟩
        | cons e rest =>
          cases (List.cons.inj hrest).1
          exact hne rest hr rfl
      rw [List.cons_append, splitlines.eq_3 _ _ hstart, if_pos hd]
      exact ih.imp (congrArg ([] :: ·)) (congrArg ([] :: ·))
  | case4 d rest hne hd hnil ih =>
    have hrest : rest = [] := by_contra fun h => splitlines_ne_nil h hnil
    have hplain : lineBreak d = false := Bool.eq_false_iff.mpr hd
    have hfirst : splitlines (c :: t) = [] :: splitlines t := by
      rw [splitlines.eq_3 _ _ fun r hr ht' => ht hr (by rw [ht']; rfl), if_pos hc]
    subst hrest
    exact Or.inl (splitlines_cons_plain hplain hfirst)
  | case5 d rest hne hd line lines hcons ih =>
    have hplain : lineBreak d = false := Bool.eq_false_iff.mpr hd
    rw [hcons] at ih
    exact ih.imp (splitlines_cons_plain hplain) (splitlines_cons_plain hplain)

theorem notMem_splitlines (s : Text) : ∀ line ∈ splitlines s, '\n' ∉ line := by
  fun_induction splitlines s with
  | case1 => simp
  | case2 rest ih => simpa using ih
  | case3 c rest hne hc ih => simpa using ih
  | case4 c rest hne hc hnil ih =>
    have hnew : '\n' ≠ c := fun h => hc (h ▸ by decide)
    simpa using hnew
  | case5 c rest hne hc line lines hcons ih =>
    have hnew : '\n' ≠ c := fun h => hc (h ▸ by decide)
    rw [hcons] at ih
    simpa [hnew] using ih

theorem prefix_of_splitlines {s line : Text} {lines : List Text}
    (h : splitlines s = line :: lines) : line <+: s := by
  fun_induction splitlines s generalizing line lines with
  | case1 => cases h
  | case2 rest ih =>
    cases h
    exact List.nil_prefix
  | case3 c rest hne hc ih =>
    cases h
    exact List.nil_prefix
  | case4 c rest hne hc hnil ih =>
    cases h
    exact List.prefix_append [c] rest
  | case5 c rest hne hc line' lines' hcons ih =>
    cases h
    exact List.cons_prefix_cons.mpr ⟨rfl, ih hcons⟩

theorem infix_of_mem_splitlines {s line : Text} (h : line ∈ splitlines s) : line <:+: s := by
  fun_induction splitlines s with
  | case1 => cases h
  | case2 rest ih =>
    rcases List.mem_cons.mp h with rfl | h
    · exact List.nil_infix
    · exact (ih h).trans (List.suffix_append ['\r', '\n'] rest).isInfix
  | case3 c rest hne hc ih =>
    rcases List.mem_cons.mp h with rfl | h
    · exact List.nil_infix
    · exact (ih h).trans (List.suffix_cons c rest).isInfix
  | case4 c rest hne hc hnil ih =>
    rw [List.mem_singleton.mp h]
    exact (List.prefix_append [c] rest).isInfix
  | case5 c rest hne hc line' lines hcons ih =>
    rcases List.mem_cons.mp h with rfl | h
    · exact (List.cons_prefix_cons.mpr ⟨rfl, prefix_of_splitlines hcons⟩).isInfix
    · rw [hcons] at ih
      exact (ih (List.mem_cons_of_mem _ h)).trans (List.suffix_cons c rest).isInfix

/-- What is dropped ends where the test fails. -/
theorem eq_false_of_mem_dropWhile {p : Char → Bool} {s : Text} :
    ∀ c ∈ (s.dropWhile p).head?, p c = false := by
  intro c hc
  have hhead := List.head?_dropWhile_not p s
  rwa [Option.mem_def.mp hc] at hhead

theorem strip_dropWhile (s : Text) : strip (s.dropWhile isSpace) = strip s := by
  rw [strip, List.dropWhile_idempotent, strip]

theorem strip_strip (s : Text) : strip (strip s) = strip s := by
  have hstart : (strip s).dropWhile isSpace = strip s := by
    rw [List.dropWhile_eq_self_iff]
    intro hpos
    have hprefix : strip s <+: s.dropWhile isSpace := List.rdropWhile_prefix isSpace _
    have hhead : (s.dropWhile isSpace).head? = some (strip s)[0] := by
      obtain ⟨t, ht⟩ := hprefix
      rw [← ht, List.head?_append_of_ne_nil _ (List.ne_nil_of_length_pos hpos),
        List.head?_eq_getElem?, List.getElem?_eq_getElem hpos]
    exact Bool.eq_false_iff.mp (eq_false_of_mem_dropWhile _ hhead)
  rw [strip, hstart]
  exact List.rdropWhile_idempotent isSpace _

/-! ## Numerals -/

/-- The zeros of the decimal digits of Unicode; each is followed by the digits 1 to 9. -/
def decimalZeros : List Nat :=
  [0x30, 0x660, 0x6F0, 0x7C0, 0x966, 0x9E6, 0xA66, 0xAE6, 0xB66, 0xBE6, 0xC66, 0xCE6, 0xD66,
    0xDE6, 0xE50, 0xED0, 0xF20, 0x1040, 0x1090, 0x17E0, 0x1810, 0x1946, 0x19D0, 0x1A80, 0x1A90,
    0x1B50, 0x1BB0, 0x1C40, 0x1C50, 0xA620, 0xA8D0, 0xA900, 0xA9D0, 0xA9F0, 0xAA50, 0xABF0,
    0xFF10, 0x104A0, 0x10D30, 0x11066, 0x110F0, 0x11136, 0x111D0, 0x112F0, 0x11450, 0x114D0,
    0x11650, 0x116C0, 0x11730, 0x118E0, 0x11950, 0x11C50, 0x11D50, 0x11DA0, 0x16A60, 0x16AC0,
    0x16B50, 0x1D7CE, 0x1D7D8, 0x1D7E2, 0x1D7EC, 0x1D7F6, 0x1E140, 0x1E2F0, 0x1E950, 0x1FBF0]

/-- The value of a decimal digit. -/
def decimal (c : Char) : Option Nat :=
  decimalZeros.findSome? fun z =>
    if z ≤ c.toNat ∧ c.toNat < z + 10 then some (c.toNat - z) else none

/-- The digits of Unicode that are no decimal digits, such as superscripts. -/
def otherDigits : List (Nat × Nat) :=
  [(0xB2, 0xB3), (0xB9, 0xB9), (0x1369, 0x1371), (0x19DA, 0x19DA), (0x2070, 0x2070),
    (0x2074, 0x2079), (0x2080, 0x2089), (0x2460, 0x2468), (0x2474, 0x247C), (0x2488, 0x2490),
    (0x24EA, 0x24EA), (0x24F5, 0x24FD), (0x24FF, 0x24FF), (0x2776, 0x277E), (0x2780, 0x2788),
    (0x278A, 0x2792), (0x10A40, 0x10A43), (0x10E60, 0x10E68), (0x11052, 0x1105A),
    (0x1F100, 0x1F10A)]

/-- `s.isdigit()`. -/
def isDigits (s : Text) : Bool :=
  !s.isEmpty && s.all fun c =>
    (decimal c).isSome || otherDigits.any fun r => r.1 ≤ c.toNat && c.toNat ≤ r.2

/-- Digits with single underscores between them. -/
def intDigits : Text → Option (List Nat)
  | [] => none
  | [c] => (decimal c).map ([·])
  | c :: '_' :: rest => (decimal c).bind fun d => (intDigits rest).map (d :: ·)
  | c :: rest => (decimal c).bind fun d => (intDigits rest).map (d :: ·)

def ofDigits (ds : List Nat) : Nat :=
  ds.foldl (fun n d => 10 * n + d) 0

/-- `sys.get_int_max_str_digits()`. -/
def intMaxStrDigits : Nat := 4300

/-- The number that the digits of a numeral stand for. -/
def intValue (s : Text) : Option Nat :=
  (intDigits s).bind fun ds => if ds.length ≤ intMaxStrDigits then some (ofDigits ds) else none

/-- The blanks that `int(s)` passes over at both ends. In an ASCII string these are the blanks of
C, without U+001C to U+001F. -/
def intBlank (s : Text) (c : Char) : Bool :=
  isSpace c && !(s.all (·.toNat < 128) && 28 ≤ c.toNat && c.toNat ≤ 31)

def intStrip (s : Text) : Text :=
  (s.dropWhile (intBlank s)).rdropWhile (intBlank s)

/-- `int(s)`; `none` is a `ValueError`. -/
def pyInt (s : Text) : Option Int :=
  match intStrip s with
  | '-' :: rest => (intValue rest).map fun n => -(n : Int)
  | '+' :: rest => (intValue rest).map fun n => (n : Int)
  | rest => (intValue rest).map fun n => (n : Int)

/-! ## The digits at the start of a text -/

/-- The decimal digits with which a text begins after its blanks. -/
def leadingDigits (s : Text) : Text :=
  (s.dropWhile isSpace).takeWhile fun c => (decimal c).isSome

/-- The blanks by number. -/
def spaceCodes : List Nat :=
  List.range' 9 5 ++ List.range' 28 5 ++ [0x85, 0xA0, 0x1680] ++ List.range' 0x2000 11 ++
    [0x2028, 0x2029, 0x202F, 0x205F, 0x3000]

theorem mem_spaceCodes {c : Char} (h : isSpace c = true) : c.toNat ∈ spaceCodes := by
  simp only [isSpace, Bool.or_eq_true, Bool.and_eq_true, decide_eq_true_eq, beq_iff_eq] at h
  simp only [spaceCodes, List.mem_append, List.mem_range'_1, List.mem_cons, List.not_mem_nil]
  omega

theorem decimal_of_isSpace {c : Char} (h : isSpace c = true) : decimal c = none := by
  have hcodes : ∀ n ∈ spaceCodes, (decimalZeros.findSome? fun z =>
      if z ≤ n ∧ n < z + 10 then some (n - z) else none) = none := by decide +kernel
  exact hcodes c.toNat (mem_spaceCodes h)

theorem isSpace_of_decimal {c : Char} (h : (decimal c).isSome = true) : isSpace c = false := by
  by_contra hspace
  rw [decimal_of_isSpace (Bool.not_eq_false _ |>.mp hspace)] at h
  cases h

theorem intDigits_char {s : Text} {ds : List Nat} (h : intDigits s = some ds) :
    ∀ c ∈ s, c = '_' ∨ (decimal c).isSome = true := by
  fun_induction intDigits s generalizing ds with
  | case1 => cases h
  | case2 c =>
    obtain ⟨d, hd, _⟩ := Option.map_eq_some_iff.mp h
    simp [hd]
  | case3 c rest ih =>
    obtain ⟨d, hd, hrest⟩ := Option.bind_eq_some_iff.mp h
    obtain ⟨ds, hds, _⟩ := Option.map_eq_some_iff.mp hrest
    simpa [hd] using ih hds
  | case4 c rest _ _ ih =>
    obtain ⟨d, hd, hrest⟩ := Option.bind_eq_some_iff.mp h
    obtain ⟨ds, hds, _⟩ := Option.map_eq_some_iff.mp hrest
    simpa [hd] using ih hds

theorem intValue_char {s : Text} {n : Nat} (h : intValue s = some n) :
    ∀ c ∈ s, c = '_' ∨ (decimal c).isSome = true := by
  obtain ⟨ds, hds, _⟩ := Option.bind_eq_some_iff.mp h
  exact intDigits_char hds

/-- A text without blanks at its ends is read as it is. -/
theorem intStrip_of_strip {s : Text} (h : strip s = s) : intStrip s = s := by
  have hblank : ∀ c, isSpace c = false → intBlank s c = false := by
    intro c hc
    rw [intBlank, hc, Bool.false_and]
  have hstart : s.dropWhile isSpace = s := by
    apply (List.dropWhile_suffix isSpace).eq_of_length_le
    have hlen := (List.rdropWhile_prefix isSpace (s.dropWhile isSpace)).length_le
    rwa [show (s.dropWhile isSpace).rdropWhile isSpace = s from h] at hlen
  have hend : s.rdropWhile isSpace = s := by rwa [strip, hstart] at h
  have hdrop : s.dropWhile (intBlank s) = s := by
    rw [List.dropWhile_eq_self_iff] at hstart ⊢
    intro hpos
    exact Bool.eq_false_iff.mp (hblank _ (Bool.eq_false_iff.mpr (hstart hpos)))
  rw [intStrip, hdrop]
  rw [List.rdropWhile_eq_self_iff] at hend ⊢
  intro hne
  exact Bool.eq_false_iff.mp (hblank _ (Bool.eq_false_iff.mpr (hend hne)))

theorem pyInt_char {s : Text} {z : Int} (h : pyInt s = some z) :
    ∀ c ∈ intStrip s, c ∈ ['-', '+', '_'] ∨ (decimal c).isSome = true := by
  have hnumeral : ∀ {rest}, (intValue rest).isSome = true →
      ∀ c ∈ rest, c ∈ ['-', '+', '_'] ∨ (decimal c).isSome = true := by
    intro rest hrest c hc
    obtain ⟨n, hn⟩ := Option.isSome_iff_exists.mp hrest
    refine (intValue_char hn c hc).imp_left ?_
    rintro rfl
    decide
  have hsigned : ∀ {sign rest}, sign ∈ ['-', '+', '_'] → (intValue rest).isSome = true →
      ∀ c ∈ sign :: rest, c ∈ ['-', '+', '_'] ∨ (decimal c).isSome = true := by
    intro sign rest hsign hrest
    exact List.forall_mem_cons.mpr ⟨Or.inl hsign, hnumeral hrest⟩
  have hsome : (pyInt s).isSome = true := by rw [h, Option.isSome_some]
  rw [pyInt] at hsome
  split at hsome
  · rename_i rest hs
    rw [hs]
    refine hsigned (by decide) ?_
    cases hn : intValue rest <;> simp [hn] at hsome ⊢
  · rename_i rest hs
    rw [hs]
    refine hsigned (by decide) ?_
    cases hn : intValue rest <;> simp [hn] at hsome ⊢
  · refine hnumeral ?_
    cases hn : intValue (intStrip s) <;> simp [hn] at hsome ⊢

/-- Digits that `int` reads are decimal digits. -/
theorem decimal_of_pyInt {s : Text} {z : Int} (hdigits : isDigits (strip s) = true)
    (h : pyInt (strip s) = some z) : ∀ c ∈ strip s, (decimal c).isSome = true := by
  have hsigns : ['-', '+', '_'].all (fun c => !isDigits [c]) = true := by decide
  intro c hc
  have hchar := pyInt_char h c
  rw [intStrip_of_strip (strip_strip s)] at hchar
  refine (hchar hc).resolve_left fun hsign => ?_
  have hno := List.all_eq_true.mp hsigns c hsign
  have hall := List.all_eq_true.mp ((Bool.and_eq_true _ _).mp hdigits).2 c hc
  simp [isDigits, hall] at hno

theorem isDigits_of_decimal {s : Text} (hne : s ≠ [])
    (h : ∀ c ∈ s, (decimal c).isSome = true) : isDigits s = true := by
  rw [isDigits, Bool.and_eq_true, List.all_eq_true]
  refine ⟨by simpa using hne, ?_⟩
  intro c hc
  rw [h c hc, Bool.true_or]

/-- Decimal digits, and not more than `int` takes. -/
def IntReads (s : Text) : Prop :=
  (∀ c ∈ s, (decimal c).isSome = true) ∧ s.length ≤ intMaxStrDigits

theorem isSpace_of_mem_digits {s : Text} (h : isDigits s = true) : ∀ c ∈ s, isSpace c = false := by
  have hcodes : ∀ n ∈ spaceCodes, (otherDigits.any fun r => r.1 ≤ n && n ≤ r.2) = false := by
    decide +kernel
  intro c hc
  have hdigit := List.all_eq_true.mp ((Bool.and_eq_true _ _).mp h).2 c hc
  by_contra hspace
  rw [Bool.not_eq_false] at hspace
  rw [decimal_of_isSpace hspace, Option.isSome_none, Bool.false_or,
    hcodes c.toNat (mem_spaceCodes hspace)] at hdigit
  cases hdigit

theorem strip_of_isDigits {s : Text} (h : isDigits s = true) : strip s = s := by
  have hspace := isSpace_of_mem_digits h
  have hleft : s.dropWhile isSpace = s := by
    rw [List.dropWhile_eq_self_iff]
    intro hpos
    exact Bool.eq_false_iff.mp (hspace _ (List.getElem_mem hpos))
  rw [strip, hleft, List.rdropWhile_eq_self_iff]
  intro hne
  exact Bool.eq_false_iff.mp (hspace _ (List.getLast_mem hne))

theorem intDigits_of_decimal {s : Text} (hne : s ≠ [])
    (h : ∀ c ∈ s, (decimal c).isSome = true) :
    ∃ ds, intDigits s = some ds ∧ ds.length = s.length := by
  fun_induction intDigits s with
  | case1 => exact absurd rfl hne
  | case2 c =>
    obtain ⟨d, hd⟩ := Option.isSome_iff_exists.mp (h c List.mem_cons_self)
    exact ⟨[d], by rw [hd, Option.map_some], rfl⟩
  | case3 c rest ih =>
    have hunder := h '_' (List.mem_cons_of_mem c List.mem_cons_self)
    exact absurd hunder (by decide)
  | case4 c rest hrest hunder ih =>
    obtain ⟨hc, hall⟩ := List.forall_mem_cons.mp h
    obtain ⟨d, hd⟩ := Option.isSome_iff_exists.mp hc
    obtain ⟨ds, hds, hlen⟩ := ih (by rintro rfl; exact hrest rfl) hall
    exact ⟨d :: ds, by rw [hd, Option.bind_some, hds, Option.map_some], congrArg (· + 1) hlen⟩

/-- Of the texts that `isdigit` accepts, `int` reads those of decimal digits that are not too
long. -/
theorem pyInt_isSome_iff {s : Text} (h : isDigits s = true) :
    (pyInt s).isSome = true ↔ IntReads s := by
  have hstrip := strip_of_isDigits h
  have hne : s ≠ [] := by
    rintro rfl
    cases h
  have hvalue : (∀ c ∈ s, (decimal c).isSome = true) →
      ((pyInt s).isSome = true ↔ s.length ≤ intMaxStrDigits) := by
    intro hall
    obtain ⟨ds, hds, hlen⟩ := intDigits_of_decimal hne hall
    have hsign : ∀ {c rest}, s = c :: rest → (decimal c).isSome = true := by
      rintro c rest rfl
      exact hall c List.mem_cons_self
    have hint : pyInt s = (intValue s).map fun n => (n : Int) := by
      rw [pyInt, intStrip_of_strip hstrip]
      split
      · exact absurd (hsign rfl) (by decide)
      · exact absurd (hsign rfl) (by decide)
      · rfl
    rw [hint, Option.isSome_map, intValue, hds, Option.bind_some, hlen]
    by_cases hle : s.length ≤ intMaxStrDigits <;> simp [hle]
  constructor
  · intro hsome
    obtain ⟨z, hz⟩ := Option.isSome_iff_exists.mp hsome
    have hall := @decimal_of_pyInt s z (by rw [hstrip]; exact h) (by rw [hstrip]; exact hz)
    rw [hstrip] at hall
    exact ⟨hall, (hvalue hall).mp hsome⟩
  · rintro ⟨hall, hle⟩
    exact (hvalue hall).mpr hle

end GdalFull.Lib
