import GdalFull.Lib.PyStr
import Mathlib.Data.List.Forall2
import Mathlib.Tactic.Common

/-!
# CSV in the excel dialect

`csvReader` is the state machine of Python's `csv.reader` over a file that is opened with
`newline=""`, and `csvWrite` is `csv.writer`. A field that gets longer than the field limit is
an error.

* `csvReader_csvWrite`: what is written is read back, so that `csvWrite` is injective.
* `csvReader_sameShape`: two texts with the same separators, quotes and line ends, and with
  related text between them, are read to related records.
-/

namespace GdalFull.Lib

inductive CsvState where
  | startRecord
  | startField
  | inField
  | inQuoted
  | quoteInQuoted
  | afterCr
  deriving DecidableEq

structure Reader where
  state : CsvState
  field : Text
  fields : List Text
  records : List (List Text)

def Reader.start : Reader := ⟨.startRecord, [], [], []⟩

/-- `parse_add_char`. -/
def Reader.add (limit : Nat) (r : Reader) (state : CsvState) (c : Char) : Option Reader :=
  if r.field.length < limit then some { r with state, field := r.field ++ [c] } else none

/-- `parse_save_field` at a delimiter. -/
def Reader.save (r : Reader) : Reader :=
  { r with state := .startField, field := [], fields := r.fields ++ [r.field] }

/-- The end of a record at `\n` or `\r`. The line end `\r\n` is one. -/
def Reader.endRecord (r : Reader) (c : Char) (record : List Text) : Reader :=
  { state := if c = '\r' then .afterCr else .startRecord
    field := []
    fields := []
    records := r.records ++ [record] }

def isNewline (c : Char) : Bool := c = '\n' || c = '\r'

/-- A character where a field is expected. -/
def Reader.fieldStep (limit : Nat) (r : Reader) (c : Char) : Option Reader :=
  if isNewline c then some (r.endRecord c (r.fields ++ [r.field]))
  else if c = '"' then some { r with state := .inQuoted }
  else if c = ',' then some r.save
  else r.add limit .inField c

/-- A character where a record is expected: an empty line is a record without fields. -/
def Reader.recordStep (limit : Nat) (r : Reader) (c : Char) : Option Reader :=
  if isNewline c then some (r.endRecord c []) else r.fieldStep limit c

/-- `parse_process_char`. -/
def Reader.step (limit : Nat) (r : Reader) (c : Char) : Option Reader :=
  match r.state with
  | .startRecord => r.recordStep limit c
  | .startField => r.fieldStep limit c
  | .inField =>
    if isNewline c then some (r.endRecord c (r.fields ++ [r.field]))
    else if c = ',' then some r.save
    else r.add limit .inField c
  | .inQuoted =>
    if c = '"' then some { r with state := .quoteInQuoted } else r.add limit .inQuoted c
  | .quoteInQuoted =>
    if c = '"' then r.add limit .inQuoted c
    else if c = ',' then some r.save
    else if isNewline c then some (r.endRecord c (r.fields ++ [r.field]))
    else r.add limit .inField c
  | .afterCr => if c = '\n' then some { r with state := .startRecord } else r.recordStep limit c

def Reader.feed (limit : Nat) : Reader → Text → Option Reader
  | r, [] => some r
  | r, c :: text => (r.step limit c).bind fun r => r.feed limit text

/-- The end of the file. -/
def Reader.finish (r : Reader) : List (List Text) :=
  match r.state with
  | .startRecord => r.records
  | .afterCr => r.records
  | _ => r.records ++ [r.fields ++ [r.field]]

/-- `list(csv.reader(f))`; `none` is a `csv.Error`. -/
def csvReader (limit : Nat) (text : Text) : Option (List (List Text)) :=
  (Reader.start.feed limit text).map Reader.finish

/-- The characters that the reader tells apart. -/
def isSeparator (c : Char) : Bool := c = ',' || c = '"' || isNewline c

theorem feed_append (limit : Nat) (r : Reader) (s t : Text) :
    r.feed limit (s ++ t) = (r.feed limit s).bind fun r => r.feed limit t := by
  induction s generalizing r with
  | nil => rfl
  | cons c s ih =>
    rw [List.cons_append, Reader.feed, Reader.feed, Option.bind_assoc]
    congr 1
    funext r'
    exact ih r'

/-! ## Text between separators -/

/-- The state after text without separators. -/
def CsvState.plain : CsvState → CsvState
  | .inQuoted => .inQuoted
  | _ => .inField

theorem step_plain {limit : Nat} {r : Reader} {c : Char} (hc : isSeparator c = false) :
    r.step limit c = r.add limit r.state.plain c := by
  simp only [isSeparator, Bool.or_eq_false_iff, decide_eq_false_iff_not] at hc
  obtain ⟨⟨hcomma, hquote⟩, hnl⟩ := hc
  have hlf : c ≠ '\n' := by
    rintro rfl
    cases hnl
  unfold Reader.step Reader.recordStep Reader.fieldStep
  cases r.state <;> simp [hcomma, hquote, hnl, hlf, CsvState.plain]

/-- The reader after a text without separators. -/
def Reader.plain (r : Reader) : Text → Reader
  | [] => r
  | c :: s => { r with state := r.state.plain, field := r.field ++ c :: s }

theorem Reader.plain_cons (r : Reader) (c : Char) (s : Text) :
    Reader.plain { r with state := r.state.plain, field := r.field ++ [c] } s =
      r.plain (c :: s) := by
  cases s with
  | nil => rfl
  | cons d s =>
    have hidem : r.state.plain.plain = r.state.plain := by cases r.state <;> rfl
    simp [Reader.plain, hidem]

theorem feed_plain {limit : Nat} {r r' : Reader} {s : Text}
    (hs : ∀ c ∈ s, isSeparator c = false) (h : r.feed limit s = some r') : r' = r.plain s := by
  induction s generalizing r with
  | nil =>
    cases h
    rfl
  | cons c s ih =>
    rw [Reader.feed, step_plain (hs c List.mem_cons_self), Reader.add] at h
    split at h
    · have htail := ih (fun x hx => hs x (List.mem_cons_of_mem _ hx)) h
      rw [htail, Reader.plain_cons]
    · cases h

/-- A field that stays within the limit is read. -/
theorem feed_plain_some (limit : Nat) {r : Reader} {s : Text}
    (hs : ∀ c ∈ s, isSeparator c = false) (hlen : r.field.length + s.length ≤ limit) :
    r.feed limit s = some (r.plain s) := by
  induction s generalizing r with
  | nil => rfl
  | cons c s ih =>
    rw [List.length_cons] at hlen
    rw [Reader.feed, step_plain (hs c List.mem_cons_self), Reader.add, if_pos (by omega),
      Option.bind_some, ih (fun x hx => hs x (List.mem_cons_of_mem _ hx)), Reader.plain_cons]
    · simp only [List.length_append, List.length_singleton]
      omega

/-! ## The field limit -/

/-- No field is over the limit. -/
structure Reader.Within (limit : Nat) (r : Reader) : Prop where
  field : r.field.length ≤ limit
  fields : ∀ f ∈ r.fields, f.length ≤ limit
  records : ∀ record ∈ r.records, ∀ f ∈ record, f.length ≤ limit

theorem Reader.Within.record {limit : Nat} {r : Reader} (h : r.Within limit) :
    ∀ f ∈ r.fields ++ [r.field], f.length ≤ limit :=
  List.forall_mem_append.mpr ⟨h.fields, List.forall_mem_singleton.mpr h.field⟩

/-- What a character does: it is added to the field, ends the field, ends the record, or only
changes the state. -/
theorem step_cases {limit : Nat} {r r' : Reader} {c : Char} (h : r.step limit c = some r') :
    (∃ state, r.add limit state c = some r') ∨ r' = r.save ∨
      (∃ record, (record = [] ∨ record = r.fields ++ [r.field]) ∧ r' = r.endRecord c record) ∨
      ∃ state, r' = { r with state := state } := by
  unfold Reader.step Reader.recordStep Reader.fieldStep at h
  cases hstate : r.state <;> rw [hstate] at h <;> dsimp only at h <;> split_ifs at h <;>
    first
    | exact Or.inl ⟨_, h⟩
    | cases h
      first
      | exact Or.inr (Or.inl rfl)
      | exact Or.inr (Or.inr (Or.inl ⟨_, Or.inl rfl, rfl⟩))
      | exact Or.inr (Or.inr (Or.inl ⟨_, Or.inr rfl, rfl⟩))
      | exact Or.inr (Or.inr (Or.inr ⟨_, rfl⟩))

theorem Reader.Within.step {limit : Nat} {r r' : Reader} (h : r.Within limit) {c : Char}
    (hstep : r.step limit c = some r') : r'.Within limit := by
  have hnil : ∀ f ∈ ([] : List Text), f.length ≤ limit := fun f hf => absurd hf List.not_mem_nil
  rcases step_cases hstep with ⟨state, hadd⟩ | rfl | ⟨record, hrecord, rfl⟩ | ⟨state, rfl⟩
  · obtain ⟨hlt, hr'⟩ := Option.ite_none_right_eq_some.mp hadd
    cases hr'
    refine ⟨?_, h.fields, h.records⟩
    rw [List.length_append, List.length_singleton]
    omega
  · exact ⟨Nat.zero_le _, h.record, h.records⟩
  · have hlen : ∀ f ∈ record, f.length ≤ limit := by
      rcases hrecord with rfl | rfl
      · exact hnil
      · exact h.record
    refine ⟨Nat.zero_le _, hnil, ?_⟩
    exact List.forall_mem_append.mpr ⟨h.records, List.forall_mem_singleton.mpr hlen⟩
  · exact ⟨h.field, h.fields, h.records⟩

theorem Reader.Within.feed {limit : Nat} {r r' : Reader} (h : r.Within limit) {text : Text}
    (hfeed : r.feed limit text = some r') : r'.Within limit := by
  induction text generalizing r with
  | nil =>
    cases hfeed
    exact h
  | cons c text ih =>
    obtain ⟨mid, hstep, hrest⟩ := Option.bind_eq_some_iff.mp hfeed
    exact ih (h.step hstep) hrest

/-- The fields that are read are within the limit. -/
theorem csvReader_within {limit : Nat} {text : Text} {rows : List (List Text)}
    (h : csvReader limit text = some rows) : ∀ row ∈ rows, ∀ f ∈ row, f.length ≤ limit := by
  obtain ⟨r, hfeed, rfl⟩ := Option.map_eq_some_iff.mp h
  have hstart : Reader.start.Within limit :=
    ⟨Nat.zero_le _, fun f hf => absurd hf List.not_mem_nil,
      fun record hr => absurd hr List.not_mem_nil⟩
  have hend := hstart.feed hfeed
  unfold Reader.finish
  split
  · exact hend.records
  · exact hend.records
  · exact List.forall_mem_append.mpr ⟨hend.records, List.forall_mem_singleton.mpr hend.record⟩

theorem step_isSome {limit : Nat} {r : Reader} (h : r.field.length < limit) (c : Char) :
    (r.step limit c).isSome = true := by
  unfold Reader.step Reader.recordStep Reader.fieldStep
  cases r.state <;> dsimp only <;> split_ifs <;> simp [Reader.add, h]

/-- A character makes a field longer by one at most. -/
theorem step_field_length {limit : Nat} {r r' : Reader} {c : Char}
    (h : r.step limit c = some r') : r'.field.length ≤ r.field.length + 1 := by
  rcases step_cases h with ⟨state, hadd⟩ | rfl | ⟨record, _, rfl⟩ | ⟨state, rfl⟩
  · cases (Option.ite_none_right_eq_some.mp hadd).2
    rw [List.length_append, List.length_singleton]
  · exact Nat.zero_le _
  · exact Nat.zero_le _
  · exact Nat.le_succ _

/-- A text that is not longer than the limit is taken. -/
theorem feed_isSome {limit : Nat} {r : Reader} {text : Text}
    (h : r.field.length + text.length ≤ limit) : (r.feed limit text).isSome = true := by
  induction text generalizing r with
  | nil => rfl
  | cons c text ih =>
    rw [List.length_cons] at h
    have hlt : r.field.length < limit := by omega
    obtain ⟨r', hstep⟩ := Option.isSome_iff_exists.mp (step_isSome hlt c)
    have hlen := step_field_length hstep
    rw [Reader.feed, hstep, Option.bind_some]
    exact ih (by omega)

/-- A field that gets over the limit is an error. -/
theorem feed_overflow {limit : Nat} {r : Reader} {s : Text}
    (hs : ∀ c ∈ s, isSeparator c = false) (hfield : r.field.length ≤ limit)
    (h : limit < r.field.length + s.length) : r.feed limit s = none := by
  induction s generalizing r with
  | nil =>
    rw [List.length_nil] at h
    omega
  | cons c s ih =>
    rw [List.length_cons] at h
    rw [Reader.feed, step_plain (hs c List.mem_cons_self), Reader.add]
    split
    · rw [Option.bind_some]
      apply ih fun x hx => hs x (List.mem_cons_of_mem c hx)
      · rw [List.length_append, List.length_singleton]
        omega
      · rw [List.length_append, List.length_singleton]
        omega
    · rfl

/-! ## Writing and reading back -/

def doubleQuote (c : Char) : Text := if c = '"' then ['"', '"'] else [c]

/-- A field is quoted when it has a separator in it. -/
def writeField (f : Text) : Text :=
  if f.any isSeparator then '"' :: (f.flatMap doubleQuote ++ ['"']) else f

/-- `writer.writerow(row)`; a record of one empty field is quoted. -/
def writeRow (row : List Text) : Text :=
  match row with
  | [] => ['\r', '\n']
  | [[]] => ['"', '"', '\r', '\n']
  | f :: fs => writeField f ++ (fs.flatMap fun g => ',' :: writeField g) ++ ['\r', '\n']

def csvWrite (rows : List (List Text)) : Text :=
  rows.flatMap writeRow

/-- A field has been read, and a delimiter ends it. -/
def CsvState.Open : CsvState → Prop
  | .startField => True
  | .inField => True
  | .quoteInQuoted => True
  | _ => False

theorem feed_quoted (limit : Nat) {r : Reader} (hr : r.state = .inQuoted) {f : Text}
    (hlen : r.field.length + f.length ≤ limit) :
    r.feed limit (f.flatMap doubleQuote) = some { r with field := r.field ++ f } := by
  induction f generalizing r with
  | nil => simp [Reader.feed]
  | cons c f ih =>
    rw [List.length_cons] at hlen
    have hadd : r.feed limit (doubleQuote c) = some { r with field := r.field ++ [c] } := by
      have hlt : r.field.length < limit := by omega
      by_cases hc : c = '"'
      · simp [doubleQuote, hc, Reader.feed, Reader.step, hr, Reader.add, hlt]
      · simp [doubleQuote, hc, Reader.feed, Reader.step, hr, Reader.add, hlt]
    have hrest := ih (r := { r with field := r.field ++ [c] }) hr (by
      simp only [List.length_append, List.length_singleton]
      omega)
    rw [List.flatMap_cons, feed_append, hadd, Option.bind_some, hrest]
    simp

/-- Reading a written field where a field is expected. -/
theorem feed_writeField (limit : Nat) {r : Reader} (hr : r.state = .startRecord ∨
      r.state = .startField) (hfield : r.field = []) {f : Text} (hlen : f.length ≤ limit) :
    ∃ state, r.feed limit (writeField f) = some { r with state, field := f } ∧
      (state.Open ∨ f = [] ∧ state = r.state) := by
  unfold writeField
  by_cases hsep : f.any isSeparator = true
  · rw [if_pos hsep]
    refine ⟨.quoteInQuoted, ?_, Or.inl trivial⟩
    have hopen : r.step limit '"' = some { r with state := .inQuoted } := by
      rcases hr with hr | hr <;>
        simp [Reader.step, hr, Reader.recordStep, Reader.fieldStep, isNewline]
    have hinner := feed_quoted limit (r := { r with state := .inQuoted }) rfl (f := f)
      (by simpa [hfield] using hlen)
    rw [Reader.feed, hopen, Option.bind_some, feed_append, hinner]
    simp [Reader.feed, Reader.step, hfield]
  · rw [if_neg hsep]
    have hplain : ∀ c ∈ f, isSeparator c = false := by simpa using hsep
    have hfeed := feed_plain_some limit (r := r) hplain (by simpa [hfield] using hlen)
    cases f with
    | nil => exact ⟨r.state, by simp [Reader.feed, ← hfield], Or.inr ⟨rfl, rfl⟩⟩
    | cons c f =>
      refine ⟨.inField, ?_, Or.inl trivial⟩
      rw [hfeed, Reader.plain, hfield]
      rcases hr with hr | hr <;> simp [hr, CsvState.plain]

theorem step_comma {limit : Nat} {r : Reader} (hr : r.state.Open ∨ r.state = .startRecord) :
    r.step limit ',' = some r.save := by
  cases hstate : r.state <;> simp [hstate, CsvState.Open] at hr <;>
    simp [Reader.step, hstate, Reader.recordStep, Reader.fieldStep, isNewline]

/-- A delimiter and the next field. -/
theorem feed_comma {limit : Nat} {r : Reader} (hr : r.state.Open ∨ r.state = .startRecord)
    {g : Text} (hlen : g.length ≤ limit) :
    ∃ state, r.feed limit (',' :: writeField g) = some { r.save with state, field := g } ∧
      state.Open := by
  obtain ⟨state, hfeed, hstate⟩ := feed_writeField limit (r := r.save) (Or.inr rfl) rfl hlen
  refine ⟨state, ?_, ?_⟩
  · rw [Reader.feed, step_comma hr]
    exact hfeed
  · rcases hstate with h | ⟨_, h⟩
    · exact h
    · rw [h]
      trivial

theorem feed_commas {limit : Nat} (fs : List Text) (hlen : ∀ f ∈ fs, f.length ≤ limit)
    {r : Reader} (hr : r.state.Open) :
    ∃ r', r.feed limit (fs.flatMap fun g => ',' :: writeField g) = some r' ∧ r'.state.Open ∧
      r'.fields ++ [r'.field] = r.fields ++ r.field :: fs ∧ r'.records = r.records := by
  induction fs generalizing r with
  | nil => exact ⟨r, rfl, hr, rfl, rfl⟩
  | cons g fs ih =>
    obtain ⟨state, hfeed, hopen⟩ := feed_comma (Or.inl hr) (hlen g List.mem_cons_self)
    obtain ⟨r', hrest, hopen', hfields, hrecords⟩ :=
      ih (fun f hf => hlen f (List.mem_cons_of_mem _ hf))
        (r := { r.save with state, field := g }) hopen
    refine ⟨r', ?_, hopen', ?_, hrecords⟩
    · rw [List.flatMap_cons, feed_append, hfeed]
      exact hrest
    · rw [hfields]
      simp [Reader.save]

theorem feed_crlf {limit : Nat} {r : Reader} (hr : r.state.Open) :
    r.feed limit ['\r', '\n'] =
      some ⟨.startRecord, [], [], r.records ++ [r.fields ++ [r.field]]⟩ := by
  have hcr : r.step limit '\r' = some (r.endRecord '\r' (r.fields ++ [r.field])) := by
    cases hstate : r.state <;> simp [hstate, CsvState.Open] at hr <;>
      simp [Reader.step, hstate, Reader.fieldStep, isNewline]
  rw [Reader.feed, hcr, Option.bind_some]
  simp [Reader.feed, Reader.endRecord, Reader.step]

/-- Reading a written record. -/
theorem feed_writeRow {limit : Nat} (row : List Text) (hlen : ∀ f ∈ row, f.length ≤ limit)
    (records : List (List Text)) :
    Reader.feed limit ⟨.startRecord, [], [], records⟩ (writeRow row) =
      some ⟨.startRecord, [], [], records ++ [row]⟩ := by
  match row with
  | [] =>
    simp [writeRow, Reader.feed, Reader.step, Reader.recordStep, isNewline, Reader.endRecord]
  | [[]] =>
    simp [writeRow, Reader.feed, Reader.step, Reader.recordStep, Reader.fieldStep, isNewline,
      Reader.endRecord]
  | [c :: f] =>
    obtain ⟨state, hfeed, hstate⟩ := feed_writeField limit
      (r := ⟨.startRecord, [], [], records⟩) (Or.inl rfl) rfl (hlen (c :: f) List.mem_cons_self)
    have hopen : state.Open := by
      rcases hstate with h | ⟨h, _⟩
      · exact h
      · cases h
    rw [writeRow, List.flatMap_nil, List.append_nil, feed_append, hfeed, Option.bind_some,
      feed_crlf hopen]
    · rfl
    · simp
  | f :: g :: fs =>
    obtain ⟨state, hfeed, hstate⟩ := feed_writeField limit
      (r := ⟨.startRecord, [], [], records⟩) (Or.inl rfl) rfl (hlen f List.mem_cons_self)
    have hready : state.Open ∨ state = .startRecord := by
      rcases hstate with h | ⟨_, h⟩
      · exact Or.inl h
      · exact Or.inr h
    obtain ⟨state', hcomma, hopen⟩ := feed_comma
      (r := ⟨state, f, [], records⟩) hready (hlen g (by simp))
    obtain ⟨r', hrest, hopen', hfields, hrecords⟩ := feed_commas fs
      (fun x hx => hlen x (by simp [hx])) (r := ⟨state', g, [f], records⟩) hopen
    rw [writeRow, List.flatMap_cons, feed_append, feed_append, hfeed, Option.bind_some]
    · change ((Reader.feed limit ⟨state, f, [], records⟩ _).bind _) = _
      rw [feed_append, hcomma, Option.bind_some]
      change ((Reader.feed limit ⟨state', g, [f], records⟩ _).bind _) = _
      rw [hrest, Option.bind_some, feed_crlf hopen', hfields, hrecords]
      rfl
    · simp

/-- **Round trip.** What the writer writes is read back. -/
theorem csvReader_csvWrite {limit : Nat} (rows : List (List Text))
    (hlen : ∀ row ∈ rows, ∀ f ∈ row, f.length ≤ limit) :
    csvReader limit (csvWrite rows) = some rows := by
  have hfeed : ∀ records, Reader.feed limit ⟨.startRecord, [], [], records⟩ (csvWrite rows) =
      some ⟨.startRecord, [], [], records ++ rows⟩ := by
    induction rows with
    | nil => simp [csvWrite, Reader.feed]
    | cons row rows ih =>
      intro records
      have hrow := feed_writeRow row (hlen row List.mem_cons_self) records
      have hrest := ih (fun row' h => hlen row' (List.mem_cons_of_mem _ h)) (records ++ [row])
      rw [csvWrite, List.flatMap_cons, feed_append, hrow, Option.bind_some]
      rw [csvWrite] at hrest
      rw [hrest, List.append_assoc]
      rfl
  rw [csvReader, Reader.start, hfeed []]
  rfl

theorem exists_limit (rows : List (List Text)) :
    ∃ limit, ∀ row ∈ rows, ∀ f ∈ row, f.length ≤ limit := by
  refine ⟨rows.flatten.flatten.length, ?_⟩
  intro row hrow f hf
  have hmem : f ∈ rows.flatten := List.mem_flatten.mpr ⟨row, hrow, hf⟩
  exact (List.sublist_flatten_of_mem hmem).length_le

theorem csvWrite_injective : Function.Injective csvWrite := by
  intro rows₁ rows₂ h
  obtain ⟨limit, hlimit⟩ := exists_limit (rows₁ ++ rows₂)
  have h₁ := csvReader_csvWrite rows₁ fun row hrow => hlimit row (List.mem_append_left _ hrow)
  have h₂ := csvReader_csvWrite rows₂ fun row hrow => hlimit row (List.mem_append_right _ hrow)
  rw [h, h₂] at h₁
  exact (Option.some.inj h₁).symm

/-! ## Two texts of one shape -/

section SameShape

variable {R : Text → Text → Prop}

/-- A relation of texts that the reader can build up. -/
structure Congruent (R : Text → Text → Prop) : Prop where
  nil : R [] []
  append : ∀ {f f' g g'}, R f f' → R g g' → R (f ++ g) (f' ++ g')
  separator : ∀ {c}, isSeparator c = true → R [c] [c]

/-- Related texts without separators; one is empty only if the other is. -/
structure RelatedRun (R : Text → Text → Prop) (s s' : Text) : Prop where
  plain : ∀ c ∈ s, isSeparator c = false
  plain' : ∀ c ∈ s', isSeparator c = false
  nil_iff : s = [] ↔ s' = []
  related : R s s'

/-- The same separators, with related texts between them. -/
inductive SameShape (R : Text → Text → Prop) : Text → Text → Prop
  | run {s s'} : RelatedRun R s s' → SameShape R s s'
  | cons {s s' c t t'} : RelatedRun R s s' → isSeparator c = true → SameShape R t t' →
      SameShape R (s ++ c :: t) (s' ++ c :: t')

structure Reader.Related (R : Text → Text → Prop) (r r' : Reader) : Prop where
  state : r'.state = r.state
  field : R r.field r'.field
  fields : List.Forall₂ R r.fields r'.fields
  records : List.Forall₂ (List.Forall₂ R) r.records r'.records

theorem Reader.Related.record {r r' : Reader} (h : r.Related R r') :
    List.Forall₂ R (r.fields ++ [r.field]) (r'.fields ++ [r'.field]) :=
  List.rel_append h.fields (.cons h.field .nil)

theorem Reader.Related.save (hR : Congruent R) {r r' : Reader} (h : r.Related R r') :
    r.save.Related R r'.save :=
  ⟨rfl, hR.nil, h.record, h.records⟩

theorem Reader.Related.endRecord (hR : Congruent R) {r r' : Reader} (h : r.Related R r')
    (c : Char) {record record' : List Text} (hrec : List.Forall₂ R record record') :
    (r.endRecord c record).Related R (r'.endRecord c record') :=
  ⟨rfl, hR.nil, .nil, List.rel_append h.records (.cons hrec .nil)⟩

theorem Reader.Related.add (hR : Congruent R) {limit : Nat} {r r' r₁ r₁' : Reader}
    (h : r.Related R r') {state : CsvState} {c : Char} (hc : isSeparator c = true)
    (h₁ : r.add limit state c = some r₁) (h₁' : r'.add limit state c = some r₁') :
    r₁.Related R r₁' := by
  cases (Option.ite_none_right_eq_some.mp h₁).2
  cases (Option.ite_none_right_eq_some.mp h₁').2
  exact ⟨rfl, hR.append h.field (hR.separator hc), h.fields, h.records⟩

theorem Reader.Related.plain (hR : Congruent R) {r r' : Reader} (h : r.Related R r')
    {s s' : Text} (hs : RelatedRun R s s') : (r.plain s).Related R (r'.plain s') := by
  cases s with
  | nil =>
    rw [hs.nil_iff.mp rfl]
    exact h
  | cons c s =>
    cases s' with
    | nil => cases hs.nil_iff.mpr rfl
    | cons c' s' =>
      exact ⟨congrArg CsvState.plain h.state, hR.append h.field hs.related, h.fields, h.records⟩

theorem Reader.Related.fieldStep (hR : Congruent R) {limit : Nat} {r r' r₁ r₁' : Reader}
    (h : r.Related R r') {c : Char} (hc : isSeparator c = true)
    (h₁ : r.fieldStep limit c = some r₁) (h₁' : r'.fieldStep limit c = some r₁') :
    r₁.Related R r₁' := by
  unfold Reader.fieldStep at h₁ h₁'
  split_ifs at h₁ h₁'
  · cases h₁
    cases h₁'
    exact h.endRecord hR c h.record
  · cases h₁
    cases h₁'
    exact ⟨rfl, h.field, h.fields, h.records⟩
  · cases h₁
    cases h₁'
    exact h.save hR
  · exact h.add hR hc h₁ h₁'

theorem Reader.Related.recordStep (hR : Congruent R) {limit : Nat} {r r' r₁ r₁' : Reader}
    (h : r.Related R r') {c : Char} (hc : isSeparator c = true)
    (h₁ : r.recordStep limit c = some r₁) (h₁' : r'.recordStep limit c = some r₁') :
    r₁.Related R r₁' := by
  unfold Reader.recordStep at h₁ h₁'
  split_ifs at h₁ h₁'
  · cases h₁
    cases h₁'
    exact h.endRecord hR c .nil
  · exact h.fieldStep hR hc h₁ h₁'

/-- Both readers take a separator the same way. -/
theorem Reader.Related.step (hR : Congruent R) {limit : Nat} {r r' r₁ r₁' : Reader}
    (h : r.Related R r') {c : Char} (hc : isSeparator c = true)
    (h₁ : r.step limit c = some r₁) (h₁' : r'.step limit c = some r₁') :
    r₁.Related R r₁' := by
  unfold Reader.step at h₁ h₁'
  rw [h.state] at h₁'
  cases hstate : r.state <;> rw [hstate] at h₁ h₁' <;> dsimp only at h₁ h₁'
  · exact h.recordStep hR hc h₁ h₁'
  · exact h.fieldStep hR hc h₁ h₁'
  · split_ifs at h₁ h₁'
    · cases h₁
      cases h₁'
      exact h.endRecord hR c h.record
    · cases h₁
      cases h₁'
      exact h.save hR
    · exact h.add hR hc h₁ h₁'
  · split_ifs at h₁ h₁'
    · cases h₁
      cases h₁'
      exact ⟨rfl, h.field, h.fields, h.records⟩
    · exact h.add hR hc h₁ h₁'
  · split_ifs at h₁ h₁'
    · exact h.add hR hc h₁ h₁'
    · cases h₁
      cases h₁'
      exact h.save hR
    · cases h₁
      cases h₁'
      exact h.endRecord hR c h.record
    · exact h.add hR hc h₁ h₁'
  · split_ifs at h₁ h₁'
    · cases h₁
      cases h₁'
      exact ⟨rfl, h.field, h.fields, h.records⟩
    · exact h.recordStep hR hc h₁ h₁'

theorem Reader.Related.feed (hR : Congruent R) {limit : Nat} {t t' : Text}
    (ht : SameShape R t t') {r r' r₁ r₁' : Reader} (h : r.Related R r')
    (h₁ : r.feed limit t = some r₁) (h₁' : r'.feed limit t' = some r₁') : r₁.Related R r₁' := by
  induction ht generalizing r r' with
  | run hs =>
    rw [feed_plain hs.plain h₁, feed_plain hs.plain' h₁']
    exact h.plain hR hs
  | cons hs hc _ ih =>
    rw [feed_append] at h₁ h₁'
    obtain ⟨r₂, h₂, h₁⟩ := Option.bind_eq_some_iff.mp h₁
    obtain ⟨r₂', h₂', h₁'⟩ := Option.bind_eq_some_iff.mp h₁'
    obtain ⟨r₃, h₃, h₁⟩ := Option.bind_eq_some_iff.mp h₁
    obtain ⟨r₃', h₃', h₁'⟩ := Option.bind_eq_some_iff.mp h₁'
    have hplain : r₂.Related R r₂' := by
      rw [feed_plain hs.plain h₂, feed_plain hs.plain' h₂']
      exact h.plain hR hs
    exact ih (hplain.step hR hc h₃ h₃') h₁ h₁'

theorem csvReader_sameShape (hR : Congruent R) {limit : Nat} {t t' : Text}
    (ht : SameShape R t t') {rows rows' : List (List Text)}
    (h : csvReader limit t = some rows) (h' : csvReader limit t' = some rows') :
    List.Forall₂ (List.Forall₂ R) rows rows' := by
  obtain ⟨r, hr, rfl⟩ := Option.map_eq_some_iff.mp h
  obtain ⟨r', hr', rfl⟩ := Option.map_eq_some_iff.mp h'
  have hstart : Reader.start.Related R Reader.start := ⟨rfl, hR.nil, .nil, .nil⟩
  have hend := hstart.feed hR ht hr hr'
  unfold Reader.finish
  rw [hend.state]
  cases r.state <;>
    first
    | exact hend.records
    | exact List.rel_append hend.records (.cons hend.record .nil)

end SameShape

end GdalFull.Lib
