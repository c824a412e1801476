import GdalFull.Lib.Chunks

/-!
# Physical lines and records

A CSV reader takes a text line by line, and a record goes on over the next line when a line ends
inside quotes. `lineGroups` groups the lines so, with the states of the reader alone.

`csvYielded_lineGroups`: the records that a reader yields belong to the first groups, in order, and
a record is without fields exactly when its group is an empty line. A field over the limit ends the
records early.
-/

namespace GdalFull.Lib

/-- The records up to the end of the text, or up to a field over the limit. -/
def Reader.yielded (limit : Nat) : Reader → Text → List (List Text)
  | r, [] => r.finish
  | r, c :: text =>
    match r.step limit c with
    | some r => r.yielded limit text
    | none => r.records

/-- What `csv.reader(f)` yields before it ends or fails. -/
def csvYielded (limit : Nat) (text : Text) : List (List Text) :=
  Reader.start.yielded limit text

theorem Reader.yielded_append {limit : Nat} {r r' : Reader} {s : Text}
    (h : r.feed limit s = some r') (t : Text) :
    r.yielded limit (s ++ t) = r'.yielded limit t := by
  induction s generalizing r with
  | nil =>
    cases h
    rfl
  | cons c s ih =>
    obtain ⟨mid, hstep, hrest⟩ := Option.bind_eq_some_iff.mp h
    rw [List.cons_append, Reader.yielded, hstep]
    exact ih hrest

theorem csvYielded_of_csvReader {limit : Nat} {text : Text} {rows : List (List Text)}
    (h : csvReader limit text = some rows) : csvYielded limit text = rows := by
  obtain ⟨r, hfeed, rfl⟩ := Option.map_eq_some_iff.mp h
  have hyielded := Reader.yielded_append hfeed []
  rw [List.append_nil] at hyielded
  exact hyielded

/-! ## The states of the reader -/

def CsvState.afterNewline (c : Char) : CsvState := if c = '\r' then .afterCr else .startRecord

/-- The state after a character where a field is expected. -/
def CsvState.fieldNext (c : Char) : CsvState :=
  if isNewline c then .afterNewline c
  else if c = '"' then .inQuoted
  else if c = ',' then .startField
  else .inField

/-- The state after a character. -/
def CsvState.next : CsvState → Char → CsvState
  | .startRecord, c => .fieldNext c
  | .startField, c => .fieldNext c
  | .inField, c =>
    if isNewline c then .afterNewline c else if c = ',' then .startField else .inField
  | .inQuoted, c => if c = '"' then .quoteInQuoted else .inQuoted
  | .quoteInQuoted, c =>
    if c = '"' then .inQuoted
    else if c = ',' then .startField
    else if isNewline c then .afterNewline c
    else .inField
  | .afterCr, c => if c = '\n' then .startRecord else .fieldNext c

theorem step_state {limit : Nat} {r r' : Reader} {c : Char} (h : r.step limit c = some r') :
    r'.state = r.state.next c := by
  unfold Reader.step Reader.recordStep Reader.fieldStep Reader.add at h
  unfold CsvState.next CsvState.fieldNext
  cases hstate : r.state <;> rw [hstate] at h <;> dsimp only at h ⊢ <;> split_ifs at h ⊢ <;>
    first
    | contradiction
    | (cases h; rfl)

theorem feed_state {limit : Nat} {r r' : Reader} {s : Text} (h : r.feed limit s = some r') :
    r'.state = s.foldl CsvState.next r.state := by
  induction s generalizing r with
  | nil =>
    cases h
    rfl
  | cons c s ih =>
    obtain ⟨mid, hstep, hrest⟩ := Option.bind_eq_some_iff.mp h
    rw [ih hrest, step_state hstep]
    rfl

/-- Between two records. -/
def CsvState.AtStart (s : CsvState) : Prop := s = .startRecord ∨ s = .afterCr

/-- A character that is no line end leaves the records alone. -/
theorem step_inLine {limit : Nat} {r r' : Reader} {c : Char} (hc : isNewline c = false)
    (h : r.step limit c = some r') : r'.records = r.records ∧ ¬ r'.state.AtStart := by
  have hlf : c ≠ '\n' := by
    rintro rfl
    cases hc
  unfold Reader.step Reader.recordStep Reader.fieldStep Reader.add at h
  unfold CsvState.AtStart
  cases hstate : r.state <;> rw [hstate] at h <;>
    simp only [hc, hlf, Bool.false_eq_true, if_false] at h <;> split_ifs at h <;>
    cases h <;> simp [Reader.save]

/-- A line end inside a record is part of a quoted field, or it ends the record. -/
theorem step_newline {limit : Nat} {r r' : Reader} {c : Char} (hc : isNewline c = true)
    (hr : ¬ r.state.AtStart) (h : r.step limit c = some r') :
    (r.state = .inQuoted ∧ r'.state = .inQuoted ∧ r'.records = r.records) ∨
      (r.state ≠ .inQuoted ∧ r' = r.endRecord c (r.fields ++ [r.field])) := by
  have hne : c ≠ ',' ∧ c ≠ '"' := by
    constructor <;> rintro rfl <;> cases hc
  unfold Reader.step Reader.fieldStep Reader.add at h
  cases hstate : r.state <;> rw [hstate] at h hr <;> simp only [hc, hne, if_true, if_false] at h
  case startRecord => exact absurd (Or.inl rfl) hr
  case afterCr => exact absurd (Or.inr rfl) hr
  case inQuoted =>
    split_ifs at h
    cases h
    exact Or.inl ⟨rfl, rfl, rfl⟩
  all_goals
    cases h
    exact Or.inr ⟨nofun, rfl⟩

/-! ## Lines -/

theorem eq_nil_of_readlines {t : Text} (h : readlines t = []) : t = [] := by
  rw [← readlines_flatten t, h]
  rfl

/-- A line is text without line ends and then one of the three line ends, or the rest of the
text. -/
theorem readlines_cons {t line : Text} {lines : List Text} (h : readlines t = line :: lines) :
    ∃ body rest, (∀ c ∈ body, isNewline c = false) ∧ t = line ++ rest ∧ readlines rest = lines ∧
      (line = body ++ ['\n'] ∨ line = body ++ ['\r', '\n'] ∨
        (line = body ++ ['\r'] ∧ rest.head? ≠ some '\n') ∨
        (line = body ∧ body ≠ [] ∧ rest = [])) := by
  fun_induction readlines t generalizing line with
  | case1 => cases h
  | case2 rest ih =>
    cases h
    exact ⟨[], rest, by simp, rfl, rfl, Or.inr (Or.inl rfl)⟩
  | case3 c rest hne hc ih =>
    cases h
    refine ⟨[], rest, by simp, rfl, rfl, ?_⟩
    rcases hc with rfl | rfl
    · exact Or.inl rfl
    · refine Or.inr (Or.inr (Or.inl ⟨rfl, ?_⟩))
      intro hhead
      obtain ⟨tail, rfl⟩ := List.head?_eq_some_iff.mp hhead
      exact hne tail rfl rfl
  | case4 c rest hne hc hnil ih =>
    cases h
    have hplain : isNewline c = false := by simpa [isNewline] using hc
    have hrest := eq_nil_of_readlines hnil
    subst hrest
    exact ⟨[c], [], by simpa using hplain, rfl, rfl,
      Or.inr (Or.inr (Or.inr ⟨rfl, List.cons_ne_nil _ _, rfl⟩))⟩
  | case5 c rest hne hc first lines' hcons ih =>
    cases h
    have hplain : isNewline c = false := by simpa [isNewline] using hc
    obtain ⟨body, tail, hbody, rfl, htail, hend⟩ := ih hcons
    refine ⟨c :: body, tail, List.forall_mem_cons.mpr ⟨hplain, hbody⟩, rfl, htail, ?_⟩
    rcases hend with rfl | rfl | ⟨rfl, hhead⟩ | ⟨rfl, _, hnil⟩
    · exact Or.inl rfl
    · exact Or.inr (Or.inl rfl)
    · exact Or.inr (Or.inr (Or.inl ⟨rfl, hhead⟩))
    · exact Or.inr (Or.inr (Or.inr ⟨rfl, List.cons_ne_nil _ _, hnil⟩))

/-- The lines that are a line end alone. -/
def emptyLines : List Text := [['\n'], ['\r'], ['\r', '\n']]

/-- Whether a line ends inside quotes. -/
def endsQuoted (quoted : Bool) (line : Text) : Bool :=
  line.foldl CsvState.next (if quoted then .inQuoted else .startRecord) = .inQuoted

/-- The lines of each record. -/
def lineGroups : Bool → List Text → List (List Text)
  | _, [] => []
  | quoted, line :: lines =>
    if endsQuoted quoted line then
      match lineGroups true lines with
      | [] => [[line]]
      | group :: groups => (line :: group) :: groups
    else [line] :: lineGroups false lines

theorem lineGroups_flatten (quoted : Bool) (lines : List Text) :
    (lineGroups quoted lines).flatten = lines := by
  fun_induction lineGroups quoted lines with
  | case1 => rfl
  | case2 quoted line lines hquoted hnil ih =>
    rw [hnil] at ih
    rw [← ih]
    rfl
  | case3 quoted line lines hquoted group groups hcons ih =>
    rw [hcons, List.flatten_cons] at ih
    rw [List.flatten_cons, List.cons_append, ih]
  | case4 quoted line lines hquoted ih => rw [List.flatten_cons, ih, List.singleton_append]

/-- A reader at the start of a line, inside quotes or between records. -/
def Reader.AtLine (r : Reader) (quoted : Bool) : Prop :=
  if quoted then r.state = .inQuoted else r.state.AtStart ∧ r.field = [] ∧ r.fields = []

theorem feed_body {limit : Nat} {r : Reader} {body : Text}
    (hbody : ∀ c ∈ body, isNewline c = false) (t : Text) :
    r.yielded limit (body ++ t) = r.records ∨
      ∃ r', r.feed limit body = some r' ∧ r'.records = r.records ∧
        (body ≠ [] → ¬ r'.state.AtStart) := by
  induction body generalizing r with
  | nil => exact Or.inr ⟨r, rfl, rfl, fun h => absurd rfl h⟩
  | cons c body ih =>
    obtain ⟨hc, hrest⟩ := List.forall_mem_cons.mp hbody
    rw [List.cons_append, Reader.yielded]
    cases hstep : r.step limit c with
    | none => exact Or.inl rfl
    | some mid =>
      obtain ⟨hrecords, hstart⟩ := step_inLine hc hstep
      rcases ih hrest (r := mid) with hfail | ⟨r', hfeed, hr', hend⟩
      · exact Or.inl (hfail.trans hrecords)
      · refine Or.inr ⟨r', ?_, hr'.trans hrecords, ?_⟩
        · rw [Reader.feed, hstep]
          exact hfeed
        · intro _
          cases body with
          | nil =>
            cases hfeed
            exact hstart
          | cons d body => exact hend (List.cons_ne_nil d body)

theorem next_of_atStart {s : CsvState} (hs : s.AtStart) {c : Char}
    (hc : s = .afterCr → c ≠ '\n') : s.next c = CsvState.next .startRecord c := by
  rcases hs with rfl | rfl
  · rfl
  · exact if_neg (hc rfl)

/-- The states of a line do not depend on how the line before it ended. -/
theorem foldl_next_atLine {r : Reader} {quoted : Bool} (hr : r.AtLine quoted) {line : Text}
    (hne : line ≠ []) (hhead : r.state = .afterCr → line.head? ≠ some '\n') :
    line.foldl CsvState.next r.state = .inQuoted ↔ endsQuoted quoted line = true := by
  obtain ⟨c, line, rfl⟩ := List.exists_cons_of_ne_nil hne
  rw [endsQuoted, decide_eq_true_iff]
  cases quoted with
  | true =>
    have hstate : r.state = .inQuoted := hr
    rw [hstate, if_pos rfl]
  | false =>
    have hc : r.state = .afterCr → c ≠ '\n' := fun h hc => hhead h (congrArg some hc)
    rw [List.foldl_cons, next_of_atStart hr.1 hc]
    rfl

/-- A line end between two records is a record without fields. -/
theorem feed_emptyLine (limit : Nat) {r : Reader} (hr : r.AtLine false) {eol : Text}
    (heol : eol ∈ emptyLines) (hhead : r.state = .afterCr → eol.head? ≠ some '\n') :
    ∃ r', r.feed limit eol = some r' ∧ r'.AtLine false ∧ (r'.state = .afterCr → eol = ['\r']) ∧
      r'.records = r.records ++ [[]] := by
  have hstep : ∀ c, isNewline c = true → (r.state = .afterCr → c ≠ '\n') →
      r.step limit c = some (r.endRecord c []) := by
    intro c hc hne
    rw [Reader.step, Reader.recordStep, if_pos hc]
    rcases hr.1 with hs | hs
    · rw [hs]
    · rw [hs]
      exact if_neg (hne hs)
  simp only [emptyLines, List.mem_cons, List.not_mem_nil, or_false] at heol
  rcases heol with rfl | rfl | rfl
  · have hne : r.state = .afterCr → '\n' ≠ '\n' := fun h => absurd rfl (hhead h)
    rw [Reader.feed, hstep '\n' rfl hne]
    exact ⟨_, rfl, ⟨Or.inl rfl, rfl, rfl⟩, by simp [Reader.endRecord], rfl⟩
  · rw [Reader.feed, hstep '\r' rfl fun _ => by decide]
    exact ⟨_, rfl, ⟨Or.inr rfl, rfl, rfl⟩, fun _ => rfl, rfl⟩
  · rw [Reader.feed, hstep '\r' rfl fun _ => by decide]
    exact ⟨_, rfl, ⟨Or.inl rfl, rfl, rfl⟩, by simp, rfl⟩

/-- A line end inside a record. -/
theorem feed_eol (limit : Nat) {r : Reader} (hr : ¬ r.state.AtStart) {eol : Text}
    (heol : eol ∈ emptyLines) (t : Text) :
    r.yielded limit (eol ++ t) = r.records ∨ ∃ r', r.feed limit eol = some r' ∧
      (r'.state = .inQuoted ∧ r'.records = r.records ∨
        r'.AtLine false ∧ (r'.state = .afterCr → eol = ['\r']) ∧
          r'.records = r.records ++ [r.fields ++ [r.field]]) := by
  have hone : ∀ (r : Reader) (c : Char) (t : Text), isNewline c = true → ¬ r.state.AtStart →
      r.yielded limit (c :: t) = r.records ∨ ∃ r', r.step limit c = some r' ∧
        (r'.state = .inQuoted ∧ r'.records = r.records ∨
          r' = r.endRecord c (r.fields ++ [r.field])) := by
    intro r c t hc hr
    rw [Reader.yielded]
    cases hstep : r.step limit c with
    | none => exact Or.inl rfl
    | some r' =>
      refine Or.inr ⟨r', rfl, ?_⟩
      exact (step_newline hc hr hstep).imp And.right And.right
  simp only [emptyLines, List.mem_cons, List.not_mem_nil, or_false] at heol
  rcases heol with rfl | rfl | rfl
  · refine (hone r '\n' t rfl hr).imp_right ?_
    rintro ⟨r', hstep, hr'⟩
    refine ⟨r', by rw [Reader.feed, hstep]; rfl, hr'.imp_right ?_⟩
    rintro rfl
    exact ⟨⟨Or.inl rfl, rfl, rfl⟩, by simp [Reader.endRecord], rfl⟩
  · refine (hone r '\r' t rfl hr).imp_right ?_
    rintro ⟨r', hstep, hr'⟩
    refine ⟨r', by rw [Reader.feed, hstep]; rfl, hr'.imp_right ?_⟩
    rintro rfl
    exact ⟨⟨Or.inr rfl, rfl, rfl⟩, fun _ => rfl, rfl⟩
  · rcases hone r '\r' ('\n' :: t) rfl hr with hfail | ⟨mid, hstep, ⟨hquoted, hrecords⟩ | rfl⟩
    · exact Or.inl hfail
    · -- inside quotes the two characters are added one after the other
      have hmid : ¬ mid.state.AtStart := by
        rw [hquoted]
        simp [CsvState.AtStart]
      have hyielded : r.yielded limit ('\r' :: '\n' :: t) = mid.yielded limit ('\n' :: t) := by
        rw [Reader.yielded, hstep]
      rcases hone mid '\n' t rfl hmid with hfail | ⟨r', hstep', hr'⟩
      · exact Or.inl ((hyielded.trans hfail).trans hrecords)
      · have hfeed : r.feed limit ['\r', '\n'] = some r' := by
          rw [Reader.feed, hstep, Option.bind_some, Reader.feed, hstep']
          rfl
        rcases hr' with ⟨hstate, hr'⟩ | rfl
        · exact Or.inr ⟨r', hfeed, Or.inl ⟨hstate, hr'.trans hrecords⟩⟩
        · have hstate := step_state hstep'
          rw [hquoted] at hstate
          cases hstate
    · refine Or.inr ⟨{ r.endRecord '\r' (r.fields ++ [r.field]) with state := .startRecord }, ?_,
        Or.inr ⟨⟨Or.inl rfl, rfl, rfl⟩, by simp, rfl⟩⟩
      rw [Reader.feed, hstep]
      rfl

theorem body_eq_nil {body eol : Text} (hbody : ∀ c ∈ body, isNewline c = false)
    (h : body ++ eol ∈ emptyLines) : body = [] := by
  have hall : ∀ line ∈ emptyLines, line.all isNewline = true := by decide
  cases body with
  | nil => rfl
  | cons c body =>
    have htrue := List.all_eq_true.mp (hall _ h) c List.mem_cons_self
    rw [hbody c List.mem_cons_self] at htrue
    cases htrue

/-- What becomes of a line: the reader fails, or it goes on inside quotes with the same records, or
the line ends a record. -/
theorem yielded_line (limit : Nat) {r : Reader} {quoted : Bool} (hr : r.AtLine quoted)
    {t line : Text} {lines : List Text} (hlines : readlines t = line :: lines)
    (hhead : r.state = .afterCr → t.head? ≠ some '\n') :
    ∃ rest, readlines rest = lines ∧ (r.yielded limit t = r.records ∨
      ∃ r' : Reader, r.yielded limit t = r'.yielded limit rest ∧
        (r'.state = .afterCr → rest.head? ≠ some '\n') ∧
        (endsQuoted quoted line = true ∧ r'.AtLine true ∧ r'.records = r.records ∨
          endsQuoted quoted line = false ∧ r'.AtLine false ∧ ∃ row,
            r'.records = r.records ++ [row] ∧
            (row = [] ↔ quoted = false ∧ line ∈ emptyLines))) := by
  obtain ⟨body, rest, hbody, rfl, hrest, hend⟩ := readlines_cons hlines
  refine ⟨rest, hrest, ?_⟩
  have hne : line ≠ [] := by
    rcases hend with rfl | rfl | ⟨rfl, _⟩ | ⟨rfl, hne, _⟩
    · simp
    · simp
    · simp
    · exact hne
  have hquoted : ∀ r' : Reader, r.feed limit line = some r' →
      (r'.state = .inQuoted ↔ endsQuoted quoted line = true) := by
    intro r' hfeed
    rw [feed_state hfeed]
    refine foldl_next_atLine hr hne fun h => ?_
    rw [← List.head?_append_of_ne_nil line hne]
    exact hhead h
  have hsplit : (∃ eol ∈ emptyLines, line = body ++ eol ∧
      (eol = ['\r'] → rest.head? ≠ some '\n')) ∨ (line = body ∧ body ≠ [] ∧ rest = []) := by
    rcases hend with rfl | rfl | ⟨rfl, hcr⟩ | hlast
    · exact Or.inl ⟨_, by decide, rfl, nofun⟩
    · exact Or.inl ⟨_, by decide, rfl, nofun⟩
    · exact Or.inl ⟨_, by decide, rfl, fun _ => hcr⟩
    · exact Or.inr hlast
  rcases hsplit with ⟨eol, heol, rfl, hcr⟩ | ⟨rfl, hbodyne, rfl⟩
  · by_cases hempty : body = [] ∧ quoted = false
    · obtain ⟨rfl, rfl⟩ := hempty
      obtain ⟨r', hfeed, hr', hstate, hrecords⟩ := feed_emptyLine limit hr heol fun h => by
        rw [← List.head?_append_of_ne_nil eol hne]
        exact hhead h
      have hends : endsQuoted false eol = false := by
        rw [← Bool.not_eq_true, ← List.nil_append eol, ← hquoted r' hfeed]
        rcases hr'.1 with h | h <;> rw [h] <;> exact nofun
      refine Or.inr ⟨r', Reader.yielded_append hfeed rest, fun h => hcr (hstate h), Or.inr ?_⟩
      exact ⟨hends, hr', [], hrecords, iff_of_true rfl ⟨rfl, heol⟩⟩
    · rw [List.append_assoc]
      rcases feed_body hbody (eol ++ rest) with hfail | ⟨mid, hmid, hmidRecords, hmidState⟩
      · exact Or.inl hfail
      · have hstart : ¬ mid.state.AtStart := by
          by_cases hb : body = []
          · subst hb
            cases hmid
            have hq : quoted = true := by simpa using hempty
            subst hq
            have hin : r.state = .inQuoted := hr
            rw [hin]
            exact nofun
          · exact hmidState hb
        rw [Reader.yielded_append hmid, ← hmidRecords]
        refine (feed_eol limit hstart heol rest).imp_right ?_
        rintro ⟨r', heolFeed, hr'⟩
        have hfeed : r.feed limit (body ++ eol) = some r' := by
          rw [feed_append, hmid]
          exact heolFeed
        refine ⟨r', Reader.yielded_append heolFeed rest, ?_⟩
        rcases hr' with ⟨hin, hrecords⟩ | ⟨hr', hstate, hrecords⟩
        · exact ⟨by rw [hin]; exact nofun, Or.inl ⟨(hquoted r' hfeed).mp hin, hin, hrecords⟩⟩
        · have hends : endsQuoted quoted (body ++ eol) = false := by
            rw [← Bool.not_eq_true, ← hquoted r' hfeed]
            rcases hr'.1 with h | h <;> rw [h] <;> exact nofun
          refine ⟨fun h => hcr (hstate h), Or.inr ⟨hends, hr', _, hrecords, ?_⟩⟩
          refine iff_of_false (by simp) fun h => hempty ⟨body_eq_nil hbody h.2, h.1⟩
  · -- the last line has no line end
    rcases feed_body hbody ([] : Text) with hfail | ⟨r', hfeed, hrecords, hstart⟩
    · exact Or.inl hfail
    · have hyielded : r.yielded limit (line ++ []) = r'.finish := Reader.yielded_append hfeed []
      by_cases hin : r'.state = .inQuoted
      · refine Or.inr ⟨r', hyielded, fun _ => nofun, Or.inl ?_⟩
        exact ⟨(hquoted r' hfeed).mp hin, hin, hrecords⟩
      · have hends : endsQuoted quoted line = false := by
          rw [← Bool.not_eq_true, ← hquoted r' hfeed]
          exact hin
        have hfinish : r'.finish = r.records ++ [r'.fields ++ [r'.field]] := by
          have hnot := hstart hbodyne
          rw [Reader.finish, hrecords]
          split
          · rename_i h
            exact absurd (Or.inl h) hnot
          · rename_i h
            exact absurd (Or.inr h) hnot
          · rfl
        refine Or.inr ⟨⟨.startRecord, [], [], r.records ++ [r'.fields ++ [r'.field]]⟩,
          hyielded.trans hfinish, fun _ => nofun, Or.inr ?_⟩
        refine ⟨hends, ⟨Or.inl rfl, rfl, rfl⟩, r'.fields ++ [r'.field], rfl, ?_⟩
        refine iff_of_false (by simp) fun h => hbodyne (@body_eq_nil line [] hbody ?_)
        rw [List.append_nil]
        exact h.2

/-! ## Records and their lines -/

/-- A record is without fields exactly when its group is an empty line. -/
def RecordOf (row : List Text) (group : List Text) : Prop :=
  row = [] ↔ ∃ line ∈ emptyLines, group = [line]

theorem lineGroups_tail {quoted : Bool} {line : Text} (lines : List Text)
    (h : endsQuoted quoted line = true) :
    ∃ group, lineGroups quoted (line :: lines) =
      (line :: group) :: (lineGroups true lines).tail := by
  rw [lineGroups, if_pos h]
  cases lineGroups true lines with
  | nil => exact ⟨[], rfl⟩
  | cons group groups => exact ⟨group, rfl⟩

theorem yielded_lines (limit : Nat) (lines : List Text) {t : Text} (hlines : readlines t = lines)
    {r : Reader} {quoted : Bool} (hr : r.AtLine quoted)
    (hhead : r.state = .afterCr → t.head? ≠ some '\n') :
    ∃ rows, r.yielded limit t = r.records ++ rows ∧
      if quoted then
        rows = [] ∨ ∃ row rows', rows = row :: rows' ∧ row ≠ [] ∧
          List.Forall₂ RecordOf rows' ((lineGroups true lines).tail.take rows'.length)
      else List.Forall₂ RecordOf rows ((lineGroups false lines).take rows.length) := by
  induction lines generalizing t r quoted with
  | nil =>
    have ht := eq_nil_of_readlines hlines
    subst ht
    cases quoted with
    | true =>
      have hin : r.state = .inQuoted := hr
      refine ⟨[r.fields ++ [r.field]], ?_, Or.inr ⟨_, [], rfl, by simp, List.Forall₂.nil⟩⟩
      rw [Reader.yielded, Reader.finish, hin]
    | false =>
      refine ⟨[], ?_, List.Forall₂.nil⟩
      rw [Reader.yielded, Reader.finish, List.append_nil]
      rcases hr.1 with h | h <;> rw [h]
  | cons line lines ih =>
    obtain ⟨rest, hrest, hfail | ⟨r', hyielded, hhead', hline⟩⟩ :=
      yielded_line limit hr hlines hhead
    · refine ⟨[], hfail.trans (List.append_nil _).symm, ?_⟩
      cases quoted with
      | true => exact Or.inl rfl
      | false => exact List.Forall₂.nil
    · rcases hline with ⟨hends, hr', hrecords⟩ | ⟨hends, hr', row, hrecords, hrow⟩
      · -- the record goes on, and the next line is of the same group
        obtain ⟨rows, hrows, hmatch⟩ := ih hrest hr' hhead'
        obtain ⟨group, hgroup⟩ := lineGroups_tail lines hends
        refine ⟨rows, by rw [hyielded, hrows, hrecords], ?_⟩
        rw [if_pos rfl] at hmatch
        cases quoted with
        | true =>
          rw [if_pos rfl, hgroup, List.tail_cons]
          exact hmatch
        | false =>
          rw [if_neg Bool.false_ne_true, hgroup]
          rcases hmatch with rfl | ⟨row, rows', rfl, hne, hmatch⟩
          · exact List.Forall₂.nil
          · refine List.Forall₂.cons (iff_of_false hne ?_) hmatch
            rintro ⟨empty, hempty, heq⟩
            have hopen : ∀ line ∈ emptyLines, endsQuoted false line = false := by decide
            rw [(List.cons.inj heq).1, hopen empty hempty] at hends
            cases hends
      · obtain ⟨rows, hrows, hmatch⟩ := ih hrest hr' hhead'
        rw [if_neg Bool.false_ne_true] at hmatch
        have hgroup : lineGroups quoted (line :: lines) = [line] :: lineGroups false lines := by
          rw [lineGroups, if_neg (Bool.eq_false_iff.mp hends)]
        refine ⟨row :: rows, by rw [hyielded, hrows, hrecords]; simp, ?_⟩
        cases quoted with
        | true =>
          rw [if_pos rfl, hgroup]
          refine Or.inr ⟨row, rows, rfl, ?_, hmatch⟩
          intro hnil
          cases (hrow.mp hnil).1
        | false =>
          rw [if_neg Bool.false_ne_true, hgroup]
          refine List.Forall₂.cons ?_ hmatch
          rw [RecordOf, hrow]
          constructor
          · rintro ⟨_, hempty⟩
            exact ⟨line, hempty, rfl⟩
          · rintro ⟨empty, hempty, heq⟩
            cases heq
            exact ⟨rfl, hempty⟩

/-- The records belong to the first groups of lines, in order. -/
theorem csvYielded_lineGroups (limit : Nat) (text : Text) :
    List.Forall₂ RecordOf (csvYielded limit text)
      ((lineGroups false (readlines text)).take (csvYielded limit text).length) := by
  have hstart : Reader.start.AtLine false := ⟨Or.inl rfl, rfl, rfl⟩
  obtain ⟨rows, hrows, hmatch⟩ := yielded_lines limit (readlines text) rfl hstart nofun
  rw [csvYielded, hrows]
  exact hmatch

end GdalFull.Lib
