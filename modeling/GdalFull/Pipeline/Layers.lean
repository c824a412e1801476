import GdalFull.Pipeline.Pg
import Mathlib.Data.Char
import Mathlib.Data.List.Dedup
import Mathlib.Data.List.Lex
import Mathlib.Data.List.TakeWhile

/-!
# The layers of a database

`run_pipeline_pg.sh` takes the layer names from what `ogrinfo -so` prints, with two substitutions of
`sed` that are applied one after the other to each line, `grep -v '^$'` and `sort -u`.

`layers_iff` says when `LAYERS` has exactly the listed names: the name in a line `N: name (Type)`
must not have a blank or `(` in it, and that in a line `Layer name: name` must not begin with a
blank, nor with digits and a colon before a name that is not listed.
-/

namespace GdalFull.Pipeline

/-! ## The commands -/

/-- `s/^Layer name: *//`; `none` if the pattern is not there. -/
def cutTitle (line : Name) : Option Name :=
  if "Layer name:".toList <+: line then some ((line.drop 11).dropWhile (· = ' ')) else none

/-- A character of `[^ (]`. -/
def nameChar (c : Char) : Bool := c ≠ ' ' && c ≠ '('

/-- `s/^[0-9]*: *\([^ (]*\).*/\1/`. -/
def cutNumber (line : Name) : Option Name :=
  match line.dropWhile Char.isDigit with
  | ':' :: rest => some ((rest.dropWhile (· = ' ')).takeWhile nameChar)
  | _ => none

/-- What `sed` prints for a line: the second substitution is applied to what the first one
leaves. -/
def sedLine (line : Name) : List Name :=
  match cutTitle line with
  | some name => name :: (cutNumber name).toList
  | none => (cutNumber line).toList

/-- The lines of `LAYERS`. -/
def layerLines (lines : List Name) : List Name :=
  (((lines.flatMap sedLine).filter (· ≠ [])).dedup).mergeSort fun a b => decide (a ≤ b)

theorem mem_layerLines {lines : List Name} {name : Name} :
    name ∈ layerLines lines ↔ name ≠ [] ∧ ∃ line ∈ lines, name ∈ sedLine line := by
  rw [layerLines, List.mem_mergeSort, List.mem_dedup, List.mem_filter, List.mem_flatMap,
    decide_eq_true_eq]
  exact And.comm

theorem nodup_layerLines (lines : List Name) : (layerLines lines).Nodup :=
  (List.mergeSort_perm _ _).nodup_iff.mpr (List.nodup_dedup _)

/-! ## The listing -/

/-- The two forms in which a layer is listed. -/
inductive Form where
  | numbered (n : Nat) (type : Name)
  | titled

def Form.type : Form → Name
  | .numbered _ type => type
  | .titled => []

/-- A layer has one line in the listing. -/
structure ListedLayer where
  name : Name
  form : Form
  name_ne : name ≠ []
  oneLine : '\n' ∉ name ∧ '\n' ∉ form.type

def ListedLayer.line (l : ListedLayer) : Name :=
  match l.form with
  | .numbered n type => Nat.toDigits 10 n ++ ": ".toList ++ l.name ++ " (".toList ++ type ++ [')']
  | .titled => "Layer name: ".toList ++ l.name

/-- The layers of a database, each listed once. -/
structure Listing where
  layers : List ListedLayer
  nodup : (layers.map ListedLayer.name).Nodup

def Listing.names (d : Listing) : List Name := d.layers.map ListedLayer.name

/-- `LAYERS` for the listing. -/
def Listing.found (d : Listing) : List Name := layerLines (d.layers.map ListedLayer.line)

/-- Each listed name is found once, and nothing else is. -/
def Listing.Exact (d : Listing) : Prop :=
  d.found.Nodup ∧ ∀ name, name ∈ d.found ↔ name ∈ d.names

/-- The name of a layer is printed as it is, and nothing else that is not listed. -/
def ListedLayer.Plain (names : List Name) (l : ListedLayer) : Prop :=
  match l.form with
  | .numbered _ _ => ∀ c ∈ l.name, nameChar c = true
  | .titled => l.name.head? ≠ some ' ' ∧ ∀ s ∈ cutNumber l.name, s = [] ∨ s ∈ names

theorem Listing.mem_found {d : Listing} {name : Name} :
    name ∈ d.found ↔ name ≠ [] ∧ ∃ l ∈ d.layers, name ∈ sedLine l.line := by
  rw [Listing.found, mem_layerLines]
  simp only [List.mem_map, exists_exists_and_eq_and]

theorem ListedLayer.eq_of_name {d : Listing} {l l' : ListedLayer} (hl : l ∈ d.layers)
    (hl' : l' ∈ d.layers) (h : l.name = l'.name) : l = l' :=
  List.inj_on_of_nodup_map d.nodup hl hl' h

/-! ## What a line gives -/

theorem dropWhile_number (n : Nat) (rest : Name) :
    (Nat.toDigits 10 n ++ ':' :: rest).dropWhile Char.isDigit = ':' :: rest := by
  have hdigits : ∀ c ∈ Nat.toDigits 10 n, c.isDigit = true := fun c hc =>
    Nat.isDigit_of_mem_toDigits (by decide) (by decide) hc
  rw [List.dropWhile_append_of_pos hdigits]
  rfl

theorem cutTitle_number (n : Nat) (rest : Name) :
    cutTitle (Nat.toDigits 10 n ++ ':' :: rest) = none := by
  refine if_neg fun htitle => ?_
  have hL : 'L' ∈ Nat.toDigits 10 n ++ [':'] := by
    cases hdigits : Nat.toDigits 10 n with
    | nil =>
      rw [hdigits] at htitle
      exact absurd (List.cons_prefix_cons.mp htitle).1 (by decide)
    | cons c cs =>
      rw [hdigits] at htitle
      exact (List.cons_prefix_cons.mp htitle).1 ▸ List.mem_cons_self
  rcases List.mem_append.mp hL with hmem | hmem
  · exact absurd (Nat.isDigit_of_mem_toDigits (by decide) (by decide) hmem) (by decide)
  · exact absurd hmem (by decide)

/-- The name in a numbered line is cut at its first blank or `(`. -/
theorem sedLine_numbered (n : Nat) (name type : Name) :
    sedLine (Nat.toDigits 10 n ++ ": ".toList ++ name ++ " (".toList ++ type ++ [')']) =
      [((name ++ (" (".toList ++ type ++ [')'])).dropWhile (· = ' ')).takeWhile nameChar] := by
  have hline : Nat.toDigits 10 n ++ ": ".toList ++ name ++ " (".toList ++ type ++ [')'] =
      Nat.toDigits 10 n ++ ':' :: ' ' :: (name ++ (" (".toList ++ type ++ [')'])) := by
    simp
  rw [hline, sedLine, cutTitle_number, cutNumber, dropWhile_number]
  rfl

theorem sedLine_titled (name : Name) :
    sedLine ("Layer name: ".toList ++ name) =
      name.dropWhile (· = ' ') :: (cutNumber (name.dropWhile (· = ' '))).toList := by
  have htitle : "Layer name:".toList <+: "Layer name: ".toList ++ name := ⟨' ' :: name, rfl⟩
  have hcut : cutTitle ("Layer name: ".toList ++ name) = some (name.dropWhile (· = ' ')) := by
    rw [cutTitle, if_pos htitle]
    rfl
  rw [sedLine, hcut]

/-- A name without blanks and `(` is printed by its numbered line. -/
theorem sedLine_numbered_plain (n : Nat) {name : Name} (hne : name ≠ [])
    (h : ∀ c ∈ name, nameChar c = true) (type : Name) :
    sedLine (Nat.toDigits 10 n ++ ": ".toList ++ name ++ " (".toList ++ type ++ [')']) =
      [name] := by
  obtain ⟨c, cs, rfl⟩ := List.exists_cons_of_ne_nil hne
  have hc : ¬ c = ' ' := by
    rintro rfl
    exact absurd (h ' ' List.mem_cons_self) (by decide)
  rw [sedLine_numbered, List.cons_append, List.dropWhile_cons_of_neg (by simpa using hc),
    ← List.cons_append, List.takeWhile_append_of_pos h]
  simp [nameChar]

theorem dropWhile_of_head {name : Name} (h : name.head? ≠ some ' ') :
    name.dropWhile (· = ' ') = name := by
  cases name with
  | nil => rfl
  | cons c cs =>
    have hc : ¬ c = ' ' := fun hc => h (congrArg some hc)
    exact List.dropWhile_cons_of_neg (by simpa using hc)

/-- What a line prints is all of one title, or has no blank and no `(` in it. -/
theorem mem_sedLine {l : ListedLayer} {name : Name} (h : name ∈ sedLine l.line) :
    l.form = .titled ∧ name = l.name.dropWhile (· = ' ') ∨ ∀ c ∈ name, nameChar c = true := by
  have htake : ∀ rest : Name, ∀ c ∈ rest.takeWhile nameChar, nameChar c = true :=
    fun rest c => List.mem_takeWhile_imp
  have hnumber : ∀ {line : Name}, name ∈ cutNumber line → ∀ c ∈ name, nameChar c = true := by
    intro line hmem
    unfold cutNumber at hmem
    split at hmem
    · cases hmem
      exact htake _
    · cases hmem
  unfold ListedLayer.line at h
  cases hform : l.form with
  | numbered n type =>
    rw [hform] at h
    dsimp only at h
    rw [sedLine_numbered, List.mem_singleton] at h
    exact Or.inr (h ▸ htake _)
  | titled =>
    rw [hform] at h
    dsimp only at h
    rw [sedLine_titled, List.mem_cons, Option.mem_toList] at h
    rcases h with h | h
    · exact Or.inl ⟨rfl, h⟩
    · exact Or.inr (hnumber h)

/-- Nothing that is printed begins with a blank. -/
theorem head?_of_mem_sedLine {l : ListedLayer} {name : Name} (h : name ∈ sedLine l.line) :
    name.head? ≠ some ' ' := by
  intro hhead
  rcases mem_sedLine h with ⟨_, rfl⟩ | hchar
  · have hnot := List.head?_dropWhile_not (fun c : Char => decide (c = ' ')) l.name
    rw [hhead] at hnot
    cases hnot
  · exact absurd (hchar ' ' (List.mem_of_mem_head? hhead)) (by decide)

/-! ## When the layers are exact -/

/-- Plain layers print their names, and nothing else that is not listed. -/
theorem Listing.exact_of_plain {d : Listing} (h : ∀ l ∈ d.layers, l.Plain d.names) :
    d.Exact := by
  have hprints : ∀ l ∈ d.layers, l.name ∈ sedLine l.line ∧
      ∀ name ∈ sedLine l.line, name = [] ∨ name ∈ d.names := by
    intro l hl
    have hmem : l.name ∈ d.names := List.mem_map_of_mem hl
    have hplain := h l hl
    unfold ListedLayer.Plain at hplain
    unfold ListedLayer.line
    cases hform : l.form with
    | numbered n type =>
      rw [hform] at hplain
      dsimp only at hplain ⊢
      rw [sedLine_numbered_plain n l.name_ne hplain]
      refine ⟨List.mem_cons_self, ?_⟩
      intro name hname
      exact Or.inr (List.mem_singleton.mp hname ▸ hmem)
    | titled =>
      rw [hform] at hplain
      dsimp only at hplain ⊢
      rw [sedLine_titled, dropWhile_of_head hplain.1]
      refine ⟨List.mem_cons_self, ?_⟩
      intro name hname
      rcases List.mem_cons.mp hname with rfl | hname
      · exact Or.inr hmem
      · exact hplain.2 name (Option.mem_toList.mp hname)
  refine ⟨nodup_layerLines _, ?_⟩
  intro name
  rw [Listing.mem_found]
  constructor
  · rintro ⟨hne, l, hl, hname⟩
    exact ((hprints l hl).2 name hname).resolve_left hne
  · intro hname
    obtain ⟨l, hl, rfl⟩ := List.mem_map.mp hname
    exact ⟨l.name_ne, l, hl, (hprints l hl).1⟩

/-- A name with a blank or `(` in a numbered line is not found: only a title with blanks before it
could print it, and that title is then not found. -/
theorem Listing.plain_numbered {d : Listing} (h : d.Exact) {l : ListedLayer} (hl : l ∈ d.layers)
    (hform : l.form ≠ .titled) : ∀ c ∈ l.name, nameChar c = true := by
  obtain ⟨_, l', hl', hprint⟩ := Listing.mem_found.mp ((h.2 _).mpr (List.mem_map_of_mem hl))
  rcases mem_sedLine hprint with ⟨hform', hname⟩ | hchar
  · obtain ⟨_, l'', _, hprint'⟩ := Listing.mem_found.mp ((h.2 _).mpr (List.mem_map_of_mem hl'))
    rw [dropWhile_of_head (head?_of_mem_sedLine hprint')] at hname
    rw [ListedLayer.eq_of_name hl hl' hname] at hform
    exact absurd hform' hform
  · exact hchar

/-- **When the layers are exact.** -/
theorem layers_iff (d : Listing) : d.Exact ↔ ∀ l ∈ d.layers, l.Plain d.names := by
  constructor
  · intro h l hl
    unfold ListedLayer.Plain
    cases hform : l.form with
    | numbered n type =>
      have hne : l.form ≠ .titled := by
        rw [hform]
        exact Form.noConfusion
      exact Listing.plain_numbered h hl hne
    | titled =>
      have hmem : l.name ∈ d.names := List.mem_map_of_mem hl
      obtain ⟨_, l', _, hprint⟩ := Listing.mem_found.mp ((h.2 _).mpr hmem)
      have hhead := head?_of_mem_sedLine hprint
      refine ⟨hhead, ?_⟩
      intro s hs
      by_cases hnil : s = []
      · exact Or.inl hnil
      · refine Or.inr ((h.2 s).mp (Listing.mem_found.mpr ⟨hnil, l, hl, ?_⟩))
        rw [ListedLayer.line, hform]
        dsimp only
        rw [sedLine_titled, dropWhile_of_head hhead]
        exact List.mem_cons_of_mem _ (Option.mem_toList.mpr hs)
  · exact Listing.exact_of_plain

/-- A table with a blank in its name, and a title with a colon. -/
def spacedListing : Listing where
  layers := [⟨"old roads".toList, .numbered 1 "Point".toList, by decide, by decide⟩,
    ⟨"2: b".toList, .titled, by decide, by decide⟩]
  nodup := by decide

/-- `old` is found for `old roads`, and `b` as well as `2: b`. -/
theorem layers_truncated :
    "old roads".toList ∈ spacedListing.names ∧ "old roads".toList ∉ spacedListing.found ∧
    "old".toList ∈ spacedListing.found ∧ "old".toList ∉ spacedListing.names ∧
    "b".toList ∈ spacedListing.found ∧ "b".toList ∉ spacedListing.names ∧
    ¬ spacedListing.Exact := by
  have hold : "old".toList ∈ spacedListing.found := Listing.mem_found.mpr (by decide)
  have hb : "b".toList ∈ spacedListing.found := Listing.mem_found.mpr (by decide)
  have hroads : "old roads".toList ∉ spacedListing.found := by
    rw [Listing.mem_found]
    decide
  refine ⟨by decide, hroads, hold, by decide, hb, by decide, ?_⟩
  intro hexact
  exact absurd ((hexact.2 _).mp hold) (by decide)

end GdalFull.Pipeline
