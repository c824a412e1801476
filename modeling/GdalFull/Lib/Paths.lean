import GdalFull.Lib.PyStr
import Mathlib.Data.List.DropRight

/-!
# Relative paths

A path is followed component by component, with `..` for the directory above; the root is above
itself. Links are left out. A relative path first goes up, by a number of steps that does not
depend on where it starts (`climb`), and then down (`locate_relative`). So it means the same in
two directories exactly if they are the same after that many steps up (`locate_eq_iff`).

A system call follows a path only through directories that are there (`Directories.resolve`). If
the steps up come first it gets to the place that the path means, if that is a directory
(`resolve_upFirst`).
-/

namespace GdalFull.Lib

/-- A place in the file system: the names on the way from the root. -/
abbrev Place := List Text

/-- One component of a path. -/
def follow (p : Place) (name : Text) : Place :=
  if name = [] ∨ name = ['.'] then p
  else if name = ['.', '.'] then p.dropLast
  else p ++ [name]

def isAbsolute (path : Text) : Bool := path.head? = some '/'

/-- What a path means in a working directory. -/
def locate (cwd : Place) (path : Text) : Place :=
  (path.splitOn '/').foldl follow (if isAbsolute path then [] else cwd)

/-- A way from an unknown place: so many steps up, and then down. -/
structure Way where
  up : Nat
  down : Place

def Way.follow (w : Way) (name : Text) : Way :=
  if name = [] ∨ name = ['.'] then w
  else if name = ['.', '.'] then
    if w.down = [] then { w with up := w.up + 1 } else { w with down := w.down.dropLast }
  else { w with down := w.down ++ [name] }

/-- The end of a way from `p`. -/
def Way.endFrom (w : Way) (p : Place) : Place := p.rdrop w.up ++ w.down

def wayOf (path : Text) : Way := (path.splitOn '/').foldl Way.follow ⟨0, []⟩

/-- The steps up of a relative path. -/
def climb (path : Text) : Nat := (wayOf path).up

theorem rdrop_succ (p : Place) (n : Nat) : p.rdrop (n + 1) = (p.rdrop n).dropLast := by
  unfold List.rdrop
  rw [List.dropLast_eq_take, List.take_take, List.length_take]
  congr 1
  omega

theorem endFrom_follow (w : Way) (p : Place) (name : Text) :
    (w.follow name).endFrom p = follow (w.endFrom p) name := by
  unfold Way.follow follow
  split
  · rfl
  · split
    · split
      · rename_i hdown
        rw [Way.endFrom, Way.endFrom, hdown, List.append_nil, List.append_nil, rdrop_succ]
      · rename_i hdown
        rw [Way.endFrom, Way.endFrom, List.dropLast_append_of_ne_nil hdown]
    · rw [Way.endFrom, Way.endFrom, List.append_assoc]

theorem endFrom_foldl (names : List Text) (w : Way) (p : Place) :
    (names.foldl Way.follow w).endFrom p = names.foldl follow (w.endFrom p) := by
  induction names generalizing w with
  | nil => rfl
  | cons name names ih => rw [List.foldl_cons, List.foldl_cons, ih, endFrom_follow]

theorem locate_relative {path : Text} (h : isAbsolute path = false) (cwd : Place) :
    locate cwd path = cwd.rdrop (climb path) ++ (wayOf path).down := by
  have hstart : Way.endFrom ⟨0, []⟩ cwd = cwd := by
    rw [Way.endFrom, List.rdrop_zero, List.append_nil]
  have hend := endFrom_foldl (path.splitOn '/') ⟨0, []⟩ cwd
  rw [hstart] at hend
  rw [locate, h, if_neg Bool.false_ne_true, ← hend]
  rfl

/-- **A path in two directories.** It means the same exactly if it is absolute, or if the two
directories are the same after the steps up. -/
theorem locate_eq_iff (cwd cwd' : Place) (path : Text) :
    locate cwd path = locate cwd' path ↔
      isAbsolute path = true ∨ cwd.rdrop (climb path) = cwd'.rdrop (climb path) := by
  cases h : isAbsolute path with
  | true =>
    rw [locate, locate, h]
    simp
  | false =>
    rw [locate_relative h, locate_relative h, List.append_left_inj]
    simp

example : locate ["home".toList, "gdal".toList] "../data/./out/".toList =
    ["home".toList, "data".toList, "out".toList] := by decide

/-! ## Directories -/

/-- The directories of a file system, each in one that is there too. -/
structure Directories where
  isDir : Place → Bool
  up : ∀ p, isDir p = true → isDir p.dropLast = true

namespace Directories

variable (ds : Directories)

/-- The components of a path, followed as long as the directories are there. -/
def walk : Place → List Text → Option Place
  | p, [] => some p
  | p, name :: names => if ds.isDir (follow p name) then walk (follow p name) names else none

/-- The directory that a path leads to. The empty path leads to none. -/
def resolve (cwd : Place) (path : Text) : Option Place :=
  if path = [] then none else ds.walk (if isAbsolute path then [] else cwd) (path.splitOn '/')

end Directories

/-- A component that is no name. -/
def isStep (name : Text) : Bool := name = [] ∨ name = ['.'] ∨ name = ['.', '.']

/-- All steps up come before the first name. -/
def upFirst (path : Text) : Bool :=
  ((path.splitOn '/').dropWhile isStep).all (· ≠ ['.', '.'])

theorem follow_down (p : Place) {name : Text} (h : name ≠ ['.', '.']) : p <+: follow p name := by
  unfold follow
  rw [if_neg h]
  split
  · exact List.prefix_rfl
  · exact List.prefix_append p [name]

theorem prefix_foldl_follow {names : List Text} (h : ∀ name ∈ names, name ≠ ['.', '.'])
    (p : Place) : p <+: names.foldl follow p := by
  induction names generalizing p with
  | nil => exact List.prefix_rfl
  | cons name names ih =>
    obtain ⟨hname, hnames⟩ := List.forall_mem_cons.mp h
    exact (follow_down p hname).trans (ih hnames (follow p name))

namespace Directories

variable {ds : Directories}

theorem isDir_above {p q : Place} (h : p <+: q) (hq : ds.isDir q = true) :
    ds.isDir p = true := by
  obtain ⟨t, rfl⟩ := h
  induction t using List.reverseRecOn with
  | nil => rwa [List.append_nil] at hq
  | append_singleton t name ih =>
    have hup := ds.up _ hq
    rw [← List.append_assoc, List.dropLast_concat] at hup
    exact ih hup

/-- On the way down every directory is on the way to the last one. -/
theorem walk_down {names : List Text} (h : ∀ name ∈ names, name ≠ ['.', '.']) {p : Place}
    (hp : ds.isDir p = true) :
    ds.walk p names =
      if ds.isDir (names.foldl follow p) then some (names.foldl follow p) else none := by
  induction names generalizing p with
  | nil => rw [walk, List.foldl_nil, if_pos hp]
  | cons name names ih =>
    obtain ⟨-, hnames⟩ := List.forall_mem_cons.mp h
    rw [walk, List.foldl_cons]
    by_cases hdir : ds.isDir (follow p name) = true
    · rw [if_pos hdir, ih hnames hdir]
    · rw [if_neg hdir, if_neg]
      exact fun hend => hdir (isDir_above (prefix_foldl_follow hnames _) hend)

/-- Steps up do not leave the directories. -/
theorem isDir_step {name : Text} (h : isStep name = true) {p : Place} (hp : ds.isDir p = true) :
    ds.isDir (follow p name) = true := by
  unfold follow
  split
  · exact hp
  · rename_i hdot
    have hup : name = ['.', '.'] := by
      rcases of_decide_eq_true h with hnil | hone | hup
      · exact absurd (Or.inl hnil) hdot
      · exact absurd (Or.inr hone) hdot
      · exact hup
    rw [if_pos hup]
    exact ds.up p hp

theorem walk_steps {steps : List Text} (h : ∀ name ∈ steps, isStep name = true)
    (names : List Text) {p : Place} (hp : ds.isDir p = true) :
    ds.isDir (steps.foldl follow p) = true ∧
      ds.walk p (steps ++ names) = ds.walk (steps.foldl follow p) names := by
  induction steps generalizing p with
  | nil => exact ⟨hp, rfl⟩
  | cons name steps ih =>
    obtain ⟨hname, hsteps⟩ := List.forall_mem_cons.mp h
    have hdir := isDir_step hname hp
    rw [List.cons_append, walk, if_pos hdir, List.foldl_cons]
    exact ih hsteps hdir

/-- A relative path with its steps up first. -/
theorem resolve_upFirst {path : Text} (hpath : path ≠ []) (hrel : isAbsolute path = false)
    (hfirst : upFirst path = true) {cwd : Place} (hcwd : ds.isDir cwd = true) :
    ds.resolve cwd path =
      if ds.isDir (locate cwd path) then some (locate cwd path) else none := by
  have hnames : ∀ name ∈ (path.splitOn '/').dropWhile isStep, name ≠ ['.', '.'] := by
    simpa [upFirst] using hfirst
  have hsteps : ∀ name ∈ (path.splitOn '/').takeWhile isStep, isStep name = true :=
    fun name => List.mem_takeWhile_imp
  have hsplit := List.takeWhile_append_dropWhile (p := isStep) (l := path.splitOn '/')
  obtain ⟨hdir, hwalk⟩ := walk_steps hsteps ((path.splitOn '/').dropWhile isStep) hcwd
  rw [hsplit] at hwalk
  have hlocate : locate cwd path = ((path.splitOn '/').dropWhile isStep).foldl follow
      (((path.splitOn '/').takeWhile isStep).foldl follow cwd) := by
    rw [← List.foldl_append, hsplit, locate, hrel, if_neg Bool.false_ne_true]
  rw [resolve, if_neg hpath, hrel, if_neg Bool.false_ne_true, hwalk, walk_down hnames hdir,
    hlocate]

/-- **A path from two directories.** With its steps up first it leads from both of them to the same
directory, if it leads to one, exactly if it is absolute or the two are the same after these
steps. -/
theorem resolve_eq_iff {path : Text} (hfirst : upFirst path = true) {cwd cwd' place : Place}
    (hcwd : ds.isDir cwd = true) (hcwd' : ds.isDir cwd' = true)
    (hplace : ds.resolve cwd path = some place) :
    ds.resolve cwd' path = some place ↔
      isAbsolute path = true ∨ cwd.rdrop (climb path) = cwd'.rdrop (climb path) := by
  rw [← locate_eq_iff]
  have hpath : path ≠ [] := by
    intro hnil
    rw [resolve, if_pos hnil] at hplace
    cases hplace
  cases hrel : isAbsolute path with
  | true =>
    rw [resolve, hrel] at hplace ⊢
    rw [locate, locate, hrel]
    exact iff_of_true hplace rfl
  | false =>
    rw [resolve_upFirst hpath hrel hfirst hcwd, Option.ite_none_right_eq_some] at hplace
    obtain ⟨hdir, hend⟩ := hplace
    rw [← Option.some.inj hend, resolve_upFirst hpath hrel hfirst hcwd',
      Option.ite_none_right_eq_some, Option.some.injEq]
    constructor
    · exact fun h => h.2.symm
    · intro h
      rw [← h]
      exact ⟨hdir, rfl⟩

end Directories

end GdalFull.Lib
