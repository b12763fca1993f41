/-
# Modules that are remembered

The module of a directory is looked for going up, and what is found on the way is remembered for
every directory that was passed, also that there is nothing to be found. Each entry is what the walk
without entries finds for its directory, and a walk that meets such an entry may stop there, because
what is left of it is the walk from that directory. So a row of questions gets the answers that each
of them would get alone: the path of the module of the nearest module file, with the names from
there down to the package.

Key definitions: `answersFrom`, `IsNearest`, `Answers`, `IsWalk`, `IsTrue`, `Agrees`.
Key theorems: `upwards_take`, `nearestKnown_agrees`, `importPathKnown_agrees`, `answersFrom_eq_map`,
`IsNearest.at?_eq`, `importPath_iff`, `remembered_answers`.
-/
import GoSchema.Module.Lookup
import GoSchema.Proofs.Outcome

namespace GoSchema

namespace Module

open Outcome

variable {t : FileTree} {known : Known} {dir home : AbsolutePath}

/-- What is remembered after a question; a fault leaves it as it is. -/
def after (known : Known) : Except Fault (Option String × Known) → Known
  | .ok (_, known) => known
  | .error _ => known

/-- The import paths of the packages of files, asked for in order. -/
def answersFrom (t : FileTree) (known : Known) : List Path → List (Except Fault (Option String))
  | [] => []
  | file :: files =>
    (importPathKnown t known file).map Prod.fst ::
      answersFrom t (after known (importPathKnown t known file)) files

/-- The answer for a file when nothing is remembered. -/
def freshAnswer (t : FileTree) (file : Path) : Except Fault (Option String) :=
  (importPathKnown t [] file).map Prod.fst

/-- Whether a directory has a module file. -/
def HasFile (t : FileTree) (home : AbsolutePath) : Prop :=
  ∃ text, t.nodeAt? (home ++ [fileName]) = some (.file text)

/-- Whether a directory is the nearest one with a module file, going up from another one. -/
structure IsNearest (t : FileTree) (dir home : AbsolutePath) : Prop where
  above : home <+: dir
  file : HasFile t home
  first : ∀ other, other <+: dir → HasFile t other → other.length ≤ home.length

/-- What the import path of the package in a directory is. -/
inductive Answers (t : FileTree) (dir : AbsolutePath) : Except Fault (Option String) → Prop
  /-- There is no module file. -/
  | outside (h : ∀ home, home <+: dir → ¬ HasFile t home) : Answers t dir (.ok none)
  /-- The nearest module file names no module. -/
  | unnamed {home : AbsolutePath} {text : String} (h : IsNearest t dir home)
      (file : t.nodeAt? (home ++ [fileName]) = some (.file (some text)))
      (no : pathOf text.toList = none) : Answers t dir (.ok none)
  /-- The nearest module file names a module, and `names` lead from there to the package. -/
  | inside {home : AbsolutePath} {text : String} {path : List Char} {names : List String}
      (h : IsNearest t dir home)
      (file : t.nodeAt? (home ++ [fileName]) = some (.file (some text)))
      (module : pathOf text.toList = some path) (down : dir = home ++ names) :
      Answers t dir (.ok (some ("/".intercalate (String.ofList path :: names))))
  /-- The nearest module file is no text. -/
  | unreadable {home : AbsolutePath} (h : IsNearest t dir home)
      (file : t.nodeAt? (home ++ [fileName]) = some (.file none)) :
      Answers t dir (.error (.io (absolute (home ++ [fileName])) .notText))

/-! ### Walks -/

/-- What is above a directory is the same for a walk that passes it and for one that starts
at it. -/
theorem upwards_take (dir : AbsolutePath) : ∀ {m n : Nat}, m ≤ n →
    upwards (dir.take n) m = upwards dir m
  | 0, _, _ => rfl
  | m + 1, n, h => by
    rw [upwards, upwards, List.take_take, Nat.min_eq_left h, upwards_take dir (by omega)]

/-- Whether every part of a list that goes on to its end is the walk from its first directory. -/
def IsWalk : List AbsolutePath → Prop
  | [] => True
  | dir :: above => dir :: above = upwards dir dir.length ∧ IsWalk above

theorem isWalk_upwards (dir : AbsolutePath) : ∀ {n : Nat}, n ≤ dir.length → IsWalk (upwards dir n)
  | 0, _ => ⟨rfl, trivial⟩
  | n + 1, h => by
    refine ⟨?_, isWalk_upwards dir (Nat.le_of_succ_le h)⟩
    rw [List.length_take, Nat.min_eq_left h, upwards_take dir (Nat.le_refl _)]
    rfl

/-- Whether every entry is what the walk without entries finds. -/
def IsTrue (t : FileTree) (known : Known) : Prop :=
  ∀ dir m, known.lookup dir = some m → nearest t (upwards dir dir.length) = .ok m

theorem isTrue_nil : IsTrue t [] := fun _ _ h => nomatch h

theorem IsTrue.cons (h : IsTrue t known) {m : Option Module}
    (hm : nearest t (upwards dir dir.length) = .ok m) : IsTrue t ((dir, m) :: known) := by
  intro other m' hlookup
  rw [List.lookup_cons] at hlookup
  split at hlookup
  · rename_i heq
    obtain rfl : other = dir := by simpa using heq
    obtain rfl := Option.some.inj hlookup
    exact hm
  · exact h other m' hlookup

/-- Whether a question with entries is answered as without them, and leaves true entries. -/
structure Agrees {α : Type} (t : FileTree) (plain : Except Fault α)
    (result : Except Fault (α × Known)) : Prop where
  answer : result.map Prod.fst = plain
  entries : ∀ a known, result = .ok (a, known) → IsTrue t known

/-- **A walk with true entries** finds what the walk without them finds. By induction on the
directories that are left: an entry that is used is what the rest of the walk would find, and so is
the one that is added. -/
theorem nearestKnown_agrees (h : IsTrue t known) : ∀ {l : List AbsolutePath}, IsWalk l →
    Agrees t (nearest t l) (nearestKnown t known l)
  | [], _ => ⟨rfl, fun _ _ heq => by obtain ⟨-, rfl⟩ := Prod.mk.inj (Except.ok.inj heq); exact h⟩
  | dir :: above, ⟨hwalk, hrest⟩ => by
    have ih := nearestKnown_agrees h hrest
    unfold nearestKnown
    split
    · rename_i m hm
      refine ⟨?_, fun a known' heq => ?_⟩
      · rw [hwalk, h dir m hm]
        rfl
      · obtain ⟨-, rfl⟩ := Prod.mk.inj (Except.ok.inj heq)
        exact h
    · have hplain : nearest t (upwards dir dir.length) = (at? t dir).getD (nearest t above) := by
        rw [← hwalk, nearest]
      rw [hwalk, hplain]
      split
      · rename_i e he
        rw [he]
        exact ⟨rfl, nofun⟩
      · rename_i m hm
        rw [hm] at hplain ⊢
        refine ⟨rfl, fun a known' heq => ?_⟩
        obtain ⟨-, rfl⟩ := Prod.mk.inj (Except.ok.inj heq)
        exact h.cons hplain
      · rename_i hno
        rw [hno, Option.getD_none] at hplain ⊢
        refine ⟨?_, fun a known' heq => ?_⟩
        · rw [← ih.answer]
          cases nearestKnown t known above <;> rfl
        · obtain ⟨⟨m, found⟩, hfound, hpair⟩ := map_eq_ok_iff.1 heq
          obtain ⟨-, rfl⟩ := Prod.mk.inj hpair
          refine (ih.entries m found hfound).cons ?_
          rw [hplain, ← ih.answer, hfound]
          rfl

/-- **One question** is answered with true entries as without entries. -/
theorem importPathKnown_agrees (h : IsTrue t known) (file : Path) :
    Agrees t (importPath t file) (importPathKnown t known file) := by
  delta importPath importPathKnown
  split
  · exact ⟨rfl, nofun⟩
  · rename_i dir _
    have hwalk := nearestKnown_agrees h (isWalk_upwards dir (Nat.le_refl _))
    generalize nearestKnown t known (upwards dir dir.length) = result at hwalk
    refine ⟨?_, fun a known' heq => ?_⟩
    · rw [← hwalk.answer]
      cases result <;> rfl
    · obtain ⟨⟨m, found⟩, hfound, hpair⟩ := map_eq_ok_iff.1 heq
      obtain ⟨-, rfl⟩ := Prod.mk.inj hpair
      exact hwalk.entries m found hfound

theorem freshAnswer_eq (t : FileTree) (file : Path) : freshAnswer t file = importPath t file :=
  (importPathKnown_agrees isTrue_nil file).answer

theorem Agrees.after {plain : Except Fault (Option String)}
    {result : Except Fault (Option String × Known)} (h : Agrees t plain result)
    (hknown : IsTrue t known) : IsTrue t (after known result) := by
  cases result with
  | error e => exact hknown
  | ok found => exact h.entries found.1 found.2 rfl

/-- **Questions in a row** get the answers that each of them would get alone. -/
theorem answersFrom_eq_map (h : IsTrue t known) (files : List Path) :
    answersFrom t known files = files.map (importPath t) := by
  induction files generalizing known with
  | nil => rfl
  | cons file files ih =>
    have hagrees := importPathKnown_agrees h file
    rw [answersFrom, List.map_cons, hagrees.answer, ih (hagrees.after h)]

/-! ### What a walk finds -/

theorem at?_eq_none_iff : at? t home = none ↔ ¬ HasFile t home := by
  unfold at? HasFile
  cases t.nodeAt? (home ++ [fileName]) with
  | none => exact iff_of_true rfl nofun
  | some node =>
    cases node with
    | directory => exact iff_of_true rfl nofun
    | file text =>
      refine iff_of_false ?_ fun hno => hno ⟨text, rfl⟩
      cases text <;> nofun

theorem nearest_passing {k : Nat} : ∀ {n : Nat}, k ≤ n →
    (∀ i, k < i → i ≤ n → ¬ HasFile t (dir.take i)) →
    nearest t (upwards dir n) = nearest t (upwards dir k)
  | 0, h, _ => by rw [Nat.le_zero.1 h]
  | n + 1, h, hno => by
    rcases Nat.lt_or_eq_of_le h with hlt | rfl
    · rw [upwards, nearest, at?_eq_none_iff.2 (hno (n + 1) hlt (Nat.le_refl _)), Option.getD_none]
      exact nearest_passing (Nat.le_of_lt_succ hlt) fun i hi hle => hno i hi (by omega)
    · rfl

theorem nearest_of_outside (h : ∀ home, home <+: dir → ¬ HasFile t home) :
    nearest t (upwards dir dir.length) = .ok none := by
  rw [nearest_passing (Nat.zero_le _) fun i _ _ => h _ (List.take_prefix i dir), upwards, nearest,
    at?_eq_none_iff.2 (h [] List.nil_prefix)]
  rfl

/-- **A walk ends at the nearest directory with a module file.** -/
theorem IsNearest.at?_eq (h : IsNearest t dir home) :
    at? t home = some (nearest t (upwards dir dir.length)) := by
  have htake : dir.take home.length = home := (List.prefix_iff_eq_take.1 h.above).symm
  have hpassed : ∀ i, home.length < i → i ≤ dir.length → ¬ HasFile t (dir.take i) := by
    intro i hi hle hfile
    have hlong := h.first _ (List.take_prefix i dir) hfile
    rw [List.length_take, Nat.min_eq_left hle] at hlong
    omega
  obtain ⟨above, habove⟩ : ∃ above, upwards dir home.length = home :: above := by
    cases hk : home.length with
    | zero => exact ⟨[], by rw [List.length_eq_zero_iff.1 hk]; rfl⟩
    | succ k => exact ⟨upwards dir k, by rw [upwards, ← hk, htake]⟩
  rw [nearest_passing h.above.length_le hpassed, habove, nearest]
  cases hat : at? t home with
  | none => exact absurd h.file (at?_eq_none_iff.1 hat)
  | some found => rfl

theorem IsNearest.nearest_eq (h : IsNearest t dir home) {text : String}
    (file : t.nodeAt? (home ++ [fileName]) = some (.file (some text))) :
    nearest t (upwards dir dir.length) =
      .ok ((pathOf text.toList).map fun path => ⟨home, String.ofList path⟩) := by
  have hat := h.at?_eq
  rw [at?, file] at hat
  exact (Option.some.inj hat).symm

theorem exists_isNearest (h : home <+: dir) (hfile : HasFile t home) :
    ∃ home, IsNearest t dir home := by
  induction hn : dir.length - home.length using Nat.strongRecOn generalizing home with
  | ind n ih =>
    by_cases hlast : ∀ other, other <+: dir → HasFile t other → other.length ≤ home.length
    · exact ⟨home, h, hfile, hlast⟩
    · push Not at hlast
      obtain ⟨other, hother, hotherFile, hlong⟩ := hlast
      have := hother.length_le
      exact ih _ (by omega) hother hotherFile rfl

/-! ### Import paths -/

theorem exists_answers (t : FileTree) (dir : AbsolutePath) : ∃ a, Answers t dir a := by
  by_cases hfile : ∃ home, home <+: dir ∧ HasFile t home
  · obtain ⟨_, habove, hfile⟩ := hfile
    obtain ⟨home, hhome⟩ := exists_isNearest habove hfile
    obtain ⟨names, hnames⟩ := hhome.above
    obtain ⟨text, htext⟩ := hhome.file
    cases text with
    | none => exact ⟨_, .unreadable hhome htext⟩
    | some text =>
      cases hpath : pathOf text.toList with
      | none => exact ⟨_, .unnamed hhome htext hpath⟩
      | some path => exact ⟨_, .inside hhome htext hpath hnames.symm⟩
  · push Not at hfile
    exact ⟨_, .outside hfile⟩

theorem importPath_of_answers {file : Path} (hdir : packageDir t file = .ok dir)
    {a : Except Fault (Option String)} (h : Answers t dir a) : importPath t file = a := by
  have hplain : importPath t file =
      (nearest t (upwards dir dir.length)).map fun m => m.map (pathIn · dir) := by
    delta importPath
    rw [hdir]
  rw [hplain]
  cases h with
  | outside h =>
    rw [nearest_of_outside h]
    rfl
  | unnamed h file no =>
    rw [h.nearest_eq file, no]
    rfl
  | inside h file module down =>
    rw [h.nearest_eq file, module, down]
    simp [Except.map, pathIn]
  | unreadable h file =>
    have hat := h.at?_eq
    rw [at?, file] at hat
    rw [← Option.some.inj hat]
    rfl

/-- **The import path of a package** is put together from the path of the module and the names that
lead down from the nearest module file. -/
theorem importPath_iff {file : Path} (hdir : packageDir t file = .ok dir)
    {a : Except Fault (Option String)} : importPath t file = a ↔ Answers t dir a := by
  refine ⟨?_, importPath_of_answers hdir⟩
  rintro rfl
  obtain ⟨b, hb⟩ := exists_answers t dir
  rwa [importPath_of_answers hdir hb]

/-- **What is remembered does not show.** Whatever files are asked for in whatever order, each gets
the answer that it would get alone; and for a file in a directory that is there, this is the path of
the module of the nearest module file with the names from there down, nothing if there is no module
file or it names no module, and a fault if it is no text. -/
theorem remembered_answers (t : FileTree) (files : List Path) :
    answersFrom t [] files = files.map (freshAnswer t) ∧
      ∀ file dir, packageDir t file = .ok dir →
        ∀ a, freshAnswer t file = a ↔ Answers t dir a := by
  have hfresh : freshAnswer t = importPath t := funext fun file => freshAnswer_eq t file
  rw [hfresh]
  exact ⟨answersFrom_eq_map isTrue_nil files, fun file dir hdir a => importPath_iff hdir⟩

/-- A module with three directories in it: one with two levels, one with a module file that names no
module, and one with a module file that is no text. -/
def workTree : FileTree :=
  { workDir := ["w"]
    nodes :=
      [(["w"], .directory),
        (["w", "go.mod"], .file (some "module example.com/app\n")),
        (["w", "api"], .directory),
        (["w", "api", "v1"], .directory),
        (["w", "raw"], .directory),
        (["w", "raw", "go.mod"], .file none),
        (["w", "tools"], .directory),
        (["w", "tools", "go.mod"], .file (some "go 1.22\n")),
        (["w", "tools", "gen"], .directory)] }

/-- The second question fails, the third one finds that there is nothing, and the last one is
answered from what the first one has left. -/
theorem workTree_answers :
    packageDir workTree ⟨"api/v1/b.go"⟩ = .ok ["w", "api", "v1"] ∧
      (answersFrom workTree [] [⟨"api/v1/a.go"⟩, ⟨"raw/r.go"⟩, ⟨"tools/gen/g.go"⟩, ⟨"main.go"⟩,
        ⟨"api/v1/b.go"⟩]).map Except.toOption =
          [some (some "example.com/app/api/v1"), none, some none, some (some "example.com/app"),
            some (some "example.com/app/api/v1")] ∧
      answersFrom workTree [] [⟨"api/v1/a.go"⟩, ⟨"api/v1/b.go"⟩] =
        [freshAnswer workTree ⟨"api/v1/a.go"⟩, freshAnswer workTree ⟨"api/v1/b.go"⟩] ∧
      Answers workTree ["w", "api", "v1"] (.ok (some "example.com/app/api/v1")) := by
  have hdir : packageDir workTree ⟨"api/v1/b.go"⟩ = .ok ["w", "api", "v1"] := by rfl
  have hanswer : freshAnswer workTree ⟨"api/v1/b.go"⟩ = .ok (some "example.com/app/api/v1") := by
    rfl
  obtain ⟨hrow, hone⟩ := remembered_answers workTree [⟨"api/v1/a.go"⟩, ⟨"api/v1/b.go"⟩]
  exact ⟨hdir, by rfl, hrow, (hone _ _ hdir _).1 hanswer⟩

end Module

end GoSchema
