/-
# Ways through a tree

A path leads from the directory that relative paths start from through a list of places to its
target: its way. The path can be followed exactly when every place on its way is a directory, and
otherwise the first place that is none says what is wrong. If the path has something idle at its
end, then its target must be a directory, too. A path that goes on by names from a directory that is
there leads through places above its target.

Key definitions: `FileTree.IsTree`, `FileTree.way`, `FileTree.obstacle?`, `FileTree.passing`,
`FileTree.Settled`.
Key theorems: `IsTree.directory_of_prefix`, `target_eq`, `way_of_components`, `follow_eq`,
`locate_eq`, `locate_of_isBare`, `read_eq_notFound_iff`, `settled_of_not_up`, `Settled.mem_way`,
`Settled.not_file_of_missing`.
-/
import Mathlib.Data.List.Induction
import GoSchema.Proofs.PathSteps
import GoSchema.Proofs.Pointwise
import GoSchema.Proofs.WrittenFiles

namespace GoSchema

namespace FileTree

variable {t t' : FileTree}

/-- What a listing of entries must satisfy to be a tree: paths start from a directory, and every
entry stands in a directory. -/
structure IsTree (t : FileTree) : Prop where
  workDir : t.nodeAt? t.workDir = some .directory
  above : ∀ a n, t.nodeAt? a = some n → t.nodeAt? a.dropLast = some .directory

/-- The listing is finite, so it can be checked. -/
theorem isTree_of_all (hdir : t.nodeAt? t.workDir = some .directory)
    (h : ∀ e ∈ t.nodes, t.nodeAt? e.1.dropLast = some .directory) : t.IsTree := by
  refine ⟨hdir, fun a n hn => ?_⟩
  by_cases ha : a = []
  · rw [ha]
    exact nodeAt?_nil t
  · rw [nodeAt?, if_neg (by simpa using ha)] at hn
    exact h (a, n) (Pointwise.mem_of_lookup hn)

namespace IsTree

/-- Every place above an entry is a directory. -/
theorem directory_of_prefix (ht : t.IsTree) {a b : AbsolutePath} {n : FileNode}
    (hn : t.nodeAt? a = some n) (h : b <+: a) (hne : b ≠ a) : t.nodeAt? b = some .directory := by
  obtain ⟨rest, rfl⟩ := h
  induction rest using List.reverseRecOn generalizing n with
  | nil => simp at hne
  | append_singleton rest s ih =>
    have habove := ht.above _ _ hn
    rw [← List.append_assoc, List.dropLast_concat] at habove
    by_cases hrest : rest = []
    · rwa [hrest, List.append_nil] at habove
    · exact ih habove (by simpa using hrest)

/-- An entry may be put where there is no directory, into a directory. -/
theorem put (ht : t.IsTree) {a : AbsolutePath} (hfree : t.nodeAt? a ≠ some .directory)
    (habove : t.nodeAt? a.dropLast = some .directory) (n : FileNode) : (t.put a n).IsTree := by
  have hdir : ∀ b, t.nodeAt? b = some .directory → (t.put a n).nodeAt? b = some .directory := by
    intro b hb
    have hne : b ≠ a := fun heq => hfree (heq ▸ hb)
    rwa [nodeAt?_put_ne hne]
  refine ⟨hdir _ ht.workDir, fun b m hm => hdir _ ?_⟩
  by_cases hb : b = a
  · rwa [hb]
  · rw [nodeAt?_put_ne hb] at hm
    exact ht.above b m hm

/-- An entry may be removed with all that is in it, unless relative paths start from there. -/
theorem remove (ht : t.IsTree) {p : AbsolutePath} (hp : ¬ p <+: t.workDir) :
    (t.remove p).IsTree := by
  refine ⟨?_, fun a n hn => ?_⟩
  · rw [← ht.workDir]
    exact nodeAt?_remove hp t
  · by_cases ha : a = []
    · rw [ha]
      exact nodeAt?_nil _
    · have hout := not_prefix_of_nodeAt?_remove ha hn
      rw [nodeAt?_remove hout] at hn
      rw [nodeAt?_remove fun hin => hout (hin.trans a.dropLast_prefix)]
      exact ht.above a n hn

end IsTree

/-! ### Places on a way -/

/-- The place that a step leads to. -/
def stepFrom (a : AbsolutePath) : Path.Component → AbsolutePath
  | .root => []
  | .here => a
  | .up => a.dropLast
  | .name s => a ++ [s]

/-- The place that steps lead to. -/
def endOf (a : AbsolutePath) (cs : List Path.Component) : AbsolutePath := cs.foldl stepFrom a

/-- The places that steps are taken from. -/
def placesFrom (a : AbsolutePath) : List Path.Component → List AbsolutePath
  | [] => []
  | c :: cs => a :: placesFrom (stepFrom a c) cs

@[simp] theorem endOf_nil (a : AbsolutePath) : endOf a [] = a := rfl

@[simp] theorem endOf_cons (a : AbsolutePath) (c : Path.Component) (cs : List Path.Component) :
    endOf a (c :: cs) = endOf (stepFrom a c) cs := rfl

theorem endOf_append (a : AbsolutePath) (cs ds : List Path.Component) :
    endOf a (cs ++ ds) = endOf (endOf a cs) ds := List.foldl_append

theorem placesFrom_append (a : AbsolutePath) (cs ds : List Path.Component) :
    placesFrom a (cs ++ ds) = placesFrom a cs ++ placesFrom (endOf a cs) ds := by
  induction cs generalizing a with
  | nil => rfl
  | cons c cs ih => simp [placesFrom, ih]

theorem placesFrom_concat (a : AbsolutePath) (cs : List Path.Component) (c : Path.Component) :
    placesFrom a (cs ++ [c]) = placesFrom a cs ++ [endOf a cs] := by
  rw [placesFrom_append]
  rfl

theorem endOf_names (a : AbsolutePath) (names : List String) :
    endOf a (names.map .name) = a ++ names := by
  induction names generalizing a with
  | nil => simp
  | cons s names ih => simp [stepFrom, ih]

/-- The places that a path leads through on the way to its target. -/
def way (t : FileTree) (p : Path) : List AbsolutePath := placesFrom t.workDir p.components

theorem way_congr (h : t'.workDir = t.workDir) (p : Path) : t'.way p = t.way p := by
  rw [way, way, h]

theorem walk_eq (start : AbsolutePath) (pieces : List (List Char)) :
    walk start pieces = endOf start (pieces.filterMap Path.component?) := by
  induction pieces generalizing start with
  | nil => rfl
  | cons piece pieces ih =>
    by_cases hidle : Path.isIdle piece = true
    · simp [walk, hidle, Path.component?, ih]
    · by_cases hup : piece = ['.', '.']
      · subst hup
        rw [walk, if_neg hidle, if_pos rfl, ih]
        rfl
      · rw [walk, if_neg hidle, if_neg hup, ih]
        simp [Path.component?, hidle, hup, stepFrom]

/-- **Where a path leads** is found step by step. -/
theorem target_eq (t : FileTree) (p : Path) : t.target p = endOf t.workDir p.components := by
  rw [Path.components_eq, endOf_append, Path.lead]
  unfold target
  split
  · rename_i hp
    simp [hp, Path.head]
  · rename_i rest hp
    simp [hp, Path.head, walk_eq, Path.steps, Text.splitAt, List.filterMap_cons,
      stepFrom]
  · rename_i s hempty hroot
    have hsame : endOf t.workDir (Path.head p.text.toList).1.toList = t.workDir := by
      rcases Path.head_cases p.text.toList with ⟨rest, hs, -⟩ | ⟨-, h⟩ | ⟨rest, -, h⟩ | ⟨-, -, h⟩
      · exact absurd hs (hroot rest)
      · rw [h]
        rfl
      · rw [h]
        rfl
      · rw [h]
        rfl
    rw [hsame, walk_eq]
    rfl

theorem way_of_components {p q : Path} {c : Path.Component}
    (h : p.components = q.components ++ [c]) : t.way p = t.way q ++ [t.target q] := by
  rw [way, h, placesFrom_concat, target_eq]
  rfl

theorem IsTree.directory_above_end (ht : t.IsTree) {p : Path}
    (h : ∀ a ∈ t.way p, t.nodeAt? a = some .directory) :
    t.nodeAt? (t.target p).dropLast = some .directory := by
  rw [target_eq]
  unfold way at h
  cases hcs : p.components using List.reverseRecOn with
  | nil => exact ht.above _ _ ht.workDir
  | append_singleton cs c =>
    rw [hcs, placesFrom_concat] at h
    have hlast : t.nodeAt? (endOf t.workDir cs) = some .directory := h _ (by simp)
    rw [endOf_append]
    cases c with
    | root => exact nodeAt?_nil t
    | here => exact ht.above _ _ hlast
    | up => exact ht.above _ _ (ht.above _ _ hlast)
    | name s => simpa [stepFrom] using hlast

/-! ### Following a path -/

/-- The first place of a list that is no directory. -/
def obstacle? (t : FileTree) (l : List AbsolutePath) : Option AbsolutePath :=
  l.find? fun a => t.nodeAt? a ≠ some .directory

/-- What comes of passing through places: what is wrong at the first that is no directory. -/
def passing (t : FileTree) (l : List AbsolutePath) (a : AbsolutePath) :
    Except OsFault AbsolutePath :=
  match t.obstacle? l with
  | none => .ok a
  | some b => .error (if t.nodeAt? b = none then .notFound else .notDirectory)

theorem obstacle?_eq_none_iff {l : List AbsolutePath} :
    t.obstacle? l = none ↔ ∀ a ∈ l, t.nodeAt? a = some .directory := by
  simp [obstacle?, List.find?_eq_none]

theorem obstacle?_eq_some {l : List AbsolutePath} {a : AbsolutePath} (h : t.obstacle? l = some a) :
    a ∈ l ∧ t.nodeAt? a ≠ some .directory :=
  ⟨List.mem_of_find?_eq_some h, by simpa using List.find?_some h⟩

theorem obstacle?_concat (t : FileTree) (l : List AbsolutePath) (b : AbsolutePath) :
    t.obstacle? (l ++ [b]) =
      (t.obstacle? l).or (if t.nodeAt? b = some .directory then none else some b) := by
  unfold obstacle?
  rw [List.find?_append]
  by_cases hb : t.nodeAt? b = some .directory
  · simp [hb]
  · simp [hb]

theorem passing_of_directory {b : AbsolutePath} (hb : t.nodeAt? b = some .directory)
    (l : List AbsolutePath) (a : AbsolutePath) : t.passing (b :: l) a = t.passing l a := by
  simp [passing, obstacle?, hb]

theorem passing_of_not_directory {b : AbsolutePath} (hb : t.nodeAt? b ≠ some .directory)
    (l : List AbsolutePath) (a : AbsolutePath) : t.passing (b :: l) a =
      .error (if t.nodeAt? b = none then .notFound else .notDirectory) := by
  simp [passing, obstacle?, hb]

theorem passing_eq_ok_iff {l : List AbsolutePath} {a b : AbsolutePath} :
    t.passing l a = .ok b ↔ (∀ c ∈ l, t.nodeAt? c = some .directory) ∧ a = b := by
  rw [← obstacle?_eq_none_iff, passing]
  cases t.obstacle? l with
  | none => simp
  | some c => simp

/-- The places that must be directories for pieces to be followed: an idle piece at the end asks
that the last place is one, too. -/
def entered (start : AbsolutePath) (pieces : List (List Char)) : List AbsolutePath :=
  placesFrom start (pieces.filterMap Path.component?) ++
    if (pieces.getLast?.bind Path.component?).isSome then []
    else [endOf start (pieces.filterMap Path.component?)]

theorem entered_cons_cons (start : AbsolutePath) (piece next : List Char)
    (pieces : List (List Char)) : entered start (piece :: next :: pieces) =
      match Path.component? piece with
      | none => entered start (next :: pieces)
      | some c => start :: entered (stepFrom start c) (next :: pieces) := by
  unfold entered
  rw [List.getLast?_cons_cons]
  cases hc : Path.component? piece with
  | none => rw [List.filterMap_cons_none hc]
  | some c => rw [List.filterMap_cons_some hc, placesFrom, endOf_cons, List.cons_append]

/-- Pieces are followed from their start. -/
theorem entered_eq_cons (start : AbsolutePath) : ∀ {pieces : List (List Char)}, pieces ≠ [] →
    ∃ l, entered start pieces = start :: l
  | [], h => absurd rfl h
  | [piece], _ => by
    cases hc : Path.component? piece with
    | none => exact ⟨[], by simp [entered, hc, placesFrom]⟩
    | some c => exact ⟨[], by simp [entered, hc, placesFrom]⟩
  | piece :: next :: pieces, _ => by
    rw [entered_cons_cons]
    cases Path.component? piece with
    | none => exact entered_eq_cons start (List.cons_ne_nil next pieces)
    | some c => exact ⟨_, rfl⟩

theorem follow_cons (start : AbsolutePath) (piece : List Char) (pieces : List (List Char)) :
    t.follow start (piece :: pieces) =
      if t.nodeAt? start = some .directory then
        match Path.component? piece with
        | none => t.follow start pieces
        | some c => t.follow (stepFrom start c) pieces
      else .error (if t.nodeAt? start = none then .notFound else .notDirectory) := by
  rw [follow]
  cases hs : t.nodeAt? start with
  | none => simp
  | some n =>
    cases n with
    | file text => simp
    | directory =>
      by_cases hidle : Path.isIdle piece = true
      · simp [hidle, Path.component?]
      · by_cases hup : piece = ['.', '.']
        · simp [hup, Path.component?, Path.isIdle, stepFrom]
        · simp [hidle, hup, Path.component?, stepFrom]

/-- **Pieces can be followed** exactly when every place that is entered is a directory. -/
theorem follow_eq : ∀ {pieces : List (List Char)}, pieces ≠ [] → ∀ start : AbsolutePath,
    t.follow start pieces =
      t.passing (entered start pieces) (endOf start (pieces.filterMap Path.component?))
  | [], h, _ => absurd rfl h
  | [piece], _, start => by
    rw [follow_cons]
    by_cases hs : t.nodeAt? start = some .directory
    · cases hc : Path.component? piece with
      | none => simp [follow, entered, placesFrom, hc, hs, passing, obstacle?]
      | some c => simp [follow, entered, placesFrom, hc, hs, passing, obstacle?]
    · obtain ⟨l, hl⟩ := entered_eq_cons start (List.cons_ne_nil piece [])
      rw [if_neg hs, hl, passing_of_not_directory hs]
  | piece :: next :: pieces, _, start => by
    have ih := follow_eq (List.cons_ne_nil next pieces)
    rw [follow_cons]
    by_cases hs : t.nodeAt? start = some .directory
    · rw [if_pos hs, entered_cons_cons]
      cases hc : Path.component? piece with
      | none =>
        rw [List.filterMap_cons_none hc]
        exact ih start
      | some c =>
        rw [List.filterMap_cons_some hc, endOf_cons, passing_of_directory hs]
        exact ih _
    · obtain ⟨l, hl⟩ := entered_eq_cons start (List.cons_ne_nil piece (next :: pieces))
      rw [if_neg hs, hl, passing_of_not_directory hs]

/-- The places that must be directories for a path to be followed. -/
def enteredBy (t : FileTree) (p : Path) : List AbsolutePath :=
  t.way p ++ if p.EndsInStep then [] else [t.target p]

theorem enteredBy_eq {p : Path} {pieces : List (List Char)}
    (hsteps : pieces.filterMap Path.component? = Path.steps p.text.toList)
    (hlast : pieces.getLast?.bind Path.component? = p.lastStep?) :
    t.enteredBy p = placesFrom t.workDir p.lead.toList ++
      entered (endOf t.workDir p.lead.toList) pieces := by
  rw [enteredBy, way, target_eq, Path.components_eq, placesFrom_append, endOf_append, entered,
    hsteps, hlast, List.append_assoc]
  rfl

/-- **A path can be followed** exactly when every place that it enters is a directory. -/
theorem locate_eq (ht : t.IsTree) {p : Path} (hp : p.text ≠ "") :
    t.locate p = t.passing (t.enteredBy p) (t.target p) := by
  have hne := Text.splitAt_ne_nil '/'
  unfold locate
  split
  · rename_i hnil
    exact absurd (by simpa using hnil) hp
  · -- the root is entered from the working directory
    rename_i rest hroot
    have hlead : p.lead = some .root := by simp [Path.lead, hroot, Path.head]
    have hsteps : (Text.splitAt '/' rest).filterMap Path.component? =
        Path.steps p.text.toList := by
      rw [hroot, Path.steps_slash, Path.steps]
    have hlast : (Text.splitAt '/' rest).getLast?.bind Path.component? = p.lastStep? := by
      have hcons : Text.splitAt '/' ('/' :: rest) = [] :: Text.splitAt '/' rest := by
        simp [Text.splitAt]
      obtain ⟨piece, pieces, hrest⟩ := List.exists_cons_of_ne_nil (hne rest)
      rw [Path.lastStep?, hroot, hcons, hrest, List.getLast?_cons_cons]
    rw [follow_eq (hne rest), enteredBy_eq hsteps hlast, hsteps, target_eq, Path.components_eq,
      hlead]
    exact (passing_of_directory ht.workDir _ _).symm
  · rename_i hroot
    rw [follow_eq (hne _), enteredBy_eq rfl rfl, target_eq, Path.components_eq]
    rcases Path.head_cases p.text.toList with ⟨rest, hs, -⟩ | ⟨-, h⟩ | ⟨rest, -, h⟩ | ⟨-, -, h⟩
    · exact absurd hs (hroot rest)
    · rw [Path.lead, h]
      exact (passing_of_directory ht.workDir _ _).symm
    · rw [Path.lead, h]
      exact (passing_of_directory ht.workDir _ _).symm
    · rw [Path.lead, h]
      rfl

/-- A path that nothing idle stands at the end of enters the places on its way only. -/
theorem locate_of_isBare (ht : t.IsTree) {p : Path} (hp : p.IsBare) (hne : p.text ≠ "") :
    t.locate p = t.passing (t.way p) (t.target p) := by
  rw [locate_eq ht hne, enteredBy]
  split
  · rw [List.append_nil]
  · rename_i hno
    -- the root and the dot lead to directories
    have htarget : t.nodeAt? (t.target p) = some .directory := by
      obtain ⟨text⟩ := p
      rcases hp with rfl | rfl | rfl | hp
      · exact absurd rfl hne
      · rw [target_eq, Path.components_root]
        exact nodeAt?_nil t
      · rw [target_eq, Path.components_dot]
        exact ht.workDir
      · exact absurd hp hno
    rw [passing, obstacle?_concat, if_pos htarget, Option.or_none, passing]

/-- A file that can be read stands at the end of a way of directories. -/
theorem endsInStep_of_read (ht : t.IsTree) {p : Path} {text : String} (h : t.read p = .ok text) :
    p.EndsInStep ∧ (∀ a ∈ t.way p, t.nodeAt? a = some .directory) ∧
      t.nodeAt? (t.target p) = some (.file (some text)) := by
  obtain ⟨a, hl, -⟩ := read_eq_ok_iff.1 h
  have hn := nodeAt?_target_of_read h
  have hne : p.text ≠ "" := by
    intro hempty
    simp [locate, hempty] at hl
  rw [locate_eq ht hne, passing_eq_ok_iff, enteredBy] at hl
  obtain ⟨hway, hend⟩ := List.forall_mem_append.1 hl.1
  refine ⟨?_, hway, hn⟩
  by_contra hno
  rw [if_neg hno] at hend
  rw [hend _ (List.mem_singleton.2 rfl)] at hn
  cases hn

/-- **What is not found.** The first of the places to the target of a path that is no directory is
missing. -/
theorem read_eq_notFound_iff (ht : t.IsTree) {p : Path} (hp : p.text ≠ "") :
    t.read p = .error .notFound ↔
      ∃ a, t.obstacle? (t.way p ++ [t.target p]) = some a ∧ t.nodeAt? a = none := by
  rw [obstacle?_concat, read, node, locate_eq ht hp, passing, enteredBy]
  by_cases hstep : p.EndsInStep
  · rw [if_pos hstep, List.append_nil]
    cases ho : t.obstacle? (t.way p) with
    | some a => by_cases ha : t.nodeAt? a = none <;> simp [ha]
    | none =>
      cases hn : t.nodeAt? (t.target p) with
      | none => simp [hn]
      | some n =>
        cases n with
        | directory => simp [hn]
        | file text => cases text <;> simp [hn]
  · rw [if_neg hstep, obstacle?_concat]
    cases ho : t.obstacle? (t.way p) with
    | some a => by_cases ha : t.nodeAt? a = none <;> simp [ha]
    | none =>
      by_cases hdir : t.nodeAt? (t.target p) = some .directory
      · simp [hdir]
      · by_cases hn : t.nodeAt? (t.target p) = none <;> simp [hdir, hn]

/-! ### Paths that go on by names -/

/-- Whether a path leads through directories to one from which it goes on by names. -/
def Settled (t : FileTree) (p : Path) : Prop :=
  ∃ (cs : List Path.Component) (names : List String), p.components = cs ++ names.map .name ∧
    ∀ a ∈ placesFrom t.workDir cs ++ [endOf t.workDir cs], t.nodeAt? a = some .directory

theorem Settled.below {base p : Path} (h : t.Settled base) (hp : Path.Below base p) :
    t.Settled p := by
  obtain ⟨cs, names, hbase, hdirs⟩ := h
  obtain ⟨more, hp⟩ := hp
  exact ⟨cs, names ++ more, by rw [hp, hbase, List.map_append, List.append_assoc], hdirs⟩

/-- A path that does not go up goes on by names from its start. -/
theorem settled_of_not_up (ht : t.IsTree) {p : Path} (h : .up ∉ p.components) : t.Settled p := by
  rw [Path.components_eq] at h
  obtain ⟨names, hnames⟩ := (Path.exists_names_iff fun c hc => Path.eq_of_mem_steps hc).2
    fun hup => h (List.mem_append_right _ hup)
  refine ⟨p.lead.toList, names, by rw [hnames, Path.components_eq], fun a ha => ?_⟩
  -- the root and the directory that relative paths start from are all that is passed
  have hstart : a = t.workDir ∨ a = [] := by
    unfold Path.lead at ha
    rcases Path.head_cases p.text.toList with ⟨rest, -, hp⟩ | ⟨-, hp⟩ | ⟨rest, -, hp⟩ | ⟨-, -, hp⟩
    · simpa [hp, placesFrom, stepFrom] using ha
    · exact .inl (by simpa [hp, placesFrom, stepFrom] using ha)
    · exact .inl (by simpa [hp, placesFrom, stepFrom] using ha)
    · exact .inl (by simpa [hp, placesFrom] using ha)
  rcases hstart with rfl | rfl
  · exact ht.workDir
  · exact nodeAt?_nil t

theorem exists_of_mem_placesFrom_names {d a : AbsolutePath} {names : List String}
    (h : a ∈ placesFrom d (names.map .name)) :
    ∃ taken rest, names = taken ++ rest ∧ rest ≠ [] ∧ a = d ++ taken := by
  induction names generalizing d with
  | nil => exact absurd h List.not_mem_nil
  | cons s names ih =>
    rcases List.mem_cons.1 h with rfl | h
    · exact ⟨[], s :: names, rfl, List.cons_ne_nil _ _, (List.append_nil _).symm⟩
    · obtain ⟨taken, rest, rfl, hrest, rfl⟩ := ih h
      exact ⟨s :: taken, rest, rfl, hrest, by simp [stepFrom]⟩

/-- Above the first place that is missing there are directories, and nothing is below it. -/
theorem IsTree.not_file_of_missing (ht : t.IsTree) {names : List String} {d b : AbsolutePath}
    (hd : t.nodeAt? d = some .directory)
    (hb : t.obstacle? (placesFrom d (names.map .name) ++ [d ++ names]) = some b)
    (hnone : t.nodeAt? b = none) : ∀ a ∈ placesFrom d (names.map .name) ++ [d ++ names],
    ∀ text, t.nodeAt? a ≠ some (.file text) := by
  induction names generalizing d with
  | nil =>
    obtain ⟨hmem, hdir⟩ := obstacle?_eq_some hb
    obtain rfl : b = d := by simpa [placesFrom] using hmem
    exact absurd hd hdir
  | cons s names ih =>
    have hcut : placesFrom d ((s :: names).map .name) ++ [d ++ s :: names] =
        d :: (placesFrom (d ++ [s]) (names.map .name) ++ [d ++ [s] ++ names]) := by
      simp [placesFrom, stepFrom]
    rw [hcut, obstacle?, List.find?_cons_of_neg (by simp [hd])] at hb
    rw [hcut]
    refine List.forall_mem_cons.2 ⟨fun text => by rw [hd]; nofun, ?_⟩
    by_cases hs : t.nodeAt? (d ++ [s]) = some .directory
    · exact ih hs hb
    · -- the place after the first is the one that is missing
      have hfirst : t.nodeAt? (d ++ [s]) = none := by
        suffices heq : d ++ [s] = b by rwa [heq]
        cases names with
        | nil => simpa [placesFrom, hs] using hb
        | cons r names => simpa [placesFrom, hs] using hb
      intro a ha text hfile
      obtain ⟨taken, rfl⟩ : ∃ taken, a = d ++ [s] ++ taken := by
        rcases List.mem_append.1 ha with ha | ha
        · obtain ⟨taken, -, -, -, rfl⟩ := exists_of_mem_placesFrom_names ha
          exact ⟨taken, rfl⟩
        · exact ⟨names, List.mem_singleton.1 ha⟩
      by_cases htaken : d ++ [s] = d ++ [s] ++ taken
      · rw [← htaken, hfirst] at hfile
        cases hfile
      · rw [ht.directory_of_prefix hfile (List.prefix_append _ _) htaken] at hfirst
        cases hfirst

namespace Settled

variable {p : Path}

/-- **The way of a path that goes on by names** leads through directories that are there and then
through places above its target. -/
theorem mem_way (h : t.Settled p) {a : AbsolutePath} (ha : a ∈ t.way p) :
    t.nodeAt? a = some .directory ∨ ∃ rest ≠ [], t.target p = a ++ rest := by
  obtain ⟨cs, names, hp, hdirs⟩ := h
  rw [way, hp, placesFrom_append] at ha
  rcases List.mem_append.1 ha with ha | ha
  · exact .inl (hdirs a (List.mem_append_left _ ha))
  · obtain ⟨taken, rest, rfl, hrest, rfl⟩ := exists_of_mem_placesFrom_names ha
    exact .inr ⟨rest, hrest, by rw [target_eq, hp, endOf_append, endOf_names, List.append_assoc]⟩

/-- If something is missing on such a way, then nothing is at its end. -/
theorem target_of_missing (h : t.Settled p) (ht : t.IsTree) {b : AbsolutePath}
    (hb : b ∈ t.way p ++ [t.target p]) (hnone : t.nodeAt? b = none) :
    t.nodeAt? (t.target p) = none := by
  rcases List.mem_append.1 hb with hmem | hmem
  · rcases h.mem_way hmem with hdir | ⟨rest, hrest, heq⟩
    · rw [hnone] at hdir
      cases hdir
    · cases hn : t.nodeAt? (t.target p) with
      | none => rfl
      | some n =>
        -- what is above an entry is there
        have habove := ht.directory_of_prefix hn (heq ▸ List.prefix_append b rest)
          (by simpa [heq] using hrest)
        rw [hnone] at habove
        cases habove
  · rw [← List.mem_singleton.1 hmem, hnone]

/-- If something is missing on such a way, then no place on it is a file. -/
theorem not_file_of_missing (h : t.Settled p) (ht : t.IsTree) {b : AbsolutePath}
    (hb : t.obstacle? (t.way p ++ [t.target p]) = some b) (hnone : t.nodeAt? b = none) :
    ∀ a ∈ t.way p, ∀ text, t.nodeAt? a ≠ some (.file text) := by
  obtain ⟨cs, names, hp, hdirs⟩ := h
  obtain ⟨hpassed, hend⟩ := List.forall_mem_append.1 hdirs
  have hcut : t.way p ++ [t.target p] = placesFrom t.workDir cs ++
      (placesFrom (endOf t.workDir cs) (names.map .name) ++ [endOf t.workDir cs ++ names]) := by
    rw [way, target_eq, hp, placesFrom_append, endOf_append, endOf_names, List.append_assoc]
  have hlater : t.obstacle? (t.way p ++ [t.target p]) = t.obstacle?
      (placesFrom (endOf t.workDir cs) (names.map .name) ++ [endOf t.workDir cs ++ names]) := by
    rw [hcut, obstacle?, List.find?_append, ← obstacle?, obstacle?_eq_none_iff.2 hpassed,
      Option.none_or, ← obstacle?]
  intro a ha
  have hmem : a ∈ t.way p ++ [t.target p] := List.mem_append_left _ ha
  rw [hcut] at hmem
  rcases List.mem_append.1 hmem with ha | ha
  · intro text hfile
    rw [hpassed a ha] at hfile
    cases hfile
  · exact ht.not_file_of_missing (hend _ (List.mem_singleton.2 rfl)) (hlater ▸ hb) hnone a ha

end Settled

end FileTree

end GoSchema
