/-
# Names in a tree

In a listing every entry stands under names that are steps of paths, and no place is listed twice.
Then a path with such names behind it leads to the place that the names lead to from where the path
leads, and the last component of a path to a file is the name of the file. So what is listed below a
place are exactly the entries below it.

Key definitions: `Path.IsName`, `FileTree.IsListing`.
Key theorems: `realPath_child`, `realPath_foldl_child`, `fileName?_of_file`, `mem_below_iff`.
-/
import GoSchema.Files.Tree
import GoSchema.Proofs.OutputPaths
import GoSchema.Proofs.Ways

namespace GoSchema

namespace Path

/-- Whether a text is the name of an entry: a single step that does not go up. -/
structure IsName (s : String) : Prop where
  single : '/' ∉ s.toList
  step : component? s.toList = some (.name s)

instance (s : String) : Decidable (IsName s) :=
  decidable_of_iff ('/' ∉ s.toList ∧ component? s.toList = some (.name s))
    ⟨fun h => ⟨h.1, h.2⟩, fun h => ⟨h.single, h.step⟩⟩

namespace IsName

variable {s : String} {p : Path}

theorem steps_eq (h : IsName s) : steps s.toList = [.name s] := by
  rw [steps, Text.splitAt_of_not_mem h.single]
  simp [h.step]

theorem toList_ne_nil (h : IsName s) : s.toList ≠ [] := by
  intro hnil
  have hstep := h.step
  rw [hnil] at hstep
  cases hstep

theorem isAbsolute_eq (h : IsName s) : (Path.mk s).isAbsolute = false := by
  unfold isAbsolute
  rw [decide_eq_false_iff_not]
  intro hhead
  exact h.single (List.mem_of_mem_head? hhead)

theorem components_child (h : IsName s) (hp : p.text ≠ "") :
    (p.child s).components = p.components ++ [.name s] := by
  rw [child, components_join hp h.isAbsolute_eq, h.steps_eq]

theorem exists_text_child (h : IsName s) (hp : p.text ≠ "") :
    ∃ front, (p.child s).text.toList = front ++ '/' :: s.toList := by
  unfold child join
  rw [if_neg (by simp [h.isAbsolute_eq])]
  split
  · rename_i hnone
    exact absurd (by simpa using hnone) hp
  · rename_i hslash
    obtain ⟨front, hfront⟩ := List.getLast?_eq_some_iff.1 hslash
    exact ⟨front, by simp [hfront]⟩
  · exact ⟨p.text.toList, by simp⟩

theorem endsInStep_child (h : IsName s) (hp : p.text ≠ "") : (p.child s).EndsInStep := by
  obtain ⟨front, hfront⟩ := h.exists_text_child hp
  refine endsInStep_of_last (Text.splitAt '/' front) ?_ h.step
  rw [hfront, Text.splitAt_append, Text.splitAt_of_not_mem h.single]

end IsName

theorem text_foldl_child_ne (names : List String) {p : Path} (hp : p.text ≠ "") :
    (names.foldl child p).text ≠ "" := by
  induction names generalizing p with
  | nil => exact hp
  | cons s names ih => exact ih (text_child_ne hp s)

theorem components_foldl_names {names : List String} (h : ∀ s ∈ names, IsName s) {p : Path}
    (hp : p.text ≠ "") : (names.foldl child p).components = p.components ++ names.map .name := by
  induction names generalizing p with
  | nil => simp
  | cons s names ih =>
    obtain ⟨hs, hrest⟩ := List.forall_mem_cons.1 h
    rw [List.foldl_cons, ih hrest (text_child_ne hp s), hs.components_child hp, List.map_cons,
      List.append_assoc, List.singleton_append]

end Path

namespace FileTree

variable {t : FileTree} {a : AbsolutePath} {p : Path} {names : List String} {n : FileNode}

/-- What a listing of entries must satisfy besides being a tree: entries have names, and no place is
listed twice. -/
structure IsListing (t : FileTree) : Prop extends IsTree t where
  keys : (t.nodes.map Prod.fst).Nodup
  listed : ∀ e ∈ t.nodes, e.1 ≠ []
  names : ∀ e ∈ t.nodes, ∀ s ∈ e.1, Path.IsName s

/-! ### Where paths lead -/

theorem realPath_eq_ok_iff :
    t.realPath p = .ok a ↔ t.locate p = .ok a ∧ ∃ n, t.nodeAt? a = some n := by
  unfold realPath
  cases t.locate p with
  | error e => simp
  | ok b =>
    dsimp only
    split
    · rename_i hn
      rw [Option.isSome_iff_exists] at hn
      rw [Except.ok.injEq]
      exact ⟨fun h => ⟨h, h ▸ hn⟩, fun h => h.1⟩
    · rename_i hn
      rw [Option.isSome_iff_exists] at hn
      refine ⟨nofun, fun ⟨h, hsome⟩ => absurd ?_ hn⟩
      rwa [Except.ok.inj h]

theorem text_ne_of_realPath (h : t.realPath p = .ok a) : p.text ≠ "" := by
  intro hempty
  have hl := (realPath_eq_ok_iff.1 h).1
  simp [locate, hempty] at hl

theorem entered_of_realPath (ht : t.IsTree) (h : t.realPath p = .ok a) :
    (∀ b ∈ t.enteredBy p, t.nodeAt? b = some .directory) ∧ t.target p = a := by
  have hl := (realPath_eq_ok_iff.1 h).1
  rwa [locate_eq ht (text_ne_of_realPath h), passing_eq_ok_iff] at hl

/-- **A name behind a path to a directory** leads to the entry of this name in it. -/
theorem realPath_child (ht : t.IsTree) {s : String} (hs : Path.IsName s)
    (hp : t.realPath p = .ok a) (hdir : t.nodeAt? a = some .directory)
    (hn : t.nodeAt? (a ++ [s]) = some n) : t.realPath (p.child s) = .ok (a ++ [s]) := by
  have hne := text_ne_of_realPath hp
  obtain ⟨hentered, htarget⟩ := entered_of_realPath ht hp
  have hcomponents := hs.components_child hne
  have htarget' : t.target (p.child s) = a ++ [s] := by
    rw [target_eq, hcomponents, endOf_append, ← target_eq, htarget]
    rfl
  rw [realPath_eq_ok_iff, locate_eq ht (Path.text_child_ne hne s), passing_eq_ok_iff, enteredBy,
    if_pos (hs.endsInStep_child hne), List.append_nil, way_of_components hcomponents, htarget]
  refine ⟨⟨fun b hb => ?_, htarget'⟩, n, hn⟩
  rcases List.mem_append.1 hb with hb | hb
  · exact hentered b (List.mem_append_left _ hb)
  · rw [List.mem_singleton.1 hb]
    exact hdir

/-- **Names behind a path** lead to the place that they lead to from where the path leads. -/
theorem realPath_foldl_child (ht : t.IsTree) (hnames : ∀ s ∈ names, Path.IsName s)
    (hp : t.realPath p = .ok a) (hn : t.nodeAt? (a ++ names) = some n) :
    t.realPath (names.foldl Path.child p) = .ok (a ++ names) := by
  induction names generalizing p a with
  | nil => simpa using hp
  | cons s names ih =>
    obtain ⟨hs, hrest⟩ := List.forall_mem_cons.1 hnames
    rw [List.append_cons] at hn
    have hdir : t.nodeAt? a = some .directory :=
      ht.directory_of_prefix hn ⟨s :: names, by simp⟩ (by simp)
    have hfirst : ∃ m, t.nodeAt? (a ++ [s]) = some m := by
      by_cases hlast : names = []
      · exact ⟨n, by simpa [hlast] using hn⟩
      · exact ⟨_, ht.directory_of_prefix hn (List.prefix_append _ _) (by simpa using hlast)⟩
    obtain ⟨m, hm⟩ := hfirst
    rw [List.append_cons]
    exact ih hrest (realPath_child ht hs hp hdir hm) hn

/-- **The last component of a path to a file** is the name of the file. -/
theorem fileName?_of_file (ht : t.IsTree) (hp : t.realPath p = .ok a) {text : Option String}
    (hn : t.nodeAt? a = some (.file text)) : p.fileName? = a.getLast? := by
  obtain ⟨hentered, htarget⟩ := entered_of_realPath ht hp
  have hfile : ∀ b, t.nodeAt? b = some .directory → b ≠ a := by
    rintro b hb rfl
    rw [hn] at hb
    cases hb
  rw [enteredBy] at hentered
  obtain ⟨hway, hend⟩ := List.forall_mem_append.1 hentered
  have hstep : p.EndsInStep := by
    by_contra hno
    rw [if_neg hno] at hend
    exact hfile _ (hend _ (List.mem_singleton.2 rfl)) htarget
  obtain ⟨pieces, piece, c, hpieces, hc⟩ := Path.exists_last_of_endsInStep hstep
  have hcomponents : p.components =
      p.lead.toList ++ pieces.filterMap Path.component? ++ [c] := by
    rw [Path.components_eq, Path.steps, hpieces]
    simp [hc]
  generalize p.lead.toList ++ pieces.filterMap Path.component? = cs at hcomponents
  have hdir : t.nodeAt? (endOf t.workDir cs) = some .directory := by
    refine hway _ ?_
    rw [way, hcomponents, placesFrom_concat]
    exact List.mem_append_right _ (List.mem_singleton.2 rfl)
  rw [target_eq, hcomponents, endOf_append] at htarget
  rcases Path.component?_cases hc with ⟨rfl, -⟩ | ⟨rfl, -⟩
  · -- a path that goes up in the end leads to a directory
    exact absurd htarget (hfile _ (ht.above _ _ hdir))
  · rw [← htarget, Path.fileName?, hcomponents]
    simp [stepFrom]

namespace IsListing

theorem nodeAt?_eq_some_iff (ht : t.IsListing) (ha : a ≠ []) :
    t.nodeAt? a = some n ↔ (a, n) ∈ t.nodes := by
  rw [nodeAt?, if_neg (by simpa using ha)]
  exact ⟨Pointwise.mem_of_lookup, Pointwise.lookup_of_mem ht.keys⟩

/-- What is listed below a place are the entries whose places go on from there. -/
theorem mem_below_iff (ht : t.IsListing) :
    (names, n) ∈ t.below a ↔ names ≠ [] ∧ t.nodeAt? (a ++ names) = some n := by
  unfold below
  rw [List.mem_mergeSort, List.mem_map]
  constructor
  · rintro ⟨⟨q, m⟩, hmem, heq⟩
    obtain ⟨hmem, hq⟩ := List.mem_filter.1 hmem
    obtain ⟨hdrop, rfl⟩ := Prod.mk.inj heq
    simp only [Bool.and_eq_true, List.isPrefixOf_iff_prefix, decide_eq_true_eq] at hq
    obtain ⟨⟨rest, rfl⟩, hne⟩ := hq
    obtain rfl : rest = names := by simpa using hdrop
    have hrest : rest ≠ [] := by simpa using hne
    exact ⟨hrest, (ht.nodeAt?_eq_some_iff (by simp [hrest])).2 hmem⟩
  · rintro ⟨hne, hn⟩
    refine ⟨(a ++ names, n), List.mem_filter.2 ⟨?_, ?_⟩, by simp⟩
    · exact (ht.nodeAt?_eq_some_iff (by simp [hne])).1 hn
    · simp [hne, List.isPrefixOf_iff_prefix]

theorem isName_of_mem (ht : t.IsListing) (hn : t.nodeAt? (a ++ names) = some n) :
    ∀ s ∈ names, Path.IsName s := by
  intro s hs
  have hne : a ++ names ≠ [] := by
    intro hnil
    rw [(List.append_eq_nil_iff.1 hnil).2] at hs
    exact absurd hs List.not_mem_nil
  exact ht.names _ ((ht.nodeAt?_eq_some_iff hne).1 hn) s (List.mem_append_right _ hs)

end IsListing

end FileTree

end GoSchema
