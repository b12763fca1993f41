/-
# Paths in the output directory

The path of a file is the output directory with parts behind it: the segments of a namespace and the
name of the file. Nothing keeps a part from being a path of its own. A part that is absolute takes
the place of all in front of it, and two dots in a part lead out of the directory. So a file stands
below the output directory exactly when no part is absolute and none goes up, unless an absolute
part happens to name a path below the directory.

Key definitions: `Layout.parts`, `Layout.StaysInside`.
Key theorems: `pathOf_eq`, `components_foldl_child`, `foldl_child_of_absolute`, `below_pathOf_iff`,
`group_below_output_iff`.
-/
import GoSchema.Proofs.FileGroups
import GoSchema.Proofs.PathSteps
import GoSchema.Proofs.Regeneration

namespace GoSchema

namespace Path

theorem text_ne_of_isAbsolute {p : Path} (h : p.isAbsolute = true) : p.text ≠ "" := by
  intro hempty
  simp [isAbsolute, hempty] at h

theorem text_child_ne {p : Path} (hp : p.text ≠ "") (s : String) : (p.child s).text ≠ "" := by
  unfold child join
  split
  · exact text_ne_of_isAbsolute ‹_›
  · split
    · rename_i hlast
      simp [hp] at hlast
    · simp [hp]
    · simp [hp]

/-- Relative parts add their steps. -/
theorem components_foldl_child {parts : List String} {p : Path} (hp : p.text ≠ "")
    (h : ∀ s ∈ parts, (Path.mk s).isAbsolute = false) : (parts.foldl child p).components =
      p.components ++ parts.flatMap fun s => steps s.toList := by
  induction parts generalizing p with
  | nil => simp
  | cons s parts ih =>
    obtain ⟨hs, hrest⟩ := List.forall_mem_cons.1 h
    rw [List.foldl_cons, ih (text_child_ne hp s) hrest, child, components_join hp hs,
      List.append_assoc, List.flatMap_cons]

theorem eq_of_mem_flatMap_steps {parts : List String} {c : Component}
    (h : c ∈ parts.flatMap fun s => steps s.toList) : c = .up ∨ ∃ n, c = .name n := by
  obtain ⟨s, -, hc⟩ := List.mem_flatMap.1 h
  exact eq_of_mem_steps hc

/-- An absolute part takes the place of what is in front of it. -/
theorem foldl_child_of_absolute {parts : List String} {s : String} (hs : s ∈ parts)
    (h : (Path.mk s).isAbsolute = true) (p q : Path) :
    parts.foldl child p = parts.foldl child q := by
  induction parts generalizing p q with
  | nil => exact absurd hs List.not_mem_nil
  | cons r parts ih =>
    rw [List.foldl_cons, List.foldl_cons]
    rcases List.mem_cons.1 hs with rfl | hs
    · rw [child, child, join_absolute h, join_absolute h]
    · exact ih hs _ _

theorem isAbsolute_child {p : Path} (hp : p.isAbsolute = true) (s : String) :
    (p.child s).isAbsolute = true := by
  unfold child join
  split
  · assumption
  · have hhead : p.text.toList.head? = some '/' := by simpa [isAbsolute] using hp
    split
    · rename_i hlast
      rw [List.getLast?_eq_none_iff.1 hlast] at hhead
      cases hhead
    · simp [isAbsolute, List.head?_append, hhead]
    · simp [isAbsolute, List.head?_append, hhead]

theorem isAbsolute_foldl_child {parts : List String} {p : Path}
    (h : p.isAbsolute = true ∨ ∃ s ∈ parts, (Path.mk s).isAbsolute = true) :
    (parts.foldl child p).isAbsolute = true := by
  induction parts generalizing p with
  | nil => simpa using h
  | cons s parts ih =>
    refine ih ?_
    rcases h with hp | ⟨r, hr, habs⟩
    · exact .inl (isAbsolute_child hp s)
    · rcases List.mem_cons.1 hr with rfl | hr
      · rw [child, join_absolute habs]
        exact .inl habs
      · exact .inr ⟨r, hr, habs⟩

theorem root_mem_components_iff {p : Path} : .root ∈ p.components ↔ p.isAbsolute = true := by
  rw [← lead_eq_root_iff, components_eq, List.mem_append, Option.mem_toList]
  refine or_iff_left fun hstep => ?_
  rcases eq_of_mem_steps hstep with h | ⟨n, h⟩
  · cases h
  · cases h

theorem isAbsolute_of_below {base p : Path} (h : Below base p) (hp : p.isAbsolute = true) :
    base.isAbsolute = true := by
  obtain ⟨names, heq⟩ := h
  rw [← root_mem_components_iff, heq, List.mem_append] at hp
  rw [← root_mem_components_iff]
  refine hp.resolve_right fun hname => ?_
  obtain ⟨n, -, hn⟩ := List.mem_map.1 hname
  cases hn

end Path

/-! ### Parts of the layout -/

namespace Layout

variable {config : Config} {b : Block}

/-- What the layout puts behind the output directory: the directories and the name of the file. -/
def parts (config : Config) (b : Block) : List String :=
  match config.strategy with
  | .single => [config.schemaFileName]
  | .multiple =>
    (b.space.map (segments config.namespaceSeparator)).getD [] ++
      [String.ofList (Name.snakeCase b.name.toList) ++ "." ++ config.extension]
  | .package =>
    match (segments config.namespaceSeparator b.spaceName).reverse with
    | [] => [b.package ++ "." ++ config.extension]
    | last :: dirs => dirs.reverse ++ [last ++ "." ++ config.extension]

theorem pathOf_eq (config : Config) (b : Block) :
    pathOf config b = (parts config b).foldl Path.child ⟨config.output⟩ := by
  unfold pathOf parts
  cases config.strategy with
  | single => rfl
  | multiple =>
    dsimp only
    rw [List.foldl_concat]
    rfl
  | package =>
    dsimp only
    unfold spacePath
    cases (segments config.namespaceSeparator b.spaceName).reverse with
    | nil => rfl
    | cons last dirs =>
      dsimp only
      rw [List.foldl_concat]

theorem segment_ne_empty {separator space s : String} (h : s ∈ segments separator space) :
    s ≠ "" := by
  obtain ⟨piece, hpiece, rfl⟩ := List.mem_map.1 h
  have hfull := (List.mem_filter.1 hpiece).2
  simpa using hfull

theorem part_ne_empty (hs : config.strategy ≠ .single) {s : String} (h : s ∈ parts config b) :
    s ≠ "" := by
  have hname : ∀ stem : String, stem ++ "." ++ config.extension ≠ "" := by simp
  unfold parts at h
  split at h
  · exact absurd ‹_› hs
  · rcases List.mem_append.1 h with h | h
    · cases hspace : b.space with
      | none => simp [hspace] at h
      | some space =>
        rw [hspace] at h
        exact segment_ne_empty h
    · rw [List.mem_singleton.1 h]
      exact hname _
  · split at h
    · rw [List.mem_singleton.1 h]
      exact hname _
    · rename_i last dirs hsegments
      rcases List.mem_append.1 h with h | h
      · have hmem : s ∈ (segments config.namespaceSeparator b.spaceName).reverse := by
          rw [hsegments]
          exact List.mem_cons_of_mem _ (List.mem_reverse.1 h)
        exact segment_ne_empty (List.mem_reverse.1 hmem)
      · rw [List.mem_singleton.1 h]
        exact hname _

theorem parts_ne_nil (config : Config) (b : Block) : parts config b ≠ [] := by
  unfold parts
  split
  · simp
  · simp
  · split <;> simp

/-- Whether the parts of a block keep its file below the output directory: all are relative and none
goes up, or the output directory is given by an absolute path and the last absolute part with those
behind it names a path below it. Where no output directory is given, no dot may stand in its
place. -/
def StaysInside (config : Config) (b : Block) : Prop :=
  (∀ s ∈ parts config b, (Path.mk s).isAbsolute = false ∧ .up ∉ Path.steps s.toList) ∧
      (config.output = "" → ∀ s ∈ (parts config b).head?, (Path.mk s).lead = none) ∨
    (∃ s ∈ parts config b, (Path.mk s).isAbsolute = true) ∧
      (Path.mk config.output).isAbsolute = true ∧
      Path.Below ⟨config.output⟩ ((parts config b).foldl Path.child ⟨""⟩)

theorem below_foldl_iff {base : Path} {parts : List String} (hbase : base.text ≠ "")
    (h : ∀ s ∈ parts, (Path.mk s).isAbsolute = false) :
    Path.Below base (parts.foldl Path.child base) ↔ ∀ s ∈ parts, .up ∉ Path.steps s.toList := by
  rw [Path.below_iff (Path.components_foldl_child hbase h) fun c => Path.eq_of_mem_flatMap_steps]
  simp

/-- Relative parts where there is no directory. -/
theorem below_empty_iff {parts : List String} (hne : parts ≠ []) (hfull : ∀ s ∈ parts, s ≠ "")
    (h : ∀ s ∈ parts, (Path.mk s).isAbsolute = false) :
    Path.Below ⟨""⟩ (parts.foldl Path.child ⟨""⟩) ↔
      (∀ s ∈ parts, .up ∉ Path.steps s.toList) ∧ ∀ s ∈ parts.head?, (Path.mk s).lead = none := by
  obtain ⟨s, rest, rfl⟩ := List.exists_cons_of_ne_nil hne
  have hcomponents : ((s :: rest).foldl Path.child ⟨""⟩).components =
      (Path.mk s).lead.toList ++ (s :: rest).flatMap fun s => Path.steps s.toList := by
    rw [List.foldl_cons, Path.child, Path.join_empty rfl,
      Path.components_foldl_child (hfull s List.mem_cons_self) (List.forall_mem_cons.1 h).2,
      Path.components_eq, List.flatMap_cons, List.append_assoc]
  cases hlead : (Path.mk s).lead with
  | none =>
    rw [hlead] at hcomponents
    rw [Path.below_iff hcomponents fun c => Path.eq_of_mem_flatMap_steps]
    simp [hlead]
  | some c =>
    -- a dot is no name
    refine ⟨fun hbelow => ?_, fun hno => ?_⟩
    · obtain ⟨names, hnames⟩ := hbelow
      have hc : c ∈ names.map Path.Component.name := by
        rw [hcomponents, Path.components_empty, List.nil_append, hlead] at hnames
        rw [← hnames]
        exact List.mem_append_left _ (List.mem_singleton.2 rfl)
      obtain ⟨n, -, rfl⟩ := List.mem_map.1 hc
      unfold Path.lead at hlead
      rcases Path.head_cases s.toList with ⟨r, -, hhead⟩ | ⟨-, hhead⟩ | ⟨r, -, hhead⟩ | ⟨-, -, hhead⟩
      · simp [hhead] at hlead
      · simp [hhead] at hlead
      · simp [hhead] at hlead
      · simp [hhead] at hlead
    · have hnone := hno.2 s rfl
      rw [hlead] at hnone
      cases hnone

/-- **When the file of a block is below the output directory.** -/
theorem below_pathOf_iff (hs : config.strategy ≠ .single) (b : Block) :
    Path.Below ⟨config.output⟩ (pathOf config b) ↔ StaysInside config b := by
  rw [pathOf_eq]
  by_cases habs : ∃ s ∈ parts config b, (Path.mk s).isAbsolute = true
  · obtain ⟨s, hmem, h⟩ := habs
    rw [Path.foldl_child_of_absolute hmem h ⟨config.output⟩ ⟨""⟩]
    refine ⟨fun hbelow => .inr ⟨⟨s, hmem, h⟩, ?_, hbelow⟩, fun hin => ?_⟩
    · exact Path.isAbsolute_of_below hbelow (Path.isAbsolute_foldl_child (.inr ⟨s, hmem, h⟩))
    · rcases hin with ⟨hrel, -⟩ | ⟨-, -, hbelow⟩
      · rw [(hrel s hmem).1] at h
        cases h
      · exact hbelow
  · have hrel : ∀ s ∈ parts config b, (Path.mk s).isAbsolute = false := by
      simpa using habs
    unfold StaysInside
    rw [or_iff_left fun h => habs h.1]
    by_cases houtput : config.output = ""
    · rw [houtput, below_empty_iff (parts_ne_nil config b) (fun s => part_ne_empty hs) hrel]
      refine and_congr ⟨fun h s hmem => ⟨hrel s hmem, h s hmem⟩, fun h s hmem => (h s hmem).2⟩ ?_
      exact ⟨fun h _ => h, fun h => h rfl⟩
    · rw [below_foldl_iff houtput hrel]
      refine ⟨fun h => ⟨fun s hmem => ⟨hrel s hmem, h s hmem⟩, fun hno => absurd hno houtput⟩, ?_⟩
      exact fun h s hmem => (h.1 s hmem).2

end Layout

/-- **When the files of the schema are below the output directory.** -/
theorem group_below_output_iff {config : Config} {blocks : List Block} {gs : List FileGroup}
    (hs : config.strategy ≠ .single) (h : group config blocks = .ok gs) :
    (∀ g ∈ gs, Path.Below ⟨config.output⟩ g.path) ↔
      ∀ b ∈ blocks, Layout.StaysInside config b := by
  have hiff := (isGrouping_group h).forall_iff hs fun cs =>
    ∃ names : List String, cs = (Path.mk config.output).components ++ names.map .name
  refine hiff.trans (forall₂_congr fun b _ => ?_)
  exact Layout.below_pathOf_iff hs b

namespace Generation

/-- A configuration that puts the blocks of a namespace into one file. -/
def spaceConfig : Config := { fileConfig with strategy := .package }

/-- A block in a namespace with two segments. -/
def cartBlock : Block := { userBlock with space := some "shop/cart" }

theorem cartBlock_below_output : spaceConfig.strategy ≠ .single ∧
    group spaceConfig [cartBlock] = .ok [⟨⟨"graph/schema/shop/cart.graphqls"⟩, [cartBlock]⟩] ∧
    Path.Below ⟨"graph/schema"⟩ ⟨"graph/schema/shop/cart.graphqls"⟩ := by
  have hs : spaceConfig.strategy ≠ .single := by decide
  have hgroup : group spaceConfig [cartBlock] =
      .ok [⟨⟨"graph/schema/shop/cart.graphqls"⟩, [cartBlock]⟩] := by
    rw [group_of_pairwise (List.pairwise_singleton _ _)]
    exact FileGroup.eq_ok_of_map (by decide +kernel)
  have hin : ∀ b ∈ [cartBlock], Layout.StaysInside spaceConfig b := by
    refine List.forall_mem_singleton.2 (.inl ⟨?_, nofun⟩)
    decide
  exact ⟨hs, hgroup, (group_below_output_iff hs hgroup).2 hin _ (List.mem_singleton.2 rfl)⟩

/-- A struct with a namespace that goes up. -/
def upwardTree : FileTree :=
  { nodes :=
      [(["m.go"], .file (some ("package m\n\n// @gqlType\n// @gqlNamespace(name: \"../../gen\")\n" ++
        "type User struct \x7b\n    Name string\n\x7d\n")))] }

/-- The block of that struct. -/
def upwardBlock : Block :=
  { userBlock with
      space := some "../../gen"
      fields := [{ name := "name", typeText := "String!" }] }

/-- **A namespace may lead out of the output directory.** -/
theorem upwardTree_leaves_output : spaceConfig.checkAll = .ok () ∧
    blocks spaceConfig upwardTree = .ok [upwardBlock] ∧
    group spaceConfig [upwardBlock] =
      .ok [⟨⟨"graph/schema/../../gen.graphqls"⟩, [upwardBlock]⟩] ∧
    ¬ Path.Below ⟨spaceConfig.output⟩ ⟨"graph/schema/../../gen.graphqls"⟩ := by
  refine ⟨Outcome.eq_ok_of_toOption (by decide +kernel), by decide +kernel, ?_, ?_⟩
  · rw [group_of_pairwise (List.pairwise_singleton _ _)]
    exact FileGroup.eq_ok_of_map (by decide +kernel)
  · have hcomponents : (Path.mk "graph/schema/../../gen.graphqls").components =
        (Path.mk spaceConfig.output).components ++ [.up, .up, .name "gen.graphqls"] := by decide
    have hsteps : ∀ c ∈ [Path.Component.up, .up, .name "gen.graphqls"],
        c = .up ∨ ∃ n, c = .name n := by simp
    rw [Path.below_iff hcomponents hsteps]
    simp

end Generation

end GoSchema
