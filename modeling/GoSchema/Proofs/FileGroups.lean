/-
# Files of blocks

Blocks are put into files one after another, and the files stay in the order of their paths, so no
two of them have the same path. Together they hold every block as often as it is there, and a block
stands in the file that the layout gives it.

Key definitions: `Layout.pathOf`, `IsGrouping`, `FileGroup.insertAll`.
Key theorems: `componentsPrecede_trans`, `componentsPrecede_or`, `isGrouping_insert`,
`group_ok_cases`, `isGrouping_group`, `IsGrouping.distinct`, `IsGrouping.forall_iff`,
`group_of_pairwise`.
-/
import Mathlib.Data.List.Perm.Basic
import GoSchema.Output.Layout
import GoSchema.Proofs.Outcome

namespace GoSchema

namespace Path

theorem Component.precedes_iff {a b : Component} : a.precedes b = true ↔
    a.rank < b.rank ∨ ∃ s t, a = .name s ∧ b = .name t ∧ s < t := by
  cases a <;> cases b <;> simp [Component.precedes, Component.rank]

theorem Component.precedes_irrefl (a : Component) : a.precedes a = false := by
  rw [Bool.eq_false_iff, ne_eq, Component.precedes_iff]
  rintro (h | ⟨s, t, rfl, ht, h⟩)
  · exact Nat.lt_irrefl _ h
  · obtain rfl := Component.name.inj ht
    exact String.lt_irrefl _ h

theorem Component.precedes_trans {a b c : Component} (h : a.precedes b = true)
    (h' : b.precedes c = true) : a.precedes c = true := by
  rw [Component.precedes_iff] at h h' ⊢
  rcases h with h | ⟨s, t, rfl, rfl, h⟩
  · rcases h' with h' | ⟨t, u, rfl, rfl, -⟩
    · exact .inl (Nat.lt_trans h h')
    · exact .inl h
  · rcases h' with h' | ⟨t, u, ht, rfl, h'⟩
    · exact .inl h'
    · obtain rfl := Component.name.inj ht
      exact .inr ⟨s, u, rfl, rfl, String.lt_trans h h'⟩

theorem Component.precedes_or {a b : Component} (h : a ≠ b) :
    a.precedes b = true ∨ b.precedes a = true := by
  simp only [Component.precedes_iff]
  rcases Nat.lt_trichotomy a.rank b.rank with hrank | hrank | hrank
  · exact .inl (.inl hrank)
  · cases a <;> cases b <;> try first | exact absurd rfl h | cases hrank
    rename_i s t
    by_cases hst : s < t
    · exact .inl (.inr ⟨s, t, rfl, rfl, hst⟩)
    · by_cases hts : t < s
      · exact .inr (.inr ⟨t, s, rfl, rfl, hts⟩)
      · exact absurd (congrArg _ (String.le_antisymm (String.not_lt.1 hts) (String.not_lt.1 hst))) h
  · exact .inr (.inl hrank)

theorem componentsPrecede_irrefl (as : List Component) : componentsPrecede as as = false := by
  induction as with
  | nil => rfl
  | cons a as ih => rwa [componentsPrecede, if_pos rfl]

theorem componentsPrecede_trans : ∀ {as bs cs : List Component}, componentsPrecede as bs = true →
    componentsPrecede bs cs = true → componentsPrecede as cs = true
  | [], [], _, h, _ => nomatch h
  | [], _ :: _, [], _, h => nomatch h
  | [], _ :: _, _ :: _, _, _ => rfl
  | a :: as, b :: bs, c :: cs, h, h' => by
    unfold componentsPrecede at h h' ⊢
    by_cases hab : a = b
    · subst hab
      rw [if_pos rfl] at h
      by_cases hac : a = c
      · rw [if_pos hac] at h' ⊢
        exact componentsPrecede_trans h h'
      · rwa [if_neg hac] at h' ⊢
    · rw [if_neg hab] at h
      by_cases hbc : b = c
      · subst hbc
        rwa [if_neg hab]
      · rw [if_neg hbc] at h'
        have hac := Component.precedes_trans h h'
        have hne : a ≠ c := by
          rintro rfl
          rw [Component.precedes_irrefl] at hac
          cases hac
        rwa [if_neg hne]

theorem componentsPrecede_or : ∀ {as bs : List Component}, as ≠ bs →
    componentsPrecede as bs = true ∨ componentsPrecede bs as = true
  | [], [], h => absurd rfl h
  | [], b :: bs, _ => .inl rfl
  | a :: as, [], _ => .inr rfl
  | a :: as, b :: bs, h => by
    unfold componentsPrecede
    by_cases hab : a = b
    · subst hab
      rw [if_pos rfl, if_pos rfl]
      exact componentsPrecede_or fun heq => h (heq ▸ rfl)
    · rw [if_neg hab, if_neg (Ne.symm hab)]
      exact Component.precedes_or hab

end Path

/-! ### Putting blocks into files -/

namespace Layout

/-- The file that the layout gives a block. -/
def pathOf (config : Config) (b : Block) : Path :=
  match config.strategy with
  | .single => (Path.mk config.output).child config.schemaFileName
  | .multiple => ownPath config b
  | .package => spacePath config b

end Layout

/-- Files in order that hold blocks, each in the file that the layout gives it. -/
structure IsGrouping (config : Config) (blocks : List Block) (gs : List FileGroup) : Prop where
  ordered : gs.Pairwise fun g h => g.path.precedes h.path = true
  blocks : (gs.flatMap FileGroup.blocks).Perm blocks
  path : ∀ g ∈ gs, ∀ b ∈ g.blocks, (Layout.pathOf config b).components = g.path.components
  filled : config.strategy ≠ .single → ∀ g ∈ gs, g.blocks ≠ []

namespace FileGroup

variable {config : Config} {path : Path} {b : Block}

/-- Paths of files after one more block: that of the block, or one that was there. -/
theorem path_of_mem_insert {g : FileGroup} : ∀ {gs : List FileGroup}, g ∈ insert path b gs →
    g.path = path ∨ ∃ h ∈ gs, g.path = h.path
  | [], hg => .inl (congrArg FileGroup.path (List.mem_singleton.1 hg))
  | first :: gs, hg => by
    unfold insert at hg
    split at hg
    · rcases List.mem_cons.1 hg with rfl | hg
      · exact .inr ⟨first, List.mem_cons_self, rfl⟩
      · exact .inr ⟨g, List.mem_cons_of_mem _ hg, rfl⟩
    · split at hg
      · rcases List.mem_cons.1 hg with rfl | hg
        · exact .inl rfl
        · exact .inr ⟨g, hg, rfl⟩
      · rcases List.mem_cons.1 hg with rfl | hg
        · exact .inr ⟨g, List.mem_cons_self, rfl⟩
        · refine (path_of_mem_insert hg).imp_right ?_
          rintro ⟨h, hh, heq⟩
          exact ⟨h, List.mem_cons_of_mem _ hh, heq⟩

theorem ordered_insert (path : Path) (b : Block) : ∀ {gs : List FileGroup},
    (gs.Pairwise fun g h => g.path.precedes h.path = true) →
    (insert path b gs).Pairwise fun g h => g.path.precedes h.path = true
  | [], _ => List.pairwise_singleton _ _
  | first :: gs, h => by
    obtain ⟨hfirst, hrest⟩ := List.pairwise_cons.1 h
    unfold insert
    split
    · exact List.pairwise_cons.2 ⟨hfirst, hrest⟩
    · rename_i hsame
      split
      · rename_i hbefore
        refine List.pairwise_cons.2 ⟨List.forall_mem_cons.2 ⟨hbefore, fun g hg => ?_⟩, h⟩
        exact Path.componentsPrecede_trans hbefore (hfirst g hg)
      · rename_i hbefore
        have hafter : first.path.precedes path = true :=
          (Path.componentsPrecede_or (by simpa [Path.sameAs] using hsame)).resolve_right hbefore
        refine List.pairwise_cons.2 ⟨fun g hg => ?_, ordered_insert path b hrest⟩
        rcases path_of_mem_insert hg with heq | ⟨g', hg', heq⟩
        · rwa [heq]
        · rw [heq]
          exact hfirst g' hg'

theorem blocks_insert (path : Path) (b : Block) : ∀ gs : List FileGroup,
    ((insert path b gs).flatMap FileGroup.blocks).Perm (b :: gs.flatMap FileGroup.blocks)
  | [] => .refl _
  | first :: gs => by
    unfold insert
    split
    · simp only [List.flatMap_cons, List.append_assoc, List.singleton_append]
      exact List.perm_middle
    · split
      · exact .refl _
      · simp only [List.flatMap_cons]
        exact ((blocks_insert path b gs).append_left first.blocks).trans List.perm_middle

/-- What holds of blocks with regard to their files after one more block, if `P` holds before. -/
theorem forall_insert {P Q : Path → List Block → Prop} (hnew : Q path [b])
    (hkeep : ∀ g : FileGroup, P g.path g.blocks → Q g.path g.blocks)
    (hmore : ∀ g : FileGroup, g.path.sameAs path = true → P g.path g.blocks →
      Q g.path (g.blocks ++ [b])) : ∀ {gs : List FileGroup}, (∀ g ∈ gs, P g.path g.blocks) →
    ∀ g ∈ insert path b gs, Q g.path g.blocks
  | [], _ => List.forall_mem_singleton.2 hnew
  | first :: gs, h => by
    obtain ⟨hfirst, hrest⟩ := List.forall_mem_cons.1 h
    unfold insert
    split
    · rename_i hsame
      exact List.forall_mem_cons.2 ⟨hmore first hsame hfirst, fun g hg => hkeep g (hrest g hg)⟩
    · split
      · exact List.forall_mem_cons.2 ⟨hnew, fun g hg => hkeep g (h g hg)⟩
      · exact List.forall_mem_cons.2 ⟨hkeep first hfirst, forall_insert hnew hkeep hmore hrest⟩

/-- **One more block** is put into its file. -/
theorem isGrouping_insert {blocks : List Block} {gs : List FileGroup}
    (h : IsGrouping config blocks gs) (b : Block) :
    IsGrouping config (b :: blocks) (insert (Layout.pathOf config b) b gs) where
  ordered := ordered_insert _ b h.ordered
  blocks := (blocks_insert _ b gs).trans (h.blocks.cons b)
  path := by
    let P : Path → List Block → Prop := fun path blocks =>
      ∀ b ∈ blocks, (Layout.pathOf config b).components = path.components
    refine forall_insert (P := P) (Q := P) ?_ (fun _ hg => hg) (fun g hsame hg => ?_) h.path
    · exact List.forall_mem_singleton.2 rfl
    · refine List.forall_mem_append.2 ⟨hg, List.forall_mem_singleton.2 ?_⟩
      have heq : g.path.components = (Layout.pathOf config b).components := by
        simpa [Path.sameAs] using hsame
      exact heq.symm
  filled hs :=
    let P : Path → List Block → Prop := fun _ blocks => blocks ≠ []
    forall_insert (P := P) (Q := P) (by simp [P]) (fun _ hg => hg) (by simp [P]) (h.filled hs)

theorem isGrouping_nil (config : Config) : IsGrouping config [] [] where
  ordered := .nil
  blocks := .refl _
  path := nofun
  filled _ := nofun

/-- The files after blocks are put into them one after another. -/
abbrev insertAll (config : Config) (gs : List FileGroup) (blocks : List Block) : List FileGroup :=
  blocks.foldl (fun gs b => insert (Layout.pathOf config b) b gs) gs

theorem isGrouping_insertAll : ∀ (more : List Block) {blocks : List Block} {gs : List FileGroup},
    IsGrouping config blocks gs → IsGrouping config (more ++ blocks) (insertAll config gs more)
  | [], _, _, h => h
  | b :: more, blocks, gs, h => by
    have hnext := isGrouping_insertAll more (isGrouping_insert h b)
    exact ⟨hnext.ordered, hnext.blocks.trans List.perm_middle, hnext.path, hnext.filled⟩

theorem insertOwn_ok (hs : config.strategy = .multiple) : ∀ {blocks : List Block}
    {gs gs' : List FileGroup}, insertOwn config gs blocks = .ok gs' →
    gs' = insertAll config gs blocks
  | [], _, _, h => (Except.ok.inj h).symm
  | b :: blocks, gs, gs', h => by
    unfold insertOwn at h
    dsimp only at h
    split at h
    · cases h
    · have hpath : Layout.ownPath config b = Layout.pathOf config b := by
        rw [Layout.pathOf, hs]
      rw [hpath] at h
      rw [insertAll, List.foldl_cons]
      exact insertOwn_ok hs h

end FileGroup

/-- The sorted blocks are put into one file, or one after another into the files that the layout
gives them. -/
theorem group_ok_cases {config : Config} {blocks : List Block} {gs : List FileGroup}
    (h : group config blocks = .ok gs) :
    (config.strategy = .single ∧ gs = [⟨(Path.mk config.output).child config.schemaFileName,
      blocks.mergeSort blockOrder⟩]) ∨
    (config.strategy ≠ .single ∧
      gs = FileGroup.insertAll config [] (blocks.mergeSort blockOrder)) := by
  unfold group at h
  dsimp only at h
  split at h
  · rename_i hs
    exact .inl ⟨hs, (Except.ok.inj h).symm⟩
  · rename_i hs
    exact .inr ⟨by rw [hs]; nofun, FileGroup.insertOwn_ok hs h⟩
  · rename_i hs
    have hpath : Layout.spacePath config = Layout.pathOf config := by
      funext b
      rw [Layout.pathOf, hs]
    rw [hpath] at h
    exact .inr ⟨by rw [hs]; nofun, (Except.ok.inj h).symm⟩

/-- **The files of the schema** hold the blocks, each in the file that the layout gives it. -/
theorem isGrouping_group {config : Config} {blocks : List Block} {gs : List FileGroup}
    (h : group config blocks = .ok gs) : IsGrouping config blocks gs := by
  have hsorted : (blocks.mergeSort blockOrder).Perm blocks := List.mergeSort_perm _ _
  rcases group_ok_cases h with ⟨hs, rfl⟩ | ⟨-, rfl⟩
  · refine ⟨List.pairwise_singleton _ _, ?_, ?_, fun hno => absurd hs hno⟩
    · simpa using hsorted
    · refine List.forall_mem_singleton.2 fun b _ => ?_
      rw [Layout.pathOf, hs]
  · have hall := FileGroup.isGrouping_insertAll (blocks.mergeSort blockOrder)
      (FileGroup.isGrouping_nil config)
    rw [List.append_nil] at hall
    exact ⟨hall.ordered, hall.blocks.trans hsorted, hall.path, hall.filled⟩

namespace IsGrouping

variable {config : Config} {blocks : List Block} {gs : List FileGroup}

theorem exists_group (h : IsGrouping config blocks gs) {b : Block} (hb : b ∈ blocks) :
    ∃ g ∈ gs, b ∈ g.blocks := List.mem_flatMap.1 (h.blocks.mem_iff.2 hb)

theorem mem_blocks (h : IsGrouping config blocks gs) {g : FileGroup} (hg : g ∈ gs) {b : Block}
    (hb : b ∈ g.blocks) : b ∈ blocks := h.blocks.mem_iff.1 (List.mem_flatMap.2 ⟨g, hg, hb⟩)

/-- **No two files have the same path.** -/
theorem distinct (h : IsGrouping config blocks gs) :
    gs.Pairwise fun g g' => g.path.components ≠ g'.path.components := by
  refine h.ordered.imp fun hprecedes heq => ?_
  rw [Path.precedes, heq, Path.componentsPrecede_irrefl] at hprecedes
  cases hprecedes

/-- What holds of the paths of files holds of those that the layout gives to blocks. -/
theorem forall_iff (h : IsGrouping config blocks gs) (hs : config.strategy ≠ .single)
    (P : List Path.Component → Prop) : (∀ g ∈ gs, P g.path.components) ↔
      ∀ b ∈ blocks, P (Layout.pathOf config b).components := by
  constructor
  · intro hall b hb
    obtain ⟨g, hg, hbg⟩ := h.exists_group hb
    rw [h.path g hg b hbg]
    exact hall g hg
  · intro hall g hg
    obtain ⟨b, hb⟩ := List.exists_mem_of_ne_nil _ (h.filled hs g hg)
    rw [← h.path g hg b hb]
    exact hall b (h.mem_blocks hg hb)

end IsGrouping

theorem FileGroup.eq_ok_of_map {r : Except Fault (List FileGroup)} {gs : List FileGroup}
    (h : r.toOption.map (List.map fun g => (g.path, g.blocks)) =
      some (gs.map fun g => (g.path, g.blocks))) : r = .ok gs := by
  obtain ⟨gs', hgs, hmap⟩ := Option.map_eq_some_iff.1 h
  have hinj : Function.Injective fun g : FileGroup => (g.path, g.blocks) := by
    rintro ⟨path, blocks⟩ ⟨path', blocks'⟩ heq
    obtain ⟨rfl, rfl⟩ := Prod.mk.inj heq
    rfl
  rw [← List.map_injective_iff.2 hinj hmap]
  exact Outcome.eq_ok_of_toOption hgs

/-- Blocks in order need not be sorted. -/
theorem group_of_pairwise {blocks : List Block}
    (h : blocks.Pairwise fun a b => blockOrder a b = true) (config : Config) :
    group config blocks = match config.strategy with
      | .single => .ok [⟨(Path.mk config.output).child config.schemaFileName, blocks⟩]
      | .multiple => FileGroup.insertOwn config [] blocks
      | .package => .ok (blocks.foldl
          (fun groups b => FileGroup.insert (Layout.spacePath config b) b groups) []) := by
  rewrite [group, List.mergeSort_of_pairwise h]
  rfl

end GoSchema
