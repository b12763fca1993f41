/-
# Sorted files

Blocks are sorted by namespace and then by their places. Where no two places are the same, blocks
can be sorted in one way only, so the order in which they are given does not matter. The files hold
every block once and in order, and there is only one way to fail: two blocks that shall have a file
of their own get the same one.

Key definitions: `Block.Precedes`, `Layout.Apart`, `Layout.Collide`, `IsFiling`.
Key theorems: `blockOrder_iff`, `mergeSort_precedes`, `mergeSort_eq_of_perm`, `pairwise_insertAll`,
`insertOwn_ok_iff`, `group_error_iff`, `isFiling_group`, `group_partitions`.
-/
import Mathlib.Data.List.Nodup
import Mathlib.Data.List.Pairwise
import GoSchema.Proofs.FileGroups

namespace GoSchema

/-- A block stands before another one: by namespace, and in a namespace by place. -/
def Block.Precedes (a b : Block) : Prop :=
  a.spaceName < b.spaceName ∨ (a.spaceName = b.spaceName ∧ a.order < b.order)

instance (a b : Block) : Decidable (a.Precedes b) := instDecidableOr

theorem numbersPrecede_iff : ∀ {as bs : List Nat}, as.length = bs.length →
    (numbersPrecede as bs = true ↔ as < bs)
  | [], [], _ => by simp [numbersPrecede]
  | [], _ :: _, h => by simp at h
  | _ :: _, [], h => by simp at h
  | a :: as, b :: bs, h => by
    have hlength : as.length = bs.length := by simpa using h
    have ih := numbersPrecede_iff hlength
    rw [List.cons_lt_cons_iff, ← ih]
    simp [numbersPrecede]

namespace Block

variable {a b c : Block}

theorem Precedes.trans (hab : a.Precedes b) (hbc : b.Precedes c) : a.Precedes c := by
  rcases hab with hab | ⟨hab, hab'⟩
  · rcases hbc with hbc | ⟨hbc, -⟩
    · exact .inl (String.lt_trans hab hbc)
    · exact .inl (hbc ▸ hab)
  · rcases hbc with hbc | ⟨hbc, hbc'⟩
    · exact .inl (hab ▸ hbc)
    · exact .inr ⟨hab.trans hbc, List.lt_trans hab' hbc'⟩

theorem Precedes.irrefl (a : Block) : ¬ a.Precedes a := by
  rintro (h | ⟨-, h⟩)
  · exact String.lt_irrefl _ h
  · exact List.lt_irrefl _ h

theorem precedes_cases (a b : Block) :
    a.Precedes b ∨ b.Precedes a ∨ (a.spaceName = b.spaceName ∧ a.order = b.order) := by
  by_cases hlt : a.spaceName < b.spaceName
  · exact .inl (.inl hlt)
  · by_cases hgt : b.spaceName < a.spaceName
    · exact .inr (.inl (.inl hgt))
    · have hspace : a.spaceName = b.spaceName :=
        String.le_antisymm (String.not_lt.1 hgt) (String.not_lt.1 hlt)
      by_cases hlt' : a.order < b.order
      · exact .inl (.inr ⟨hspace, hlt'⟩)
      · by_cases hgt' : b.order < a.order
        · exact .inr (.inl (.inr ⟨hspace.symm, hgt'⟩))
        · have horder : a.order = b.order :=
            List.le_antisymm (List.not_lt.1 hgt') (List.not_lt.1 hlt')
          exact .inr (.inr ⟨hspace, horder⟩)

/-- What stands before a block stands before all that do not stand before that block. -/
theorem Precedes.of_not (h : c.Precedes a) (hba : ¬ b.Precedes a) : c.Precedes b := by
  rcases precedes_cases a b with hab | hab | ⟨hspace, horder⟩
  · exact h.trans hab
  · exact absurd hab hba
  · rw [Precedes, hspace, horder] at h
    exact h

end Block

/-- The order of sorting: a block may stand before another one unless it comes after it. -/
theorem blockOrder_iff {a b : Block} : blockOrder a b = true ↔ ¬ b.Precedes a := by
  have hlength : b.order.length = a.order.length := rfl
  have hnumbers := numbersPrecede_iff hlength
  unfold blockOrder Block.Precedes
  by_cases hspace : a.spaceName = b.spaceName
  · have hself : ¬ b.spaceName < b.spaceName := String.lt_irrefl _
    simp only [hspace, hself, ← hnumbers, decide_false, decide_true, Bool.false_or, Bool.true_and,
      Bool.not_eq_true', false_or, true_and, Bool.not_eq_true]
  · have hspace' : b.spaceName ≠ a.spaceName := fun h => hspace h.symm
    by_cases hlt : a.spaceName < b.spaceName
    · have hnot : ¬ b.spaceName < a.spaceName :=
        fun hgt => String.lt_irrefl _ (String.lt_trans hlt hgt)
      simp [hspace, hspace', hlt, hnot]
    · have hgt : b.spaceName < a.spaceName := by
        by_contra hgt
        exact hspace (String.le_antisymm (String.not_lt.1 hgt) (String.not_lt.1 hlt))
      simp [hspace, hlt, hgt]

/-! ### Sorting -/

/-- Sorting puts blocks at different places into their order. -/
theorem mergeSort_precedes {blocks : List Block} (h : (blocks.map Block.order).Nodup) :
    (blocks.mergeSort blockOrder).Pairwise Block.Precedes := by
  have htrans : ∀ a b c : Block, blockOrder a b = true → blockOrder b c = true →
      blockOrder a c = true := by
    intro a b c hab hbc
    rw [blockOrder_iff] at hab hbc ⊢
    exact fun hca => hbc (hca.of_not hab)
  have htotal : ∀ a b : Block, (blockOrder a b || blockOrder b a) = true := by
    intro a b
    rw [Bool.or_eq_true, blockOrder_iff, blockOrder_iff]
    by_cases hba : b.Precedes a
    · exact .inr fun hab => Block.Precedes.irrefl _ (hba.trans hab)
    · exact .inl hba
  have hsorted := List.pairwise_mergeSort htrans htotal blocks
  have hplaces : (blocks.mergeSort blockOrder).Pairwise fun a b => a.order ≠ b.order := by
    have hperm := (List.mergeSort_perm blocks blockOrder).map Block.order
    exact List.pairwise_map.1 (hperm.nodup_iff.2 h)
  refine (hsorted.and hplaces).imp fun {a b} ⟨hle, hne⟩ => ?_
  rw [blockOrder_iff] at hle
  rcases Block.precedes_cases a b with hab | hba | ⟨-, horder⟩
  · exact hab
  · exact absurd hba hle
  · exact absurd horder hne

/-- **Blocks at different places can be sorted in one way only.** -/
theorem mergeSort_eq_of_perm {blocks blocks' : List Block} (h : (blocks.map Block.order).Nodup)
    (hperm : blocks'.Perm blocks) : blocks'.mergeSort blockOrder = blocks.mergeSort blockOrder := by
  have h' : (blocks'.map Block.order).Nodup := (hperm.map Block.order).nodup_iff.2 h
  have hboth : (blocks'.mergeSort blockOrder).Perm (blocks.mergeSort blockOrder) :=
    (List.mergeSort_perm _ _).trans (hperm.trans (List.mergeSort_perm _ _).symm)
  exact hboth.eq_of_pairwise
    (fun a b _ _ hab hba => absurd (hab.trans hba) (Block.Precedes.irrefl a))
    (mergeSort_precedes h') (mergeSort_precedes h)

/-! ### Files -/

/-- Whether two blocks get different paths. -/
def Layout.Apart (config : Config) (a b : Block) : Prop :=
  (Layout.pathOf config a).components ≠ (Layout.pathOf config b).components

instance (config : Config) : Std.Symm (Layout.Apart config) := ⟨fun _ _ h => h.symm⟩

namespace FileGroup

variable {config : Config}

/-- Blocks that are put into files in some order stand in every file in that order. -/
theorem pairwise_insertAll {R : Block → Block → Prop} : ∀ {blocks : List Block}
    {gs : List FileGroup}, blocks.Pairwise R → (∀ g ∈ gs, (g.blocks ++ blocks).Pairwise R) →
    ∀ g ∈ insertAll config gs blocks, g.blocks.Pairwise R
  | [], gs, _, h => by simpa using h
  | b :: blocks, gs, hall, h => by
    let P : Path → List Block → Prop := fun _ own => (own ++ b :: blocks).Pairwise R
    let Q : Path → List Block → Prop := fun _ own => (own ++ blocks).Pairwise R
    have hnext : ∀ g ∈ insert (Layout.pathOf config b) b gs, (g.blocks ++ blocks).Pairwise R := by
      refine forall_insert (P := P) (Q := Q) hall (fun g hg => ?_) (fun g _ hg => ?_) h
      · exact hg.sublist ((List.sublist_cons_self b blocks).append_left g.blocks)
      · simpa [P, Q] using hg
    show ∀ g ∈ insertAll config (insert (Layout.pathOf config b) b gs) blocks, g.blocks.Pairwise R
    exact pairwise_insertAll (List.pairwise_cons.1 hall).2 hnext

/-- The paths of files after one more block: that of the block, and those that were there. -/
theorem exists_insert_iff {path : Path} {b : Block} (p : List Path.Component) :
    ∀ {gs : List FileGroup}, (∃ g ∈ insert path b gs, g.path.components = p) ↔
      path.components = p ∨ ∃ g ∈ gs, g.path.components = p
  | [] => by simp [insert]
  | first :: gs => by
    have ih : (∃ g ∈ insert path b gs, g.path.components = p) ↔
        path.components = p ∨ ∃ g ∈ gs, g.path.components = p := exists_insert_iff p
    unfold insert
    split
    · rename_i hsame
      have heq : first.path.components = path.components := by simpa [Path.sameAs] using hsame
      simp [heq]
    · split
      · simp
      · rw [List.exists_mem_cons_iff, ih, List.exists_mem_cons_iff]
        exact or_left_comm

/-- **Blocks get files of their own** if and only if no two of them, nor one of them and a file that
is there, have the same path. -/
theorem insertOwn_ok_iff (hs : config.strategy = .multiple) : ∀ {blocks : List Block}
    {gs : List FileGroup}, (∃ gs', insertOwn config gs blocks = .ok gs') ↔
      blocks.Pairwise (Layout.Apart config) ∧ ∀ b ∈ blocks, ¬ ∃ g ∈ gs,
        g.path.components = (Layout.pathOf config b).components
  | [], gs => by simp [insertOwn]
  | b :: blocks, gs => by
    have hpath : Layout.ownPath config b = Layout.pathOf config b := by rw [Layout.pathOf, hs]
    unfold insertOwn
    dsimp only
    rw [hpath]
    split
    · rename_i g hg
      have htaken : ∃ g ∈ gs, g.path.components = (Layout.pathOf config b).components :=
        ⟨g, List.mem_of_find?_eq_some hg, by simpa [Path.sameAs] using List.find?_some hg⟩
      constructor
      · rintro ⟨gs', h⟩
        cases h
      · rintro ⟨-, hall⟩
        exact absurd htaken (hall b List.mem_cons_self)
    · rename_i hfree
      have hfree : ¬ ∃ g ∈ gs, g.path.components = (Layout.pathOf config b).components := by
        simpa [Path.sameAs] using hfree
      rw [insertOwn_ok_iff hs, List.pairwise_cons, List.forall_mem_cons]
      simp only [exists_insert_iff, not_or]
      constructor
      · rintro ⟨hpairwise, hall⟩
        exact ⟨⟨fun c hc => (hall c hc).1, hpairwise⟩, hfree, fun c hc => (hall c hc).2⟩
      · rintro ⟨⟨hfirst, hpairwise⟩, -, hall⟩
        exact ⟨hpairwise, fun c hc => ⟨hfirst c hc, hall c hc⟩⟩

end FileGroup

/-- Files that hold blocks once and in order: all in one file, or each in a file of its own, as the
strategy says. -/
structure IsFiling (config : Config) (blocks : List Block) (gs : List FileGroup) : Prop
    extends IsGrouping config blocks gs where
  sorted : ∀ g ∈ gs, g.blocks.Pairwise Block.Precedes
  single : config.strategy = .single → gs.length = 1
  own : config.strategy = .multiple → ∀ g ∈ gs, g.blocks.length = 1

/-- Whether two of the blocks get the same path. -/
def Layout.Collide (config : Config) (blocks : List Block) : Prop :=
  ∃ a ∈ blocks, ∃ b ∈ blocks, a ≠ b ∧
    (Layout.pathOf config a).components = (Layout.pathOf config b).components

section Group

variable {config : Config} {blocks : List Block}

theorem Layout.collide_iff (h : blocks.Nodup) :
    Layout.Collide config blocks ↔ ¬ blocks.Pairwise (Layout.Apart config) := by
  constructor
  · rintro ⟨a, ha, b, hb, hne, heq⟩ hall
    exact hall.forall ha hb hne heq
  · intro hno
    by_contra hfree
    refine hno (h.pairwise_of_forall_ne fun a ha b hb hne heq => ?_)
    exact hfree ⟨a, ha, b, hb, hne, heq⟩

/-- **The only way to fail**: two blocks that shall have files of their own get the same one. -/
theorem group_error_iff (h : blocks.Nodup) : (∃ e, group config blocks = .error e) ↔
    config.strategy = .multiple ∧ Layout.Collide config blocks := by
  have hperm : (blocks.mergeSort blockOrder).Perm blocks := List.mergeSort_perm _ _
  unfold group
  cases hs : config.strategy with
  | single | package => simp
  | multiple =>
    have hok : (∃ gs, FileGroup.insertOwn config [] (blocks.mergeSort blockOrder) = .ok gs) ↔
        blocks.Pairwise (Layout.Apart config) := by
      rw [FileGroup.insertOwn_ok_iff hs, hperm.pairwise_iff fun hab => hab.symm]
      simp
    rw [Layout.collide_iff h, ← hok]
    cases hown : FileGroup.insertOwn config [] (blocks.mergeSort blockOrder) with
    | error e => simp [hown]
    | ok gs => simp [hown]

theorem sorted_group (h : (blocks.map Block.order).Nodup) {gs : List FileGroup}
    (hgs : group config blocks = .ok gs) : ∀ g ∈ gs, g.blocks.Pairwise Block.Precedes := by
  have hsorted := mergeSort_precedes h
  rcases group_ok_cases hgs with ⟨-, rfl⟩ | ⟨-, rfl⟩
  · simpa using hsorted
  · exact FileGroup.pairwise_insertAll hsorted nofun

theorem own_group (h : blocks.Nodup) {gs : List FileGroup} (hgs : group config blocks = .ok gs)
    (hs : config.strategy = .multiple) : ∀ g ∈ gs, g.blocks.length = 1 := by
  intro g hg
  have hgrouping := isGrouping_group hgs
  have hapart : (gs.flatMap FileGroup.blocks).Pairwise (Layout.Apart config) := by
    rw [hgrouping.blocks.pairwise_iff fun hab => hab.symm]
    by_contra hno
    obtain ⟨e, he⟩ := (group_error_iff h).2 ⟨hs, (Layout.collide_iff h).2 hno⟩
    rw [he] at hgs
    cases hgs
  have hown : g.blocks.Pairwise (Layout.Apart config) := by
    rw [List.flatMap_def, List.pairwise_flatten] at hapart
    exact hapart.1 _ (List.mem_map_of_mem hg)
  have hpath := hgrouping.path g hg
  match hblocks : g.blocks with
  | [] => exact absurd hblocks (hgrouping.filled (by rw [hs]; nofun) g hg)
  | [b] => rfl
  | a :: b :: more =>
    rw [hblocks] at hown hpath
    have hne : Layout.Apart config a b := (List.pairwise_cons.1 hown).1 b List.mem_cons_self
    have ha := hpath a List.mem_cons_self
    have hb := hpath b (List.mem_cons_of_mem _ List.mem_cons_self)
    exact absurd (ha.trans hb.symm) hne

theorem isFiling_group (h : (blocks.map Block.order).Nodup) {gs : List FileGroup}
    (hgs : group config blocks = .ok gs) : IsFiling config blocks gs where
  toIsGrouping := isGrouping_group hgs
  sorted := sorted_group h hgs
  single hs := by
    rcases group_ok_cases hgs with ⟨-, rfl⟩ | ⟨hno, -⟩
    · rfl
    · exact absurd hs hno
  own hs := own_group (h.of_map _) hgs hs

/-- **Grouping is a partition that does not depend on the order of the blocks.** -/
theorem group_partitions (config : Config) (h : (blocks.map Block.order).Nodup) :
    (∀ gs, group config blocks = .ok gs → IsFiling config blocks gs) ∧
      ((∃ e, group config blocks = .error e) ↔
        config.strategy = .multiple ∧ Layout.Collide config blocks) ∧
      ∀ blocks', blocks'.Perm blocks → group config blocks' = group config blocks := by
  refine ⟨fun gs hgs => isFiling_group h hgs, group_error_iff (h.of_map _), fun blocks' hperm => ?_⟩
  rw [group, group, mergeSort_eq_of_perm h hperm]

end Group

/-- Blocks of two structs whose names are written alike in file names. -/
def noticeBlocks : List Block :=
  [{ kind := .type, name := "UserNote", package := "m", place := ⟨0, 0, 0⟩, slot := 1 },
    { kind := .type, name := "User_Note", package := "m", place := ⟨0, 1, 0⟩, slot := 1 }]

/-- A configuration that gives every block a file of its own. -/
def noticeConfig : Config := { strategy := .multiple }

/-- These blocks get one file, so that in any order grouping fails with one error. -/
theorem noticeBlocks_collide : (noticeBlocks.map Block.order).Nodup ∧
    Layout.Collide noticeConfig noticeBlocks ∧
    ∃ e, group noticeConfig noticeBlocks = .error e ∧
      group noticeConfig noticeBlocks.reverse = .error e := by
  have horder : (noticeBlocks.map Block.order).Nodup := by decide
  have hcollide : Layout.Collide noticeConfig noticeBlocks := by
    refine ⟨noticeBlocks[0], by simp [noticeBlocks], noticeBlocks[1], by simp [noticeBlocks], ?_, ?_⟩
    · decide
    · decide +kernel
  obtain ⟨-, hfails, hperm⟩ := group_partitions noticeConfig horder
  obtain ⟨e, he⟩ := hfails.2 ⟨rfl, hcollide⟩
  exact ⟨horder, hcollide, e, he, (hperm _ (List.reverse_perm _)).trans he⟩

end GoSchema
