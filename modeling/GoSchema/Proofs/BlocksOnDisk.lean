/-
# Blocks on disk

After a plan was carried out there is in the place of a file the text of one of the files that lead
to this place. So every file has its own text exactly when files in one place have the same text,
and then every block is found in the file that is reported for it. Paths that are kept apart may
lead to the same place, because one of them goes up; those below the output directory never do.

Key theorems: `infix_fileText`, `exists_file_of_block`, `read_all_iff`, `nodup_targets_of_below`,
`blocks_on_disk`.
-/
import GoSchema.Proofs.FileGroups
import GoSchema.Proofs.Regeneration
import GoSchema.Proofs.Ways

namespace GoSchema

theorem exists_eq_singleton_of_single {config : Config} {blocks : List Block} {gs : List FileGroup}
    (hs : config.strategy = .single) (h : group config blocks = .ok gs) : ∃ g, gs = [g] := by
  rw [group, hs] at h
  exact ⟨_, (Except.ok.inj h).symm⟩

/-- A block stands in the text of its file as it is written. -/
theorem infix_fileText {blocks : List Block} {b : Block} (hb : b ∈ blocks) (config : Config)
    (kept : Option (List Char)) :
    b.render config.modelDirectives <:+: fileText config kept blocks := by
  have hblocks : b.render config.modelDirectives <:+: blocksText config blocks := by
    obtain ⟨before, after, rfl⟩ := List.append_of_mem hb
    refine ⟨blocksText config before ++ ['\n'], blocksText config after, ?_⟩
    simp [blocksText]
  refine hblocks.trans ?_
  rw [fileText_eq]
  split
  · exact ⟨header ++ ['\n'] ++ ['\n'] ++ Region.render config.keep kept, [], by simp⟩
  · exact ⟨header ++ ['\n'], ['\n'] ++ (Region.render config.keep kept ++ []), by simp⟩

section Plans

variable {config : Config} {t t' : FileTree} {blocks : List Block} {gs : List FileGroup}
  {plan : List FilePlan}

/-- **Every block is planned**: a file reports its name, and has it in its text. -/
theorem exists_file_of_block (hgroup : IsGrouping config blocks gs)
    (hplan : planGroups config t gs = .ok plan) (hskip : config.skipExisting = false) {b : Block}
    (hb : b ∈ blocks) : ∃ f ∈ plan, b.name ∈ f.blocks ∧
      b.render config.modelDirectives <:+: f.content.toList := by
  obtain ⟨g, hg, hbg⟩ := hgroup.exists_group hb
  obtain ⟨f, hf, old, -, hfg⟩ := Pointwise.exists_right (forall₂_of_planGroups hplan) hg
  obtain ⟨content, -, htext⟩ := FilePlan.content_ofGroup hskip hfg
  refine ⟨f, hf, ?_, ?_⟩
  · rw [(FilePlan.ofGroup_ok hfg).2.1]
    exact List.mem_map_of_mem hbg
  · rw [htext, String.toList_ofList]
    exact infix_fileText hbg config _

/-- **Every file has its own text** exactly when files in one place have the same. -/
theorem read_all_iff (hplan : planGroups config t gs = .ok plan)
    (hwrite : writeAll t plan = (t', none)) : (∀ f ∈ plan, t'.read f.path = .ok f.content) ↔
      ∀ f ∈ plan, ∀ f' ∈ plan, t.target f.path = t.target f'.path → f.content = f'.content := by
  have hworkDir := (FileTree.keeps_writeAll hwrite).workDir
  constructor
  · intro hread f hf f' hf' htarget
    rw [← FileTree.target_congr hworkDir, ← FileTree.target_congr hworkDir] at htarget
    exact FileTree.read_eq_of_target_eq (hread f hf) (hread f' hf') htarget
  · intro hsame f hf
    obtain ⟨f', hf', htarget, hread⟩ := exists_read_of_carried hplan hwrite hf
    rw [hread, hsame f' hf' f hf htarget]

/-- Names lead from one place to different places. -/
theorem FileTree.target_ne_of_below {base p q : Path} (hp : Path.Below base p)
    (hq : Path.Below base q) (hne : p.components ≠ q.components) : t.target p ≠ t.target q := by
  obtain ⟨names, hp⟩ := hp
  obtain ⟨names', hq⟩ := hq
  intro heq
  rw [FileTree.target_eq, FileTree.target_eq, hp, hq, FileTree.endOf_append, FileTree.endOf_append,
    FileTree.endOf_names, FileTree.endOf_names, List.append_cancel_left_eq] at heq
  exact hne (by rw [hp, hq, heq])

/-- **Files below the output directory** lead to different places. -/
theorem nodup_targets_of_below (hgroup : IsGrouping config blocks gs)
    (hplan : planGroups config t gs = .ok plan) {base : Path}
    (hbelow : ∀ f ∈ plan, Path.Below base f.path) :
    (plan.map fun f => t.target f.path).Nodup := by
  have hpaths : plan.Pairwise fun f f' => f.path.components ≠ f'.path.components := by
    refine Pointwise.pairwise (forall₂_of_planGroups hplan) hgroup.distinct ?_
    rintro g g' f f' ⟨old, -, hf⟩ ⟨old', -, hf'⟩ hne
    rwa [(FilePlan.ofGroup_ok hf).1, (FilePlan.ofGroup_ok hf').1]
  rw [List.Nodup, List.pairwise_map]
  refine hpaths.imp_of_mem fun hf hf' hne => ?_
  exact FileTree.target_ne_of_below (hbelow _ hf) (hbelow _ hf') hne

end Plans

/-! ### A run -/

namespace Generation

variable {config : Config} {t t' : FileTree} {summary : RunSummary} {plan : List FilePlan}
  {bs : List Block}

theorem run_planned (hrun : run config t = (t', .ok summary))
    (hprepare : prepare config t = .ok (summary, plan)) :
    ∃ files bs gs, blocks config t = .ok bs ∧ group config bs = .ok gs ∧
      planGroups config t gs = .ok plan ∧ writeAll t plan = (t', none) ∧
      summary = summaryOf files bs plan := by
  obtain ⟨files, bs, gs, plan', -, hfiles, hbs, hgroup, hplan, hwrite, hsummary⟩ := run_ok hrun
  have hsame := prepare_of_stages hfiles hbs hgroup hplan
  rw [hprepare] at hsame
  obtain rfl : plan = plan' := congrArg Prod.snd (Except.ok.inj hsame)
  refine ⟨files, bs, gs, ?_, hgroup, hplan, hwrite, hsummary⟩
  simp only [blocks, hfiles, hbs, bind, Except.bind]

/-- **Blocks on disk.** Where existing files are not skipped, every block is planned in a file that
reports it, and what is read after the run from a file is planned for a file in the same place. So
every file has what is planned for it exactly when files in one place have the same text. No two
files are in one place if there is one file only, or if all are below the output directory. -/
theorem blocks_on_disk (hskip : config.skipExisting = false)
    (hrun : run config t = (t', .ok summary)) (hprepare : prepare config t = .ok (summary, plan))
    (hblocks : blocks config t = .ok bs) :
    (∀ b ∈ bs, ∃ f ∈ plan, f.toSummary ∈ summary.files ∧ b.name ∈ f.blocks ∧
      b.render config.modelDirectives <:+: f.content.toList) ∧
    (∀ f ∈ plan, ∃ f' ∈ plan, t.target f'.path = t.target f.path ∧
      t'.read f.path = .ok f'.content) ∧
    ((∀ f ∈ plan, t'.read f.path = .ok f.content) ↔ ∀ f ∈ plan, ∀ f' ∈ plan,
      t.target f.path = t.target f'.path → f.content = f'.content) ∧
    (config.strategy = .single ∨ (∀ f ∈ plan, Path.Below ⟨config.output⟩ f.path) →
      (plan.map fun f => t.target f.path).Nodup ∧ ∀ f ∈ plan, t'.read f.path = .ok f.content) := by
  obtain ⟨files, bs', gs, hbs, hgroup, hplan, hwrite, rfl⟩ := run_planned hrun hprepare
  obtain rfl := Except.ok.inj (hbs.symm.trans hblocks)
  have hgrouping := isGrouping_group hgroup
  have hall := read_all_iff hplan hwrite
  refine ⟨fun b hb => ?_, fun f hf => exists_read_of_carried hplan hwrite hf, hall, fun h => ?_⟩
  · obtain ⟨f, hf, hname, htext⟩ := exists_file_of_block hgrouping hplan hskip hb
    exact ⟨f, hf, List.mem_map_of_mem hf, hname, htext⟩
  · have hnodup : (plan.map fun f => t.target f.path).Nodup := by
      rcases h with hs | hbelow
      · obtain ⟨g, rfl⟩ := exists_eq_singleton_of_single hs hgroup
        have hlen := (forall₂_of_planGroups hplan).length_eq
        obtain ⟨f, rfl⟩ := List.length_eq_one_iff.1 hlen.symm
        exact List.nodup_singleton _
      · exact nodup_targets_of_below hgrouping hplan hbelow
    refine ⟨hnodup, hall.2 fun f hf f' hf' heq => ?_⟩
    rw [List.inj_on_of_nodup_map hnodup hf hf' heq]

theorem exists_prepared (hrun : run config t = (t', .ok summary)) :
    ∃ plan, prepare config t = .ok (summary, plan) := by
  obtain ⟨files, bs, gs, plan, -, hfiles, hbs, hgroup, hplan, -, rfl⟩ := run_ok hrun
  exact ⟨plan, prepare_of_stages hfiles hbs hgroup hplan⟩

theorem run_keptTree :
    run fileConfig keptTree = ((run fileConfig keptTree).1, .ok (userSummary .updated)) :=
  run_of_toOption (by decide +kernel)

theorem keptTree_blocks_on_disk : fileConfig.skipExisting = false ∧
    ∃ t' plan bs, run fileConfig keptTree = (t', .ok (userSummary .updated)) ∧
      prepare fileConfig keptTree = .ok (userSummary .updated, plan) ∧
      blocks fileConfig keptTree = .ok bs ∧ ∀ f ∈ plan, t'.read f.path = .ok f.content := by
  obtain ⟨plan, hprepare⟩ := exists_prepared run_keptTree
  have hblocks : blocks fileConfig keptTree = .ok keptGroup.blocks := by decide +kernel
  refine ⟨rfl, _, plan, _, run_keptTree, hprepare, hblocks, ?_⟩
  exact ((blocks_on_disk rfl run_keptTree hprepare hblocks).2.2.2 (.inl rfl)).2

/-- Two structs whose names are written alike in file names, in namespaces that lead to one
directory. -/
def sharedTree : FileTree :=
  { nodes :=
      [(["m.go"], .file (some
          ("package m\n\n// @gqlType\n// @gqlNamespace(name: \"a/../b\")\n" ++
            "type UserInfo struct \x7b\n    Name string\n\x7d\n\n" ++
            "// @gqlType\n// @gqlNamespace(name: \"b\")\n" ++
            "type User_Info struct \x7b\n    Id string\n\x7d\n")))] }

/-- A configuration that gives every block a file of its own in a directory. -/
def sharedConfig : Config := { ownFileConfig with output := "out" }

/-- The blocks of these structs. -/
def sharedBlocks : List Block :=
  [{ userBlock with
      name := "UserInfo"
      space := some "a/../b"
      fields := [{ name := "name", typeText := "String!" }]
      source := "m.UserInfo (type)" },
    { userBlock with
      name := "User_Info"
      space := some "b"
      place := ⟨0, 1, 0⟩
      fields := [{ name := "id", typeText := "String!" }]
      source := "m.User_Info (type)" }]

/-- The files of these blocks. -/
def sharedPlan : List FilePlan :=
  [{ path := ⟨"out/a/../b/user_info.graphqls"⟩
     blocks := ["UserInfo"]
     content := "# Code generated by gqlforge. DO NOT EDIT.\n\ntype UserInfo \x7b\n" ++
       "  name: String!\n\x7d\n\n# @gqlKeepBegin\n# @gqlKeepEnd\n"
     status := .created },
    { path := ⟨"out/b/user_info.graphqls"⟩
      blocks := ["User_Info"]
      content := "# Code generated by gqlforge. DO NOT EDIT.\n\ntype User_Info \x7b\n" ++
        "  id: String!\n\x7d\n\n# @gqlKeepBegin\n# @gqlKeepEnd\n"
      status := .created }]

/-- **A block may be lost.** Both files are reported, and they are one file on disk. -/
theorem sharedTree_loses_block : ∃ t' summary, run sharedConfig sharedTree = (t', .ok summary) ∧
    prepare sharedConfig sharedTree = .ok (summary, sharedPlan) ∧
    sharedTree.target ⟨"out/a/../b/user_info.graphqls"⟩ =
      sharedTree.target ⟨"out/b/user_info.graphqls"⟩ ∧
    ¬ ∀ f ∈ sharedPlan, t'.read f.path = .ok f.content := by
  have hblocks : blocks sharedConfig sharedTree = .ok sharedBlocks := by decide +kernel
  have hsorted : sharedBlocks.Pairwise fun a b => blockOrder a b = true := by decide +kernel
  have hgroup : group sharedConfig sharedBlocks = .ok
      [⟨⟨"out/a/../b/user_info.graphqls"⟩, sharedBlocks.take 1⟩,
        ⟨⟨"out/b/user_info.graphqls"⟩, sharedBlocks.drop 1⟩] := by
    rw [group_of_pairwise hsorted]
    exact FileGroup.eq_ok_of_map (by decide +kernel)
  have hplan : planGroups sharedConfig sharedTree
      [⟨⟨"out/a/../b/user_info.graphqls"⟩, sharedBlocks.take 1⟩,
        ⟨⟨"out/b/user_info.graphqls"⟩, sharedBlocks.drop 1⟩] =
      .ok sharedPlan := by decide +kernel
  obtain ⟨files, hprepare⟩ := prepare_of_blocks hblocks hgroup hplan
  have hnone : (writeAll sharedTree sharedPlan).2 = none := by decide +kernel
  have hcheck : sharedConfig.checkAll = .ok () := Outcome.eq_ok_of_toOption (by decide +kernel)
  have hrun := run_of_prepared hcheck hprepare
  obtain ⟨⟨t', fault⟩, hwrite⟩ : ∃ made, writeAll sharedTree sharedPlan = made := ⟨_, rfl⟩
  rw [hwrite] at hnone hrun
  obtain rfl : fault = none := hnone
  have htarget : sharedTree.target ⟨"out/a/../b/user_info.graphqls"⟩ =
      sharedTree.target ⟨"out/b/user_info.graphqls"⟩ := by decide
  refine ⟨_, _, hrun, hprepare, htarget, fun hread => ?_⟩
  have hsame := (read_all_iff hplan hwrite).1 hread _ List.mem_cons_self _
    (List.mem_cons_of_mem _ List.mem_cons_self) htarget
  exact absurd hsame (by decide)

end Generation

end GoSchema
