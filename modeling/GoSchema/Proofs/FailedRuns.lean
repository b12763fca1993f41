/-
# Runs that fail

A run that fails before it writes leaves the tree as it was. A run that has a plan succeeds exactly
when the plan can be carried out, and otherwise fails with what the system says. Then the tree is
changed, because a file or a directory was made before, except in one case: the first file that is
to be written has something idle at the end of its path, and its directory is there. Where paths go
on by names from a directory that is there, and end in a step, a plan cannot be carried out only if
one of its files stands on the way to another.

Key definitions: `FileTree.FailsAtOnce`.
Key theorems: `eq_of_failsAtOnce`, `failsAtOnce_of_unchanged`, `canWrite_of_settled`,
`canCarryOut_iff_of_settled`, `failed_run_unchanged_iff`.
-/
import GoSchema.Proofs.CarriedPlans
import GoSchema.Proofs.FileGroups

namespace GoSchema

namespace FileTree

variable {t t' u : FileTree} {plan : List FilePlan}

/-- Whether the first file that is to be written cannot be, although its directory is there: its
path has something idle at its end. -/
def FailsAtOnce (t : FileTree) (plan : List FilePlan) : Prop :=
  ∃ before f after, plan = before ++ f :: after ∧ (∀ g ∈ before, g.status.isWritten = false) ∧
    f.status.isWritten = true ∧ ¬ f.path.EndsInStep ∧
    ∀ a ∈ t.way f.path, t.nodeAt? a = some .directory

theorem writeAll_append_of_not_written : ∀ {before : List FilePlan} (after : List FilePlan),
    (∀ g ∈ before, g.status.isWritten = false) → writeAll t (before ++ after) = writeAll t after
  | [], _, _ => rfl
  | f :: before, after, h => by
    obtain ⟨hf, hrest⟩ := List.forall_mem_cons.1 h
    rw [List.cons_append, writeAll, if_neg (by simp [hf])]
    exact writeAll_append_of_not_written after hrest

theorem eq_of_failsAtOnce (ht : t.IsTree) (h : FailsAtOnce t plan) : (writeAll t plan).1 = t := by
  obtain ⟨before, f, after, rfl, hbefore, hf, hstep, hdirs⟩ := h
  obtain ⟨e, he⟩ := write_of_not_endsInStep ht hstep f.content
  have hone : writeOne t f = (t, some (.io f.path e)) := by
    rw [writeOne, makeDirOf_of_directories ht hdirs]
    dsimp only
    rw [he]
  rw [writeAll_append_of_not_written _ hbefore, writeAll, if_pos hf, hone]

theorem fits_cases (ht : t.IsTree) {f : FilePlan} (hfits : f.Fits t)
    (hf : f.status.isWritten = true) (hne : f.path.text ≠ "") :
    (∃ a, t.obstacle? (t.way f.path ++ [t.target f.path]) = some a ∧ t.nodeAt? a = none) ∨
      ∃ old, (∀ a ∈ t.way f.path, t.nodeAt? a = some .directory) ∧
        t.nodeAt? (t.target f.path) = some (.file (some old)) ∧ old ≠ f.content := by
  rcases FileChange.isWritten_iff.1 hf with hs | hs
  · exact .inl ((read_eq_notFound_iff ht hne).1 (hfits.created hs))
  · obtain ⟨old, hread, hold⟩ := hfits.updated hs
    obtain ⟨-, hdirs, htarget⟩ := endsInStep_of_read ht hread
    exact .inr ⟨old, hdirs, htarget, hold⟩

/-- What is written was not there before, with all that is on its way. -/
theorem not_here_of_fits (ht : t.IsTree) {f : FilePlan} (hfits : f.Fits t)
    (hf : f.status.isWritten = true) (hstep : f.path.EndsInStep)
    (hdirs : ∀ a ∈ t.way f.path, t.nodeAt? a = some .directory) :
    t.nodeAt? (t.target f.path) ≠ some (.file (some f.content)) := by
  have hne := Path.text_ne_of_endsInStep hstep
  rcases fits_cases ht hfits hf hne with ⟨a, ho, ha⟩ | ⟨old, -, htarget, hold⟩
  · rcases List.mem_append.1 (obstacle?_eq_some ho).1 with hmem | hmem
    · rw [hdirs a hmem] at ha
      cases ha
    · rw [← List.mem_singleton.1 hmem, ha]
      nofun
  · rw [htarget]
    simpa using hold

/-- If nothing on the way of a file is made, only the end of its path can be at fault. -/
theorem not_endsInStep_of_fits (ht : t.IsTree) {f : FilePlan} (hfits : f.Fits t)
    (hf : f.status.isWritten = true) (hno : ¬ t.CanWrite f.path)
    (hfirst : ∀ a, t.obstacle? (t.way f.path) = some a → t.nodeAt? a ≠ none) :
    ¬ f.path.EndsInStep ∧ ∀ a ∈ t.way f.path, t.nodeAt? a = some .directory := by
  by_cases hne : f.path.text = ""
  · refine ⟨fun hstep => Path.text_ne_of_endsInStep hstep hne, fun a ha => ?_⟩
    rw [way, Path.eq_empty hne, Path.components_empty] at ha
    exact absurd ha List.not_mem_nil
  have hfree : (∀ a ∈ t.way f.path, t.nodeAt? a = some .directory) ∧
      t.nodeAt? (t.target f.path) ≠ some .directory := by
    rcases fits_cases ht hfits hf hne with ⟨a, ho, ha⟩ | ⟨old, hdirs, htarget, -⟩
    · rw [obstacle?_concat] at ho
      cases hway : t.obstacle? (t.way f.path) with
      | some b =>
        rw [hway, Option.some_or] at ho
        exact absurd (Option.some.inj ho ▸ ha) (hfirst b hway)
      | none =>
        refine ⟨obstacle?_eq_none_iff.1 hway, fun hdir => ?_⟩
        rw [hway, hdir] at ho
        cases ho
    · refine ⟨hdirs, fun hdir => ?_⟩
      rw [htarget] at hdir
      cases hdir
  refine ⟨fun hstep => hno ⟨hstep, hfree.2, fun a ha => ⟨?_, fun text hfile => ?_⟩⟩, hfree.1⟩
  · rintro rfl
    exact hfree.2 (hfree.1 _ ha)
  · rw [hfree.1 a ha] at hfile
    cases hfile

/-- **A plan that fails changes the tree**, unless it fails at once. -/
theorem failsAtOnce_of_unchanged (ht : t.IsTree) (hfits : ∀ f ∈ plan, f.Fits t) {e : Fault}
    (h : writeAll t plan = (t', some e)) (hsame : ∀ a, t'.nodeAt? a = t.nodeAt? a) :
    FailsAtOnce t plan := by
  obtain ⟨before, f, after, u, rfl, hf, hbefore, hfail⟩ := exists_failed h
  have hcarried := carriedOut_writeAll ht hbefore
  obtain ⟨hext, -, hfirst, -⟩ := fails_writeOne hcarried.isTree hfail
  -- what was made before the failure is there in the end, so it was there from the start
  have hback : ∀ a n, u.nodeAt? a = some n → t.nodeAt? a = some n := fun a n hn =>
    hsame a ▸ hext.entry a n hn
  have hnone : ∀ g ∈ before, g.status.isWritten = false := by
    by_contra hsome
    push Not at hsome
    obtain ⟨g, hg, hw⟩ := hsome
    have hw : g.status.isWritten = true := by simpa using hw
    obtain ⟨g', hg', hw', heq, hnode⟩ := hcarried.here g hg hw
    have hcan := ((writeAll_eq_none_iff ht).1 (congrArg Prod.snd hbefore) g' hg' hw').1
    refine not_here_of_fits ht (hfits g' (List.mem_append_left _ hg')) hw' hcan.endsInStep
      (fun a ha => hback a _ (hcarried.way g' hg' hw' a ha)) ?_
    rw [heq]
    exact hback _ _ hnode
  have hu : writeAll t before = (t, none) := writeAll_of_not_written hnone
  obtain rfl : t = u := congrArg Prod.fst (hu.symm.trans hbefore)
  have hno : ¬ t.CanWrite f.path := by
    rw [← writeOne_eq_none_iff ht f, hfail]
    nofun
  refine ⟨before, f, after, rfl, hnone, hf, ?_⟩
  refine not_endsInStep_of_fits ht (hfits f (by simp)) hf hno fun a ho ha => ?_
  have hmade := hfirst a ho ha
  rw [hsame, ha] at hmade
  cases hmade

theorem exists_fault_writeAll (ht : t.IsTree) {e : Fault} (h : writeAll t plan = (t', some e)) :
    ∃ path os, e = .io path os := by
  obtain ⟨before, f, after, u, rfl, -, hbefore, hfail⟩ := exists_failed h
  obtain ⟨-, -, -, hfault⟩ := fails_writeOne (carriedOut_writeAll ht hbefore).isTree hfail
  exact hfault

/-! ### Runs -/

/-- A file that is to be written can be, by itself, if its path goes on by names and ends in one. -/
theorem canWrite_of_settled (ht : t.IsTree) {f : FilePlan} (hfits : f.Fits t)
    (hf : f.status.isWritten = true) (hset : t.Settled f.path) (hstep : f.path.EndsInStep) :
    t.CanWrite f.path := by
  have hne := Path.text_ne_of_endsInStep hstep
  have hfree : t.nodeAt? (t.target f.path) ≠ some .directory ∧
      ∀ a ∈ t.way f.path, ∀ text, t.nodeAt? a ≠ some (.file text) := by
    rcases fits_cases ht hfits hf hne with ⟨b, ho, hb⟩ | ⟨old, hdirs, htarget, -⟩
    · have hmissing := hset.target_of_missing ht (obstacle?_eq_some ho).1 hb
      exact ⟨by rw [hmissing]; nofun, hset.not_file_of_missing ht ho hb⟩
    · refine ⟨by rw [htarget]; nofun, fun a ha text hfile => ?_⟩
      rw [hdirs a ha] at hfile
      cases hfile
  refine ⟨hstep, hfree.1, fun a ha => ⟨?_, hfree.2 a ha⟩⟩
  rintro rfl
  rcases hset.mem_way ha with hdir | ⟨rest, hrest, heq⟩
  · exact hfree.1 hdir
  · exact hrest (by simpa using heq)

/-- **Only files in each other's way** keep a plan from being carried out, where paths go on by names
and end in one. -/
theorem canCarryOut_iff_of_settled (ht : t.IsTree) (hfits : ∀ f ∈ plan, f.Fits t)
    (hset : ∀ f ∈ plan, t.Settled f.path ∧ f.path.EndsInStep) :
    t.CanCarryOut plan ↔ ∀ f ∈ plan, f.status.isWritten = true → ∀ g ∈ plan,
      g.status.isWritten = true → t.target g.path ∉ t.way f.path := by
  refine ⟨fun h f hf hw => (h f hf hw).2, fun h f hf hw => ⟨?_, h f hf hw⟩⟩
  obtain ⟨hsettled, hstep⟩ := hset f hf
  exact canWrite_of_settled ht (hfits f hf) hw hsettled hstep

end FileTree

namespace Generation

variable {config : Config} {t : FileTree}

/-- **Runs that fail.** A run that fails before it writes leaves the tree as it was. One that has a
plan succeeds exactly when the plan can be carried out; otherwise it fails with what the system says,
and leaves the tree as it was exactly when it fails at once. Where paths go on by names and end in
one, only files in each other's way keep a plan from being carried out. -/
theorem failed_run_unchanged_iff (ht : t.IsTree) (hcheck : config.checkAll = .ok ()) :
    (∀ e, prepare config t = .error e → run config t = (t, .error e)) ∧
    ∀ summary plan, prepare config t = .ok (summary, plan) →
      ((run config t).2 = .ok summary ↔ t.CanCarryOut plan) ∧
      (¬ t.CanCarryOut plan → (∃ path os, (run config t).2 = .error (.io path os)) ∧
        ((∀ a, (run config t).1.nodeAt? a = t.nodeAt? a) ↔ t.FailsAtOnce plan) ∧
        (t.FailsAtOnce plan → (run config t).1 = t)) ∧
      ((∀ f ∈ plan, t.Settled f.path ∧ f.path.EndsInStep) →
        (t.CanCarryOut plan ↔ ∀ f ∈ plan, f.status.isWritten = true → ∀ g ∈ plan,
          g.status.isWritten = true → t.target g.path ∉ t.way f.path)) := by
  refine ⟨fun e he => run_of_unprepared hcheck he, fun summary plan hprepare => ?_⟩
  obtain ⟨files, blocks, gs, -, -, -, hplan, -⟩ := prepare_ok hprepare
  have hfits : ∀ f ∈ plan, f.Fits t := fun f hf => (FilePlan.fits_of_planGroups hplan hf).1
  have hcarry : (writeAll t plan).2 = none ↔ t.CanCarryOut plan := FileTree.writeAll_eq_none_iff ht
  rw [run_of_prepared hcheck hprepare, ← hcarry]
  refine ⟨?_, fun hno => ?_, fun hset => ?_⟩
  · cases (writeAll t plan).2 with
    | none => simp
    | some e => simp
  · obtain ⟨e, he⟩ := Option.ne_none_iff_exists'.1 hno
    have hwrite : writeAll t plan = ((writeAll t plan).1, some e) := Prod.ext rfl he
    obtain ⟨path, os, rfl⟩ := FileTree.exists_fault_writeAll ht hwrite
    refine ⟨⟨path, os, by rw [he]⟩, ⟨?_, fun hat a => ?_⟩, FileTree.eq_of_failsAtOnce ht⟩
    · exact FileTree.failsAtOnce_of_unchanged ht hfits hwrite
    · rw [FileTree.eq_of_failsAtOnce ht hat]
  · rw [hcarry]
    exact FileTree.canCarryOut_iff_of_settled ht hfits hset

/-- Two structs, of which the second has a namespace that is the name of the file of the first. -/
def nestedTree : FileTree :=
  { nodes :=
      [(["m.go"], .file (some
          ("package m\n\n// @gqlType\ntype User struct \x7b\n    Name string\n\x7d\n\n" ++
            "// @gqlType\n// @gqlNamespace(name: \"user.graphqls\")\n" ++
            "type Role struct \x7b\n    Name string\n\x7d\n")))] }

/-- The blocks of these structs. -/
def nestedBlocks : List Block :=
  [{ userBlock with fields := [{ name := "name", typeText := "String!" }] },
    { kind := .type
      name := "Role"
      space := some "user.graphqls"
      package := "m"
      place := ⟨0, 1, 0⟩
      slot := 1
      fields := [{ name := "name", typeText := "String!" }]
      source := "m.Role (type)" }]

/-- The files of these blocks: the second is to stand in a directory that has the path of the
first. -/
def nestedPlan : List FilePlan :=
  [{ path := ⟨"graph/schema/user.graphqls"⟩
     blocks := ["User"]
     content := "# Code generated by gqlforge. DO NOT EDIT.\n\ntype User \x7b\n  name: String!\n\x7d\n\n" ++
       "# @gqlKeepBegin\n# @gqlKeepEnd\n"
     status := .created },
    { path := ⟨"graph/schema/user.graphqls/role.graphqls"⟩
      blocks := ["Role"]
      content := "# Code generated by gqlforge. DO NOT EDIT.\n\ntype Role \x7b\n  name: String!\n\x7d\n\n" ++
        "# @gqlKeepBegin\n# @gqlKeepEnd\n"
      status := .created }]

theorem prepare_nestedTree : ∃ summary,
    prepare ownFileConfig nestedTree = .ok (summary, nestedPlan) := by
  have hblocks : blocks ownFileConfig nestedTree = .ok nestedBlocks := by decide +kernel
  have hsorted : nestedBlocks.Pairwise fun a b => blockOrder a b = true := by decide +kernel
  have hgroup : group ownFileConfig nestedBlocks = .ok
      [⟨⟨"graph/schema/user.graphqls"⟩, nestedBlocks.take 1⟩,
        ⟨⟨"graph/schema/user.graphqls/role.graphqls"⟩, nestedBlocks.drop 1⟩] := by
    rw [group_of_pairwise hsorted]
    exact FileGroup.eq_ok_of_map (by decide +kernel)
  have hplan : planGroups ownFileConfig nestedTree
      [⟨⟨"graph/schema/user.graphqls"⟩, nestedBlocks.take 1⟩,
        ⟨⟨"graph/schema/user.graphqls/role.graphqls"⟩, nestedBlocks.drop 1⟩] =
      .ok nestedPlan := by decide +kernel
  obtain ⟨files, h⟩ := prepare_of_blocks hblocks hgroup hplan
  exact ⟨_, h⟩

theorem isTree_nestedTree : nestedTree.IsTree := FileTree.isTree_of_all (by decide) (by decide)

/-- The place of the first file. -/
def userPlace : AbsolutePath := ["graph", "schema", "user.graphqls"]

theorem writeAll_nestedPlan : (writeAll nestedTree nestedPlan).2 =
      some (.io ⟨"graph/schema/user.graphqls"⟩ .fileExists) ∧
    (writeAll nestedTree nestedPlan).1.nodeAt? userPlace =
      some (.file (nestedPlan.head?.map FilePlan.content)) := by decide +kernel

theorem nestedTree_cannot_carry_out : nestedTree.IsTree ∧ ownFileConfig.checkAll = .ok () ∧
    ¬ nestedTree.CanCarryOut nestedPlan ∧ ¬ nestedTree.FailsAtOnce nestedPlan ∧
    ∃ path os, (run ownFileConfig nestedTree).2 = .error (.io path os) := by
  obtain ⟨summary, hprepare⟩ := prepare_nestedTree
  obtain ⟨hok, hfail, -⟩ :=
    (failed_run_unchanged_iff isTree_nestedTree check_ownFileConfig).2 summary nestedPlan hprepare
  obtain ⟨hfault, hnode⟩ := writeAll_nestedPlan
  have hno : ¬ nestedTree.CanCarryOut nestedPlan := by
    rw [← FileTree.writeAll_eq_none_iff isTree_nestedTree, hfault]
    nofun
  obtain ⟨hio, hsame, -⟩ := hfail hno
  refine ⟨isTree_nestedTree, check_ownFileConfig, hno, fun hat => ?_, hio⟩
  have hplace := hsame.2 hat userPlace
  rw [run_of_prepared check_ownFileConfig hprepare] at hplace
  dsimp only at hplace
  rw [hnode] at hplace
  cases hplace

/-- **A run that fails may leave a file behind.** The second file would stand in a directory in whose
place the first one has been written. -/
theorem nestedTree_failed_run_writes : nestedTree.nodeAt? userPlace = none ∧
    ∃ t' text, run ownFileConfig nestedTree =
        (t', .error (.io ⟨"graph/schema/user.graphqls"⟩ .fileExists)) ∧
      t'.nodeAt? userPlace = some (.file (some text)) := by
  obtain ⟨summary, hprepare⟩ := prepare_nestedTree
  obtain ⟨hfault, hnode⟩ := writeAll_nestedPlan
  refine ⟨by decide, _, _, ?_, hnode⟩
  rw [run_of_prepared check_ownFileConfig hprepare, hfault]

end Generation

end GoSchema
