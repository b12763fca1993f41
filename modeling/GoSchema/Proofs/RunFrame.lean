/-
# What a run leaves alone

A run that does not fail keeps every entry but those in whose places a file is written, and what it
reports of a file is what there was of it. A file is planned as new when its path cannot be
followed, and that may be so because something is missing on a way that goes up again. Making this
way may leave a directory beside the files, and the file may have been there all along. Where the
path of the output directory leads through directories that are there, or does not go up, this
cannot happen: new files are new, and new directories stand above new files.

Key definitions: `FileTree.FindsNew`, `Generation.Frame`.
Key theorems: `findsNew_of_settled`, `CarriedOut.kept`, `CarriedOut.directory_cases`,
`ncard_changed`, `run_frame_iff`.
-/
import Mathlib.Data.Set.Card
import GoSchema.Proofs.BlocksOnDisk
import GoSchema.Proofs.CarriedPlans

namespace GoSchema

namespace FileTree

variable {t t' : FileTree} {plan : List FilePlan}

/-- Whether what a plan takes for new is new: nothing stands in the places of new files, and what is
missing on the way to one stands above one. -/
structure FindsNew (t : FileTree) (plan : List FilePlan) : Prop where
  free : ∀ f ∈ plan, f.status = .created → t.nodeAt? (t.target f.path) = none
  above : ∀ f ∈ plan, f.status = .created → ∀ a ∈ t.way f.path, t.nodeAt? a = none →
    ∃ g ∈ plan, g.status = .created ∧ ∃ rest ≠ [], t.target g.path = a ++ rest

/-- **Paths that go on by names** find new what is new. -/
theorem findsNew_of_settled (ht : t.IsTree) (hfits : ∀ f ∈ plan, f.Fits t)
    (hcan : t.CanCarryOut plan) (hset : ∀ f ∈ plan, t.Settled f.path) : t.FindsNew plan := by
  refine ⟨fun f hf hs => ?_, fun f hf hs a ha hnone => ?_⟩
  · have hwritten : f.status.isWritten = true := by rw [hs]; rfl
    have hne := Path.text_ne_of_endsInStep (hcan f hf hwritten).1.endsInStep
    obtain ⟨b, ho, hb⟩ := (read_eq_notFound_iff ht hne).1 ((hfits f hf).created hs)
    exact (hset f hf).target_of_missing ht (obstacle?_eq_some ho).1 hb
  · rcases (hset f hf).mem_way ha with hdir | habove
    · rw [hnone] at hdir
      cases hdir
    · exact ⟨f, hf, hs, habove⟩

/-! ### After a plan -/

/-- Every entry stays but those in whose places a file is written. -/
theorem CarriedOut.kept (h : CarriedOut t t' plan) (hcan : t.CanCarryOut plan) {a : AbsolutePath}
    {n : FileNode} (ha : ∀ f ∈ plan, f.status.isWritten = true → a ≠ t.target f.path)
    (hn : t.nodeAt? a = some n) : t'.nodeAt? a = some n := by
  by_cases hway : ∃ f ∈ plan, f.status.isWritten = true ∧ a ∈ t.way f.path
  · obtain ⟨f, hf, hw, hmem⟩ := hway
    cases n with
    | directory => exact h.way f hf hw a hmem
    | file text => exact absurd hn (((hcan f hf hw).1.way a hmem).2 text)
  · rw [h.rest a fun f hf hw => ⟨ha f hf hw, fun hmem => hway ⟨f, hf, hw, hmem⟩⟩]
    exact hn

/-- A directory was there, or it was missing on the way to a file that is written. -/
theorem CarriedOut.directory_cases (h : CarriedOut t t' plan) (hcan : t.CanCarryOut plan)
    {a : AbsolutePath} (ha : t'.nodeAt? a = some .directory) : t.nodeAt? a = some .directory ∨
      ∃ f ∈ plan, f.status.isWritten = true ∧ a ∈ t.way f.path ∧ t.nodeAt? a = none := by
  by_cases hway : ∃ f ∈ plan, f.status.isWritten = true ∧ a ∈ t.way f.path
  · obtain ⟨f, hf, hw, hmem⟩ := hway
    cases hn : t.nodeAt? a with
    | none => exact .inr ⟨f, hf, hw, hmem, rfl⟩
    | some n =>
      cases n with
      | directory => exact .inl rfl
      | file text => exact absurd hn (((hcan f hf hw).1.way a hmem).2 text)
  · refine .inl ?_
    rw [← h.rest a fun f hf hw => ⟨?_, fun hmem => hway ⟨f, hf, hw, hmem⟩⟩]
    · exact ha
    · rintro rfl
      obtain ⟨g, -, -, -, hnode⟩ := h.here f hf hw
      rw [hnode] at ha
      cases ha

/-- A place holds a file that it did not hold before exactly when a file is written there. -/
theorem CarriedOut.changed_iff (h : CarriedOut t t' plan) (hfits : ∀ f ∈ plan, f.Fits t)
    (hnew : t.FindsNew plan) (hread : ∀ f ∈ plan, t'.read f.path = .ok f.content)
    (a : AbsolutePath) :
    ((∃ text, t'.nodeAt? a = some (.file text)) ∧ t'.nodeAt? a ≠ t.nodeAt? a) ↔
      ∃ f ∈ plan, f.status.isWritten = true ∧ t.target f.path = a := by
  constructor
  · rintro ⟨⟨text, hfile⟩, hne⟩
    by_contra hno
    push Not at hno
    refine hne (h.rest a fun f hf hw => ⟨fun heq => hno f hf hw heq.symm, fun hmem => ?_⟩)
    rw [h.way f hf hw a hmem] at hfile
    cases hfile
  · rintro ⟨f, hf, hw, rfl⟩
    have hnode := nodeAt?_target_of_read (hread f hf)
    rw [target_congr h.workDir] at hnode
    refine ⟨⟨_, hnode⟩, ?_⟩
    rw [hnode]
    rcases FileChange.isWritten_iff.1 hw with hs | hs
    · rw [hnew.free f hf hs]
      nofun
    · obtain ⟨old, hold, hne⟩ := (hfits f hf).updated hs
      rw [nodeAt?_target_of_read hold]
      simpa using Ne.symm hne

/-- **The number of files that are written** is the number of files that are not as before. -/
theorem CarriedOut.ncard_changed (h : CarriedOut t t' plan) (hfits : ∀ f ∈ plan, f.Fits t)
    (hnew : t.FindsNew plan) (hread : ∀ f ∈ plan, t'.read f.path = .ok f.content)
    (hnodup : (plan.map fun f => t.target f.path).Nodup) :
    {a | (∃ text, t'.nodeAt? a = some (.file text)) ∧ t'.nodeAt? a ≠ t.nodeAt? a}.ncard =
      (plan.filter (·.status.isWritten)).length := by
  have hset : {a | (∃ text, t'.nodeAt? a = some (.file text)) ∧ t'.nodeAt? a ≠ t.nodeAt? a} =
      ↑((plan.filter (·.status.isWritten)).map fun f => t.target f.path).toFinset := by
    ext a
    rw [Set.mem_ofPred_eq, h.changed_iff hfits hnew hread]
    simp [and_assoc]
  have hsub : ((plan.filter (·.status.isWritten)).map fun f => t.target f.path).Nodup :=
    hnodup.sublist (List.filter_sublist.map _)
  rw [hset, Set.ncard_coe_finset, List.toFinset_card_of_nodup hsub, List.length_map]

end FileTree

/-! ### A run -/

namespace Generation

variable {config : Config} {t t' : FileTree} {summary : RunSummary} {plan : List FilePlan}

/-- What a run leaves alone, and what its report says of the rest. -/
structure Frame (config : Config) (t t' : FileTree) (summary : RunSummary)
    (plan : List FilePlan) : Prop where
  kept : ∀ a n, (∀ f ∈ plan, f.status.isWritten = true → a ≠ t.target f.path) →
    t.nodeAt? a = some n → t'.nodeAt? a = some n
  skipped : config.skipExisting = true → ∀ a n, t.nodeAt? a = some n → t'.nodeAt? a = some n
  created : ∀ f ∈ plan, f.status = .created →
    t.nodeAt? (t.target f.path) = none ∧ t'.read f.path = .ok f.content
  updated : ∀ f ∈ plan, f.status = .updated →
    ∃ old, t.read f.path = .ok old ∧ old ≠ f.content ∧ t'.read f.path = .ok f.content
  same : ∀ f ∈ plan, f.status.isWritten = false →
    t.read f.path = .ok f.content ∧ t'.read f.path = .ok f.content
  written : summary.written =
    {a | (∃ text, t'.nodeAt? a = some (.file text)) ∧ t'.nodeAt? a ≠ t.nodeAt? a}.ncard
  directories : ∀ a, t'.nodeAt? a = some .directory → t.nodeAt? a = some .directory ∨
    ∃ f ∈ plan, f.status = .created ∧ ∃ rest ≠ [], t.target f.path = a ++ rest

theorem frame_of_findsNew {files : List SourceFile} {bs : List Block} (ht : t.IsTree)
    (hfits : ∀ f ∈ plan, f.Fits t)
    (hskip : config.skipExisting = true → ∀ f ∈ plan, f.status ≠ .updated)
    (hcan : t.CanCarryOut plan) (hcarried : FileTree.CarriedOut t t' plan)
    (hread : ∀ f ∈ plan, t'.read f.path = .ok f.content)
    (hnodup : (plan.map fun f => t.target f.path).Nodup) (hnew : t.FindsNew plan) :
    Frame config t t' (summaryOf files bs plan) plan where
  kept a n ha hn := hcarried.kept hcan ha hn
  skipped hs a n hn := by
    refine hcarried.kept hcan (fun f hf hw heq => ?_) hn
    rcases FileChange.isWritten_iff.1 hw with hstatus | hstatus
    · rw [heq, hnew.free f hf hstatus] at hn
      cases hn
    · exact hskip hs f hf hstatus
  created f hf hs := ⟨hnew.free f hf hs, hread f hf⟩
  updated f hf hs := by
    obtain ⟨old, hold, hne⟩ := (hfits f hf).updated hs
    exact ⟨old, hold, hne, hread f hf⟩
  same f hf hs := ⟨(hfits f hf).same hs, hread f hf⟩
  written := (hcarried.ncard_changed hfits hnew hread hnodup).symm
  directories a ha := by
    refine (hcarried.directory_cases hcan ha).imp_right ?_
    rintro ⟨f, hf, hw, hmem, hnone⟩
    rcases FileChange.isWritten_iff.1 hw with hstatus | hstatus
    · exact hnew.above f hf hstatus a hmem hnone
    · obtain ⟨old, hold, -⟩ := (hfits f hf).updated hstatus
      rw [(FileTree.endsInStep_of_read ht hold).2.1 a hmem] at hnone
      cases hnone

/-- **The frame of a run.** Where every file is below the output directory, a run that does not fail
keeps its frame exactly when it finds new what is new, and that is so if the path of the output
directory does not go up or leads through directories that are there. -/
theorem run_frame_iff (ht : t.IsTree) (hrun : run config t = (t', .ok summary))
    (hprepare : prepare config t = .ok (summary, plan))
    (hbelow : ∀ f ∈ plan, Path.Below ⟨config.output⟩ f.path) :
    (Frame config t t' summary plan ↔ t.FindsNew plan) ∧
    (.up ∉ (Path.mk config.output).components ∨ t.Settled ⟨config.output⟩ → t.FindsNew plan) := by
  obtain ⟨files, bs, gs, -, hgroup, hplan, hwrite, rfl⟩ := run_planned hrun hprepare
  have hfits : ∀ f ∈ plan, f.Fits t := fun f hf => (FilePlan.fits_of_planGroups hplan hf).1
  have hskip : config.skipExisting = true → ∀ f ∈ plan, f.status ≠ .updated := fun hs f hf =>
    (FilePlan.fits_of_planGroups hplan hf).2 hs
  have hcan : t.CanCarryOut plan := (FileTree.writeAll_eq_none_iff ht).1 (congrArg Prod.snd hwrite)
  have hcarried := FileTree.carriedOut_writeAll ht hwrite
  have hnodup := nodup_targets_of_below (isGrouping_group hgroup) hplan hbelow
  have hread : ∀ f ∈ plan, t'.read f.path = .ok f.content := by
    refine (read_all_iff hplan hwrite).2 fun f hf f' hf' heq => ?_
    rw [List.inj_on_of_nodup_map hnodup hf hf' heq]
  refine ⟨⟨fun h => ⟨fun f hf hs => (h.created f hf hs).1, fun f hf hs a ha hnone => ?_⟩,
    frame_of_findsNew ht hfits hskip hcan hcarried hread hnodup⟩, fun h => ?_⟩
  · have hdir := hcarried.way f hf (by rw [hs]; rfl) a ha
    refine (h.directories a hdir).resolve_left fun hold => ?_
    rw [hnone] at hold
    cases hold
  · have hset : t.Settled ⟨config.output⟩ := h.elim (FileTree.settled_of_not_up ht) id
    exact FileTree.findsNew_of_settled ht hfits hcan fun f hf => hset.below (hbelow f hf)

theorem keptTree_frame : keptTree.IsTree ∧
    ∃ t' plan, run fileConfig keptTree = (t', .ok (userSummary .updated)) ∧
      prepare fileConfig keptTree = .ok (userSummary .updated, plan) ∧
      (∀ f ∈ plan, Path.Below ⟨fileConfig.output⟩ f.path) ∧
      Frame fileConfig keptTree t' (userSummary .updated) plan := by
  have ht : keptTree.IsTree := FileTree.isTree_of_all (by decide) (by decide)
  obtain ⟨plan, hprepare⟩ := exists_prepared run_keptTree
  have hbelow : ∀ f ∈ plan, Path.Below ⟨fileConfig.output⟩ f.path := by
    intro f hf
    obtain ⟨files, bs, gs, -, -, -, -, hsummary⟩ := run_planned run_keptTree hprepare
    have hfile : f.toSummary ∈ (userSummary .updated).files :=
      hsummary ▸ List.mem_map_of_mem hf
    have hpath : f.path = ⟨"graph/schema/schema.graphqls"⟩ :=
      congrArg FileSummary.path (List.mem_singleton.1 hfile)
    rw [hpath]
    exact ⟨["schema.graphqls"], by decide⟩
  obtain ⟨hframe, hnew⟩ := run_frame_iff ht run_keptTree hprepare hbelow
  exact ⟨ht, _, plan, run_keptTree, hprepare, hbelow, hframe.2 (hnew (.inl (by decide)))⟩

/-- An output directory whose path leads through a directory that may be missing, and files that
exist are skipped. -/
def detourConfig : Config :=
  { fileConfig with
      output := "missing/../gen"
      skipExisting := true }

/-- A struct, and a file of the schema that exists. -/
def detourTree : FileTree :=
  { nodes :=
      [(["m.go"], .file (some
          "package m\n\n// @gqlType\ntype User struct \x7b\n    Name string\n\x7d\n")),
        (["gen"], .directory),
        (["gen", "schema.graphqls"], .file (some "# mine\n"))] }

/-- **A file that exists may be written** although such files are skipped, because its path cannot be
followed before the run. -/
theorem detourTree_overwrites : detourTree.IsTree ∧ detourConfig.checkAll = .ok () ∧
    Path.Below ⟨detourConfig.output⟩ ⟨"missing/../gen/schema.graphqls"⟩ ∧
    ∃ t', run detourConfig detourTree = (t', .ok
        { userSummary .created with
            files := [⟨⟨"missing/../gen/schema.graphqls"⟩, .created, ["User"]⟩] }) ∧
      detourTree.nodeAt? ["gen", "schema.graphqls"] = some (.file (some "# mine\n")) ∧
      t'.nodeAt? ["gen", "schema.graphqls"] ≠ some (.file (some "# mine\n")) ∧
      t'.nodeAt? ["missing"] = some .directory := by
  refine ⟨FileTree.isTree_of_all (by decide) (by decide), Outcome.eq_ok_of_toOption
    (by decide +kernel), ⟨["schema.graphqls"], by decide⟩, (run detourConfig detourTree).1, ?_⟩
  have hwritten : (run detourConfig detourTree).1.nodeAt? ["gen", "schema.graphqls"] ≠
        some (.file (some "# mine\n")) ∧
      (run detourConfig detourTree).1.nodeAt? ["missing"] = some .directory := by decide +kernel
  exact ⟨run_of_toOption (by decide +kernel), by decide, hwritten⟩

end Generation

end GoSchema
