/-
# Generating again

A run on the tree that a run has left reads the files that were written. In the place that a file
leads to there is the text of a file that leads to the same place, with a region
(`read_of_carried`). If its only marker rows are those of the region, then the content of the region
is read back, and the same text comes out where the blocks are the same. If the header or a row of a
block reads as a marker, then there are more than two marker rows, and the file cannot be read at
all. So the second run changes nothing and reports every file as unchanged exactly when no file has
a further marker and the files in one place agree, or existing files are not looked into
(`run_again`).

Key definitions: `FileGroup.IsClear`, `Agree`, `Generation.groups`, `RunSummary.settled`.
Key theorems: `clear_of_read`, `ofGroup_again`, `ofGroup_again_error`, `planGroups_settled`,
`read_of_carried`, `clear_of_settled`, `run_again`.
-/
import GoSchema.Generation
import GoSchema.Proofs.KeptRegion
import GoSchema.Proofs.Pointwise
import GoSchema.Proofs.WrittenFiles

namespace GoSchema

open Text

namespace Region

variable {keep : KeepRules}

theorem scan_begun : ∀ {l : List (List Char)} {p q : Progress}, scan keep p l = .ok q →
    p ≠ {} → ∀ row ∈ l, trim row ≠ opening keep
  | [], _, _, _, _, row, hrow => absurd hrow List.not_mem_nil
  | first :: l, p, q, h, hp, row, hrow => by
    rw [scan] at h
    split at h
    · cases h
    · rename_i next hnext
      have hfirst : trim first ≠ opening keep ∧ next ≠ {} := by
        rcases step_ok hnext with ⟨-, hno, -⟩ | ⟨ho, content, -, rfl⟩ | ⟨hplain, rfl⟩
        · exact absurd hno hp
        · exact ⟨ho, fun hno => by cases hno⟩
        · refine ⟨hplain.1, fun hno => hp ?_⟩
          obtain ⟨captured, current⟩ := p
          simpa using hno
      rcases List.mem_cons.1 hrow with rfl | hrow
      · exact hfirst.1
      · exact scan_begun h hfirst.2 row hrow

theorem scan_closed {content : List Char} : ∀ {l : List (List Char)} {q : Progress},
    scan keep ⟨some content, none⟩ l = .ok q → ∀ row ∈ l, IsPlain keep row
  | [], _, _, row, hrow => absurd hrow List.not_mem_nil
  | first :: l, q, h, row, hrow => by
    rw [scan] at h
    split at h
    · cases h
    · rename_i next hnext
      rcases step_ok hnext with ⟨-, hno, -⟩ | ⟨-, other, hother, -⟩ | ⟨hplain, rfl⟩
      · cases hno
      · cases hother
      · rcases List.mem_cons.1 hrow with rfl | hrow
        · exact hplain
        · exact scan_closed h row hrow

theorem scan_before {row : List Char} (ho : trim row = opening keep) {after : List (List Char)} :
    ∀ {before : List (List Char)} {q : Progress}, scan keep {} (before ++ row :: after) = .ok q →
    ∀ other ∈ before, IsPlain keep other
  | [], _, _, other, hother => absurd hother List.not_mem_nil
  | first :: before, q, h, other, hother => by
    rw [List.cons_append, scan] at h
    split at h
    · cases h
    · rename_i next hnext
      rcases step_ok hnext with ⟨-, -, rfl⟩ | ⟨-, content, hcontent, -⟩ | ⟨hplain, rfl⟩
      · have hbegun : (⟨none, some []⟩ : Progress) ≠ {} := fun hno => by cases hno
        refine absurd ho (scan_begun h hbegun row ?_)
        exact List.mem_append_right _ List.mem_cons_self
      · cases hcontent
      · rcases List.mem_cons.1 hother with rfl | hother
        · exact hplain
        · exact scan_before ho h other hother

/-- **A text with a region can be read only if nothing else in it is a marker.** -/
theorem clear_of_read (hm : SoundMarkers keep) {before content after : List Char}
    {kept : Option (List Char)} (hb : Ended before) (hc : Tidy keep content)
    (h : read keep (before ++ (render keep (some content) ++ after)) = .ok kept) :
    IsClear keep before ∧ IsClear keep after := by
  unfold read at h
  split at h
  · exact nomatch h
  · rename_i q hq
    rw [rows_append hb, rows_append (ended_render keep _)] at hq
    have hbefore : IsClear keep before := by
      rw [rows_render hm hc] at hq
      exact scan_before (trim_opening keep) hq
    rw [scan_append (scan_outside hbefore none), scan_append (scan_render hm hc)] at hq
    exact ⟨hbefore, scan_closed hq⟩

end Region

/-! ### One file again -/

open Region

/-- Whether the only marker rows of a file are those of its region. -/
structure FileGroup.IsClear (config : Config) (g : FileGroup) : Prop where
  header : IsPlain config.keep header
  blocks : ∀ b ∈ g.blocks, Region.IsClear config.keep (b.render config.modelDirectives)

theorem fileText_injective {config : Config} {kept : Option (List Char)}
    {blocks blocks' : List Block}
    (h : fileText config kept blocks = fileText config kept blocks') :
    blocksText config blocks = blocksText config blocks' := by
  rw [fileText_eq, fileText_eq] at h
  split at h <;> simpa using h

theorem fileText_congr {config : Config} {blocks blocks' : List Block}
    (h : blocksText config blocks = blocksText config blocks') (kept : Option (List Char)) :
    fileText config kept blocks = fileText config kept blocks' := by
  rw [fileText_eq, fileText_eq, h]

/-- A file can be read again only if it has no further marker, and what is read is its region. -/
theorem read_fileText_iff {config : Config} (hm : SoundMarkers config.keep) {g : FileGroup}
    {content : List Char} (hc : Tidy config.keep content) {kept : Option (List Char)} :
    read config.keep (fileText config (some content) g.blocks) = .ok kept ↔
      g.IsClear config ∧ kept = some content := by
  constructor
  · intro h
    obtain ⟨before, after, heq, hb, hiff⟩ := fileText_framed config hm g.blocks (some content)
    obtain ⟨hhead, hblocks⟩ := hiff.1 (clear_of_read hm hb hc (heq ▸ h))
    refine ⟨⟨hhead, hblocks⟩, ?_⟩
    rw [read_fileText hm hhead hblocks hc] at h
    exact (Except.ok.inj h).symm
  · rintro ⟨hclear, rfl⟩
    exact read_fileText hm hclear.header hclear.blocks hc

namespace FilePlan

variable {config : Config} {g : FileGroup} {old : Option String} {f : FilePlan}

/-- What is said about a file that is planned again. -/
def settledStatus (config : Config) : FileChange :=
  if config.skipExisting then .skipped else .unchanged

theorem ofGroup_skipped (hskip : config.skipExisting = true) (g : FileGroup) (text : String) :
    ofGroup config g (some text) = .ok ⟨g.path, g.blocks.map Block.name, text, .skipped⟩ := by
  unfold ofGroup
  dsimp only
  rw [if_pos hskip]

theorem ofGroup_ok (h : ofGroup config g old = .ok f) :
    f.path = g.path ∧ f.blocks = g.blocks.map Block.name ∧
      (f.status.isWritten = true ∨ old = some f.content) := by
  unfold ofGroup at h
  dsimp only at h
  split at h
  · obtain rfl := Except.ok.inj h
    exact ⟨rfl, rfl, .inl rfl⟩
  · split at h
    · obtain rfl := Except.ok.inj h
      exact ⟨rfl, rfl, .inr rfl⟩
    · split at h
      · exact nomatch h
      · obtain rfl := Except.ok.inj h
        refine ⟨rfl, rfl, ?_⟩
        dsimp only
        split
        · rename_i heq
          exact .inr (congrArg some heq)
        · exact .inl rfl

theorem content_ofGroup (hskip : config.skipExisting = false) (h : ofGroup config g old = .ok f) :
    ∃ content, Tidy config.keep content ∧
      f.content = String.ofList (fileText config (some content) g.blocks) := by
  unfold ofGroup at h
  dsimp only at h
  split at h
  · obtain rfl := Except.ok.inj h
    exact ⟨[], tidy_nil, rfl⟩
  · rw [if_neg (by simp [hskip])] at h
    split at h
    · exact nomatch h
    · rename_i kept hkept
      obtain rfl := Except.ok.inj h
      cases kept with
      | none => exact ⟨[], tidy_nil, rfl⟩
      | some content => exact ⟨content, tidy_of_read hkept, rfl⟩

/-- **A file without further markers is planned as it is.** -/
theorem ofGroup_again (hm : SoundMarkers config.keep) (hskip : config.skipExisting = false)
    (hclear : g.IsClear config) {content : List Char} (hc : Tidy config.keep content)
    {text : String} (htext : text = String.ofList (fileText config (some content) g.blocks)) :
    ofGroup config g (some text) = .ok ⟨g.path, g.blocks.map Block.name, text, .unchanged⟩ := by
  unfold ofGroup
  dsimp only
  rw [if_neg (by simp [hskip]), htext, String.toList_ofList,
    (read_fileText_iff hm hc).2 ⟨hclear, rfl⟩]
  dsimp only
  rw [if_pos rfl]

/-- **A file with a further marker cannot be read.** -/
theorem ofGroup_again_error (hm : SoundMarkers config.keep) (hskip : config.skipExisting = false)
    (hclear : ¬ g.IsClear config) {content : List Char} (hc : Tidy config.keep content)
    {text : String} (htext : text = String.ofList (fileText config (some content) g.blocks)) :
    ∃ e, ofGroup config g (some text) = .error (.region g.path e) := by
  unfold ofGroup
  dsimp only
  rw [if_neg (by simp [hskip]), htext, String.toList_ofList]
  cases hr : read config.keep (fileText config (some content) g.blocks) with
  | error e => exact ⟨e, rfl⟩
  | ok kept => exact absurd ((read_fileText_iff hm hc).1 hr).1 hclear

/-- A file that is unchanged was read, and is what is planned with its region. -/
theorem ofGroup_unchanged (h : ofGroup config g old = .ok f) (hs : f.status = .unchanged) :
    ∃ text kept, old = some text ∧ read config.keep text.toList = .ok kept ∧
      text = String.ofList (fileText config kept g.blocks) := by
  unfold ofGroup at h
  dsimp only at h
  split at h
  · obtain rfl := Except.ok.inj h
    cases hs
  · rename_i text
    split at h
    · obtain rfl := Except.ok.inj h
      cases hs
    · split at h
      · exact nomatch h
      · rename_i kept hread
        obtain rfl := Except.ok.inj h
        refine ⟨text, kept, rfl, hread, ?_⟩
        by_contra hne
        rw [if_neg hne] at hs
        cases hs

end FilePlan

/-! ### A plan again -/

section Plans

variable {config : Config} {t t' : FileTree} {gs : List FileGroup} {plan : List FilePlan}

theorem existing_eq_some {path : Path} {text : String} (h : t.read path = .ok text) :
    FilePlan.existing t path = .ok (some text) := by
  rw [FilePlan.existing, h]

theorem read_of_existing {path : Path} {text : String}
    (h : FilePlan.existing t path = .ok (some text)) : t.read path = .ok text := by
  unfold FilePlan.existing at h
  split at h
  · rename_i read hread
    rw [hread, Option.some.inj (Except.ok.inj h)]
  · cases h
  · cases h

/-- Every file of a plan is planned from what there is of it. -/
theorem forall₂_of_planGroups : ∀ {gs : List FileGroup} {plan : List FilePlan},
    planGroups config t gs = .ok plan →
    List.Forall₂ (fun g f => ∃ old, FilePlan.existing t g.path = .ok old ∧
      FilePlan.ofGroup config g old = .ok f) gs plan
  | [], plan, h => by
    obtain rfl := Except.ok.inj h
    exact .nil
  | g :: gs, plan, h => by
    unfold planGroups at h
    split at h
    · exact nomatch h
    · rename_i old hold
      split at h
      · exact nomatch h
      · rename_i f hf
        obtain ⟨rest, hrest, rfl⟩ := Outcome.map_eq_ok_iff.1 h
        exact .cons ⟨old, hold, hf⟩ (forall₂_of_planGroups hrest)

theorem read_planGroups (h : planGroups config t gs = .ok plan) {f : FilePlan} (hf : f ∈ plan) :
    f.status.isWritten = true ∨ t.read f.path = .ok f.content := by
  obtain ⟨g, -, old, hold, hplan⟩ := Pointwise.exists_left (forall₂_of_planGroups h) hf
  obtain ⟨hpath, -, hwritten⟩ := FilePlan.ofGroup_ok hplan
  refine hwritten.imp_right fun heq => ?_
  rw [hpath]
  exact read_of_existing (heq ▸ hold)

/-- A plan that finds every file planned as it is writes nothing. -/
theorem planGroups_settled {status : FileChange} (h : List.Forall₂ (fun g f =>
      ∃ text content, t.read g.path = .ok text ∧
        FilePlan.ofGroup config g (some text) = .ok { f with content, status }) gs plan) :
    ∃ settled, planGroups config t gs = .ok settled ∧ (∀ f ∈ settled, f.status = status) ∧
      settled.map FilePlan.toSummary = plan.map fun f => { f.toSummary with status } := by
  induction h with
  | nil => exact ⟨[], rfl, fun f hf => absurd hf List.not_mem_nil, rfl⟩
  | @cons g f gs plan hf _ ih =>
    obtain ⟨text, content, hread, hplan⟩ := hf
    obtain ⟨settled, hrest, hstatus, hsummary⟩ := ih
    refine ⟨{ f with content, status } :: settled, ?_, ?_, ?_⟩
    · rw [planGroups, existing_eq_some hread]
      dsimp only
      rw [hplan, hrest]
      rfl
    · exact List.forall_mem_cons.2 ⟨rfl, hstatus⟩
    · rw [List.map_cons, List.map_cons, hsummary]
      rfl

/-- A plan fails at the first file that cannot be read. -/
theorem planGroups_error {P : FileGroup → Prop} : ∀ {gs : List FileGroup},
    (∀ g ∈ gs, ∃ text, t.read g.path = .ok text ∧
      (P g → ∃ f, FilePlan.ofGroup config g (some text) = .ok f) ∧
      (¬ P g → ∃ e, FilePlan.ofGroup config g (some text) = .error (.region g.path e))) →
    (¬ ∀ g ∈ gs, P g) → ∃ g ∈ gs, ∃ e, planGroups config t gs = .error (.region g.path e)
  | [], _, hno => absurd (fun g hg => absurd hg List.not_mem_nil) hno
  | g :: gs, h, hno => by
    obtain ⟨⟨text, hread, hok, herror⟩, hrest⟩ := List.forall_mem_cons.1 h
    rw [planGroups, existing_eq_some hread]
    dsimp only
    by_cases hp : P g
    · obtain ⟨f, hf⟩ := hok hp
      obtain ⟨g', hg', e, hfail⟩ := planGroups_error hrest fun hall =>
        hno (List.forall_mem_cons.2 ⟨hp, hall⟩)
      refine ⟨g', List.mem_cons_of_mem _ hg', e, ?_⟩
      rw [hf, hfail]
      rfl
    · obtain ⟨e, he⟩ := herror hp
      exact ⟨g, List.mem_cons_self, e, by rw [he]⟩

/-- Files that lead to the same place have the same blocks, as they are written. -/
def Agree (config : Config) (t : FileTree) (gs : List FileGroup) : Prop :=
  ∀ g ∈ gs, ∀ g' ∈ gs, t.target g.path = t.target g'.path →
    blocksText config g.blocks = blocksText config g'.blocks

section Carried

variable (hplan : planGroups config t gs = .ok plan) (hwrite : writeAll t plan = (t', none))
include hplan hwrite

/-- Every file of a plan that was carried out can be read, and where existing files are skipped that
is all that is asked. -/
theorem planGroups_again_of_skip (hskip : config.skipExisting = true) :
    ∃ settled, planGroups config t' gs = .ok settled ∧ (∀ f ∈ settled, f.status = .skipped) ∧
      settled.map FilePlan.toSummary =
        plan.map fun f => { f.toSummary with status := .skipped } := by
  have hread := FileTree.exists_read_writeAll hwrite fun f hf =>
    (read_planGroups hplan hf).imp_right fun h => ⟨_, h⟩
  refine planGroups_settled ((Pointwise.and_right (forall₂_of_planGroups hplan) hread).imp ?_)
  rintro g f ⟨⟨old, -, hf⟩, text, hr⟩
  obtain ⟨hpath, hblocks, -⟩ := FilePlan.ofGroup_ok hf
  refine ⟨text, text, hpath ▸ hr, ?_⟩
  rw [FilePlan.ofGroup_skipped hskip, hpath, hblocks]

/-- What is read from a file after a plan was carried out is planned for a file that leads to the
same place. -/
theorem exists_read_of_carried {f : FilePlan} (hf : f ∈ plan) : ∃ f' ∈ plan,
    t.target f'.path = t.target f.path ∧ t'.read f.path = .ok f'.content := by
  obtain ⟨text, hr⟩ := FileTree.exists_read_writeAll hwrite
    (fun f hf => (read_planGroups hplan hf).imp_right fun h => ⟨_, h⟩) f hf
  have hnode := FileTree.nodeAt?_target_of_read hr
  rw [FileTree.target_congr (FileTree.keeps_writeAll hwrite).workDir] at hnode
  -- the file itself is written there, or has the text that is there
  have hhere : (∃ f' ∈ plan, f'.status.isWritten = true ∧ t.target f'.path = t.target f.path) ∨
      ∀ s, t.nodeAt? (t.target f.path) = some (.file (some s)) →
        ∃ f' ∈ plan, t.target f'.path = t.target f.path ∧ s = f'.content := by
    refine (read_planGroups hplan hf).imp (fun hnew => ⟨f, hf, hnew, rfl⟩) fun hold s hs => ?_
    rw [FileTree.nodeAt?_target_of_read hold] at hs
    exact ⟨f, hf, rfl, by simpa using hs.symm⟩
  obtain ⟨f', hf', htarget, rfl⟩ := FileTree.text_writeAll hwrite
    (fun f' hf' htarget => ⟨f', hf', htarget, rfl⟩) hhere text hnode
  exact ⟨f', hf', htarget, hr⟩

variable (hskip : config.skipExisting = false)
include hskip

/-- That is the text of the blocks of such a file, with a region. -/
theorem read_of_carried {g : FileGroup} (hg : g ∈ gs) : ∃ g' ∈ gs, ∃ content,
    t.target g'.path = t.target g.path ∧ Tidy config.keep content ∧
      t'.read g.path = .ok (String.ofList (fileText config (some content) g'.blocks)) := by
  have hplanned := forall₂_of_planGroups hplan
  obtain ⟨f, hf, old, -, hfg⟩ := Pointwise.exists_right hplanned hg
  obtain ⟨f', hf', htarget, hr⟩ := exists_read_of_carried hplan hwrite hf
  obtain ⟨g', hg', old', -, hfg'⟩ := Pointwise.exists_left hplanned hf'
  obtain ⟨content, hc, htext⟩ := FilePlan.content_ofGroup hskip hfg'
  rw [(FilePlan.ofGroup_ok hfg).1, (FilePlan.ofGroup_ok hfg').1] at htarget
  rw [(FilePlan.ofGroup_ok hfg).1, htext] at hr
  exact ⟨g', hg', content, htarget, hc, hr⟩

variable (hm : SoundMarkers config.keep)
include hm

/-- Files without further markers are planned as they are, if those in the same place agree. -/
theorem planGroups_again_of_clear (hclear : ∀ g ∈ gs, g.IsClear config)
    (hagree : Agree config t gs) :
    ∃ settled, planGroups config t' gs = .ok settled ∧ (∀ f ∈ settled, f.status = .unchanged) ∧
      settled.map FilePlan.toSummary =
        plan.map fun f => { f.toSummary with status := .unchanged } := by
  have hread : ∀ g ∈ gs, ∃ text, t'.read g.path = .ok text ∧ FilePlan.ofGroup config g (some text) =
      .ok ⟨g.path, g.blocks.map Block.name, text, .unchanged⟩ := by
    intro g hg
    obtain ⟨g', hg', content, htarget, hc, hr⟩ := read_of_carried hplan hwrite hskip hg
    refine ⟨_, hr, FilePlan.ofGroup_again hm hskip (hclear g hg) hc ?_⟩
    rw [fileText_congr (hagree g' hg' g hg htarget)]
  refine planGroups_settled (((List.forall₂_and_left _ _).2
    ⟨hread, forall₂_of_planGroups hplan⟩).imp ?_)
  rintro g f ⟨⟨text, hr, hagain⟩, old, -, hf⟩
  obtain ⟨hpath, hblocks, -⟩ := FilePlan.ofGroup_ok hf
  refine ⟨text, text, hr, ?_⟩
  rw [hagain, hpath, hblocks]

/-- Files that are planned as they are have no further markers, and those in the same place
agree. -/
theorem clear_of_settled {settled : List FilePlan} (hagain : planGroups config t' gs = .ok settled)
    (hstatus : ∀ f ∈ settled, f.status = .unchanged) :
    (∀ g ∈ gs, g.IsClear config) ∧ Agree config t gs := by
  have hread : ∀ g ∈ gs, ∃ content, g.IsClear config ∧ Tidy config.keep content ∧
      t'.read g.path = .ok (String.ofList (fileText config (some content) g.blocks)) := by
    intro g hg
    obtain ⟨f, hf, old, hold, hfg⟩ := Pointwise.exists_right (forall₂_of_planGroups hagain) hg
    obtain ⟨text, kept, rfl, hkept, htext⟩ := FilePlan.ofGroup_unchanged hfg (hstatus f hf)
    have hr := read_of_existing hold
    obtain ⟨g', -, content, -, hc, hr'⟩ := read_of_carried hplan hwrite hskip hg
    obtain rfl : text = _ := Except.ok.inj (hr.symm.trans hr')
    rw [String.toList_ofList] at hkept
    obtain ⟨-, rfl⟩ := (read_fileText_iff hm hc).1 hkept
    have hsame : fileText config (some content) g'.blocks =
        fileText config (some content) g.blocks := by
      simpa using congrArg String.toList htext
    rw [hsame] at hkept hr
    exact ⟨content, ((read_fileText_iff hm hc).1 hkept).1, hc, hr⟩
  refine ⟨fun g hg => (hread g hg).choose_spec.1, fun g hg g' hg' htarget => ?_⟩
  obtain ⟨content, hclear, hc, hr⟩ := hread g hg
  obtain ⟨content', hclear', hc', hr'⟩ := hread g' hg'
  rw [← FileTree.target_congr (FileTree.keeps_writeAll hwrite).workDir,
    ← FileTree.target_congr (FileTree.keeps_writeAll hwrite).workDir] at htarget
  have hsame : fileText config (some content) g.blocks =
      fileText config (some content') g'.blocks := by
    simpa using congrArg String.toList (FileTree.read_eq_of_target_eq hr hr' htarget)
  -- the same text has the same region
  obtain rfl : content = content' := by
    have hkept := (read_fileText_iff hm hc).2 ⟨hclear, rfl⟩
    rw [hsame] at hkept
    exact Option.some.inj ((read_fileText_iff hm hc').1 hkept).2
  exact fileText_injective hsame

theorem planGroups_again_error (hagree : Agree config t gs) (hno : ¬ ∀ g ∈ gs, g.IsClear config) :
    ∃ g ∈ gs, ∃ e, planGroups config t' gs = .error (.region g.path e) := by
  refine planGroups_error (fun g hg => ?_) hno
  obtain ⟨g', hg', content, htarget, hc, hr⟩ := read_of_carried hplan hwrite hskip hg
  rw [fileText_congr (hagree g' hg' g hg htarget)] at hr
  exact ⟨_, hr, fun hclear => ⟨_, FilePlan.ofGroup_again hm hskip hclear hc rfl⟩,
    fun hclear => FilePlan.ofGroup_again_error hm hskip hclear hc rfl⟩

end Carried

theorem writeAll_of_not_written : ∀ {plan : List FilePlan},
    (∀ f ∈ plan, f.status.isWritten = false) → writeAll t plan = (t, none)
  | [], _ => rfl
  | f :: fs, h => by
    obtain ⟨hf, hfs⟩ := List.forall_mem_cons.1 h
    rw [writeAll, if_neg (by simp [hf])]
    exact writeAll_of_not_written hfs

end Plans

/-! ### A run again -/

/-- The summary of a run that finds every file as it is. -/
def RunSummary.settled (status : FileChange) (r : RunSummary) : RunSummary :=
  { r with written := 0, files := r.files.map ({ · with status }) }

namespace Generation

variable {config : Config} {t t' : FileTree}

/-- The files of the schema that a tree asks for, with their blocks. -/
def groups (config : Config) (t : FileTree) : Except Fault (List FileGroup) := do
  let files ← loadRoots t config.roots
  let blocks ← blocksOfFiles config files
  group config blocks

theorem prepare_ok {summary : RunSummary} {plan : List FilePlan}
    (h : prepare config t = .ok (summary, plan)) :
    ∃ files blocks gs, loadRoots t config.roots = .ok files ∧
      blocksOfFiles config files = .ok blocks ∧ group config blocks = .ok gs ∧
      planGroups config t gs = .ok plan ∧ summary = summaryOf files blocks plan := by
  obtain ⟨files, hfiles, h⟩ := Outcome.bind_eq_ok_iff.1 h
  obtain ⟨blocks, hblocks, h⟩ := Outcome.bind_eq_ok_iff.1 h
  obtain ⟨plan', hplan, h⟩ := Outcome.bind_eq_ok_iff.1 h
  obtain ⟨rfl, rfl⟩ := Prod.mk.inj (Except.ok.inj h)
  unfold planBlocks at hplan
  split at hplan
  · cases hplan
  · rename_i gs hgs
    exact ⟨files, blocks, gs, hfiles, hblocks, hgs, hplan, rfl⟩

/-- The blocks that a tree asks for. -/
def blocks (config : Config) (t : FileTree) : Except Fault (List Block) := do
  let files ← loadRoots t config.roots
  blocksOfFiles config files

theorem prepare_of_stages {files : List SourceFile} {bs : List Block} {gs : List FileGroup}
    {plan : List FilePlan} (hfiles : loadRoots t config.roots = .ok files)
    (hblocks : blocksOfFiles config files = .ok bs) (hgroup : group config bs = .ok gs)
    (hplan : planGroups config t gs = .ok plan) :
    prepare config t = .ok (summaryOf files bs plan, plan) := by
  simp only [prepare, planBlocks, hfiles, hblocks, hgroup, hplan, bind, Except.bind, pure,
    Except.pure]

theorem prepare_of_blocks {bs : List Block} {gs : List FileGroup} {plan : List FilePlan}
    (hblocks : blocks config t = .ok bs) (hgroup : group config bs = .ok gs)
    (hplan : planGroups config t gs = .ok plan) :
    ∃ files, prepare config t = .ok (summaryOf files bs plan, plan) := by
  obtain ⟨files, hfiles, hblocks⟩ := Outcome.bind_eq_ok_iff.1 hblocks
  exact ⟨files, prepare_of_stages hfiles hblocks hgroup hplan⟩

theorem run_ok {summary : RunSummary} (h : run config t = (t', .ok summary)) :
    ∃ files blocks gs plan, config.checkAll = .ok () ∧ loadRoots t config.roots = .ok files ∧
      blocksOfFiles config files = .ok blocks ∧ group config blocks = .ok gs ∧
      planGroups config t gs = .ok plan ∧ writeAll t plan = (t', none) ∧
      summary = summaryOf files blocks plan := by
  unfold run at h
  split at h
  · cases h
  · rename_i hcheck
    split at h
    · cases h
    · rename_i result plan hprepare
      obtain ⟨files, blocks, gs, hfiles, hblocks, hgs, hplan, rfl⟩ := prepare_ok hprepare
      split at h
      · cases h
      · rename_i u hu
        obtain ⟨htree, hsummary⟩ := Prod.mk.inj h
        exact ⟨files, blocks, gs, plan, hcheck, hfiles, hblocks, hgs, hplan, htree ▸ hu,
          (Except.ok.inj hsummary).symm⟩

theorem run_of_unprepared (hcheck : config.checkAll = .ok ()) {e : Fault}
    (h : prepare config t = .error e) : run config t = (t, .error e) := by
  rw [run, hcheck]
  dsimp only
  rw [h]

theorem run_of_prepared (hcheck : config.checkAll = .ok ()) {summary : RunSummary}
    {plan : List FilePlan} (h : prepare config t = .ok (summary, plan)) : run config t =
      ((writeAll t plan).1, match (writeAll t plan).2 with
        | some e => .error e
        | none => .ok summary) := by
  rw [run, hcheck]
  dsimp only
  rw [h]
  dsimp only
  obtain ⟨u, fault⟩ := writeAll t plan
  cases fault <;> rfl

section Stages

variable {files : List SourceFile} {blocks : List Block} {gs : List FileGroup}
  (hcheck : config.checkAll = .ok ()) (hfiles : loadRoots t config.roots = .ok files)
  (hblocks : blocksOfFiles config files = .ok blocks) (hgroup : group config blocks = .ok gs)
include hcheck hfiles hblocks hgroup

theorem run_of_planned {plan : List FilePlan} (hplan : planGroups config t gs = .ok plan)
    (hno : ∀ f ∈ plan, f.status.isWritten = false) :
    run config t = (t, .ok (summaryOf files blocks plan)) := by
  rw [run_of_prepared hcheck (prepare_of_stages hfiles hblocks hgroup hplan),
    writeAll_of_not_written hno]

theorem run_of_unplanned {e : Fault} (hplan : planGroups config t gs = .error e) :
    run config t = (t, .error e) := by
  refine run_of_unprepared hcheck ?_
  simp only [prepare, planBlocks, hfiles, hblocks, hgroup, hplan, bind, Except.bind]

end Stages

theorem summaryOf_settled {files : List SourceFile} {blocks : List Block}
    {plan settled : List FilePlan} {status : FileChange} (hno : status.isWritten = false)
    (hstatus : ∀ f ∈ settled, f.status = status)
    (hsummary : settled.map FilePlan.toSummary = plan.map fun f => { f.toSummary with status }) :
    summaryOf files blocks settled = (summaryOf files blocks plan).settled status := by
  have hnone : settled.filter (·.status.isWritten) = [] := by
    refine List.filter_eq_nil_iff.2 fun f hf => ?_
    rw [hstatus f hf, hno]
    exact Bool.false_ne_true
  unfold summaryOf RunSummary.settled
  rw [hnone, hsummary, List.map_map]
  rfl

theorem soundMarkers_of_checkAll (h : config.checkAll = .ok ()) :
    Region.SoundMarkers config.keep := by
  unfold Config.checkAll at h
  split at h
  · exact nomatch h
  · rename_i hcheck
    exact Region.soundMarkers_of_check hcheck

theorem statuses_of_settled {files : List SourceFile} {blocks : List Block} {plan : List FilePlan}
    {summary : RunSummary} {status : FileChange}
    (h : summaryOf files blocks plan = summary.settled status) :
    ∀ f ∈ plan, f.status = status := by
  intro f hf
  have hfiles : plan.map FilePlan.toSummary = summary.files.map ({ · with status }) :=
    congrArg RunSummary.files h
  have hmem : f.toSummary ∈ summary.files.map ({ · with status }) :=
    hfiles ▸ List.mem_map_of_mem hf
  obtain ⟨g, -, hg⟩ := List.mem_map.1 hmem
  exact (congrArg FileSummary.status hg).symm

/-- **A run again.** Where the first run did not fail and left the sources as they were, a second
run leaves the tree as it is and reports every file as unchanged exactly when existing files are
skipped, or no row outside of the regions is a marker and files that lead to the same place have the
same blocks. If only the markers are at fault, it fails at a file that has one too many. -/
theorem run_again {summary : RunSummary} {gs : List FileGroup}
    (hrun : run config t = (t', .ok summary)) (hgroups : groups config t = .ok gs)
    (hsources : loadRoots t' config.roots = loadRoots t config.roots) :
    (run config t' = (t', .ok (summary.settled (FilePlan.settledStatus config))) ↔
      config.skipExisting = true ∨ (∀ g ∈ gs, g.IsClear config) ∧ Agree config t gs) ∧
    (config.skipExisting = false → Agree config t gs → (¬ ∀ g ∈ gs, g.IsClear config) →
      ∃ g ∈ gs, ∃ e, run config t' = (t', .error (.region g.path e))) := by
  obtain ⟨files, blocks, gs', plan, hcheck, hfiles, hblocks, hgroup, hplan, hwrite, rfl⟩ :=
    run_ok hrun
  obtain rfl : gs' = gs := by
    simpa only [groups, hfiles, hblocks, hgroup, bind, Except.bind, Except.ok.injEq] using hgroups
  rw [hfiles] at hsources
  have hm := soundMarkers_of_checkAll hcheck
  refine ⟨⟨fun hsettled => ?_, fun h => ?_⟩, fun hskip hagree hno => ?_⟩
  · cases hskip : config.skipExisting with
    | true => exact .inl rfl
    | false =>
      obtain ⟨files', blocks', gs', settled, -, hfiles', hblocks', hgroup', hagain, -, hsummary⟩ :=
        run_ok hsettled
      obtain rfl := Except.ok.inj (hsources.symm.trans hfiles')
      obtain rfl := Except.ok.inj (hblocks.symm.trans hblocks')
      obtain rfl := Except.ok.inj (hgroup.symm.trans hgroup')
      rw [FilePlan.settledStatus, if_neg (by simp [hskip])] at hsummary
      exact .inr (clear_of_settled hplan hwrite hskip hm hagain (statuses_of_settled hsummary.symm))
  · obtain ⟨settled, hagain, hstatus, hsummary⟩ : ∃ settled,
        planGroups config t' gs' = .ok settled ∧
        (∀ f ∈ settled, f.status = FilePlan.settledStatus config) ∧ settled.map FilePlan.toSummary =
          plan.map fun f => { f.toSummary with status := FilePlan.settledStatus config } := by
      unfold FilePlan.settledStatus
      cases hskip : config.skipExisting with
      | true => exact planGroups_again_of_skip hplan hwrite hskip
      | false =>
        obtain ⟨hclear, hagree⟩ := h.resolve_left (by simp [hskip])
        exact planGroups_again_of_clear hplan hwrite hskip hm hclear hagree
    have hno : (FilePlan.settledStatus config).isWritten = false := by
      unfold FilePlan.settledStatus
      split <;> rfl
    rw [run_of_planned hcheck hsources hblocks hgroup hagain fun f hf => hstatus f hf ▸ hno,
      summaryOf_settled hno hstatus hsummary]
  · obtain ⟨g, hg, e, hfail⟩ := planGroups_again_error hplan hwrite hskip hm hagree hno
    exact ⟨g, hg, e, run_of_unplanned hcheck hsources hblocks hgroup hfail⟩

/-- A configuration whose root is one file. -/
def fileConfig : Config := { roots := ["m.go"] }

/-- A configuration that gives every block a file of its own. -/
def ownFileConfig : Config := { fileConfig with strategy := .multiple }

theorem check_ownFileConfig : ownFileConfig.checkAll = .ok () :=
  Outcome.eq_ok_of_toOption (by decide +kernel)

/-- What a run reports for a source with one struct. -/
def userSummary (status : FileChange) : RunSummary :=
  { scannedFiles := 1
    blocks := 1
    written := 1
    files := [⟨⟨"graph/schema/schema.graphqls"⟩, status, ["User"]⟩] }

/-- A struct with a line of prose, and a file of the schema with a region. -/
def keptTree : FileTree :=
  { nodes :=
      [(["m.go"], .file (some
          "package m\n\n// A user.\n// @gqlType\ntype User struct \x7b\n    Name string\n\x7d\n")),
        (["graph"], .directory),
        (["graph", "schema"], .directory),
        (["graph", "schema", "schema.graphqls"], .file (some handWritten))] }

/-- The file of the schema for that struct. -/
def keptGroup : FileGroup :=
  { path := ⟨"graph/schema/schema.graphqls"⟩
    blocks :=
      [{ userBlock with
          description := some "A user."
          fields := [{ name := "name", typeText := "String!" }] }] }

theorem run_of_toOption {summary : RunSummary} (h : (run config t).2.toOption = some summary) :
    run config t = ((run config t).1, .ok summary) :=
  Prod.ext rfl (Outcome.eq_ok_of_toOption h)

theorem groups_keptTree : groups fileConfig keptTree = .ok [keptGroup] := by
  have h : (groups fileConfig keptTree).toOption.map (List.map fun g => (g.path, g.blocks)) =
      some [(keptGroup.path, keptGroup.blocks)] := by decide +kernel
  obtain ⟨gs, hgs, heq⟩ := Option.map_eq_some_iff.1 h
  obtain ⟨g, rfl, hg⟩ := List.map_eq_singleton_iff.1 heq
  obtain ⟨path, blocks⟩ := g
  obtain ⟨rfl, rfl⟩ := Prod.mk.inj hg
  exact Outcome.eq_ok_of_toOption hgs

theorem keptTree_run_again : ∃ t', run fileConfig keptTree = (t', .ok (userSummary .updated)) ∧
    loadRoots t' fileConfig.roots = loadRoots keptTree fileConfig.roots ∧
    (∀ g ∈ [keptGroup], g.IsClear fileConfig) ∧
    run fileConfig t' = (t', .ok ((userSummary .updated).settled .unchanged)) := by
  have hrun : run fileConfig keptTree = ((run fileConfig keptTree).1, .ok (userSummary .updated)) :=
    run_of_toOption (by decide +kernel)
  have hsources : loadRoots (run fileConfig keptTree).1 fileConfig.roots =
      loadRoots keptTree fileConfig.roots := by decide +kernel
  have hclear : ∀ g ∈ [keptGroup], g.IsClear fileConfig := by
    have hblocks : ∀ b ∈ keptGroup.blocks, Region.IsClear fileConfig.keep (b.render false) := by
      decide +kernel
    exact List.forall_mem_singleton.2 ⟨by decide +kernel, hblocks⟩
  refine ⟨_, hrun, hsources, hclear, ?_⟩
  have hagree : Agree fileConfig keptTree [keptGroup] := by
    intro g hg g' hg' _
    rw [List.mem_singleton.1 hg, List.mem_singleton.1 hg']
  exact (run_again hrun groups_keptTree hsources).1.2 (.inr ⟨hclear, hagree⟩)

/-- A struct whose description is the row that opens a region. -/
def markerTree : FileTree :=
  { nodes :=
      [(["m.go"], .file (some ("package m\n\n// @gqlType(description: \"# @gqlKeepBegin\")\n" ++
        "type User struct \x7b\n    Name string\n\x7d\n")))] }

/-- **A description may be taken for a marker.** The first run does not fail and leaves the sources
as they were, and the second run fails. -/
theorem markerTree_run_fails : ∃ t', run fileConfig markerTree = (t', .ok (userSummary .created)) ∧
    loadRoots t' fileConfig.roots = loadRoots markerTree fileConfig.roots ∧
    run fileConfig t' =
      (t', .error (.region ⟨"graph/schema/schema.graphqls"⟩ .nestedBegin)) := by
  refine ⟨_, run_of_toOption (by decide +kernel), by decide +kernel, ?_⟩
  exact run_of_unprepared (Outcome.eq_ok_of_toOption (by decide +kernel)) (by decide +kernel)

end Generation

end GoSchema
