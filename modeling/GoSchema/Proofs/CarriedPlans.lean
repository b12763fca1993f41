/-
# Plans that are carried out

A plan can be carried out exactly when every file that is written can be written by itself and none
of them stands on the way to another. Then the targets of these files have their texts, the places
on their ways are directories, and nothing else is changed. A plan that fails was carried out up to
the file that could not be written. What a plan says of a file is what there is of it in the tree.

Key definitions: `FileTree.CanCarryOut`, `FileTree.CarriedOut`, `FilePlan.Fits`.
Key theorems: `writeAll_eq_none_iff`, `carriedOut_writeAll`, `exists_failed`, `fits_of_planGroups`.
-/
import GoSchema.Proofs.MadeWays
import GoSchema.Proofs.Regeneration

namespace GoSchema

namespace FileTree

variable {t t' u : FileTree}

section Written

variable {p : Path} {text : String}

theorem Writes.directory_iff (h : Writes t u p text) (hcan : t.CanWrite p) (a : AbsolutePath) :
    u.nodeAt? a = some .directory ↔ t.nodeAt? a = some .directory ∨ a ∈ t.way p := by
  by_cases ha : a = t.target p
  · subst ha
    rw [h.here]
    refine ⟨nofun, fun hno => hno.elim (fun hdir => absurd hdir hcan.free) fun hmem => ?_⟩
    exact absurd rfl (hcan.way _ hmem).1
  constructor
  · intro hu
    by_cases hway : a ∈ t.way p
    · exact .inr hway
    · cases hn : t.nodeAt? a with
      | none =>
        rw [h.within a ha hn hway] at hu
        cases hu
      | some n =>
        rw [h.entry a n ha hn] at hu
        exact .inl hu
  · rintro (hn | hway)
    · exact h.entry a _ ha hn
    · exact h.way a hway

theorem Writes.file_iff (h : Writes t u p text) (a : AbsolutePath) :
    (∀ s, u.nodeAt? a ≠ some (.file s)) ↔
      a ≠ t.target p ∧ ∀ s, t.nodeAt? a ≠ some (.file s) := by
  constructor
  · intro hno
    have ha : a ≠ t.target p := by
      rintro rfl
      exact hno _ h.here
    exact ⟨ha, fun s hs => hno s (h.entry a _ ha hs)⟩
  · rintro ⟨ha, hno⟩ s hs
    exact hno s ((h.added a _ ha hs).resolve_right nofun)

/-- Another file can be written afterwards exactly when it could be and neither of both stands on the
way of the other. -/
theorem Writes.canWrite_iff (h : Writes t u p text) (hcan : t.CanWrite p) (q : Path) :
    u.CanWrite q ↔ t.CanWrite q ∧ t.target p ∉ t.way q ∧ t.target q ∉ t.way p := by
  have htarget : u.target q = t.target q := target_congr h.workDir q
  have hway : u.way q = t.way q := way_congr h.workDir q
  constructor
  · intro hq
    have hfree := hq.free
    rw [htarget, ne_eq, h.directory_iff hcan, not_or] at hfree
    have hall : ∀ a ∈ t.way q, a ≠ t.target q ∧ ∀ s, u.nodeAt? a ≠ some (.file s) := by
      rw [← hway, ← htarget]
      exact hq.way
    refine ⟨⟨hq.endsInStep, hfree.1, fun a ha => ?_⟩, fun hmem => ?_, hfree.2⟩
    · exact ⟨(hall a ha).1, ((h.file_iff a).1 (hall a ha).2).2⟩
    · exact ((h.file_iff _).1 (hall _ hmem).2).1 rfl
  · rintro ⟨hq, hpq, hqp⟩
    refine ⟨hq.endsInStep, ?_, fun a ha => ?_⟩
    · rw [htarget, ne_eq, h.directory_iff hcan, not_or]
      exact ⟨hq.free, hqp⟩
    · rw [hway] at ha
      rw [htarget]
      refine ⟨(hq.way a ha).1, (h.file_iff a).2 ⟨?_, (hq.way a ha).2⟩⟩
      rintro rfl
      exact hpq ha

end Written

/-! ### After a plan -/

/-- Whether a plan can be carried out: every file that is written can be written by itself, and none
stands on its way. -/
def CanCarryOut (t : FileTree) (plan : List FilePlan) : Prop :=
  ∀ f ∈ plan, f.status.isWritten = true → t.CanWrite f.path ∧
    ∀ g ∈ plan, g.status.isWritten = true → t.target g.path ∉ t.way f.path

theorem canCarryOut_cons_of_not_written {f : FilePlan} {fs : List FilePlan}
    (hf : ¬ f.status.isWritten = true) : t.CanCarryOut (f :: fs) ↔ t.CanCarryOut fs := by
  simp [CanCarryOut, hf]

/-- The rest of a plan can be carried out after its first file exactly when the whole could be. -/
theorem canCarryOut_cons_iff {f : FilePlan} {fs : List FilePlan} (hf : f.status.isWritten = true)
    (h : Writes t u f.path f.content) (hcan : t.CanWrite f.path) :
    u.CanCarryOut fs ↔ t.CanCarryOut (f :: fs) := by
  have htarget : ∀ q, u.target q = t.target q := target_congr h.workDir
  have hway : ∀ q, u.way q = t.way q := way_congr h.workDir
  have hself : t.target f.path ∉ t.way f.path := fun hmem => (hcan.way _ hmem).1 rfl
  unfold CanCarryOut
  simp only [h.canWrite_iff hcan, htarget, hway, List.forall_mem_cons, hf, forall_const]
  constructor
  · intro hall
    refine ⟨⟨hcan, hself, fun g hg hw => (hall g hg hw).1.2.2⟩, fun g hg hw => ?_⟩
    obtain ⟨⟨hg', hfg, -⟩, hrest⟩ := hall g hg hw
    exact ⟨hg', hfg, hrest⟩
  · rintro ⟨⟨-, -, hfirst⟩, hall⟩ g hg hw
    obtain ⟨hg', hfg, hrest⟩ := hall g hg hw
    exact ⟨⟨hg', hfg, hfirst g hg hw⟩, hrest⟩

/-- **When a plan can be carried out.** -/
theorem writeAll_eq_none_iff : ∀ {plan : List FilePlan} {t : FileTree}, t.IsTree →
    ((writeAll t plan).2 = none ↔ t.CanCarryOut plan)
  | [], t, _ => ⟨fun _ f hf => absurd hf List.not_mem_nil, fun _ => rfl⟩
  | f :: fs, t, ht => by
    by_cases hf : f.status.isWritten = true
    · obtain ⟨⟨u, fault⟩, hu⟩ : ∃ made, writeOne t f = made := ⟨_, rfl⟩
      have hone := writeOne_eq_none_iff ht f
      rw [hu] at hone
      rw [writeAll, if_pos hf, hu]
      cases fault with
      | some e =>
        constructor
        · intro hok
          cases hok
        · intro hall
          have hok := hone.2 (hall f List.mem_cons_self hf).1
          cases hok
      | none =>
        have hwrites := writes_writeOne ht hu
        rw [← canCarryOut_cons_iff hf hwrites (hone.1 rfl)]
        exact writeAll_eq_none_iff hwrites.isTree
    · rw [writeAll, if_neg hf, canCarryOut_cons_of_not_written hf]
      exact writeAll_eq_none_iff ht

/-- What carrying out a plan does to a tree. -/
structure CarriedOut (t t' : FileTree) (plan : List FilePlan) : Prop extends Keeps t t' where
  isTree : t'.IsTree
  here : ∀ f ∈ plan, f.status.isWritten = true → ∃ g ∈ plan, g.status.isWritten = true ∧
    t.target g.path = t.target f.path ∧
    t'.nodeAt? (t.target f.path) = some (.file (some g.content))
  way : ∀ f ∈ plan, f.status.isWritten = true → ∀ a ∈ t.way f.path,
    t'.nodeAt? a = some .directory
  rest : ∀ a, (∀ f ∈ plan, f.status.isWritten = true → a ≠ t.target f.path ∧ a ∉ t.way f.path) →
    t'.nodeAt? a = t.nodeAt? a

/-- **What carrying out a plan does.** -/
theorem carriedOut_writeAll : ∀ {plan : List FilePlan} {t t' : FileTree}, t.IsTree →
    writeAll t plan = (t', none) → CarriedOut t t' plan
  | [], t, t', ht, h => by
    obtain rfl : t = t' := congrArg Prod.fst h
    exact ⟨.refl t, ht, nofun, nofun, fun _ _ => rfl⟩
  | f :: fs, t, t', ht, h => by
    have hkeeps := keeps_writeAll h
    unfold writeAll at h
    split at h
    · rename_i hf
      split at h
      · cases h
      · rename_i u hu
        have hwrites := writes_writeOne ht hu
        have htarget : ∀ q, u.target q = t.target q := target_congr hwrites.workDir
        have hway : ∀ q, u.way q = t.way q := way_congr hwrites.workDir
        have ih := carriedOut_writeAll hwrites.isTree h
        have hhere := ih.here
        have hways := ih.way
        have hrest := ih.rest
        simp only [htarget, hway] at hhere hways hrest
        refine ⟨hkeeps, ih.isTree, fun g hg hw => ?_, fun g hg hw a ha => ?_, fun a hno => ?_⟩
        · by_cases hlater : ∃ g' ∈ fs, g'.status.isWritten = true ∧
            t.target g'.path = t.target g.path
          · obtain ⟨g', hg', hw', hsame⟩ := hlater
            obtain ⟨g₁, hg₁, hw₁, hsame₁, hnode⟩ := hhere g' hg' hw'
            rw [hsame] at hsame₁ hnode
            exact ⟨g₁, List.mem_cons_of_mem _ hg₁, hw₁, hsame₁, hnode⟩
          · -- this is the first file, and no later one is written in its place
            have hgf : g = f := (List.mem_cons.1 hg).resolve_right fun hmem =>
              hlater ⟨g, hmem, hw, rfl⟩
            subst hgf
            refine ⟨g, List.mem_cons_self, hw, rfl, ?_⟩
            rw [hrest, hwrites.here]
            intro g' hg' hw'
            refine ⟨fun heq => hlater ⟨g', hg', hw', heq.symm⟩, fun hmem => ?_⟩
            obtain ⟨s, hs⟩ := ih.text _ ⟨_, hwrites.here⟩
            rw [hways g' hg' hw' _ hmem] at hs
            cases hs
        · rcases List.mem_cons.1 hg with rfl | hg
          · exact ih.directory a (hwrites.way a ha)
          · exact hways g hg hw a ha
        · obtain ⟨hfirst, hlater⟩ := List.forall_mem_cons.1 hno
          obtain ⟨hne, hoff⟩ := hfirst hf
          rw [hrest a hlater]
          cases hn : t.nodeAt? a with
          | none => exact hwrites.within a hne hn hoff
          | some n => exact hwrites.entry a n hne hn
    · rename_i hf
      have ih := carriedOut_writeAll ht h
      have hmem : ∀ g ∈ f :: fs, g.status.isWritten = true → g ∈ fs := by
        rintro g hg hw
        rcases List.mem_cons.1 hg with rfl | hg
        · exact absurd hw hf
        · exact hg
      refine ⟨hkeeps, ih.isTree, fun g hg hw => ?_, fun g hg hw => ?_, fun a hno => ?_⟩
      · obtain ⟨g', hg', hrest⟩ := ih.here g (hmem g hg hw) hw
        exact ⟨g', List.mem_cons_of_mem _ hg', hrest⟩
      · exact ih.way g (hmem g hg hw) hw
      · exact ih.rest a (List.forall_mem_cons.1 hno).2

/-- A plan that fails was carried out up to the file that could not be written. -/
theorem exists_failed : ∀ {plan : List FilePlan} {t t' : FileTree} {e : Fault},
    writeAll t plan = (t', some e) → ∃ before f after u, plan = before ++ f :: after ∧
      f.status.isWritten = true ∧ writeAll t before = (u, none) ∧ writeOne u f = (t', some e)
  | [], _, _, _, h => by cases h
  | f :: fs, t, t', e, h => by
    unfold writeAll at h
    split at h
    · rename_i hf
      split at h
      · rename_i u fault hu
        obtain ⟨rfl, rfl⟩ : u = t' ∧ fault = e := by simpa using h
        exact ⟨[], f, fs, t, rfl, hf, rfl, hu⟩
      · rename_i u hu
        obtain ⟨before, g, after, w, rfl, hg, hbefore, hfail⟩ := exists_failed h
        refine ⟨f :: before, g, after, w, rfl, hg, ?_, hfail⟩
        rw [writeAll, if_pos hf, hu]
        exact hbefore
    · rename_i hf
      obtain ⟨before, g, after, w, rfl, hg, hbefore, hfail⟩ := exists_failed h
      refine ⟨f :: before, g, after, w, rfl, hg, ?_, hfail⟩
      rw [writeAll, if_neg hf]
      exact hbefore

end FileTree

/-! ### What is said of files -/

theorem FileChange.isWritten_iff {s : FileChange} :
    s.isWritten = true ↔ s = .created ∨ s = .updated := by
  cases s <;> simp [isWritten]

namespace FilePlan

variable {config : Config} {t : FileTree}

/-- Whether what is said of a file is what there is of it. -/
def Fits (t : FileTree) (f : FilePlan) : Prop :=
  match f.status with
  | .created => t.read f.path = .error .notFound
  | .updated => ∃ old, t.read f.path = .ok old ∧ old ≠ f.content
  | .unchanged | .skipped => t.read f.path = .ok f.content

namespace Fits

variable {f : FilePlan}

theorem created (h : f.Fits t) (hs : f.status = .created) : t.read f.path = .error .notFound := by
  unfold Fits at h
  rwa [hs] at h

theorem updated (h : f.Fits t) (hs : f.status = .updated) :
    ∃ old, t.read f.path = .ok old ∧ old ≠ f.content := by
  unfold Fits at h
  rwa [hs] at h

theorem same (h : f.Fits t) (hs : f.status.isWritten = false) : t.read f.path = .ok f.content := by
  unfold Fits at h
  split at h
  · simp_all [FileChange.isWritten]
  · simp_all [FileChange.isWritten]
  · exact h
  · exact h

end Fits

theorem fits_of_ofGroup {g : FileGroup} {old : Option String} {f : FilePlan}
    (hold : existing t g.path = .ok old) (h : ofGroup config g old = .ok f) :
    f.Fits t ∧ (config.skipExisting = true → f.status ≠ .updated) := by
  unfold ofGroup at h
  dsimp only at h
  split at h
  · obtain rfl := Except.ok.inj h
    refine ⟨?_, fun _ => nofun⟩
    show t.read g.path = .error .notFound
    unfold existing at hold
    split at hold
    · cases hold
    · assumption
    · cases hold
  · rename_i text
    have hread := read_of_existing hold
    split at h
    · obtain rfl := Except.ok.inj h
      exact ⟨hread, fun _ => nofun⟩
    · rename_i hskip
      split at h
      · cases h
      · rename_i kept hkept
        obtain rfl := Except.ok.inj h
        by_cases hsame : text = String.ofList (fileText config kept g.blocks)
        · simp only [if_pos hsame]
          exact ⟨by rw [← hsame]; exact hread, fun _ => nofun⟩
        · simp only [if_neg hsame]
          exact ⟨⟨text, hread, hsame⟩, fun h => absurd h hskip⟩

/-- **What a plan says of its files** is what there is of them. -/
theorem fits_of_planGroups {gs : List FileGroup} {plan : List FilePlan}
    (h : planGroups config t gs = .ok plan) {f : FilePlan} (hf : f ∈ plan) :
    f.Fits t ∧ (config.skipExisting = true → f.status ≠ .updated) := by
  obtain ⟨g, -, old, hold, hplan⟩ := Pointwise.exists_left (forall₂_of_planGroups h) hf
  exact fits_of_ofGroup hold hplan

end FilePlan

end GoSchema
