/-
# Ways that are made

Making a directory with those above it makes every missing place on its way, up to the first that is
a file. So a file can be written exactly when its path ends in a step, no place on its way is a file
or the target, and the target is no directory; and then the places on the way are directories, the
target has the text, and nothing else is changed.

Key definitions: `FileTree.MakesWay`, `FileTree.CanWrite`, `FileTree.Writes`.
Key theorems: `makesWay_makeNext`, `makesWay_makeDirs`, `makesWay_makeDirOf`, `writeOne_cases`,
`writeOne_eq_none_iff`, `writes_writeOne`, `fails_writeOne`.
-/
import GoSchema.Proofs.Ways

namespace GoSchema

namespace FileTree

variable {t t' : FileTree}

/-- What comes of making directories out of places: those that are missing are made, up to the
first that is a file. -/
structure MakesWay {ε : Type} (t : FileTree) (l : List AbsolutePath)
    (made : FileTree × Option ε) : Prop extends Extends t made.1 where
  isTree : made.1.IsTree
  within : ∀ a, t.nodeAt? a = none → a ∉ l → made.1.nodeAt? a = none
  free : made.2 = none ↔ ∀ a ∈ l, ∀ text, t.nodeAt? a ≠ some (.file text)
  all : made.2 = none → ∀ a ∈ l, made.1.nodeAt? a = some .directory
  first : ∀ a, t.obstacle? l = some a → t.nodeAt? a = none →
    made.1.nodeAt? a = some .directory

namespace MakesWay

variable {ε : Type} {l : List AbsolutePath} {made : FileTree × Option ε}

theorem of_directories (ht : t.IsTree) (h : ∀ a ∈ l, t.nodeAt? a = some .directory) :
    MakesWay t l (t, (none : Option ε)) where
  toExtends := .refl t
  isTree := ht
  within _ ha _ := ha
  free := by
    refine ⟨fun _ a ha text hfile => ?_, fun _ => rfl⟩
    rw [h a ha] at hfile
    cases hfile
  all _ := h
  first a ha _ := by
    rw [obstacle?_eq_none_iff.2 h] at ha
    cases ha

theorem of_file (ht : t.IsTree) {a : AbsolutePath} (ha : t.obstacle? l = some a)
    (hfile : t.nodeAt? a ≠ none) (e : ε) : MakesWay t l (t, some e) where
  toExtends := .refl t
  isTree := ht
  within _ hb _ := hb
  free := by
    obtain ⟨hmem, hdir⟩ := obstacle?_eq_some ha
    refine ⟨nofun, fun hno => ?_⟩
    cases hn : t.nodeAt? a with
    | none => exact absurd hn hfile
    | some n =>
      cases n with
      | directory => exact absurd hn hdir
      | file text => exact absurd hn (hno a hmem text)
  all := nofun
  first b hb hnone := by
    rw [ha] at hb
    obtain rfl := Option.some.inj hb
    exact absurd hnone hfile

theorem exists_obstacle {e : ε} (h : MakesWay t l (t', some e)) : ∃ a, t.obstacle? l = some a := by
  cases ho : t.obstacle? l with
  | some a => exact ⟨a, rfl⟩
  | none =>
    have hdirs := obstacle?_eq_none_iff.1 ho
    have hno := h.free.2 fun a ha text hfile => by
      rw [hdirs a ha] at hfile
      cases hfile
    cases hno

/-- After a way that was made, one more place is a directory, is made, or is a file. -/
theorem concat {made : FileTree × Option ε} (h : MakesWay t l (t', (none : Option ε)))
    {b : AbsolutePath} (hext : Extends t' made.1) (htree : made.1.IsTree)
    (hwithin : ∀ a, a ≠ b → t'.nodeAt? a = none → made.1.nodeAt? a = none)
    (hfree : made.2 = none ↔ ∀ text, t'.nodeAt? b ≠ some (.file text))
    (hall : made.2 = none → made.1.nodeAt? b = some .directory) : MakesWay t (l ++ [b]) made := by
  have hfile : ∀ text, t'.nodeAt? b = some (.file text) ↔ t.nodeAt? b = some (.file text) :=
    fun text => ⟨fun hb => (h.added b _ hb).resolve_right nofun, h.entry b _⟩
  have hl : ∀ a ∈ l, ∀ text, t.nodeAt? a ≠ some (.file text) := h.free.1 rfl
  refine ⟨h.toExtends.trans hext, htree, fun a ha hno => ?_, ?_, fun hm a ha => ?_, fun a ha hn => ?_⟩
  · obtain ⟨hal, hab⟩ : a ∉ l ∧ a ≠ b := by simpa using hno
    exact hwithin a hab (h.within a ha hal)
  · simp only [hfree, List.forall_mem_append, List.forall_mem_singleton, ne_eq, hfile]
    exact ⟨fun hb => ⟨hl, hb⟩, fun hb => hb.2⟩
  · rcases List.mem_append.1 ha with ha | ha
    · exact hext.entry a _ (h.all rfl a ha)
    · rw [List.mem_singleton.1 ha]
      exact hall hm
  · cases ho : t.obstacle? l with
    | some c =>
      rw [obstacle?_concat, ho, Option.some_or] at ha
      exact hext.entry a _ (h.first a (ha ▸ ho) hn)
    | none =>
      -- only the last place can be missing
      obtain ⟨hmem, hdir⟩ := obstacle?_eq_some ha
      rcases List.mem_append.1 hmem with hmem | hmem
      · exact absurd (obstacle?_eq_none_iff.1 ho a hmem) hdir
      · obtain rfl := List.mem_singleton.1 hmem
        refine hall (hfree.2 fun text hb => ?_)
        rw [(hfile text).1 hb] at hn
        cases hn

theorem of_failed {e : ε} (h : MakesWay t l (t', some e)) (b : AbsolutePath) :
    MakesWay t (l ++ [b]) (t', some e) where
  toExtends := h.toExtends
  isTree := h.isTree
  within a ha hno := h.within a ha fun hmem => hno (List.mem_append_left _ hmem)
  free := by
    refine ⟨nofun, fun hall => ?_⟩
    exact h.free.2 fun a ha => hall a (List.mem_append_left _ ha)
  all := nofun
  first a ha := by
    obtain ⟨c, hc⟩ := h.exists_obstacle
    rw [obstacle?_concat, hc, Option.some_or] at ha
    exact h.first a (ha ▸ hc)

end MakesWay

theorem makeDir_eq {q : Path} (hq : q.IsBare) (hne : q.text ≠ "") : t.makeDir q =
    match t.locate q with
    | .error e => .error e
    | .ok a =>
      match t.nodeAt? a with
      | some _ => .error .fileExists
      | none => .ok (t.put a .directory) := by
  have hsame : (if (Path.mk (String.ofList
        (q.text.toList.reverse.dropWhile (· = '/')).reverse)).text = "" then q
      else Path.mk (String.ofList (q.text.toList.reverse.dropWhile (· = '/')).reverse)) = q := by
    obtain ⟨text⟩ := q
    rcases hq with rfl | rfl | rfl | hq
    · exact absurd rfl hne
    · decide
    · decide
    · have hlast : (Path.mk text).text.toList.reverse.dropWhile (· = '/') =
          (Path.mk text).text.toList.reverse := by
        rw [List.dropWhile_eq_self_iff]
        intro hlen hslash
        refine Path.getLast?_of_endsInStep hq ?_
        rw [← List.head?_reverse, List.head?_eq_getElem?, List.getElem?_eq_getElem hlen]
        simpa using hslash
      rw [hlast, List.reverse_reverse, String.ofList_toList, if_neg hne]
  unfold makeDir
  dsimp only
  rewrite [hsame]
  rfl

theorem makeDir_of_directories (ht : t.IsTree) {q : Path} (hq : q.IsBare) (hne : q.text ≠ "")
    (h : ∀ a ∈ t.way q, t.nodeAt? a = some .directory) : t.makeDir q =
      match t.nodeAt? (t.target q) with
      | some _ => .error .fileExists
      | none => .ok (t.put (t.target q) .directory) := by
  rw [makeDir_eq hq hne, locate_of_isBare ht hq hne, passing, obstacle?_eq_none_iff.2 h]

theorem makeDir_of_obstacle (ht : t.IsTree) {q : Path} (hq : q.IsBare) (hne : q.text ≠ "")
    {a : AbsolutePath} (h : t.obstacle? (t.way q) = some a) : t.makeDir q =
      .error (if t.nodeAt? a = none then .notFound else .notDirectory) := by
  rw [makeDir_eq hq hne, locate_of_isBare ht hq hne, passing, h]

theorem isDir_of_directories (ht : t.IsTree) {q : Path} (hq : q.IsBare) (hne : q.text ≠ "")
    (h : ∀ a ∈ t.way q, t.nodeAt? a = some .directory) :
    t.isDir q = true ↔ t.nodeAt? (t.target q) = some .directory := by
  rw [isDir, node, locate_of_isBare ht hq hne, passing, obstacle?_eq_none_iff.2 h]
  dsimp only
  cases t.nodeAt? (t.target q) with
  | none => simp
  | some n => cases n <;> simp

theorem isDir_of_obstacle (ht : t.IsTree) {q : Path} (hq : q.IsBare) (hne : q.text ≠ "")
    {a : AbsolutePath} (h : t.obstacle? (t.way q) = some a) : t.isDir q = false := by
  rw [isDir, node, locate_of_isBare ht hq hne, passing, h]

/-- **One more directory.** After those on its way, the end of a way is made. -/
theorem makesWay_makeNext {u : FileTree} {q : Path} (hq : q.IsBare) (hne : q.text ≠ "")
    (h : MakesWay t (t.way q) (u, (none : Option OsFault))) :
    MakesWay t (t.way q ++ [t.target q]) (makeNext q (u, none)) := by
  have hway : u.way q = t.way q := way_congr h.workDir q
  have htarget : u.target q = t.target q := target_congr h.workDir q
  have hdirs : ∀ a ∈ u.way q, u.nodeAt? a = some .directory := hway ▸ h.all rfl
  unfold makeNext
  dsimp only
  rw [makeDir_of_directories h.isTree hq hne hdirs, htarget]
  cases hb : u.nodeAt? (t.target q) with
  | none =>
    have habove := h.isTree.directory_above_end hdirs
    have hroot : t.target q ≠ [] := by
      intro hnil
      rw [hnil, nodeAt?_nil] at hb
      cases hb
    refine h.concat (extends_put hb) ?_ ?_ ?_ fun _ => nodeAt?_put hroot u _
    · exact h.isTree.put (by rw [hb]; nofun) (htarget ▸ habove) _
    · intro a ha hn
      rwa [nodeAt?_put_ne ha]
    · simp [hb]
  | some n =>
    have hdir := isDir_of_directories h.isTree hq hne hdirs
    rw [htarget] at hdir
    dsimp only at hdir ⊢
    cases n with
    | directory =>
      rw [if_pos (hdir.2 hb)]
      exact h.concat (.refl u) h.isTree (fun _ _ hn => hn) (by simp [hb]) fun _ => hb
    | file text =>
      rw [if_neg (by simp [hdir, hb])]
      exact h.concat (.refl u) h.isTree (fun _ _ hn => hn) (by simp [hb]) nofun

theorem ancestors_eq_cons (n : Nat) (q : Path) : ∃ above, ancestors n q = q :: above := by
  unfold ancestors
  split
  · exact ⟨[], rfl⟩
  · split
    · exact ⟨[], rfl⟩
    · exact ⟨_, rfl⟩

theorem makesWay_makeUp_empty (ht : t.IsTree) (n : Nat) :
    MakesWay t (t.way ⟨""⟩ ++ [t.target ⟨""⟩]) (t.makeUp (ancestors n ⟨""⟩)) := by
  obtain ⟨above, habove⟩ := ancestors_eq_cons n ⟨""⟩
  have hway : t.way ⟨""⟩ ++ [t.target ⟨""⟩] = [t.workDir] := by
    rw [way, target_eq, Path.components_empty]
    rfl
  rw [habove, makeUp, if_pos rfl, hway]
  exact .of_directories ht (List.forall_mem_singleton.2 ht.workDir)

/-- Only a path that ends in a step can miss something on its way. -/
theorem endsInStep_of_obstacle (ht : t.IsTree) {q : Path} (hq : q.IsBare) {a : AbsolutePath}
    (h : t.obstacle? (t.way q) = some a) : q.EndsInStep := by
  obtain ⟨hmem, hdir⟩ := obstacle?_eq_some h
  obtain ⟨text⟩ := q
  rcases hq with rfl | rfl | rfl | hq
  · rw [way, Path.components_empty] at hmem
    exact absurd hmem List.not_mem_nil
  · rw [way, Path.components_root] at hmem
    exact absurd (List.mem_singleton.1 hmem ▸ ht.workDir) hdir
  · rw [way, Path.components_dot] at hmem
    exact absurd (List.mem_singleton.1 hmem ▸ ht.workDir) hdir
  · exact hq

/-- **The directories on a way.** Those that are missing are made down to the end of the way, unless
a file is met. -/
theorem makesWay_makeUp (ht : t.IsTree) : ∀ {n : Nat} {q : Path}, q.IsBare →
    q.components.length ≤ n →
    MakesWay t (t.way q ++ [t.target q]) (t.makeUp (ancestors n q))
  | 0, q, hq, hn => by
    have hempty : q = ⟨""⟩ := by
      obtain ⟨text⟩ := q
      rcases hq with rfl | rfl | rfl | hq
      · rfl
      · exact absurd hn (by decide)
      · exact absurd hn (by decide)
      · obtain ⟨r, hr⟩ := Path.exists_parent? hq
        obtain ⟨c, hc, -⟩ := Path.components_of_parent? hr
        rw [hc, List.length_append] at hn
        exact absurd hn (by simp)
    rw [hempty]
    exact makesWay_makeUp_empty ht 0
  | n + 1, q, hq, hn => by
    by_cases hne : q.text = ""
    · obtain rfl := Path.eq_empty hne
      exact makesWay_makeUp_empty ht (n + 1)
    cases ho : t.obstacle? (t.way q) with
    | none =>
      have hdirs := obstacle?_eq_none_iff.1 ho
      obtain ⟨above, habove⟩ := ancestors_eq_cons (n + 1) q
      have hmake := makeDir_of_directories ht hq hne hdirs
      rw [habove, makeUp, if_neg hne]
      split
      · rename_i hno
        rw [hmake] at hno
        split at hno <;> cases hno
      · exact makesWay_makeNext hq hne (.of_directories ht hdirs)
    | some a =>
      obtain ⟨r, hr⟩ := Path.exists_parent? (endsInStep_of_obstacle ht hq ho)
      obtain ⟨c, hc, hbare⟩ := Path.components_of_parent? hr
      have hlen : r.components.length ≤ n := by
        rw [hc, List.length_append, List.length_singleton] at hn
        omega
      have hup : ancestors (n + 1) q = q :: ancestors n r := by rw [ancestors, hr]
      have hmake := makeDir_of_obstacle ht hq hne ho
      rw [hup, makeUp, if_neg hne, hmake]
      by_cases ha : t.nodeAt? a = none
      · -- the directories above are made first
        have ih := makesWay_makeUp ht hbare hlen
        rw [← way_of_components hc] at ih
        rw [if_pos ha]
        dsimp only
        generalize t.makeUp (ancestors n r) = made at ih ⊢
        obtain ⟨u, fault⟩ := made
        cases fault with
        | none => exact makesWay_makeNext hq hne ih
        | some e => exact ih.of_failed _
      · have hnext : makeNext q (t, none) = (t, some .notDirectory) := by
          rw [makeNext, hmake, if_neg ha, isDir_of_obstacle ht hq hne ho]
          rfl
        rw [if_neg ha]
        dsimp only
        rw [hnext]
        exact (MakesWay.of_file ht ho ha _).of_failed _

/-- **Making a directory** makes what is missing on its way and at its end. -/
theorem makesWay_makeDirs (ht : t.IsTree) {q : Path} (hq : q.IsBare) :
    MakesWay t (t.way q ++ [t.target q]) (t.makeDirs q) :=
  makesWay_makeUp ht hq (Path.length_components_le q)

theorem makeDirs_of_directories (ht : t.IsTree) {q : Path} (hq : q.IsBare)
    (h : ∀ a ∈ t.way q ++ [t.target q], t.nodeAt? a = some .directory) :
    t.makeDirs q = (t, none) := by
  obtain ⟨hway, hend⟩ := List.forall_mem_append.1 h
  have htarget := hend _ (List.mem_singleton.2 rfl)
  obtain ⟨above, habove⟩ := ancestors_eq_cons q.text.length q
  rw [makeDirs, habove, makeUp]
  by_cases hne : q.text = ""
  · rw [if_pos hne]
  · have hmake := makeDir_of_directories ht hq hne hway
    rw [htarget] at hmake
    rw [if_neg hne, hmake]
    dsimp only
    rw [makeNext, hmake]
    dsimp only
    rw [if_pos ((isDir_of_directories ht hq hne hway).2 htarget)]

/-! ### Writing a file -/

theorem MakesWay.map {ε ε' : Type} {l : List AbsolutePath} {made : FileTree × Option ε}
    (h : MakesWay t l made) (f : ε → ε') : MakesWay t l (made.1, made.2.map f) where
  toExtends := h.toExtends
  isTree := h.isTree
  within := h.within
  free := by rw [← h.free, Option.map_eq_none_iff]
  all hm := h.all (Option.map_eq_none_iff.1 hm)
  first := h.first

/-- **The directory of a file** is made with what is missing on its way. -/
theorem makesWay_makeDirOf (ht : t.IsTree) (p : Path) :
    MakesWay t (t.way p) (makeDirOf t p) := by
  unfold makeDirOf
  split
  · rename_i hp
    refine .of_directories ht fun a ha => ?_
    rw [way, Path.components_of_parent?_eq_none hp] at ha
    cases hlead : p.lead with
    | none =>
      rw [hlead] at ha
      exact absurd ha List.not_mem_nil
    | some c =>
      rw [hlead] at ha
      rw [List.mem_singleton.1 ha]
      exact ht.workDir
  · rename_i q hq
    obtain ⟨c, hc, hbare⟩ := Path.components_of_parent? hq
    have hmakes := makesWay_makeDirs ht hbare
    rw [← way_of_components hc] at hmakes
    split
    · rename_i hempty
      obtain rfl := Path.eq_empty hempty
      refine .of_directories ht fun a ha => ?_
      rw [way_of_components hc, way, target_eq, Path.components_empty] at ha
      rw [List.mem_singleton.1 ha]
      exact ht.workDir
    · exact hmakes.map _

theorem makeDirOf_of_directories (ht : t.IsTree) {p : Path}
    (h : ∀ a ∈ t.way p, t.nodeAt? a = some .directory) : makeDirOf t p = (t, none) := by
  unfold makeDirOf
  split
  · rfl
  · rename_i q hq
    obtain ⟨c, hc, hbare⟩ := Path.components_of_parent? hq
    rw [way_of_components hc] at h
    rw [makeDirs_of_directories ht hbare h]
    split <;> rfl

theorem write_of_not_endsInStep (ht : t.IsTree) {p : Path} (hp : ¬ p.EndsInStep) (text : String) :
    ∃ e, t.write p text = .error e := by
  cases hl : t.locate p with
  | error e =>
    rw [write, hl]
    dsimp only
    split
    · exact ⟨_, rfl⟩
    · exact ⟨_, rfl⟩
  | ok a =>
    have hne : p.text ≠ "" := by
      intro hempty
      simp [locate, hempty] at hl
    rw [locate_eq ht hne, enteredBy, if_neg hp, passing_eq_ok_iff] at hl
    obtain ⟨hdirs, rfl⟩ := hl
    have htarget := hdirs (t.target p) (List.mem_append_right _ (List.mem_singleton.2 rfl))
    refine ⟨.isDirectory, ?_⟩
    rw [write, locate_eq ht hne, enteredBy, if_neg hp, passing, obstacle?_eq_none_iff.2 hdirs]
    dsimp only
    rw [htarget]

/-- At the end of a way of directories a file can be written, unless a directory is there. -/
theorem write_of_endsInStep (ht : t.IsTree) {p : Path} (hp : p.EndsInStep)
    (h : ∀ a ∈ t.way p, t.nodeAt? a = some .directory) (text : String) : t.write p text =
      if t.nodeAt? (t.target p) = some .directory then .error .isDirectory
      else .ok (t.put (t.target p) (.file (some text))) := by
  have hne := Path.text_ne_of_endsInStep hp
  rw [write, locate_eq ht hne, enteredBy, if_pos hp, List.append_nil, passing,
    obstacle?_eq_none_iff.2 h]
  dsimp only
  cases hn : t.nodeAt? (t.target p) with
  | none => rfl
  | some n => cases n <;> rfl

/-- Whether a file can be written with its directory. -/
structure CanWrite (t : FileTree) (p : Path) : Prop where
  endsInStep : p.EndsInStep
  free : t.nodeAt? (t.target p) ≠ some .directory
  way : ∀ a ∈ t.way p, a ≠ t.target p ∧ ∀ text, t.nodeAt? a ≠ some (.file text)

/-- What a file that is written with its directory does to a tree. -/
structure Writes (t t' : FileTree) (p : Path) (text : String) : Prop extends
    Puts t t' (t.target p) text where
  isTree : t'.IsTree
  way : ∀ a ∈ t.way p, t'.nodeAt? a = some .directory
  within : ∀ a, a ≠ t.target p → t.nodeAt? a = none → a ∉ t.way p → t'.nodeAt? a = none

theorem fault_makeDirOf {p : Path} {u : FileTree} {fault : Fault}
    (h : makeDirOf t p = (u, some fault)) : ∃ path e, fault = .io path e := by
  unfold makeDirOf at h
  split at h
  · cases h
  · rename_i q _
    split at h
    · cases h
    · obtain ⟨e, -, rfl⟩ := Option.map_eq_some_iff.1 (congrArg Prod.snd h)
      exact ⟨q, e, rfl⟩

/-- The two steps of writing a file: its way is made, and then the text is put or cannot be. -/
theorem writeOne_cases (ht : t.IsTree) (f : FilePlan) :
    ∃ u, ∃ fault : Option Fault, MakesWay t (t.way f.path) (u, fault) ∧
      ((fault = none ∧ f.path.EndsInStep ∧ u.nodeAt? (t.target f.path) ≠ some .directory ∧
          writeOne t f = (u.put (t.target f.path) (.file (some f.content)), none)) ∨
        (¬ (fault = none ∧ f.path.EndsInStep ∧ u.nodeAt? (t.target f.path) ≠ some .directory) ∧
          ∃ path e, writeOne t f = (u, some (.io path e)))) := by
  have hmakes := makesWay_makeDirOf ht f.path
  obtain ⟨⟨u, fault⟩, hmade⟩ : ∃ made, makeDirOf t f.path = made := ⟨_, rfl⟩
  rw [hmade] at hmakes
  refine ⟨u, fault, hmakes, ?_⟩
  cases fault with
  | some e =>
    obtain ⟨path, os, rfl⟩ := fault_makeDirOf hmade
    exact .inr ⟨nofun, path, os, by rw [writeOne, hmade]⟩
  | none =>
    by_cases hstep : f.path.EndsInStep
    · have hwrite := write_of_endsInStep hmakes.isTree hstep
        (way_congr hmakes.workDir f.path ▸ hmakes.all rfl) f.content
      rw [target_congr hmakes.workDir] at hwrite
      by_cases hdir : u.nodeAt? (t.target f.path) = some .directory
      · rw [if_pos hdir] at hwrite
        refine .inr ⟨fun h => h.2.2 hdir, f.path, .isDirectory, ?_⟩
        rw [writeOne, hmade]
        dsimp only
        rw [hwrite]
      · rw [if_neg hdir] at hwrite
        refine .inl ⟨rfl, hstep, hdir, ?_⟩
        rw [writeOne, hmade]
        dsimp only
        rw [hwrite]
    · obtain ⟨e, he⟩ := write_of_not_endsInStep hmakes.isTree hstep f.content
      refine .inr ⟨fun h => hstep h.2.1, f.path, e, ?_⟩
      rw [writeOne, hmade]
      dsimp only
      rw [he]

/-- A place at the end of a way that was made is a directory if it was one or is on the way. -/
theorem MakesWay.directory_iff {l : List AbsolutePath} {u : FileTree} {ε : Type}
    (h : MakesWay t l (u, (none : Option ε))) (a : AbsolutePath) :
    u.nodeAt? a = some .directory ↔ t.nodeAt? a = some .directory ∨ a ∈ l := by
  constructor
  · intro hu
    by_cases ha : a ∈ l
    · exact .inr ha
    · cases hn : t.nodeAt? a with
      | none =>
        rw [h.within a hn ha] at hu
        cases hu
      | some n =>
        rw [h.entry a n hn] at hu
        exact .inl hu
  · rintro (hn | ha)
    · exact h.entry a _ hn
    · exact h.all rfl a ha

/-- **When a file can be written.** No place on its way is a file or its target, and its target is no
directory. -/
theorem writeOne_eq_none_iff (ht : t.IsTree) (f : FilePlan) :
    (writeOne t f).2 = none ↔ t.CanWrite f.path := by
  obtain ⟨u, fault, hmakes, ⟨rfl, hstep, hfree, h⟩ | ⟨hno, path, e, h⟩⟩ := writeOne_cases ht f
  · rw [ne_eq, hmakes.directory_iff, not_or] at hfree
    refine ⟨fun _ => ⟨hstep, hfree.1, fun a ha => ⟨?_, hmakes.free.1 rfl a ha⟩⟩, fun _ => by rw [h]⟩
    rintro rfl
    exact hfree.2 ha
  · refine ⟨fun hok => ?_, fun hcan => absurd ?_ hno⟩
    · rw [h] at hok
      cases hok
    · obtain rfl : fault = none := hmakes.free.2 fun a ha => (hcan.way a ha).2
      refine ⟨rfl, hcan.endsInStep, ?_⟩
      rw [ne_eq, hmakes.directory_iff, not_or]
      exact ⟨hcan.free, fun ha => (hcan.way _ ha).1 rfl⟩

/-- **What writing a file does.** -/
theorem writes_writeOne (ht : t.IsTree) {f : FilePlan} (h : writeOne t f = (t', none)) :
    Writes t t' f.path f.content := by
  have hputs := (puts_writeOne h).1
  obtain ⟨u, fault, hmakes, ⟨rfl, -, hfree, h'⟩ | ⟨-, path, e, h'⟩⟩ := writeOne_cases ht f
  · obtain rfl : u.put (t.target f.path) (.file (some f.content)) = t' :=
      congrArg Prod.fst (h'.symm.trans h)
    have hdirs := hmakes.all rfl
    have habove := hmakes.isTree.directory_above_end (p := f.path)
      (way_congr hmakes.workDir f.path ▸ hdirs)
    rw [target_congr hmakes.workDir] at habove
    refine ⟨hputs, hmakes.isTree.put hfree habove _, fun a ha => ?_, fun a ha hn hno => ?_⟩
    · have hne : a ≠ t.target f.path := fun heq => hfree (heq ▸ hdirs a ha)
      rw [nodeAt?_put_ne hne]
      exact hdirs a ha
    · rw [nodeAt?_put_ne ha]
      exact hmakes.within a hn hno
  · rw [h'] at h
    cases h

/-- A file that cannot be written leaves directories on its way, and is told with a path. -/
theorem fails_writeOne (ht : t.IsTree) {f : FilePlan} {e : Fault} (h : writeOne t f = (t', some e)) :
    Extends t t' ∧ (∀ a, t.nodeAt? a = none → a ∉ t.way f.path → t'.nodeAt? a = none) ∧
      (∀ a, t.obstacle? (t.way f.path) = some a → t.nodeAt? a = none →
        t'.nodeAt? a = some .directory) ∧ ∃ path os, e = .io path os := by
  obtain ⟨u, fault, hmakes, ⟨-, -, -, h'⟩ | ⟨-, path, os, h'⟩⟩ := writeOne_cases ht f
  · rw [h'] at h
    cases h
  · obtain ⟨rfl, he⟩ := Prod.mk.inj (h'.symm.trans h)
    exact ⟨hmakes.toExtends, hmakes.within, hmakes.first, path, os, (Option.some.inj he).symm⟩

end FileTree

end GoSchema
