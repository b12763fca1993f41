/-
# Files that are written

What a path leads to depends on its text and on the directory that relative paths start from, as
long as every step is taken from a directory. Carrying a plan out takes no directory away and leaves
a text in every place where there was one, so every path goes on leading where it led. In a place
that a file of the plan leads to there is afterwards the text of a file of the plan that leads to
it, and everywhere else the text that was there.

Key definitions: `FileTree.target`, `FileTree.Keeps`, `FileTree.Puts`.
Key theorems: `target_of_locate`, `Keeps.locate`, `extends_makeDirs`, `puts_writeOne`,
`keeps_writeAll`, `exists_read_writeAll`, `text_writeAll`.
-/
import GoSchema.Output.Plan
import GoSchema.Proofs.Pointwise

namespace GoSchema

namespace FileTree

variable {t t' u : FileTree}

theorem lookup_put (t : FileTree) (p : AbsolutePath) (n : FileNode) (q : AbsolutePath) :
    (t.put p n).nodes.lookup q = if q = p then some n else t.nodes.lookup q := by
  have hothers := Pointwise.lookup_filter (fun r => decide (r ≠ p)) q t.nodes
  show ((t.nodes.filter fun x => x.1 ≠ p) ++ [(p, n)]).lookup q = _
  rw [List.lookup_append, hothers]
  by_cases hq : q = p
  · simp [hq]
  · rw [if_pos (decide_eq_true hq), if_neg hq, List.lookup_cons, beq_false_of_ne hq,
      List.lookup_nil, Option.or_none]

theorem lookup_remove (t : FileTree) (p q : AbsolutePath) :
    (t.remove p).nodes.lookup q = if p <+: q then none else t.nodes.lookup q := by
  have hothers := Pointwise.lookup_filter (fun r => !p.isPrefixOf r) q t.nodes
  have hkept : (!p.isPrefixOf q) = true ↔ ¬ p <+: q := by
    rw [Bool.not_eq_true', ← List.isPrefixOf_iff_prefix, Bool.not_eq_true]
  show (t.nodes.filter fun x => !p.isPrefixOf x.1).lookup q = _
  rw [hothers]
  by_cases hq : p <+: q
  · rw [if_neg fun h => hkept.1 h hq, if_pos hq]
  · rw [if_pos (hkept.2 hq), if_neg hq]

theorem nodeAt?_put {p : AbsolutePath} (hp : p ≠ []) (t : FileTree) (n : FileNode) :
    (t.put p n).nodeAt? p = some n := by
  rw [nodeAt?, if_neg (by simpa using hp), lookup_put, if_pos rfl]

theorem nodeAt?_put_ne {p q : AbsolutePath} (h : q ≠ p) (t : FileTree) (n : FileNode) :
    (t.put p n).nodeAt? q = t.nodeAt? q := by
  rw [nodeAt?, nodeAt?, lookup_put, if_neg h]

theorem nodeAt?_remove {p q : AbsolutePath} (h : ¬ p <+: q) (t : FileTree) :
    (t.remove p).nodeAt? q = t.nodeAt? q := by
  rw [nodeAt?, nodeAt?, lookup_remove, if_neg h]

theorem not_prefix_of_nodeAt?_remove {p q : AbsolutePath} {n : FileNode} (hq : q ≠ [])
    (h : (t.remove p).nodeAt? q = some n) : ¬ p <+: q := by
  intro hin
  rw [nodeAt?, if_neg (by simpa using hq), lookup_remove, if_pos hin] at h
  cases h

theorem nodeAt?_nil (t : FileTree) : t.nodeAt? [] = some .directory := rfl

/-! ### Where a path leads -/

/-- Where the pieces of a path lead from a directory, if every step can be taken. -/
def walk (start : AbsolutePath) : List (List Char) → AbsolutePath
  | [] => start
  | piece :: pieces =>
    if Path.isIdle piece then walk start pieces
    else if piece = ['.', '.'] then walk start.dropLast pieces
    else walk (start ++ [String.ofList piece]) pieces

/-- Where a path leads, if every step can be taken. -/
def target (t : FileTree) (p : Path) : AbsolutePath :=
  match p.text.toList with
  | [] => t.workDir
  | '/' :: rest => walk [] (Text.splitAt '/' rest)
  | s => walk t.workDir (Text.splitAt '/' s)

theorem walk_of_follow : ∀ {pieces : List (List Char)} {start a : AbsolutePath},
    t.follow start pieces = .ok a → walk start pieces = a
  | [], start, a, h => Except.ok.inj h
  | piece :: pieces, start, a, h => by
    unfold follow at h
    unfold walk
    split at h
    · exact nomatch h
    · exact nomatch h
    · split at h
      · rename_i hidle
        rw [if_pos hidle]
        exact walk_of_follow h
      · rename_i hidle
        rw [if_neg hidle]
        split at h
        · rename_i hup
          rw [if_pos hup]
          exact walk_of_follow h
        · rename_i hup
          rw [if_neg hup]
          exact walk_of_follow h

/-- A path that can be followed leads to its target. -/
theorem target_of_locate {p : Path} {a : AbsolutePath} (h : t.locate p = .ok a) :
    t.target p = a := by
  unfold locate at h
  split at h
  · exact nomatch h
  · rename_i rest hp
    have ht : t.target p = walk [] (Text.splitAt '/' rest) := by simp only [target, hp]
    rw [ht]
    exact walk_of_follow h
  · rename_i s hempty hroot
    have ht : t.target p = walk t.workDir (Text.splitAt '/' p.text.toList) := by
      unfold target
      split
      · rename_i hp
        exact absurd hp hempty
      · rename_i rest hp
        exact absurd hp (hroot rest)
      · rfl
    rw [ht]
    exact walk_of_follow h

theorem target_congr (h : t'.workDir = t.workDir) (p : Path) : t'.target p = t.target p := by
  unfold target
  rw [h]

theorem read_eq_ok_iff {p : Path} {text : String} :
    t.read p = .ok text ↔ ∃ a, t.locate p = .ok a ∧ t.nodeAt? a = some (.file (some text)) := by
  unfold read node
  cases hl : t.locate p with
  | error e => simp
  | ok a =>
    cases hn : t.nodeAt? a with
    | none => simp [hn]
    | some n =>
      cases n with
      | directory => simp [hn]
      | file text' => cases text' <;> simp [hn]

theorem nodeAt?_target_of_read {p : Path} {text : String} (h : t.read p = .ok text) :
    t.nodeAt? (t.target p) = some (.file (some text)) := by
  obtain ⟨a, hl, hn⟩ := read_eq_ok_iff.1 h
  rwa [target_of_locate hl]

/-- Paths that lead to the same place read the same text. -/
theorem read_eq_of_target_eq {p q : Path} {x y : String} (hx : t.read p = .ok x)
    (hy : t.read q = .ok y) (h : t.target p = t.target q) : x = y := by
  have hnode := nodeAt?_target_of_read hx
  rw [h, nodeAt?_target_of_read hy] at hnode
  simpa using hnode.symm

/-! ### Trees that keep what can be read -/

/-- Directories stay directories, and where there is a text there stays a text. -/
structure Keeps (t t' : FileTree) : Prop where
  workDir : t'.workDir = t.workDir
  directory : ∀ a, t.nodeAt? a = some .directory → t'.nodeAt? a = some .directory
  text : ∀ a, (∃ s, t.nodeAt? a = some (.file (some s))) → ∃ s, t'.nodeAt? a = some (.file (some s))

namespace Keeps

theorem refl (t : FileTree) : Keeps t t := ⟨rfl, fun _ h => h, fun _ h => h⟩

theorem trans (h : Keeps t t') (h' : Keeps t' u) : Keeps t u :=
  ⟨h'.workDir.trans h.workDir, fun a ha => h'.directory a (h.directory a ha),
    fun a ha => h'.text a (h.text a ha)⟩

theorem follow (h : Keeps t t') : ∀ {pieces : List (List Char)} {start a : AbsolutePath},
    t.follow start pieces = .ok a → t'.follow start pieces = .ok a
  | [], start, a, hf => hf
  | piece :: pieces, start, a, hf => by
    unfold FileTree.follow at hf ⊢
    split at hf
    · exact nomatch hf
    · exact nomatch hf
    · rename_i hdir
      rw [h.directory start hdir]
      dsimp only
      split at hf
      · rename_i hidle
        rw [if_pos hidle]
        exact h.follow hf
      · rename_i hidle
        rw [if_neg hidle]
        split at hf
        · rename_i hup
          rw [if_pos hup]
          exact h.follow hf
        · rename_i hup
          rw [if_neg hup]
          exact h.follow hf

/-- **A path leads where it led.** -/
theorem locate (h : Keeps t t') {p : Path} {a : AbsolutePath} (hl : t.locate p = .ok a) :
    t'.locate p = .ok a := by
  unfold FileTree.locate at hl ⊢
  split at hl
  · exact nomatch hl
  · exact h.follow hl
  · rw [h.workDir]
    exact h.follow hl

theorem read (h : Keeps t t') {p : Path} (hr : ∃ s, t.read p = .ok s) : ∃ s, t'.read p = .ok s := by
  obtain ⟨s, hr⟩ := hr
  obtain ⟨a, hl, hn⟩ := read_eq_ok_iff.1 hr
  obtain ⟨s', hn'⟩ := h.text a ⟨s, hn⟩
  exact ⟨s', read_eq_ok_iff.2 ⟨a, h.locate hl, hn'⟩⟩

end Keeps

/-! ### Making directories and writing files -/

/-- Every entry stays as it is, and those that are added are directories. -/
structure Extends (t t' : FileTree) : Prop where
  workDir : t'.workDir = t.workDir
  entry : ∀ a n, t.nodeAt? a = some n → t'.nodeAt? a = some n
  added : ∀ a n, t'.nodeAt? a = some n → t.nodeAt? a = some n ∨ n = .directory

theorem Extends.refl (t : FileTree) : Extends t t := ⟨rfl, fun _ _ h => h, fun _ _ h => .inl h⟩

theorem Extends.trans (h : Extends t t') (h' : Extends t' u) : Extends t u :=
  ⟨h'.workDir.trans h.workDir, fun a n hn => h'.entry a n (h.entry a n hn),
    fun a n hn => (h'.added a n hn).elim (h.added a n) .inr⟩

theorem extends_put {a : AbsolutePath} (h : t.nodeAt? a = none) :
    Extends t (t.put a .directory) := by
  have ha : a ≠ [] := by
    rintro rfl
    rw [nodeAt?_nil] at h
    cases h
  refine ⟨rfl, fun b n hn => ?_, fun b n hn => ?_⟩
  · by_cases hb : b = a
    · rw [hb, h] at hn
      cases hn
    · rwa [nodeAt?_put_ne hb]
  · by_cases hb : b = a
    · rw [hb, nodeAt?_put ha] at hn
      exact .inr (Option.some.inj hn).symm
    · exact .inl (by rwa [nodeAt?_put_ne hb] at hn)

theorem extends_makeDir {p : Path} (h : t.makeDir p = .ok t') : Extends t t' := by
  unfold makeDir at h
  dsimp only at h
  split at h
  · exact nomatch h
  · split at h
    · exact nomatch h
    · rename_i hno
      obtain rfl := Except.ok.inj h
      exact extends_put hno

theorem extends_makeNext (p : Path) {made : FileTree × Option OsFault} (h : Extends t made.1) :
    Extends t (makeNext p made).1 := by
  obtain ⟨u, fault⟩ := made
  unfold makeNext
  cases fault with
  | some e => exact h
  | none =>
    dsimp only
    split
    · rename_i hmade
      exact h.trans (extends_makeDir hmade)
    · exact h

theorem extends_makeUp (t : FileTree) : ∀ up : List Path, Extends t (t.makeUp up).1
  | [] => .refl t
  | p :: above => by
    unfold makeUp
    split
    · exact .refl t
    · split
      · exact extends_makeNext p (extends_makeUp t above)
      · exact extends_makeNext p (.refl t)

theorem extends_makeDirs (t : FileTree) (p : Path) : Extends t (t.makeDirs p).1 :=
  extends_makeUp t _

theorem extends_makeDirOf (t : FileTree) (p : Path) : Extends t (makeDirOf t p).1 := by
  unfold makeDirOf
  split
  · exact .refl t
  · split
    · exact .refl t
    · exact extends_makeDirs t _

/-- A text is put where there is no directory. Every other entry stays as it is, and those that are
added are directories. -/
structure Puts (t t' : FileTree) (a : AbsolutePath) (text : String) : Prop where
  workDir : t'.workDir = t.workDir
  free : t.nodeAt? a ≠ some .directory
  here : t'.nodeAt? a = some (.file (some text))
  entry : ∀ b n, b ≠ a → t.nodeAt? b = some n → t'.nodeAt? b = some n
  added : ∀ b n, b ≠ a → t'.nodeAt? b = some n → t.nodeAt? b = some n ∨ n = .directory

theorem Puts.keeps {a : AbsolutePath} {text : String} (h : Puts t t' a text) : Keeps t t' where
  workDir := h.workDir
  directory b hb := h.entry b _ (fun heq => h.free (heq ▸ hb)) hb
  text b := fun ⟨s, hs⟩ => by
    by_cases hb : b = a
    · exact ⟨text, hb ▸ h.here⟩
    · exact ⟨s, h.entry b _ hb hs⟩

theorem puts_write {p : Path} {text : String} (h : t.write p text = .ok t') :
    ∃ a, t.locate p = .ok a ∧ Puts t t' a text := by
  unfold write at h
  split at h
  · split at h <;> exact nomatch h
  · rename_i a hl
    split at h
    · exact nomatch h
    · rename_i hno
      obtain rfl := Except.ok.inj h
      have ha : a ≠ [] := fun heq => hno (heq ▸ nodeAt?_nil t)
      refine ⟨a, hl, rfl, hno, nodeAt?_put ha t _, fun b n hb hn => ?_, fun b n hb hn => .inl ?_⟩
      · rwa [nodeAt?_put_ne hb]
      · rwa [nodeAt?_put_ne hb] at hn

/-- **A file that is written** has its text, and nothing else is changed. -/
theorem puts_writeOne {f : FilePlan} (h : writeOne t f = (t', none)) :
    Puts t t' (t.target f.path) f.content ∧ t'.read f.path = .ok f.content := by
  have hmade := extends_makeDirOf t f.path
  unfold writeOne at h
  split at h
  · cases h
  · rename_i u hu
    rw [hu] at hmade
    split at h
    · rename_i w hw
      obtain rfl : w = t' := congrArg Prod.fst h
      obtain ⟨a, hl, hputs⟩ := puts_write hw
      have ha : t.target f.path = a := by
        rw [← target_congr hmade.workDir]
        exact target_of_locate hl
      refine ⟨ha ▸ ⟨hputs.workDir.trans hmade.workDir, fun hdir => ?_, hputs.here, ?_, ?_⟩, ?_⟩
      · exact hputs.free (hmade.entry a _ hdir)
      · exact fun b n hb hn => hputs.entry b n hb (hmade.entry b n hn)
      · exact fun b n hb hn => (hputs.added b n hb hn).elim (hmade.added b n) .inr
      · exact read_eq_ok_iff.2 ⟨a, hputs.keeps.locate hl, hputs.here⟩
    · cases h

/-- Carrying a plan out takes nothing away. -/
theorem keeps_writeAll : ∀ {plan : List FilePlan} {t t' : FileTree},
    writeAll t plan = (t', none) → Keeps t t'
  | [], t, t', h => by
    obtain rfl : t = t' := congrArg Prod.fst h
    exact .refl t
  | f :: fs, t, t', h => by
    unfold writeAll at h
    split at h
    · split at h
      · cases h
      · rename_i u hu
        exact (puts_writeOne hu).1.keeps.trans (keeps_writeAll h)
    · exact keeps_writeAll h

/-- Every file of a plan that is carried out can be read. -/
theorem exists_read_writeAll : ∀ {plan : List FilePlan} {t t' : FileTree},
    writeAll t plan = (t', none) →
    (∀ f ∈ plan, f.status.isWritten = true ∨ ∃ text, t.read f.path = .ok text) →
    ∀ f ∈ plan, ∃ text, t'.read f.path = .ok text
  | [], _, _, _, _, f, hf => absurd hf List.not_mem_nil
  | f :: fs, t, t', h, hread, g, hg => by
    have hkeeps := keeps_writeAll h
    unfold writeAll at h
    split at h
    · split at h
      · cases h
      · rename_i u hu
        obtain ⟨hputs, hr⟩ := puts_writeOne hu
        rcases List.mem_cons.1 hg with rfl | hg
        · exact (keeps_writeAll h).read ⟨_, hr⟩
        · exact exists_read_writeAll h (fun g hg =>
            (hread g (List.mem_cons_of_mem _ hg)).imp_right hputs.keeps.read) g hg
    · rename_i hno
      rcases List.mem_cons.1 hg with rfl | hg
      · exact hkeeps.read ((hread _ List.mem_cons_self).resolve_left hno)
      · exact exists_read_writeAll h (fun g hg => hread g (List.mem_cons_of_mem _ hg)) g hg

/-- **What is in a place** after a plan is carried out is the text of a file of the plan that leads
there, or what was there if none is written there. -/
theorem text_writeAll {P : String → Prop} {a : AbsolutePath} : ∀ {plan : List FilePlan}
    {t t' : FileTree}, writeAll t plan = (t', none) →
    (∀ f ∈ plan, t.target f.path = a → P f.content) →
    ((∃ f ∈ plan, f.status.isWritten = true ∧ t.target f.path = a) ∨
      ∀ s, t.nodeAt? a = some (.file (some s)) → P s) →
    ∀ s, t'.nodeAt? a = some (.file (some s)) → P s
  | [], t, t', h, _, hor => by
    obtain rfl : t = t' := congrArg Prod.fst h
    exact hor.resolve_left fun ⟨f, hf, _⟩ => absurd hf List.not_mem_nil
  | f :: fs, t, t', h, hall, hor => by
    unfold writeAll at h
    split at h
    · split at h
      · cases h
      · rename_i u hu
        obtain ⟨hputs, -⟩ := puts_writeOne hu
        have htarget : ∀ p, u.target p = t.target p := target_congr hputs.workDir
        refine text_writeAll h (fun g hg => ?_) ?_
        · rw [htarget]
          exact hall g (List.mem_cons_of_mem _ hg)
        · simp only [htarget]
          by_cases ha : t.target f.path = a
          · -- the text of this file is there now
            refine .inr fun s hs => ?_
            rw [← ha, hputs.here] at hs
            obtain rfl : f.content = s := by simpa using hs
            exact hall f List.mem_cons_self ha
          · refine hor.imp ?_ fun hold s hs => ?_
            · rintro ⟨g, hg, hwritten, hga⟩
              rcases List.mem_cons.1 hg with rfl | hg
              · exact absurd hga ha
              · exact ⟨g, hg, hwritten, hga⟩
            · exact hold s ((hputs.added a _ (Ne.symm ha) hs).resolve_right nofun)
    · rename_i hno
      refine text_writeAll h (fun g hg => hall g (List.mem_cons_of_mem _ hg)) (hor.imp_left ?_)
      rintro ⟨g, hg, hwritten, hga⟩
      rcases List.mem_cons.1 hg with rfl | hg
      · exact absurd hwritten hno
      · exact ⟨g, hg, hwritten, hga⟩

end FileTree

end GoSchema
