/-
# Steps of paths

The pieces between the slashes of a path are its steps, apart from idle ones. So the components of a
path are the component at its start, which is the root or a dot, and its steps; a path that is
joined to another one adds its steps to it, and the parent of a path lacks its last component. A
path lies below another one when it goes on from it by names only.

Key definitions: `Path.steps`, `Path.EndsInStep`, `Path.Below`.
Key theorems: `splitAt_append`, `splitAt_joinWith`, `components_eq`, `components_join`,
`components_of_parent?`, `exists_parent?`, `below_iff`.
-/
import Mathlib.Data.List.TakeWhile
import Mathlib.Data.Set.List
import GoSchema.Path

namespace GoSchema

namespace Text

variable {sep : Char}

/-- The pieces of two texts with the separator between them. -/
theorem splitAt_append (s t : List Char) :
    splitAt sep (s ++ sep :: t) = splitAt sep s ++ splitAt sep t := by
  induction s with
  | nil => simp [splitAt]
  | cons c s ih =>
    by_cases hc : c = sep
    · simp [splitAt, hc, ih]
    · obtain ⟨piece, pieces, hs⟩ := List.exists_cons_of_ne_nil (splitAt_ne_nil sep s)
      simp [splitAt, hc, ih, hs]

theorem splitAt_of_not_mem {s : List Char} (h : sep ∉ s) : splitAt sep s = [s] := by
  induction s with
  | nil => rfl
  | cons c s ih =>
    have hc : c ≠ sep := fun hc => h (hc ▸ List.mem_cons_self)
    have hs : sep ∉ s := fun hs => h (List.mem_cons_of_mem _ hs)
    simp [splitAt, hc, ih hs]

theorem not_mem_of_mem_splitAt {s piece : List Char} (h : piece ∈ splitAt sep s) : sep ∉ piece := by
  induction s generalizing piece with
  | nil =>
    obtain rfl : piece = [] := by simpa [splitAt] using h
    exact List.not_mem_nil
  | cons c s ih =>
    obtain ⟨first, more, hs⟩ := List.exists_cons_of_ne_nil (splitAt_ne_nil sep s)
    by_cases hc : c = sep
    · rw [splitAt, if_pos hc, List.mem_cons] at h
      rcases h with rfl | h
      · exact List.not_mem_nil
      · exact ih h
    · rw [splitAt, if_neg hc, hs] at h
      rcases List.mem_cons.1 h with rfl | h
      · have hfirst : sep ∉ first := ih (hs ▸ List.mem_cons_self)
        simp [hfirst, Ne.symm hc]
      · exact ih (hs ▸ List.mem_cons_of_mem _ h)

/-- Pieces without the separator are what is cut again after joining. -/
theorem splitAt_joinWith : ∀ {pieces : List (List Char)}, pieces ≠ [] →
    (∀ piece ∈ pieces, sep ∉ piece) → splitAt sep (joinWith [sep] pieces) = pieces
  | [], h, _ => absurd rfl h
  | [piece], _, h => splitAt_of_not_mem (h piece List.mem_cons_self)
  | piece :: next :: pieces, _, h => by
    obtain ⟨hpiece, hrest⟩ := List.forall_mem_cons.1 h
    have ih := splitAt_joinWith (List.cons_ne_nil next pieces) hrest
    rw [joinWith, List.append_assoc, List.singleton_append, splitAt_append, ih,
      splitAt_of_not_mem hpiece, List.singleton_append]

theorem joinWith_append : ∀ {as bs : List (List Char)}, as ≠ [] → bs ≠ [] →
    joinWith [sep] (as ++ bs) = joinWith [sep] as ++ sep :: joinWith [sep] bs
  | [], _, h, _ => absurd rfl h
  | [a], [], _, h => absurd rfl h
  | [a], b :: bs, _, _ => by simp [joinWith]
  | a :: next :: as, bs, _, h => by
    have ih := joinWith_append (List.cons_ne_nil next as) h
    rw [List.cons_append, List.cons_append, joinWith, ← List.cons_append, ih]
    simp [joinWith]

end Text

namespace Path

open Text

/-! ### Steps -/

/-- The steps that a text stands for: its pieces between slashes, without idle ones. -/
def steps (s : List Char) : List Component := (splitAt '/' s).filterMap component?

@[simp] theorem component?_nil : component? [] = none := rfl

@[simp] theorem component?_dot : component? ['.'] = none := rfl

theorem component?_eq_none_iff {piece : List Char} :
    component? piece = none ↔ isIdle piece = true := by
  unfold component?
  split
  · simp_all
  · split <;> simp_all

theorem component?_cases {piece : List Char} {c : Component} (h : component? piece = some c) :
    c = .up ∧ piece = ['.', '.'] ∨ c = .name (String.ofList piece) ∧ piece ≠ ['.', '.'] := by
  unfold component? at h
  split at h
  · cases h
  · split at h
    · exact .inl ⟨(Option.some.inj h).symm, by assumption⟩
    · exact .inr ⟨(Option.some.inj h).symm, by assumption⟩

@[simp] theorem steps_nil : steps [] = [] := rfl

theorem steps_append (s t : List Char) : steps (s ++ '/' :: t) = steps s ++ steps t := by
  rw [steps, splitAt_append, List.filterMap_append, steps, steps]

@[simp] theorem steps_slash (s : List Char) : steps ('/' :: s) = steps s := steps_append [] s

@[simp] theorem steps_dot_slash (s : List Char) : steps ('.' :: '/' :: s) = steps s :=
  steps_append ['.'] s

theorem eq_of_mem_steps {s : List Char} {c : Component} (h : c ∈ steps s) :
    c = .up ∨ ∃ n, c = .name n := by
  obtain ⟨piece, -, hpiece⟩ := List.mem_filterMap.1 h
  rcases component?_cases hpiece with ⟨hc, -⟩ | ⟨hc, -⟩
  · exact .inl hc
  · exact .inr ⟨_, hc⟩

theorem length_steps_le (s : List Char) : (steps s).length ≤ s.length := by
  -- a piece counts only if it has a character
  have hcount : ((splitAt '/' s).filter (· ≠ [])).length ≤ s.length := by
    induction s with
    | nil => simp [splitAt]
    | cons c s ih =>
      obtain ⟨piece, pieces, hs⟩ := List.exists_cons_of_ne_nil (splitAt_ne_nil '/' s)
      by_cases hc : c = '/'
      · have hsame : (splitAt '/' (c :: s)).filter (· ≠ []) = (splitAt '/' s).filter (· ≠ []) := by
          simp [splitAt, hc]
        rw [hsame, List.length_cons]
        omega
      · rw [hs] at ih
        have hlen : ((splitAt '/' (c :: s)).filter (· ≠ [])).length ≤
            ((piece :: pieces).filter (· ≠ [])).length + 1 := by
          by_cases hp : piece = [] <;> simp [splitAt, hc, hs, hp]
        rw [List.length_cons]
        omega
  refine Nat.le_trans ?_ hcount
  have hsteps : steps s = ((splitAt '/' s).filter (· ≠ [])).filterMap component? := by
    rw [steps, List.filterMap_filter]
    congr 1
    funext piece
    by_cases hp : piece = [] <;> simp [hp]
  rw [hsteps]
  exact List.length_filterMap_le _ _

/-! ### Components -/

/-- The root or the dot at the start of a path. -/
def lead (p : Path) : Option Component := (head p.text.toList).1

/-- The forms of a path: it starts at the root, is a dot, starts with a dot, or has no such start. -/
theorem head_cases (s : List Char) :
    (∃ rest, s = '/' :: rest ∧ head s = (some .root, rest)) ∨
    (s = ['.'] ∧ head s = (some .here, [])) ∨
    (∃ rest, s = '.' :: '/' :: rest ∧ head s = (some .here, '/' :: rest)) ∨
    (s.head? ≠ some '/' ∧ s ≠ ['.'] ∧ head s = (none, s)) := by
  unfold head
  split
  · exact .inl ⟨_, rfl, rfl⟩
  · exact .inr (.inl ⟨rfl, rfl⟩)
  · exact .inr (.inr (.inl ⟨_, rfl, rfl⟩))
  · rename_i hroot hdot _
    refine .inr (.inr (.inr ⟨fun h => ?_, hdot, rfl⟩))
    obtain ⟨rest, hs⟩ := List.head?_eq_some_iff.1 h
    exact hroot rest hs

theorem steps_head (s : List Char) : steps (head s).2 = steps s := by
  rcases head_cases s with ⟨rest, rfl, h⟩ | ⟨rfl, h⟩ | ⟨rest, rfl, h⟩ | ⟨-, -, h⟩
  · rw [h, steps_slash]
  · rw [h]
    rfl
  · rw [h, steps_slash, steps_dot_slash]
  · rw [h]

/-- **The components of a path** are what it starts with and its steps. -/
theorem components_eq (p : Path) : p.components = p.lead.toList ++ steps p.text.toList := by
  rw [← steps_head]
  rfl

theorem length_components_le (p : Path) : p.components.length ≤ p.text.length := by
  rw [components_eq, ← steps_head, lead, List.length_append, ← String.length_toList]
  have hle := length_steps_le (head p.text.toList).2
  rcases head_cases p.text.toList with ⟨rest, hs, h⟩ | ⟨hs, h⟩ | ⟨rest, hs, h⟩ | ⟨-, -, h⟩
  · rw [h] at hle ⊢
    simp only [hs, Option.toList_some, List.length_cons, List.length_nil] at hle ⊢
    omega
  · rw [h] at hle ⊢
    simp [hs] at hle ⊢
  · rw [h] at hle ⊢
    simp only [hs, Option.toList_some, steps_slash, List.length_cons, List.length_nil] at hle ⊢
    have hrest := length_steps_le rest
    omega
  · rw [h] at hle ⊢
    simpa using hle

theorem lead_eq_root_iff {p : Path} : p.lead = some .root ↔ p.isAbsolute = true := by
  unfold lead isAbsolute
  rcases head_cases p.text.toList with ⟨rest, hs, h⟩ | ⟨hs, h⟩ | ⟨rest, hs, h⟩ | ⟨hs, -, h⟩
  · simp [h, hs ▸ List.head?_cons]
  · simp [h, hs ▸ List.head?_cons]
  · simp [h, hs ▸ List.head?_cons]
  · simp [h, hs]

theorem components_root : (Path.mk "/").components = [.root] := by decide

theorem components_dot : (Path.mk ".").components = [.here] := by decide

theorem components_empty : (Path.mk "").components = [] := by decide

theorem eq_empty {p : Path} (h : p.text = "") : p = ⟨""⟩ := by
  obtain ⟨text⟩ := p
  rw [show text = "" from h]

theorem head_append {s : List Char} (hs : s ≠ []) (t : List Char) :
    (head (s ++ '/' :: t)).1 = (head s).1 := by
  rcases head_cases s with ⟨rest, rfl, h⟩ | ⟨rfl, h⟩ | ⟨rest, rfl, h⟩ | ⟨hroot, hdot, h⟩
  · rw [h]
    rfl
  · rw [h]
    rfl
  · rw [h]
    rfl
  · obtain ⟨c, more, rfl⟩ := List.exists_cons_of_ne_nil hs
    rw [h]
    rcases head_cases (c :: more ++ '/' :: t) with ⟨rest, hs, -⟩ | ⟨hs, -⟩ | ⟨rest, hs, h'⟩ | ⟨-, -, h'⟩
    · simp_all
    · simp_all
    · -- then the path itself was a dot, or a dot and a slash
      cases more with
      | nil => simp_all
      | cons d more =>
        obtain ⟨rfl, rfl, -⟩ : c = '.' ∧ d = '/' ∧ more ++ '/' :: t = rest := by simpa using hs
        cases h
    · rw [h']

theorem components_append {p q : Path} {s : List Char} (hp : p.text.toList ≠ [])
    (h : q.text.toList = p.text.toList ++ '/' :: s) : q.components = p.components ++ steps s := by
  rw [components_eq, components_eq, lead, lead, h, head_append hp, steps_append, List.append_assoc]

/-- A relative path that is joined to a path adds its steps. -/
theorem components_join {p q : Path} (hp : p.text ≠ "") (hq : q.isAbsolute = false) :
    (p.join q).components = p.components ++ steps q.text.toList := by
  have hne : p.text.toList ≠ [] := by simpa using hp
  unfold join
  rw [if_neg (by simp [hq])]
  split
  · rename_i h
    exact absurd (List.getLast?_eq_none_iff.1 h) hne
  · rename_i h
    obtain ⟨s, hs⟩ := List.getLast?_eq_some_iff.1 h
    cases s with
    | nil =>
      -- the root has no slash at its end that could be left out
      obtain rfl : p = ⟨"/"⟩ := by
        obtain ⟨text⟩ := p
        rw [Path.mk.injEq, ← String.toList_inj, hs]
        rfl
      rw [components_root]
      simp [components_eq, lead, head]
    | cons c s =>
      have hshort : (Path.mk (String.ofList (c :: s))).text.toList ≠ [] := by simp
      rw [components_append (p := ⟨String.ofList (c :: s)⟩) (s := q.text.toList) hshort (by simp [hs]),
        components_append (p := ⟨String.ofList (c :: s)⟩) (q := p) (s := []) hshort (by simp [hs]),
        steps_nil, List.append_nil]
  · exact components_append hne (by simp)

theorem join_empty {p q : Path} (hp : p.text = "") : p.join q = q := by
  unfold join
  simp [hp]

theorem join_absolute {p q : Path} (hq : q.isAbsolute = true) : p.join q = q := by
  unfold join
  rw [if_pos hq]

/-! ### Parents -/

/-- The step that a path ends in; none if a slash or a dot stands at its end. -/
def lastStep? (p : Path) : Option Component :=
  (splitAt '/' p.text.toList).getLast?.bind component?

/-- Whether no slash and no lone dot stands at the end of a path. -/
def EndsInStep (p : Path) : Prop := p.lastStep?.isSome = true

instance (p : Path) : Decidable p.EndsInStep := inferInstanceAs (Decidable (_ = _))

/-- Whether nothing idle stands at the end of a path that may be the root, a dot or empty. -/
def IsBare (p : Path) : Prop := p.text = "" ∨ p.text = "/" ∨ p.text = "." ∨ p.EndsInStep

theorem exists_last_of_endsInStep {p : Path} (h : p.EndsInStep) :
    ∃ pieces piece c, splitAt '/' p.text.toList = pieces ++ [piece] ∧ component? piece = some c := by
  obtain ⟨c, hc⟩ := Option.isSome_iff_exists.1 h
  obtain ⟨piece, hlast, hpiece⟩ := Option.bind_eq_some_iff.1 hc
  obtain ⟨pieces, hpieces⟩ := List.getLast?_eq_some_iff.1 hlast
  exact ⟨pieces, piece, c, hpieces, hpiece⟩

theorem endsInStep_of_last {p : Path} (pieces : List (List Char)) {piece : List Char}
    {c : Component} (h : splitAt '/' p.text.toList = pieces ++ [piece]) (hc : component? piece = some c) :
    p.EndsInStep := by
  simp [EndsInStep, lastStep?, h, hc]

theorem text_ne_nil_of_endsInStep {p : Path} (h : p.EndsInStep) : p.text.toList ≠ [] := by
  intro hnil
  simp [EndsInStep, lastStep?, hnil, splitAt] at h

theorem text_ne_of_endsInStep {p : Path} (h : p.EndsInStep) : p.text ≠ "" := by
  simpa using text_ne_nil_of_endsInStep h

theorem getLast?_of_endsInStep {p : Path} (h : p.EndsInStep) :
    p.text.toList.getLast? ≠ some '/' := by
  intro hslash
  obtain ⟨s, hs⟩ := List.getLast?_eq_some_iff.1 hslash
  simp [EndsInStep, lastStep?, hs, splitAt_append, splitAt] at h

/-- Pieces in front of the last one that is a step. -/
theorem exists_last_step {pieces before : List (List Char)} {piece : List Char}
    (h : pieces.reverse.dropWhile isIdle = piece :: before) :
    ∃ c idle, pieces = before.reverse ++ piece :: idle ∧ component? piece = some c ∧
      idle.filterMap component? = [] := by
  have hidle : ((pieces.reverse.takeWhile isIdle).reverse).filterMap component? = [] := by
    rw [List.filterMap_eq_nil_iff]
    intro a ha
    exact component?_eq_none_iff.2 (List.mem_takeWhile_imp (List.mem_reverse.1 ha))
  have hpiece : isIdle piece = false := by
    have hne : pieces.reverse.dropWhile isIdle ≠ [] := h ▸ List.cons_ne_nil _ _
    have hhead := List.head_dropWhile_not isIdle hne
    simpa [h] using hhead
  obtain ⟨c, hc⟩ : ∃ c, component? piece = some c := by
    rw [← Option.isSome_iff_exists, Option.isSome_iff_ne_none, ne_eq, component?_eq_none_iff]
    simp [hpiece]
  refine ⟨c, (pieces.reverse.takeWhile isIdle).reverse, ?_, hc, hidle⟩
  have hsplit : pieces.reverse.takeWhile isIdle ++ piece :: before = pieces.reverse := by
    rw [← h, List.takeWhile_append_dropWhile]
  have hrev := congrArg List.reverse hsplit
  simpa using hrev.symm

theorem exists_kept {pieces before : List (List Char)} {piece : List Char}
    (h : pieces.reverse.dropWhile isIdle = piece :: before) :
    ∃ c tail, pieces = (before.dropWhile isIdle).reverse ++ tail ∧ tail ≠ [] ∧
      tail.filterMap component? = [c] := by
  obtain ⟨c, idle, hsplit, hc, hidle⟩ := exists_last_step h
  have hbefore : before = before.takeWhile isIdle ++ before.dropWhile isIdle :=
    List.takeWhile_append_dropWhile.symm
  have hmore : ((before.takeWhile isIdle).reverse).filterMap component? = [] := by
    rw [List.filterMap_eq_nil_iff]
    intro a ha
    exact component?_eq_none_iff.2 (List.mem_takeWhile_imp (List.mem_reverse.1 ha))
  refine ⟨c, (before.takeWhile isIdle).reverse ++ piece :: idle, ?_, by simp, ?_⟩
  · rw [hsplit, ← List.append_assoc, ← List.reverse_append, ← hbefore]
  · rw [List.filterMap_append, hmore, List.nil_append, List.filterMap_cons_some hc, hidle]

/-- What is kept for the parent ends in a step, unless it is empty. -/
theorem kept_cases (before : List (List Char)) : (before.dropWhile isIdle).reverse = [] ∨
    ∃ kept piece c, (before.dropWhile isIdle).reverse = kept ++ [piece] ∧
      component? piece = some c := by
  cases h : before.dropWhile isIdle with
  | nil => exact .inl rfl
  | cons piece more =>
    have hrev : before.reverse.reverse.dropWhile isIdle = piece :: more := by simpa using h
    obtain ⟨c, -, -, hc, -⟩ := exists_last_step hrev
    exact .inr ⟨more.reverse, piece, c, by simp, hc⟩

/-- A start and what follows it are the text of the path. -/
theorem start_append_rest (s : List Char) :
    (((head s).1.map Component.text).getD "").toList ++ (head s).2 = s := by
  rcases head_cases s with ⟨rest, hs, h⟩ | ⟨hs, h⟩ | ⟨rest, hs, h⟩ | ⟨-, -, h⟩
  · simp [h, ← hs, Component.text]
  · simp [h, ← hs, Component.text]
  · simp [h, ← hs, Component.text]
  · simp [h]

theorem components_start (s : List Char) :
    (Path.mk (((head s).1.map Component.text).getD "")).components = (head s).1.toList ∧
      (Path.mk (((head s).1.map Component.text).getD "")).IsBare := by
  rcases head_cases s with ⟨rest, -, h⟩ | ⟨-, h⟩ | ⟨rest, -, h⟩ | ⟨-, -, h⟩
  · rw [h]
    exact ⟨components_root, .inr (.inl rfl)⟩
  · rw [h]
    exact ⟨components_dot, .inr (.inr (.inl rfl))⟩
  · rw [h]
    exact ⟨components_dot, .inr (.inr (.inl rfl))⟩
  · rw [h]
    exact ⟨components_empty, .inl rfl⟩

/-- A text whose last piece is a step ends in it, also after a start. -/
theorem endsInStep_start (s : List Char) {pieces : List (List Char)} {piece : List Char}
    {c : Component} {tail : List (List Char)} (hsplit : splitAt '/' (head s).2 = pieces ++ [piece] ++ tail)
    (htail : tail ≠ []) (hc : component? piece = some c) :
    (Path.mk (((head s).1.map Component.text).getD "" ++
      String.ofList (joinWith ['/'] (pieces ++ [piece])))).EndsInStep := by
  have hslash : ∀ a ∈ pieces ++ [piece], '/' ∉ a := by
    intro a ha
    refine not_mem_of_mem_splitAt (s := (head s).2) ?_
    rw [hsplit]
    exact List.mem_append_left _ ha
  have hjoin := splitAt_joinWith (by simp) hslash
  rcases head_cases s with ⟨rest, -, h⟩ | ⟨-, h⟩ | ⟨rest, -, h⟩ | ⟨-, -, h⟩
  · refine endsInStep_of_last ([] :: pieces) ?_ hc
    simp only [h, Option.map_some, Option.getD_some, Component.text, String.toList_append,
      String.toList_ofList]
    have happ : splitAt '/' ('/' :: joinWith ['/'] (pieces ++ [piece])) =
        [[]] ++ splitAt '/' (joinWith ['/'] (pieces ++ [piece])) := splitAt_append [] _
    rw [hjoin] at happ
    exact happ
  · -- a dot has nothing behind it
    rw [h] at hsplit
    have hlen := congrArg List.length hsplit
    have htail := List.length_pos_iff.2 htail
    simp [splitAt] at hlen
    omega
  · -- the first piece is what stands between the dot and the slash
    rw [h] at hsplit
    cases pieces with
    | nil =>
      obtain ⟨rfl, -⟩ : [] = piece ∧ _ := by simpa [splitAt] using hsplit
      cases hc
    | cons first pieces =>
      obtain ⟨rfl, -⟩ : [] = first ∧ _ := by simpa [splitAt] using hsplit
      have hjoin' : splitAt '/' (joinWith ['/'] (pieces ++ [piece])) = pieces ++ [piece] :=
        splitAt_joinWith (by simp) fun a ha => hslash a (List.mem_cons_of_mem _ ha)
      refine endsInStep_of_last (['.'] :: pieces) ?_ hc
      have happ : splitAt '/' ('.' :: '/' :: joinWith ['/'] (pieces ++ [piece])) =
          [['.']] ++ splitAt '/' (joinWith ['/'] (pieces ++ [piece])) := splitAt_append ['.'] _
      have hslashed : joinWith ['/'] ([] :: (pieces ++ [piece])) =
          '/' :: joinWith ['/'] (pieces ++ [piece]) :=
        joinWith_append (List.cons_ne_nil [] []) (by simp)
      rw [hjoin'] at happ
      simpa [h, Component.text, hslashed] using happ
  · refine endsInStep_of_last pieces ?_ hc
    simp [h, hjoin]

/-- **The parent of a path** has its components but the last. -/
theorem components_of_parent? {p q : Path} (h : p.parent? = some q) :
    ∃ c, p.components = q.components ++ [c] ∧ q.IsBare := by
  unfold parent? at h
  dsimp only at h
  split at h
  · rename_i piece before hpieces
    obtain rfl := Option.some.inj h
    obtain ⟨c, tail, hsplit, hne, htail⟩ := exists_kept hpieces
    refine ⟨c, ?_⟩
    rcases kept_cases before with hkept | ⟨kept, last, d, hkept, hd⟩
    · -- only the start is left
      rw [hkept, List.nil_append] at hsplit
      have hsteps : steps p.text.toList = [c] := by
        rw [← steps_head, steps, hsplit, htail]
      have hstart := components_start p.text.toList
      rw [hkept, joinWith, String.ofList_nil, String.append_empty]
      exact ⟨by rw [hstart.1, components_eq, hsteps, lead], hstart.2⟩
    · rw [hkept] at hsplit ⊢
      refine ⟨?_, .inr (.inr (.inr (endsInStep_start _ hsplit hne hd)))⟩
      have hrest := joinWith_splitAt '/' (head p.text.toList).2
      rw [hsplit, joinWith_append (by simp) hne] at hrest
      have htext : p.text.toList = (((head p.text.toList).1.map Component.text).getD "" ++
          String.ofList (joinWith ['/'] (kept ++ [last]))).toList ++ '/' :: joinWith ['/'] tail := by
        have hstart := start_append_rest p.text.toList
        rw [← hrest] at hstart
        simpa using hstart.symm
      have hslash : ∀ a ∈ tail, '/' ∉ a := fun a ha =>
        not_mem_of_mem_splitAt (hsplit ▸ List.mem_append_right _ ha)
      have hsteps : steps (joinWith ['/'] tail) = [c] := by
        rw [steps, splitAt_joinWith hne hslash, htail]
      have hfull := text_ne_nil_of_endsInStep (endsInStep_start _ hsplit hne hd)
      rw [components_append hfull htext, hsteps]
  · rename_i hpieces
    split at h
    · rename_i hhere
      obtain rfl := Option.some.inj h
      have hsteps : steps p.text.toList = [] := by
        rw [← steps_head, steps, List.filterMap_eq_nil_iff]
        intro piece hpiece
        rw [component?_eq_none_iff]
        exact List.dropWhile_eq_nil_iff.1 hpieces piece (List.mem_reverse.2 hpiece)
      refine ⟨.here, ?_, .inl rfl⟩
      rw [components_eq, hsteps, lead, hhere]
      rfl
    · cases h

theorem exists_parent?_of_mem_steps {p : Path} {c : Component} (h : c ∈ steps p.text.toList) :
    ∃ q, p.parent? = some q := by
  rw [← steps_head] at h
  unfold parent?
  dsimp only
  split
  · exact ⟨_, rfl⟩
  · rename_i hidle
    obtain ⟨piece, hpiece, hc⟩ := List.mem_filterMap.1 h
    have hno := List.dropWhile_eq_nil_iff.1 hidle piece (List.mem_reverse.2 hpiece)
    rw [component?_eq_none_iff.2 hno] at hc
    cases hc

theorem exists_parent? {p : Path} (h : p.EndsInStep) : ∃ q, p.parent? = some q := by
  obtain ⟨pieces, piece, c, hpieces, hc⟩ := exists_last_of_endsInStep h
  refine exists_parent?_of_mem_steps (c := c) ?_
  rw [steps, hpieces]
  exact List.mem_filterMap.2 ⟨piece, by simp, hc⟩

theorem components_of_parent?_eq_none {p : Path} (h : p.parent? = none) :
    p.components = p.lead.toList := by
  rw [components_eq]
  cases hs : steps p.text.toList with
  | nil => exact List.append_nil _
  | cons c cs =>
    obtain ⟨q, hq⟩ := exists_parent?_of_mem_steps (hs ▸ List.mem_cons_self)
    rw [h] at hq
    cases hq

/-- Whether a path goes on from another one by names only. -/
def Below (base p : Path) : Prop :=
  ∃ names : List String, p.components = base.components ++ names.map .name

/-- Steps are names exactly when none of them goes up. -/
theorem exists_names_iff {cs : List Component} (h : ∀ c ∈ cs, c = .up ∨ ∃ n, c = .name n) :
    (∃ names : List String, names.map .name = cs) ↔ .up ∉ cs := by
  have hrange : (∃ names : List String, names.map .name = cs) ↔
      ∀ c ∈ cs, c ∈ Set.range Component.name := by
    rw [← Set.mem_range, Set.range_list_map]
    rfl
  rw [hrange]
  constructor
  · intro hall hup
    obtain ⟨n, hn⟩ := hall _ hup
    cases hn
  · intro hup c hc
    rcases h c hc with rfl | ⟨n, rfl⟩
    · exact absurd hc hup
    · exact ⟨n, rfl⟩

/-- A path that goes on by steps is below where it goes on from exactly when none of them goes up. -/
theorem below_iff {base p : Path} {cs : List Component}
    (hp : p.components = base.components ++ cs) (h : ∀ c ∈ cs, c = .up ∨ ∃ n, c = .name n) :
    Below base p ↔ .up ∉ cs := by
  rw [← exists_names_iff h, Below, hp]
  simp only [List.append_cancel_left_eq, eq_comm]

end Path

end GoSchema
