/-
# The characters of patterns

A pattern is read from left to right, and what the next character stands for may depend on what
follows it: a star is one of two, an opening bracket goes on to the next closing one. Here is each
of these steps as an equation with its condition, so that a pattern can be read in part.

Key theorems: `bracketed_append`, `compileFrom_run`, `compileFrom_stars`, `compileFrom_except`,
`compileFrom_among`, `compileFrom_char`.
-/
import Mathlib.Data.List.TakeWhile
import GoSchema.Pattern

namespace GoSchema

theorem Text.dropWhile_ne_eq_nil {c : Char} {s : List Char} (h : c ∉ s) :
    s.dropWhile (· ≠ c) = [] := by
  refine List.dropWhile_eq_nil_iff.2 fun d hd => ?_
  have hne : d ≠ c := fun heq => h (heq ▸ hd)
  simpa using hne

namespace Pattern

theorem bracketed_eq_none {s : List Char} (h : ']' ∉ s.tail) : bracketed s = none := by
  cases s with
  | nil => rfl
  | cons a rest =>
    unfold bracketed
    split
    · rfl
    · rename_i hs
      obtain ⟨rfl, rfl⟩ := List.cons.inj hs
      rw [List.tail_cons] at h
      rw [Text.dropWhile_ne_eq_nil h]

theorem bracketed_eq_some {a : Char} {set : List Char} (h : ']' ∉ set) (left : List Char) :
    bracketed (a :: set ++ ']' :: left) = some (a :: set, left) := by
  have hset : ∀ c ∈ set, decide (c ≠ ']') = true := fun c hc => by
    have hne : c ≠ ']' := fun heq => h (heq ▸ hc)
    simpa using hne
  simp only [bracketed, List.cons_append, List.dropWhile_append_of_pos hset,
    List.takeWhile_append_of_pos hset]
  simp

/-- What is put behind a text without a closing bracket is left over. -/
theorem bracketed_append {t : List Char} (ht : ']' ∉ t) (s : List Char) :
    bracketed (s ++ t) = (bracketed s).map fun r => (r.1, r.2 ++ t) := by
  cases s with
  | nil =>
    rw [List.nil_append, bracketed_eq_none fun h => ht (List.mem_of_mem_tail h)]
    rfl
  | cons a rest =>
    by_cases hrest : ']' ∈ rest
    · obtain ⟨set, left, rfl, hset⟩ := List.eq_append_cons_of_mem hrest
      have hmore := bracketed_eq_some (a := a) hset (left ++ t)
      have hsplit : a :: (set ++ ']' :: left) ++ t = a :: set ++ ']' :: (left ++ t) := by simp
      rw [hsplit, hmore, ← List.cons_append, bracketed_eq_some hset]
      rfl
    · rw [bracketed_eq_none (s := a :: rest) hrest,
        bracketed_eq_none (by simpa using not_or.2 ⟨hrest, ht⟩)]
      rfl

/-! ### The next character of a pattern -/

variable {pos : Nat} {prev : Option Char} {done : List Part}

theorem compileFrom_run {u : List Char} (h : u.head? ≠ some '*') :
    compileFrom pos prev done ('*' :: u) =
      compileFrom (pos + 1) (some '*') (done ++ [.run]) u := by
  rw [compileFrom]
  · rintro tail rfl
    exact h rfl
  · rintro tail rfl
    exact h rfl

theorem compileFrom_except (u : List Char) : compileFrom pos prev done ('[' :: '!' :: u) =
    match bracketed u with
    | none => .error ⟨pos, .openRange⟩
    | some (set, left) =>
      compileFrom (pos + set.length + 3) (some ']') (done ++ [.except (ranges set)]) left := by
  rw [compileFrom]
  split <;> rename_i h <;> rw [h]

theorem compileFrom_among {u : List Char} (h : u.head? ≠ some '!') :
    compileFrom pos prev done ('[' :: u) =
    match bracketed u with
    | none => .error ⟨pos, .openRange⟩
    | some (set, left) =>
      compileFrom (pos + set.length + 2) (some ']') (done ++ [.among (ranges set)]) left := by
  rw [compileFrom]
  · split <;> rename_i h <;> rw [h]
  · rintro tail rfl
    exact h rfl

theorem compileFrom_stars {c : Char} (hc : c ≠ '*') (u : List Char) :
    compileFrom pos prev done ('*' :: '*' :: c :: u) =
      if prev.isNone || prev = some '/' then
        if c = '/' then compileFrom (pos + 3) (some '/') (withDeep done) u
        else .error ⟨pos + 2, .starsInName⟩
      else .error ⟨pos - 1, .starsInName⟩ := by
  rw [compileFrom]
  intro tail h
  exact hc (List.cons.inj h).1

theorem compileFrom_char {c : Char} (hc : c ≠ '?' ∧ c ≠ '*' ∧ c ≠ '[') (u : List Char) :
    compileFrom pos prev done (c :: u) = compileFrom (pos + 1) (some c) (done ++ [.char c]) u := by
  rw [compileFrom] <;> intros <;> simp_all

end Pattern

end GoSchema
