/-
# Rows of texts

Where a text ends in a line feed, what follows it starts a new row, so the rows of the whole are the
rows of both. All rows but the last end in a line feed, and a row is its own only row. Blanks at the
ends of a row do not matter to what is left after trimming.

Key definitions: `Ended`.
Key theorems: `rows_append`, `rows_of_mem`, `ended_of_mem_dropLast`, `trim_append_blank`,
`trim_trim`, `joinWith_cons`.
-/
import Mathlib.Data.List.DropRight
import GoSchema.Text

namespace GoSchema.Text

open Unicode

theorem trimEnd_append_blank {c : Char} (hc : isBlank c = true) (s : List Char) :
    trimEnd (s ++ [c]) = trimEnd s := by
  simp [trimEnd, hc]

/-- A blank at the end does not matter. -/
theorem trim_append_blank {c : Char} (hc : isBlank c = true) (s : List Char) :
    trim (s ++ [c]) = trim s := by
  unfold trim trimStart
  rw [List.dropWhile_append]
  split
  · rename_i h
    rw [List.isEmpty_iff] at h
    simp [h, hc]
  · exact trimEnd_append_blank hc _

/-- Trimming twice trims no more. -/
theorem trim_trim (s : List Char) : trim (trim s) = trim s := by
  have hstart : trimStart (trim s) = trim s := by
    unfold trimStart
    rw [List.dropWhile_eq_self_iff]
    intro hlen
    have hpre : trim s <+: trimStart s := List.rdropWhile_prefix _ _
    have hlen' : 0 < (trimStart s).length := Nat.lt_of_lt_of_le hlen hpre.length_le
    have hhead : ¬ isBlank ((trimStart s).get ⟨0, hlen'⟩) = true :=
      List.dropWhile_get_zero_not _ _ hlen'
    rwa [List.IsPrefix.getElem hpre hlen]
  rw [trim, hstart]
  exact List.rdropWhile_idempotent _ _

/-! ### Rows -/

/-- The last character of the text, if there is one, is a line feed. -/
def Ended (s : List Char) : Prop := ∀ c, s.getLast? = some c → c = '\n'

theorem ended_nil : Ended [] := fun _ h => nomatch h

theorem ended_append_of_getLast? {t : List Char} (ht : t.getLast? = some '\n') (s : List Char) :
    Ended (s ++ t) := by
  intro c h
  rw [List.getLast?_append, ht] at h
  exact (Option.some.inj h).symm

theorem ended_append_lineFeed (s : List Char) : Ended (s ++ ['\n']) :=
  ended_append_of_getLast? rfl s

theorem Ended.append {s t : List Char} (hs : Ended s) (ht : Ended t) : Ended (s ++ t) := by
  intro c h
  rw [List.getLast?_append, Option.or_eq_some_iff] at h
  rcases h with h | ⟨-, h⟩
  · exact ht c h
  · exact hs c h

theorem ended_flatMap {α : Type} {f : α → List Char} : ∀ {l : List α}, (∀ a ∈ l, Ended (f a)) →
    Ended (l.flatMap f)
  | [], _ => ended_nil
  | a :: l, h => by
    rw [List.flatMap_cons]
    exact (h a List.mem_cons_self).append
      (ended_flatMap fun b hb => h b (List.mem_cons_of_mem _ hb))

theorem Ended.tail {c : Char} {s : List Char} (h : Ended (c :: s)) : Ended s := by
  cases s with
  | nil => exact ended_nil
  | cons d s => simpa [Ended] using h

theorem rows_ne_nil {s : List Char} (h : s ≠ []) : rows s ≠ [] := by
  intro hrows
  have hflat := rows_flatten s
  rw [hrows] at hflat
  exact h hflat.symm

/-- What follows a line feed starts a new row. -/
theorem rows_append {s : List Char} (hs : Ended s) (t : List Char) :
    rows (s ++ t) = rows s ++ rows t := by
  induction s with
  | nil => rfl
  | cons c s ih =>
    by_cases hc : c = '\n'
    · simp [rows, hc, ih hs.tail]
    · have hne : s ≠ [] := by
        rintro rfl
        exact hc (hs c rfl)
      obtain ⟨row, more, hrows⟩ := List.exists_cons_of_ne_nil (rows_ne_nil hne)
      simp [rows, hc, ih hs.tail, hrows]

theorem rows_line {s : List Char} (h : '\n' ∉ s) : rows (s ++ ['\n']) = [s ++ ['\n']] := by
  induction s with
  | nil => rfl
  | cons c s ih =>
    have hc : c ≠ '\n' := fun hc => h (by simp [hc])
    have hs : '\n' ∉ s := fun hs => h (List.mem_cons_of_mem _ hs)
    simp [rows, hc, ih hs]

/-- A row is its own only row. -/
theorem rows_of_mem {s row : List Char} (h : row ∈ rows s) : rows row = [row] := by
  induction s generalizing row with
  | nil => exact absurd h List.not_mem_nil
  | cons c s ih =>
    by_cases hc : c = '\n'
    · rw [rows, if_pos hc, List.mem_cons] at h
      rcases h with rfl | h
      · simp [rows, hc]
      · exact ih h
    · rw [rows, if_neg hc] at h
      split at h
      · obtain rfl := List.mem_singleton.1 h
        simp [rows, hc]
      · rename_i first more hrows
        rcases List.mem_cons.1 h with rfl | h
        · have hfirst : rows first = [first] := ih (by simp [hrows])
          simp [rows, hc, hfirst]
        · exact ih (by simp [hrows, h])

theorem ne_nil_of_mem_rows {s row : List Char} (h : row ∈ rows s) : row ≠ [] := by
  rintro rfl
  exact nomatch rows_of_mem h

/-- All rows but the last end in a line feed. -/
theorem ended_of_mem_dropLast {s row : List Char} (h : row ∈ (rows s).dropLast) : Ended row := by
  induction s generalizing row with
  | nil => exact absurd h List.not_mem_nil
  | cons c s ih =>
    by_cases hc : c = '\n'
    · rw [rows, if_pos hc] at h
      cases hrows : rows s with
      | nil => simp [hrows] at h
      | cons first more =>
        rw [hrows, List.dropLast_cons_cons, ← hrows, List.mem_cons] at h
        rcases h with rfl | h
        · exact hc ▸ ended_append_lineFeed []
        · exact ih h
    · rw [rows, if_neg hc] at h
      split at h
      · simp at h
      · rename_i first more hrows
        cases more with
        | nil => simp at h
        | cons second more =>
          rw [List.dropLast_cons_cons, List.mem_cons] at h
          rcases h with rfl | h
          · have hfirst : first ∈ rows s := by simp [hrows]
            have hended : Ended first := ih (by simp [hrows])
            obtain ⟨d, rest, rfl⟩ := List.exists_cons_of_ne_nil (ne_nil_of_mem_rows hfirst)
            simpa [Ended] using hended
          · exact ih (by simp [hrows, h])

theorem joinWith_cons (sep piece : List Char) (pieces : List (List Char)) :
    joinWith sep (piece :: pieces) = piece ++ pieces.flatMap (sep ++ ·) := by
  induction pieces generalizing piece with
  | nil => simp [joinWith]
  | cons next pieces ih => simp [joinWith, ih]

end GoSchema.Text
