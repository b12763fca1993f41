/-
# Outcomes

A stage ends in a value or in a fault. When two stages in a row end in a value, so did the first,
and the second one got it. Two runs of a stage end alike when both fail with the same fault, or both
end in values that are related.

Key definitions: `Alike`.
Key theorems: `map_eq_ok_iff`, `bind_eq_ok_iff`, `map_eq_error_iff`, `eq_ok_of_toOption`,
`foldlM_ok`, `foldlM_error`, `forall₂_of_mapM`, `Alike.bind`, `Alike.foldlM`, `Alike.mapM`.
-/
import Mathlib.Data.List.Forall2

namespace GoSchema.Outcome

variable {ε α β : Type}

theorem map_eq_ok_iff {f : α → β} {x : Except ε α} {b : β} :
    x.map f = .ok b ↔ ∃ a, x = .ok a ∧ f a = b := by
  cases x <;> simp [Except.map]

theorem bind_eq_ok_iff {x : Except ε α} {f : α → Except ε β} {b : β} :
    x >>= f = .ok b ↔ ∃ a, x = .ok a ∧ f a = .ok b := by
  cases x <;> simp [bind, Except.bind]

theorem map_eq_error_iff {f : α → β} {x : Except ε α} {e : ε} :
    x.map f = .error e ↔ x = .error e := by
  cases x <;> simp [Except.map]

/-- A value that can be compared shows that a stage did not fail. -/
theorem eq_ok_of_toOption {x : Except ε α} {a : α} (h : x.toOption = some a) : x = .ok a := by
  cases x with
  | error e => exact absurd h (by simp [Except.toOption])
  | ok b => rw [show b = a by simpa [Except.toOption] using h]

/-- What every step of a stage keeps, the stage keeps. -/
theorem foldlM_ok {P : β → Prop} {f : β → α → Except ε β}
    (step : ∀ b a b', P b → f b a = .ok b' → P b') :
    ∀ {l : List α} {b r : β}, P b → l.foldlM f b = .ok r → P r
  | [], b, r, hb, h => by
    obtain rfl := Except.ok.inj h
    exact hb
  | a :: l, b, r, hb, h => by
    obtain ⟨b', hb', h⟩ := bind_eq_ok_iff.1 h
    exact foldlM_ok step (step b a b' hb hb') h

/-- Where a stage fails, one of its steps fails, behind steps that did not. -/
theorem foldlM_error {f : β → α → Except ε β} {e : ε} : ∀ {l : List α} {b : β},
    l.foldlM f b = .error e → ∃ front a back b', l = front ++ a :: back ∧
      front.foldlM f b = .ok b' ∧ f b' a = .error e
  | [], _, h => nomatch h
  | a :: l, b, h => by
    rw [List.foldlM_cons] at h
    cases ha : f b a with
    | error e' =>
      rw [ha] at h
      obtain rfl := Except.error.inj h
      exact ⟨[], a, l, b, rfl, rfl, ha⟩
    | ok b' =>
      rw [ha] at h
      obtain ⟨front, a', back, b'', rfl, hfront, ha'⟩ := foldlM_error h
      refine ⟨a :: front, a', back, b'', rfl, ?_, ha'⟩
      rw [List.foldlM_cons, ha]
      exact hfront

/-- Every item of the result of a stage over a list comes from the item at its place. -/
theorem forall₂_of_mapM {f : α → Except ε β} :
    ∀ {l : List α} {r : List β}, l.mapM f = .ok r → List.Forall₂ (fun a b => f a = .ok b) l r
  | [], r, h => by
    obtain rfl := Except.ok.inj h
    exact .nil
  | a :: l, r, h => by
    rw [List.mapM_cons] at h
    obtain ⟨b, hb, h⟩ := bind_eq_ok_iff.1 h
    obtain ⟨bs, hbs, h⟩ := bind_eq_ok_iff.1 h
    obtain rfl := Except.ok.inj h
    exact .cons hb (forall₂_of_mapM hbs)

/-- Both runs fail with the same fault, or end in related values. -/
inductive Alike (R : α → β → Prop) : Except ε α → Except ε β → Prop
  | error (e : ε) : Alike R (.error e) (.error e)
  | ok {a : α} {b : β} (h : R a b) : Alike R (.ok a) (.ok b)

namespace Alike

variable {γ δ : Type} {R : α → β → Prop} {S : γ → δ → Prop}

theorem refl {R : α → α → Prop} (h : ∀ a, R a a) (x : Except ε α) : Alike R x x := by
  cases x with
  | error e => exact .error e
  | ok a => exact .ok (h a)

theorem with_ok {x : Except ε α} {y : Except ε β} (h : Alike R x y) :
    Alike (fun a b => x = .ok a ∧ y = .ok b ∧ R a b) x y := by
  cases h with
  | error e => exact .error e
  | ok h => exact .ok ⟨rfl, rfl, h⟩

theorem imp {S : α → β → Prop} {x : Except ε α} {y : Except ε β} (h : Alike R x y)
    (himp : ∀ a b, R a b → S a b) : Alike S x y := by
  cases h with
  | error e => exact .error e
  | ok h => exact .ok (himp _ _ h)

theorem map {x : Except ε α} {y : Except ε β} (h : Alike R x y) {f : α → γ} {g : β → δ}
    (hfg : ∀ a b, R a b → S (f a) (g b)) : Alike S (x.map f) (y.map g) := by
  cases h with
  | error e => exact .error e
  | ok h => exact .ok (hfg _ _ h)

theorem bind {x : Except ε α} {y : Except ε β} (h : Alike R x y) {f : α → Except ε γ}
    {g : β → Except ε δ} (hfg : ∀ a b, R a b → Alike S (f a) (g b)) :
    Alike S (x >>= f) (y >>= g) := by
  cases h with
  | error e => exact .error e
  | ok h => exact hfg _ _ h

/-- Stages over related lists end alike if their steps do. -/
theorem foldlM {f : α → γ → Except ε α} {g : β → δ → Except ε β}
    (step : ∀ a b c d, R a b → S c d → Alike R (f a c) (g b d)) :
    ∀ {cs : List γ} {ds : List δ} {a : α} {b : β}, List.Forall₂ S cs ds → R a b →
      Alike R (cs.foldlM f a) (ds.foldlM g b)
  | [], _, _, _, .nil, hab => .ok hab
  | _ :: _, _, _, _, .cons hcd hs, hab => by
    rw [List.foldlM_cons, List.foldlM_cons]
    exact (step _ _ _ _ hab hcd).bind fun _ _ h => foldlM step hs h

theorem mapM {f : α → Except ε γ} {g : β → Except ε δ} (step : ∀ a b, R a b → Alike S (f a) (g b)) :
    ∀ {as : List α} {bs : List β}, List.Forall₂ R as bs →
      Alike (List.Forall₂ S) (as.mapM f) (bs.mapM g)
  | [], _, .nil => .ok .nil
  | _ :: _, _, .cons hab hs => by
    rw [List.mapM_cons, List.mapM_cons]
    exact (step _ _ hab).bind fun _ _ h => (mapM step hs).bind fun _ _ hs => .ok (.cons h hs)

/-- The first run ends in a value exactly with a related one of the second run. -/
theorem exists_of_ok {x : Except ε α} {y : Except ε β} (h : Alike R x y) {a : α} (hx : x = .ok a) :
    ∃ b, y = .ok b ∧ R a b := by
  subst hx
  cases h with
  | ok h => exact ⟨_, rfl, h⟩

end Alike

end GoSchema.Outcome
