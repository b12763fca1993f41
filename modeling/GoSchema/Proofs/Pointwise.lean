/-
# Items of lists

Two lists are related item by item when they have the same length and every item of one is related
to the item of the other at the same place. A list of pairs holds what a lookup in it finds.

Key theorems: `exists_right`, `exists_left`, `getElem?_cases`, `of_getElem?`, `modify_both`,
`modify_right`, `findIdx?_eq`, `filter`, `find?_cases`, `lookup_cases`, `of_zipIdx`, `zipIdx`,
`append_left`, `sublist_right`, `pairwise`, `nodup_map_concat`, `mem_of_lookup`, `lookup_of_mem`,
`lookup_filter`.
-/
import Mathlib.Data.List.Forall2
import Mathlib.Data.List.Nodup

namespace GoSchema.Pointwise

variable {α β : Type} {R : α → β → Prop} {as : List α} {bs : List β}

theorem exists_right (h : List.Forall₂ R as bs) {a : α} (ha : a ∈ as) : ∃ b ∈ bs, R a b := by
  induction h with
  | nil => exact absurd ha List.not_mem_nil
  | cons hab _ ih =>
    rcases List.mem_cons.1 ha with rfl | ha
    · exact ⟨_, List.mem_cons_self, hab⟩
    · obtain ⟨b, hb, hr⟩ := ih ha
      exact ⟨b, List.mem_cons_of_mem _ hb, hr⟩

theorem exists_left (h : List.Forall₂ R as bs) {b : β} (hb : b ∈ bs) : ∃ a ∈ as, R a b :=
  exists_right h.flip hb

theorem and_right {P : β → Prop} (h : List.Forall₂ R as bs) (hP : ∀ b ∈ bs, P b) :
    List.Forall₂ (fun a b => R a b ∧ P b) as bs := by
  induction h with
  | nil => exact .nil
  | cons hab _ ih =>
    obtain ⟨hb, hbs⟩ := List.forall_mem_cons.1 hP
    exact .cons ⟨hab, hb⟩ (ih hbs)

/-- At every place stand related items, or none. -/
theorem getElem?_cases (h : List.Forall₂ R as bs) (i : Nat) :
    (as[i]? = none ∧ bs[i]? = none) ∨ ∃ a b, as[i]? = some a ∧ bs[i]? = some b ∧ R a b := by
  induction h generalizing i with
  | nil => exact .inl ⟨rfl, rfl⟩
  | cons hab _ ih =>
    cases i with
    | zero => exact .inr ⟨_, _, rfl, rfl, hab⟩
    | succ i => exact ih i

/-- Lists with related items at every place are related. -/
theorem of_getElem? (hlength : as.length = bs.length)
    (h : ∀ (i : Nat) a, as[i]? = some a → ∃ b, bs[i]? = some b ∧ R a b) : List.Forall₂ R as bs := by
  refine List.forall₂_iff_get.2 ⟨hlength, fun i hi hi' => ?_⟩
  obtain ⟨b, hb, hr⟩ := h i as[i] (List.getElem?_eq_getElem hi)
  obtain rfl := Option.some.inj ((List.getElem?_eq_getElem hi').symm.trans hb)
  exact hr

theorem modify_both (h : List.Forall₂ R as bs) {f : α → α} {g : β → β}
    (hfg : ∀ a b, R a b → R (f a) (g b)) (i : Nat) :
    List.Forall₂ R (as.modify i f) (bs.modify i g) := by
  induction h generalizing i with
  | nil => simp
  | cons hab hs ih =>
    cases i with
    | zero => simpa using ⟨hfg _ _ hab, hs⟩
    | succ i => simpa using ⟨hab, ih i⟩

/-- A list is related to itself with one item changed. -/
theorem modify_right {R : α → α → Prop} (hrefl : ∀ a, R a a) {g : α → α} :
    ∀ {as : List α} {i : Nat}, (∀ a, as[i]? = some a → R a (g a)) →
      List.Forall₂ R as (as.modify i g)
  | [], _, _ => by simp
  | a :: as, 0, h => by simpa using ⟨h a rfl, fun b _ => hrefl b⟩
  | a :: as, i + 1, h => by simpa using ⟨hrefl a, modify_right hrefl h⟩

/-- A search reads related items alike. -/
theorem findIdx?_eq (h : List.Forall₂ R as bs) {p : α → Bool} {q : β → Bool}
    (hpq : ∀ a b, R a b → p a = q b) : as.findIdx? p = bs.findIdx? q := by
  induction h with
  | nil => rfl
  | cons hab _ ih => rw [List.findIdx?_cons, List.findIdx?_cons, hpq _ _ hab, ih]

theorem any_eq (h : List.Forall₂ R as bs) {p : α → Bool} {q : β → Bool}
    (hpq : ∀ a b, R a b → p a = q b) : as.any p = bs.any q := by
  induction h with
  | nil => rfl
  | cons hab _ ih => rw [List.any_cons, List.any_cons, hpq _ _ hab, ih]

theorem filter (h : List.Forall₂ R as bs) {p : α → Bool} {q : β → Bool}
    (hpq : ∀ a b, R a b → p a = q b) : List.Forall₂ R (as.filter p) (bs.filter q) :=
  List.rel_filter (fun a b hab => by simp only [hpq a b hab]) h

/-- A search finds related items, or none. -/
theorem find?_cases (h : List.Forall₂ R as bs) {p : α → Bool} {q : β → Bool}
    (hpq : ∀ a b, R a b → p a = q b) :
    (as.find? p = none ∧ bs.find? q = none) ∨
      ∃ a b, as.find? p = some a ∧ bs.find? q = some b ∧ R a b := by
  induction h with
  | nil => exact .inl ⟨rfl, rfl⟩
  | @cons a b as bs hab _ ih =>
    rw [List.find?_cons, List.find?_cons, ← hpq _ _ hab]
    cases p a with
    | true => exact .inr ⟨a, b, rfl, rfl, hab⟩
    | false => exact ih

/-- Lookups in lists with the same keys find related items, or none. -/
theorem lookup_cases {κ : Type} [BEq κ] {as : List (κ × α)} {bs : List (κ × β)}
    (h : List.Forall₂ (fun a b => a.1 = b.1 ∧ R a.2 b.2) as bs) (key : κ) :
    (as.lookup key = none ∧ bs.lookup key = none) ∨
      ∃ a b, as.lookup key = some a ∧ bs.lookup key = some b ∧ R a b := by
  induction h with
  | nil => exact .inl ⟨rfl, rfl⟩
  | @cons a b as bs hab _ ih =>
    obtain ⟨k, a⟩ := a
    obtain ⟨k', b⟩ := b
    obtain ⟨rfl, hr⟩ := hab
    rw [List.lookup_cons, List.lookup_cons]
    cases key == k with
    | true => exact .inr ⟨a, b, rfl, rfl, hr⟩
    | false => exact ih

/-- Items that are related to numbered ones are related to the items themselves. -/
theorem of_zipIdx {n : Nat} (h : List.Forall₂ (fun p => R p.1) (as.zipIdx n) bs) :
    List.Forall₂ R as bs := by
  have hmap := List.forall₂_map_left_iff.2 h
  rwa [List.zipIdx_map_fst] at hmap

/-- Numbered items are related, with the same numbers. -/
theorem zipIdx (h : List.Forall₂ R as bs) (n : Nat) :
    List.Forall₂ (fun p q => R p.1 q.1 ∧ p.2 = q.2) (as.zipIdx n) (bs.zipIdx n) := by
  induction h generalizing n with
  | nil => exact .nil
  | cons hab _ ih => exact .cons ⟨hab, rfl⟩ (ih (n + 1))

/-- What is related to two lists in a row falls into two parts. -/
theorem append_left {as' : List α} (h : List.Forall₂ R (as ++ as') bs) :
    ∃ ls rs, bs = ls ++ rs ∧ List.Forall₂ R as ls ∧ List.Forall₂ R as' rs := by
  induction as generalizing bs with
  | nil => exact ⟨[], bs, rfl, .nil, h⟩
  | cons a as ih =>
    cases h with
    | cons hab h =>
      obtain ⟨ls, rs, rfl, hl, hr⟩ := ih h
      exact ⟨_ :: ls, rs, rfl, .cons hab hl, hr⟩

/-- A part of one list is related to a part of the other. -/
theorem sublist_right (h : List.Forall₂ R as bs) {bs' : List β} (hs : bs'.Sublist bs) :
    ∃ as', as'.Sublist as ∧ List.Forall₂ R as' bs' := by
  induction hs generalizing as with
  | slnil => exact ⟨[], List.nil_sublist _, .nil⟩
  | cons b _ ih =>
    cases h with
    | cons _ h =>
      obtain ⟨as', hsub, hall⟩ := ih h
      exact ⟨as', hsub.cons _, hall⟩
  | cons_cons b _ ih =>
    cases h with
    | cons hab h =>
      obtain ⟨as', hsub, hall⟩ := ih h
      exact ⟨_ :: as', hsub.cons_cons _, .cons hab hall⟩

/-- What holds of any two items of a list holds of the related ones. -/
theorem pairwise {S : α → α → Prop} {T : β → β → Prop} (h : List.Forall₂ R as bs)
    (hS : as.Pairwise S) (hT : ∀ {a a' b b'}, R a b → R a' b' → S a a' → T b b') :
    bs.Pairwise T := by
  induction h with
  | nil => exact .nil
  | cons hab hs ih =>
    rw [List.pairwise_cons] at hS
    refine List.pairwise_cons.2 ⟨fun b' hb' => ?_, ih hS.2⟩
    obtain ⟨a', ha', hab'⟩ := exists_left hs hb'
    exact hT hab hab' (hS.1 a' ha')

/-- An item whose name no item of a list has can be put at its end. -/
theorem nodup_map_concat {κ : Type} [DecidableEq κ] {f : α → κ} {l : List α} {a : α}
    (h : (l.map f).Nodup) (hno : l.find? (fun b => f b = f a) = none) :
    ((l ++ [a]).map f).Nodup := by
  rw [List.map_append, List.map_singleton, List.nodup_append]
  refine ⟨h, List.nodup_singleton _, fun x hx y hy => ?_⟩
  obtain ⟨b, hb, rfl⟩ := List.mem_map.1 hx
  obtain rfl := List.mem_singleton.1 hy
  simpa using List.find?_eq_none.1 hno b hb

theorem mem_of_lookup {κ : Type} [BEq κ] [LawfulBEq κ] : ∀ {l : List (κ × α)} {key : κ} {a : α},
    l.lookup key = some a → (key, a) ∈ l
  | (k, b) :: l, key, a, h => by
    by_cases hk : key == k
    · simp only [List.lookup_cons, hk] at h
      rw [eq_of_beq hk, Option.some.inj h]
      exact List.mem_cons_self
    · simp only [List.lookup_cons, hk] at h
      exact List.mem_cons_of_mem _ (mem_of_lookup h)

/-- Where no key occurs twice, a lookup finds what the list holds. -/
theorem lookup_of_mem {κ : Type} [BEq κ] [LawfulBEq κ] {key : κ} {a : α} :
    ∀ {l : List (κ × α)}, (l.map Prod.fst).Nodup → (key, a) ∈ l → l.lookup key = some a
  | (k, b) :: l, hnodup, h => by
    rw [List.map_cons, List.nodup_cons] at hnodup
    rcases List.mem_cons.1 h with heq | h
    · obtain ⟨rfl, rfl⟩ := Prod.mk.inj heq
      simp
    · have hne : (key == k) = false := by
        rw [beq_eq_false_iff_ne]
        intro heq
        exact hnodup.1 (List.mem_map.2 ⟨(key, a), h, heq⟩)
      rw [List.lookup_cons, hne]
      exact lookup_of_mem hnodup.2 h

/-- Of the pairs that are kept for their keys, those of a key are all there or none is. -/
theorem lookup_filter {κ : Type} [BEq κ] [LawfulBEq κ] (keep : κ → Bool) (q : κ) :
    ∀ l : List (κ × α), (l.filter fun x => keep x.1).lookup q =
      if keep q = true then l.lookup q else none
  | [] => by simp
  | (r, a) :: l => by
    have ih := lookup_filter keep q l
    by_cases hr : keep r = true
    · rw [List.filter_cons_of_pos (by simpa using hr), List.lookup_cons, List.lookup_cons, ih]
      cases hq : q == r with
      | true =>
        obtain rfl := eq_of_beq hq
        exact (if_pos hr).symm
      | false => rfl
    · rw [List.filter_cons_of_neg (by simpa using hr), ih, List.lookup_cons]
      split
      · rename_i hkept
        have hq : q ≠ r := fun heq => hr (heq ▸ hkept)
        rw [beq_false_of_ne hq]
      · rfl

end GoSchema.Pointwise
