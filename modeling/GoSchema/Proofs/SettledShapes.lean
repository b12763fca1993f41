/-
# Settled shapes

Settling goes through the declarations in order and gives each one the fields of the struct behind
its name. Names that are settled already make chains of names shorter: the fields behind a name stay
the same, but a chain that was too long may be short enough then. Where no chain of names is too
long, every declaration gets the fields that are behind its name before any is settled, and settling
fails exactly if one of them is unfit then.

Key definitions: `Catalog.fieldsUnder`, `Catalog.settledAt`, `Catalog.HasShortNames`,
`Catalog.IsPartlySettled`.
Key theorems: `Catalog.fieldsBehind_mono`, `Catalog.hasShortNames_iff`,
`Catalog.IsPartlySettled.fieldsBehind_eq`, `Catalog.IsPartlySettled.settleBody`,
`Catalog.IsPartlySettled.settleAll`, `Catalog.settle_cases`.
-/
import GoSchema.Proofs.AlikeCatalogs

namespace GoSchema

namespace Catalog

variable {c w : Catalog}

/-- The fields that a body has, or that are behind its name. -/
def fieldsUnder (c : Catalog) (room : Nat) (b : Body) : Option (List Field) :=
  match b with
  | .record fields => some fields
  | .defined t | .aliased t => c.fieldsThrough room t

theorem fieldsBehind_eq_some_iff {room id : Nat} {fs : List Field} :
    c.fieldsBehind (room + 1) id = some fs ↔
      ∃ d, c.get? id = some d ∧ c.fieldsUnder room d.body = some fs := by
  rw [fieldsBehind_succ, Option.bind_eq_some_iff]
  rfl

theorem fieldsThrough_eq_some_iff {room : Nat} {t : GoType} {fs : List Field} :
    c.fieldsThrough room t = some fs ↔ t.isNamed = true ∧ ∃ id d own, c.find t = some (id, d) ∧
      c.fieldsBehind room id = some own ∧ own.map (Field.subst d.typeParams t.typeArgs) = fs := by
  unfold fieldsThrough
  split_ifs with ht
  · simp only [Option.bind_eq_some_iff, Option.map_eq_some_iff, Prod.exists, ht, true_and]
    grind
  · simp [ht]

theorem fieldsUnder_imp {room more : Nat} {fs : List Field}
    (h : ∀ t, c.fieldsThrough room t = some fs → w.fieldsThrough more t = some fs) :
    ∀ b : Body, c.fieldsUnder room b = some fs → w.fieldsUnder more b = some fs
  | .record _, hb => hb
  | .defined t, hb | .aliased t, hb => h t hb

/-- With more room the same fields are found. -/
theorem fieldsBehind_mono : ∀ {room more id : Nat} {fs : List Field},
    c.fieldsBehind room id = some fs → room ≤ more → c.fieldsBehind more id = some fs
  | 0, _, _, _, h, _ => nomatch h
  | room + 1, more, id, fs, h, hle => by
    obtain ⟨more, rfl⟩ : ∃ n, more = n + 1 := ⟨more - 1, by omega⟩
    obtain ⟨d, hd, hb⟩ := fieldsBehind_eq_some_iff.1 h
    refine fieldsBehind_eq_some_iff.2 ⟨d, hd, fieldsUnder_imp (fun t ht => ?_) d.body hb⟩
    obtain ⟨hnamed, i, e, own, hfind, hown, rfl⟩ := fieldsThrough_eq_some_iff.1 ht
    exact fieldsThrough_eq_some_iff.2
      ⟨hnamed, i, e, own, hfind, fieldsBehind_mono hown (by omega), rfl⟩

theorem fieldsBehind_unique {room more id : Nat} {fs gs : List Field}
    (h : c.fieldsBehind room id = some fs) (h' : c.fieldsBehind more id = some gs) : fs = gs := by
  rcases Nat.le_total room more with hle | hle
  · exact Option.some.inj ((fieldsBehind_mono h hle).symm.trans h')
  · exact Option.some.inj (h.symm.trans (fieldsBehind_mono h' hle))

/-- A declaration with the fields behind its name, if there are any. -/
def settledAt (c : Catalog) (id : Nat) (d : Declaration) : Declaration :=
  match c.fieldsBehind (chainLimit + 1) id with
  | some fs => { d with body := .record fs }
  | none => d

/-- No chain of names to a struct takes more steps than it may. -/
def HasShortNames (c : Catalog) : Prop :=
  ∀ id room fs, c.fieldsBehind room id = some fs → c.fieldsBehind (chainLimit + 1) id = some fs

theorem fieldsBehind_of_get? {id : Nat} (h : c.get? id = none) :
    ∀ room, c.fieldsBehind room id = none
  | 0 => rfl
  | room + 1 => by
    rw [fieldsBehind_succ, h]
    rfl

/-- What does not change with one step more does not change with many. -/
theorem fieldsBehind_add {room : Nat}
    (h : ∀ id, c.fieldsBehind (room + 1) id = c.fieldsBehind room id) :
    ∀ more id, c.fieldsBehind (room + more) id = c.fieldsBehind room id
  | 0, _ => rfl
  | more + 1, id => by
    have hthrough : c.fieldsThrough (room + more) = c.fieldsThrough room := by
      funext t
      unfold fieldsThrough
      simp only [fieldsBehind_add h more]
    rw [← Nat.add_assoc, fieldsBehind_succ, hthrough, ← fieldsBehind_succ, h]

/-- Whether chains of names are short enough can be seen from one step more. -/
theorem hasShortNames_iff : c.HasShortNames ↔
    ∀ id ∈ c.ids, c.fieldsBehind (chainLimit + 1 + 1) id = c.fieldsBehind (chainLimit + 1) id := by
  unfold HasShortNames
  generalize chainLimit + 1 = room
  constructor
  · intro h id _
    cases hfs : c.fieldsBehind (room + 1) id with
    | some fs => rw [h id _ fs hfs]
    | none =>
      cases hfs' : c.fieldsBehind room id with
      | none => rfl
      | some fs => exact nomatch hfs.symm.trans (fieldsBehind_mono hfs' (Nat.le_succ room))
  · intro h id more fs hfs
    have hone : ∀ id, c.fieldsBehind (room + 1) id = c.fieldsBehind room id := by
      intro id
      by_cases hid : id ∈ c.ids
      · exact h id hid
      · have hno : c.get? id = none :=
          List.getElem?_eq_none (Nat.le_of_not_lt fun hlt => hid (List.mem_range.2 hlt))
        rw [fieldsBehind_of_get? hno, fieldsBehind_of_get? hno]
    rw [← fieldsBehind_add hone more id]
    exact fieldsBehind_mono hfs (Nat.le_add_left more room)

instance : Decidable c.HasShortNames := decidable_of_iff _ hasShortNames_iff.symm

theorem head_settledAt (id : Nat) (d : Declaration) : (c.settledAt id d).head = d.head := by
  unfold settledAt
  split <;> rfl

/-! ### While declarations are settled -/

/-- Some declarations of a catalog are settled, and the others are as they were. -/
structure IsPartlySettled (c w : Catalog) : Prop where
  heads : w.heads = c.heads
  get : ∀ {id d}, c.get? id = some d → w.get? id = some d ∨ w.get? id = some (c.settledAt id d)

namespace IsPartlySettled

theorem refl (c : Catalog) : IsPartlySettled c c where
  heads := rfl
  get h := .inl h

variable (h : IsPartlySettled c w)
include h

theorem exists_get {id : Nat} {e : Declaration} (he : w.get? id = some e) :
    ∃ d, c.get? id = some d ∧ d.head = e.head := exists_get?_of_heads h.heads he

theorem idOfType?_eq (t : GoType) : w.idOfType? t = c.idOfType? t := idOfType?_eq_of_heads h.heads t

theorem find_eq {t : GoType} {id : Nat} {d : Declaration} (hfind : c.find t = some (id, d)) :
    ∃ e, w.find t = some (id, e) ∧ e.typeParams = d.typeParams := by
  obtain ⟨hid, hd⟩ := find_eq_some_iff.1 hfind
  rcases h.get hd with he | he
  · exact ⟨d, find_eq_some_iff.2 ⟨(h.idOfType?_eq t).trans hid, he⟩, rfl⟩
  · exact ⟨_, find_eq_some_iff.2 ⟨(h.idOfType?_eq t).trans hid, he⟩,
      congrArg (·.typeParams) (head_settledAt id d)⟩

theorem find_eq_rev {t : GoType} {id : Nat} {e : Declaration} (hfind : w.find t = some (id, e)) :
    ∃ d, c.find t = some (id, d) ∧ e.typeParams = d.typeParams := by
  obtain ⟨hid, he⟩ := find_eq_some_iff.1 hfind
  obtain ⟨d, hd, hhead⟩ := h.exists_get he
  exact ⟨d, find_eq_some_iff.2 ⟨(h.idOfType?_eq t).symm.trans hid, hd⟩,
    congrArg (·.typeParams) hhead.symm⟩

/-- Settling leaves chains as short as they were. -/
theorem fieldsBehind_of_some : ∀ {room id : Nat} {fs : List Field},
    c.fieldsBehind room id = some fs → w.fieldsBehind room id = some fs
  | 0, _, _, hfs => nomatch hfs
  | room + 1, id, fs, hfs => by
    obtain ⟨d, hd, hb⟩ := fieldsBehind_eq_some_iff.1 hfs
    have same : w.get? id = some d → w.fieldsBehind (room + 1) id = some fs := by
      intro hw
      refine fieldsBehind_eq_some_iff.2 ⟨d, hw, fieldsUnder_imp (fun t ht => ?_) d.body hb⟩
      obtain ⟨hnamed, i, e, own, hfind, hown, rfl⟩ := fieldsThrough_eq_some_iff.1 ht
      obtain ⟨e', hfind', hparams⟩ := h.find_eq hfind
      exact fieldsThrough_eq_some_iff.2
        ⟨hnamed, i, e', own, hfind', fieldsBehind_of_some hown, by rw [hparams]⟩
    rcases h.get hd with hw | hw
    · exact same hw
    · cases hc : c.fieldsBehind (chainLimit + 1) id with
      | none => exact same (by rwa [settledAt, hc] at hw)
      | some gs =>
        rw [settledAt, hc] at hw
        exact fieldsBehind_eq_some_iff.2 ⟨_, hw, congrArg some (fieldsBehind_unique hc hfs)⟩

/-- What is found on settled names is behind the names as they were, if maybe not as near. -/
theorem exists_room : ∀ {room id : Nat} {fs : List Field}, w.fieldsBehind room id = some fs →
    ∃ more, c.fieldsBehind more id = some fs
  | 0, _, _, hfs => nomatch hfs
  | room + 1, id, fs, hfs => by
    obtain ⟨e, he, hb⟩ := fieldsBehind_eq_some_iff.1 hfs
    obtain ⟨d, hd, -⟩ := h.exists_get he
    have same : w.get? id = some d → ∃ more, c.fieldsBehind more id = some fs := by
      intro hw
      obtain rfl := Option.some.inj (he.symm.trans hw)
      have through : ∀ t, w.fieldsThrough room t = some fs →
          ∃ more, c.fieldsThrough more t = some fs := by
        intro t ht
        obtain ⟨hnamed, i, e', own, hfind, hown, rfl⟩ := fieldsThrough_eq_some_iff.1 ht
        obtain ⟨d', hfind', hparams⟩ := h.find_eq_rev hfind
        obtain ⟨more, hmore⟩ := exists_room hown
        exact ⟨more, fieldsThrough_eq_some_iff.2
          ⟨hnamed, i, d', own, hfind', hmore, by rw [hparams]⟩⟩
      have under : ∀ b, w.fieldsUnder room b = some fs → ∃ more, c.fieldsUnder more b = some fs
        | .record _, hb => ⟨0, hb⟩
        | .defined t, hb | .aliased t, hb => through t hb
      obtain ⟨more, hmore⟩ := under e.body hb
      exact ⟨more + 1, fieldsBehind_eq_some_iff.2 ⟨e, hd, hmore⟩⟩
    rcases h.get hd with hw | hw
    · exact same hw
    · cases hc : c.fieldsBehind (chainLimit + 1) id with
      | none => exact same (by rwa [settledAt, hc] at hw)
      | some gs =>
        rw [settledAt, hc] at hw
        obtain rfl := Option.some.inj (he.symm.trans hw)
        exact ⟨chainLimit + 1, hc.trans hb⟩

/-- **The same fields are behind every name**, where no chain of names is too long. -/
theorem fieldsBehind_eq (hshort : c.HasShortNames) (id : Nat) :
    w.fieldsBehind (chainLimit + 1) id = c.fieldsBehind (chainLimit + 1) id := by
  cases hw : w.fieldsBehind (chainLimit + 1) id with
  | some fs =>
    obtain ⟨more, hmore⟩ := h.exists_room hw
    exact (hshort id more fs hmore).symm
  | none =>
    cases hc : c.fieldsBehind (chainLimit + 1) id with
    | none => rfl
    | some fs => exact nomatch hw.symm.trans (h.fieldsBehind_of_some hc)

/-- **One declaration more is settled.** -/
theorem settleBody (hshort : c.HasShortNames) (id : Nat) :
    IsPartlySettled c (w.settleBody id) ∧
      ∀ {d}, c.get? id = some d → (w.settleBody id).get? id = some (c.settledAt id d) := by
  have hself : ∀ {d}, c.get? id = some d →
      (w.settleBody id).get? id = some (c.settledAt id d) := by
    intro d hd
    unfold Catalog.settleBody
    rw [h.fieldsBehind_eq hshort]
    unfold settledAt
    cases hb : c.fieldsBehind (chainLimit + 1) id with
    | none =>
      rcases h.get hd with hw | hw
      · exact hw
      · rwa [settledAt, hb] at hw
    | some fs =>
      rcases h.get hd with hw | hw
      · exact get?_setBody_self hw _
      · rw [settledAt, hb] at hw
        exact get?_setBody_self hw _
  refine ⟨⟨?_, fun {i d} hd => ?_⟩, hself⟩
  · rw [← h.heads]
    unfold Catalog.settleBody
    split
    · exact heads_setBody _ _ _
    · rfl
  · by_cases hi : id = i
    · subst hi
      exact .inr (hself hd)
    · rw [get?_settleBody_ne hi]
      exact h.get hd

omit h in
/-- **All declarations of a list are settled**, unless one of them is unfit then. -/
theorem settleAll (hshort : c.HasShortNames) : ∀ (ids : List Nat) {w : Catalog},
    IsPartlySettled c w →
      (∃ v, w.settleAll ids = .ok v ∧ IsPartlySettled c v ∧ ∀ {i d}, c.get? i = some d →
        (i ∈ ids → unfit? (c.settledAt i d) = none) ∧
          (i ∈ ids ∨ w.get? i = some (c.settledAt i d) → v.get? i = some (c.settledAt i d))) ∨
      ∃ e, w.settleAll ids = .error e ∧
        ∃ i d, c.get? i = some d ∧ unfit? (c.settledAt i d) = some e
  | [], w, h => by
    refine .inl ⟨w, rfl, h, fun hd => ⟨fun hno => absurd hno List.not_mem_nil, fun hi => ?_⟩⟩
    exact hi.resolve_left List.not_mem_nil
  | id :: ids, w, h => by
    obtain ⟨hnext, hself⟩ := h.settleBody hshort id
    unfold Catalog.settleAll
    dsimp only
    cases hunfit : ((w.settleBody id).get? id).bind unfit? with
    | some e =>
      obtain ⟨e', he', hfault⟩ := Option.bind_eq_some_iff.1 hunfit
      obtain ⟨d, hd, -⟩ := hnext.exists_get he'
      obtain rfl := Option.some.inj (he'.symm.trans (hself hd))
      exact .inr ⟨e, rfl, id, d, hd, hfault⟩
    | none =>
      dsimp only
      rcases settleAll hshort ids hnext with ⟨v, hv, hpart, hall⟩ | hfail
      · refine .inl ⟨v, hv, hpart, fun {i d} hd => ⟨fun hi => ?_, fun hi => (hall hd).2 ?_⟩⟩
        · rcases List.mem_cons.1 hi with rfl | hi
          · rwa [hself hd] at hunfit
          · exact (hall hd).1 hi
        · by_cases heq : id = i
          · subst heq
            exact .inr (hself hd)
          · rw [get?_settleBody_ne heq]
            exact hi.imp_left fun hi => (List.mem_cons.1 hi).resolve_left fun h => heq h.symm
      · exact .inr hfail

end IsPartlySettled

/-- **Settling without a long chain of names.** Every declaration gets the fields behind its name
and is fit, or settling fails and one is unfit. -/
theorem settle_cases (hshort : c.HasShortNames) :
    (∃ w, c.settle = .ok w ∧ w.heads = c.heads ∧ ∀ {id d}, c.get? id = some d →
      w.get? id = some (c.settledAt id d) ∧ unfit? (c.settledAt id d) = none) ∨
      ∃ e, c.settle = .error e ∧
        ∃ id d, c.get? id = some d ∧ unfit? (c.settledAt id d) = some e := by
  rcases IsPartlySettled.settleAll hshort c.ids (.refl c) with ⟨w, hw, hpart, hall⟩ | hfail
  · refine .inl ⟨w, hw, hpart.heads, fun {id d} hd => ?_⟩
    have hid := mem_ids_of_get? hd
    exact ⟨(hall hd).2 (.inl hid), (hall hd).1 hid⟩
  · exact .inr hfail

end Catalog

end GoSchema
