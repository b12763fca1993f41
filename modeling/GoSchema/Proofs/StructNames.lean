/-
# Names of structs

A declaration is over a struct if it is written as one, or if it names a declaration that is over a
struct. Settling gives the fields of the struct to every name that has not too many names between
itself and the struct; names that got fields already no longer count. So a declaration that asks for
a block is over a struct whatever the order of the declarations, and one that asks for an enum is
not, or more names stand between than a chain may have. Where no chain of names is too long, the
fields of everything that is over a struct are found.

Key definitions: `Catalog.OverStruct`, `Catalog.IsSettling`, `Catalog.FitsAt`.
Key theorems: `exists_fieldsBehind_iff`, `IsSettling.exists_overStruct`,
`IsSettling.overStruct_of_settled`, `IsSettling.settleBody`, `fitsAt_of_settle`,
`HasShortNames.isSome_fieldsBehind_iff`.
-/
import GoSchema.Proofs.SettledShapes

namespace GoSchema.Catalog

variable {c w : Catalog}

/-- A declaration is a struct, with a number of names between the two. -/
inductive OverStruct (c : Catalog) : (names id : Nat) → Prop
  | literal {id : Nat} {d : Declaration} (hd : c.get? id = some d) (hr : d.isRecord = true) :
    OverStruct c 0 id
  | name {names id target : Nat} {d e : Declaration} {t : GoType} (hd : c.get? id = some d)
    (ht : d.body.named? = some t) (hnamed : t.isNamed = true)
    (hfind : c.find t = some (target, e)) (h : OverStruct c names target) :
    OverStruct c (names + 1) id

theorem fieldsUnder_of_named {b : Body} {t : GoType} (h : b.named? = some t) (room : Nat) :
    c.fieldsUnder room b = c.fieldsThrough room t := by
  cases b with
  | record fs => exact nomatch h
  | defined u | aliased u =>
    obtain rfl := Option.some.inj h
    rfl

/-- **Fields are found behind a name** just where a struct is near enough. -/
theorem exists_fieldsBehind_iff : ∀ {room id : Nat},
    (∃ fs, c.fieldsBehind room id = some fs) ↔ ∃ names < room, c.OverStruct names id
  | 0, _ => by
    constructor
    · rintro ⟨fs, hfs⟩
      cases hfs
    · rintro ⟨names, hlt, -⟩
      exact absurd hlt (Nat.not_lt_zero names)
  | room + 1, id => by
    constructor
    · rintro ⟨fs, hfs⟩
      obtain ⟨d, hd, hunder⟩ := fieldsBehind_eq_some_iff.1 hfs
      cases ht : d.body.named? with
      | none =>
        have hr : d.isRecord = true := by
          unfold Declaration.isRecord
          cases hb : d.body with
          | record own => rfl
          | defined t | aliased t =>
            rw [hb] at ht
            cases ht
        exact ⟨0, Nat.succ_pos room, .literal hd hr⟩
      | some t =>
        rw [fieldsUnder_of_named ht] at hunder
        obtain ⟨hnamed, target, e, own, hfind, hown, -⟩ := fieldsThrough_eq_some_iff.1 hunder
        obtain ⟨names, hlt, hover⟩ := exists_fieldsBehind_iff.1 ⟨own, hown⟩
        exact ⟨names + 1, Nat.succ_lt_succ hlt, .name hd ht hnamed hfind hover⟩
    · rintro ⟨names, hlt, hover⟩
      cases hover with
      | @literal _ d hd hr =>
        cases hb : d.body with
        | record own => exact ⟨own, fieldsBehind_eq_some_iff.2 ⟨d, hd, by rw [hb]; rfl⟩⟩
        | defined t | aliased t =>
          rw [Declaration.isRecord, hb] at hr
          cases hr
      | @name names _ target d e t hd ht hnamed hfind hover =>
        obtain ⟨own, hown⟩ :=
          exists_fieldsBehind_iff.2 ⟨names, Nat.lt_of_succ_lt_succ hlt, hover⟩
        have hthrough := fieldsThrough_eq_some_iff.2 ⟨hnamed, target, e, own, hfind, hown, rfl⟩
        rw [← fieldsUnder_of_named ht] at hthrough
        exact ⟨_, fieldsBehind_eq_some_iff.2 ⟨d, hd, hthrough⟩⟩

/-! ### While names get their fields -/

/-- Some names of structs have become structs; nothing else is changed. -/
structure IsSettling (c w : Catalog) : Prop where
  heads : w.heads = c.heads
  body : ∀ {id d}, c.get? id = some d → ∃ e, w.get? id = some e ∧
    (e.body = d.body ∨ e.isRecord = true ∧ ∃ names, c.OverStruct names id)

namespace IsSettling

theorem refl (c : Catalog) : IsSettling c c where
  heads := rfl
  body hd := ⟨_, hd, .inl rfl⟩

variable (h : IsSettling c w)
include h

theorem idOfType?_eq (t : GoType) : w.idOfType? t = c.idOfType? t :=
  idOfType?_eq_of_heads h.heads t

/-- Names come no farther away from their struct. -/
theorem exists_overStruct {names id : Nat} (hover : c.OverStruct names id) :
    ∃ fewer ≤ names, w.OverStruct fewer id := by
  induction hover with
  | @literal id d hd hr =>
    obtain ⟨e, he, hbody | ⟨hrecord, -⟩⟩ := h.body hd
    · exact ⟨0, Nat.le_refl 0, .literal he (by rwa [Declaration.isRecord, hbody])⟩
    · exact ⟨0, Nat.le_refl 0, .literal he hrecord⟩
  | @name names id target d _ t hd ht hnamed hfind _ ih =>
    obtain ⟨e, he, hbody | ⟨hrecord, -⟩⟩ := h.body hd
    · obtain ⟨fewer, hle, hover⟩ := ih
      obtain ⟨htarget, hget⟩ := find_eq_some_iff.1 hfind
      obtain ⟨e', he', -⟩ := h.body hget
      have hfind' : w.find t = some (target, e') :=
        find_eq_some_iff.2 ⟨(h.idOfType?_eq t).trans htarget, he'⟩
      exact ⟨fewer + 1, Nat.succ_le_succ hle, .name he (by rwa [hbody]) hnamed hfind' hover⟩
    · exact ⟨0, Nat.zero_le _, .literal he hrecord⟩

/-- What is over a struct now was so before. -/
theorem overStruct_of_settled {names id : Nat} (hover : w.OverStruct names id) :
    ∃ more, c.OverStruct more id := by
  induction hover with
  | @literal id e he hr =>
    obtain ⟨d, hd, -⟩ := exists_get?_of_heads h.heads he
    obtain ⟨e', he', hbody | ⟨-, hbefore⟩⟩ := h.body hd
    · obtain rfl := Option.some.inj (he.symm.trans he')
      exact ⟨0, .literal hd (by rwa [Declaration.isRecord, ← hbody])⟩
    · exact hbefore
  | @name names id target e _ t he ht hnamed hfind _ ih =>
    obtain ⟨d, hd, -⟩ := exists_get?_of_heads h.heads he
    obtain ⟨e', he', hbody | ⟨-, hbefore⟩⟩ := h.body hd
    · obtain rfl := Option.some.inj (he.symm.trans he')
      obtain ⟨more, hmore⟩ := ih
      obtain ⟨htarget, hget⟩ := find_eq_some_iff.1 hfind
      obtain ⟨d', hd', -⟩ := exists_get?_of_heads h.heads hget
      have hfind' : c.find t = some (target, d') :=
        find_eq_some_iff.2 ⟨(h.idOfType?_eq t).symm.trans htarget, hd'⟩
      exact ⟨more + 1, .name hd (by rwa [← hbody]) hnamed hfind' hmore⟩
    · exact hbefore

/-- **One more name gets its fields.** -/
theorem settleBody (id : Nat) : IsSettling c (w.settleBody id) := by
  cases hfs : w.fieldsBehind (chainLimit + 1) id with
  | none =>
    rw [Catalog.settleBody, hfs]
    exact h
  | some fs =>
    obtain ⟨names, -, hover⟩ := exists_fieldsBehind_iff.1 ⟨fs, hfs⟩
    rw [Catalog.settleBody, hfs]
    refine ⟨(heads_setBody _ _ _).trans h.heads, fun {i d} hd => ?_⟩
    obtain ⟨e, he, hcases⟩ := h.body hd
    by_cases hi : id = i
    · subst hi
      exact ⟨_, get?_setBody_self he _, .inr ⟨rfl, h.overStruct_of_settled hover⟩⟩
    · exact ⟨e, (get?_setBody_ne hi _).trans he, hcases⟩

end IsSettling

/-! ### What is asked for fits -/

/-- What a declaration asks for fits its place: blocks are asked of what is over a struct, and enums
of what is not, unless more names stand between than a chain may have. -/
structure FitsAt (c : Catalog) (id : Nat) (d : Declaration) : Prop where
  record : d.requests ≠ [] → ∃ names, c.OverStruct names id
  enum : d.enumRequest.isSome = true → ∀ names, c.OverStruct names id → chainLimit < names

theorem unfit?_eq_none_iff {d : Declaration} :
    unfit? d = none ↔ (d.requests ≠ [] → d.isRecord = true) ∧
      (d.enumRequest.isSome = true → d.isRecord = false) := by
  unfold unfit?
  cases d.requests with
  | nil => cases d.enumRequest <;> cases d.isRecord <;> simp
  | cons r rs => cases d.enumRequest <;> cases d.isRecord <;> simp

theorem fitsAt_of_settleBody (h : IsSettling c w) {id : Nat} {d : Declaration}
    (hd : c.get? id = some d) (hfit : ((w.settleBody id).get? id).bind unfit? = none) :
    c.FitsAt id d := by
  have hnext := h.settleBody id
  obtain ⟨e, he, hbody⟩ := hnext.body hd
  have hhead : e.head = d.head := by
    obtain ⟨d', hd', hhead⟩ := exists_get?_of_heads hnext.heads he
    obtain rfl := Option.some.inj (hd.symm.trans hd')
    exact hhead.symm
  have hrequests : e.requests = d.requests := congrArg (·.requests) hhead
  have henum : e.enumRequest = d.enumRequest := congrArg (·.enumRequest) hhead
  rw [he, Option.bind_some, unfit?_eq_none_iff, hrequests, henum] at hfit
  refine ⟨fun hasked => ?_, fun hasked names hover => ?_⟩
  · rcases hbody with hbody | ⟨-, hover⟩
    · exact ⟨0, .literal hd (by rw [Declaration.isRecord, ← hbody]; exact hfit.1 hasked)⟩
    · exact hover
  · -- a struct that is near enough would have been found
    by_contra hnear
    obtain ⟨fewer, hle, hover⟩ := h.exists_overStruct hover
    have hlt : fewer < chainLimit + 1 := by omega
    obtain ⟨fs, hfs⟩ := exists_fieldsBehind_iff.2 ⟨fewer, hlt, hover⟩
    obtain ⟨e', he', -⟩ := h.body hd
    have hself : (w.settleBody id).get? id = some { e' with body := .record fs } := by
      rw [Catalog.settleBody, hfs]
      exact get?_setBody_self he' _
    obtain rfl := Option.some.inj (he.symm.trans hself)
    cases hfit.2 hasked

/-- **Every declaration that was settled fits.** The induction is on the declarations that are still
to come, and what is kept is that names of structs only have become structs. -/
theorem fitsAt_of_settleAll : ∀ {ids : List Nat} {w v : Catalog}, IsSettling c w →
    w.settleAll ids = .ok v → ∀ id ∈ ids, ∀ d, c.get? id = some d → c.FitsAt id d
  | [], _, _, _, _, _, hno, _, _ => absurd hno List.not_mem_nil
  | id :: ids, w, v, h, hv, i, hi, d, hd => by
    unfold settleAll at hv
    dsimp only at hv
    split at hv
    · exact nomatch hv
    · rename_i hfit
      rcases List.mem_cons.1 hi with rfl | hi
      · exact fitsAt_of_settleBody h hd hfit
      · exact fitsAt_of_settleAll (h.settleBody id) hv i hi d hd

theorem fitsAt_of_settle (h : c.settle = .ok w) {id : Nat} {d : Declaration}
    (hd : c.get? id = some d) : c.FitsAt id d :=
  fitsAt_of_settleAll (.refl c) h id (mem_ids_of_get? hd) d hd

/-- Where no chain of names is too long, the fields of what is over a struct are found. -/
theorem HasShortNames.isSome_fieldsBehind_iff (hshort : c.HasShortNames) {id : Nat} :
    (c.fieldsBehind (chainLimit + 1) id).isSome = true ↔ ∃ names, c.OverStruct names id := by
  rw [Option.isSome_iff_exists]
  constructor
  · intro hfs
    obtain ⟨names, -, hover⟩ := exists_fieldsBehind_iff.1 hfs
    exact ⟨names, hover⟩
  · rintro ⟨names, hover⟩
    obtain ⟨fs, hfs⟩ := exists_fieldsBehind_iff.2 ⟨names, Nat.lt_succ_self names, hover⟩
    exact ⟨fs, hshort id _ fs hfs⟩

end GoSchema.Catalog
