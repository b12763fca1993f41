/-
# The order of declarations

Declarations in another order have other numbers, but a name refers to the same declaration, because
no two have the same key. So the same fields are behind every name, and every struct has the same
flat fields. What may depend on the order is whether a bound on the steps of a chain is reached,
since steps behind a struct that is done, or a name that is settled, no longer count. Where no chain
of names is too long, two orders give the same declarations or both fail, unless one of them fails
with a chain of embedded structs that is too long and the other one does not fail.

Key definitions: `Catalog.IsReordered`, `SameOutcome`.
Key theorems: `Catalog.IsReordered.find_snd`, `Catalog.IsReordered.fieldsBehind`,
`Catalog.IsReordered.settle`, `Catalog.IsReordered.isFlat`, `Catalog.IsReordered.flatten`,
`Declarations.flat_order`.
-/
import GoSchema.Proofs.FlatStructs
import GoSchema.Proofs.SettledShapes
import GoSchema.Proofs.SourceDeclarations

namespace GoSchema

open Outcome

/-- A search for what only one item can be finds the same in any order. -/
theorem find?_eq_of_perm {α : Type} {l l' : List α} {p : α → Bool} (h : l.Perm l')
    (hone : ∀ a ∈ l, ∀ b ∈ l, p a = true → p b = true → a = b) : l'.find? p = l.find? p := by
  cases hl : l.find? p with
  | none =>
    rw [List.find?_eq_none] at hl ⊢
    exact fun a ha => hl a (h.mem_iff.2 ha)
  | some a =>
    have ha := List.mem_of_find?_eq_some hl
    have hpa := List.find?_some hl
    cases hl' : l'.find? p with
    | none => exact absurd hpa (List.find?_eq_none.1 hl' a (h.mem_iff.1 ha))
    | some b =>
      have hb := h.mem_iff.2 (List.mem_of_find?_eq_some hl')
      rw [hone a ha b hb hpa (List.find?_some hl')]

namespace Catalog

variable {c c' : Catalog}

/-- The declaration that a name refers to, without its number. -/
theorem find_snd_of_named (c : Catalog) {t : GoType} {package name : String}
    {qualifier : Option String} {args : List GoType}
    (ht : t.stripPointers = .named (some package) qualifier name args) :
    (c.find t).map Prod.snd = (c.types.find? fun d => d.key = (package, name)).or
      (c.types.find? (matchesLoosely package name)) := by
  have hget : ∀ p : Declaration → Bool,
      c.types.find? p = (c.types.findIdx? p).bind c.get? := fun p =>
    List.find?_eq_bind_findIdx?_getElem?
  have hid : c.idOfType? t = c.lookup package name := by
    rw [idOfType?, ht]
  have hfind : (c.find t).map Prod.snd = (c.lookup package name).bind c.get? := by
    rw [find, hid]
    cases c.lookup package name with
    | none => rfl
    | some id => cases hd : c.get? id <;> simp [hd]
  rw [hfind, hget, hget, lookup]
  cases hid : c.idOf? (package, name) with
  | none =>
    rw [idOf?] at hid
    rw [hid]
    rfl
  | some id =>
    obtain ⟨d, hd, -⟩ := exists_of_idOf? hid
    rw [idOf?] at hid
    rw [hid]
    simp [hd]

theorem find_eq_none (c : Catalog) {t : GoType} (ht : ∀ package qualifier name args,
    t.stripPointers ≠ .named (some package) qualifier name args) : c.find t = none := by
  have hid : c.idOfType? t = none := by
    unfold idOfType?
    split
    · rename_i heq
      exact absurd heq (ht _ _ _ _)
    · rfl
  rw [find, hid]
  rfl

/-- Two catalogs have the same declarations in some order, and no two of the same key. -/
structure IsReordered (c c' : Catalog) : Prop where
  types : c.types.Perm c'.types
  keys : c.keys.Nodup

namespace IsReordered

variable (h : IsReordered c c')
include h

theorem symm : IsReordered c' c where
  types := h.types.symm
  keys := (h.types.map Declaration.key).nodup_iff.1 h.keys

theorem exists_get {i : Nat} {d : Declaration} (hd : c.get? i = some d) :
    ∃ j, c'.get? j = some d :=
  List.mem_iff_getElem?.1 (h.types.mem_iff.1 (List.mem_of_getElem? hd))

theorem get?_unique {i j : Nat} {d : Declaration} (hi : c.get? i = some d)
    (hj : c.get? j = some d) : i = j :=
  (List.getElem?_inj (lt_of_get? hi) h.keys.of_map).1 (hi.trans hj.symm)

theorem mem_of_places {v v' : Catalog} (hv : v.heads = c.heads)
    (hsame : ∀ {i j d}, c.get? i = some d → c'.get? j = some d → v.get? i = v'.get? j)
    {d : Declaration} (hd : d ∈ v.types) : d ∈ v'.types := by
  obtain ⟨i, hi⟩ := List.mem_iff_getElem?.1 hd
  obtain ⟨e, he, -⟩ := exists_get?_of_heads hv hi
  obtain ⟨j, hj⟩ := h.exists_get he
  exact List.mem_of_getElem? ((hsame he hj).symm.trans hi)

theorem of_places {v v' : Catalog} (hv : v.heads = c.heads) (hv' : v'.heads = c'.heads)
    (hsame : ∀ {i j d}, c.get? i = some d → c'.get? j = some d → v.get? i = v'.get? j) :
    IsReordered v v' := by
  have hkeys : v.keys.Nodup := keys_eq_of_heads hv ▸ h.keys
  have hkeys' : v'.keys.Nodup := keys_eq_of_heads hv' ▸ h.symm.keys
  refine ⟨(List.perm_ext_iff_of_nodup hkeys.of_map hkeys'.of_map).2 fun d => ⟨?_, ?_⟩, hkeys⟩
  · exact h.mem_of_places hv hsame
  · exact h.symm.mem_of_places hv' fun hj hi => (hsame hi hj).symm

/-- **A name refers to the same declaration.** -/
theorem find_snd (t : GoType) : (c'.find t).map Prod.snd = (c.find t).map Prod.snd := by
  have hkey : ∀ d ∈ c.types, ∀ e ∈ c.types, d.key = e.key → d = e := fun d hd e he =>
    List.inj_on_of_nodup_map h.keys hd he
  have hloose : ∀ {package name : String} {d : Declaration},
      matchesLoosely package name d = true → d.key = (lastSegment package, name) := by
    intro package name d hd
    simp only [matchesLoosely, Bool.and_eq_true, decide_eq_true_eq,
      Option.isNone_iff_eq_none] at hd
    obtain ⟨⟨hname, hpath⟩, hpackage⟩ := hd
    rw [Declaration.key, Package.identity, hpath, hname, ← hpackage]
    rfl
  by_cases ht : ∃ package qualifier name args,
      t.stripPointers = .named (some package) qualifier name args
  · obtain ⟨package, qualifier, name, args, ht⟩ := ht
    rw [find_snd_of_named c ht, find_snd_of_named c' ht,
      find?_eq_of_perm h.types fun d hd e he hp hq => hkey d hd e he ?_,
      find?_eq_of_perm h.types fun d hd e he hp hq =>
        hkey d hd e he ((hloose hp).trans (hloose hq).symm)]
    rw [decide_eq_true_eq] at hp hq
    rw [hp, hq]
  · have hno : ∀ package qualifier name args,
        t.stripPointers ≠ .named (some package) qualifier name args :=
      fun package qualifier name args heq => ht ⟨package, qualifier, name, args, heq⟩
    rw [find_eq_none c hno, find_eq_none c' hno]

theorem find {t : GoType} {i : Nat} {d : Declaration} (ht : c.find t = some (i, d)) :
    ∃ j, c'.find t = some (j, d) := by
  have hsnd := h.find_snd t
  rw [ht, Option.map_some, Option.map_eq_some_iff] at hsnd
  obtain ⟨⟨j, e⟩, hj, rfl⟩ := hsnd
  exact ⟨j, hj⟩

theorem find_none {t : GoType} (ht : c.find t = none) : c'.find t = none := by
  have hsnd := h.find_snd t
  rwa [ht, Option.map_none, Option.map_eq_none_iff] at hsnd

/-! ### Settling and flattening -/

/-- **The same fields are behind a name.** -/
theorem fieldsBehind : ∀ {room i j : Nat} {d : Declaration} {fs : List Field},
    c.get? i = some d → c'.get? j = some d → c.fieldsBehind room i = some fs →
      c'.fieldsBehind room j = some fs
  | 0, _, _, _, _, _, _, hfs => nomatch hfs
  | room + 1, i, j, d, fs, hi, hj, hfs => by
    obtain ⟨e, he, hb⟩ := fieldsBehind_eq_some_iff.1 hfs
    obtain rfl := Option.some.inj (hi.symm.trans he)
    refine fieldsBehind_eq_some_iff.2 ⟨d, hj, fieldsUnder_imp (fun t ht => ?_) d.body hb⟩
    obtain ⟨hnamed, k, e, own, hfind, hown, rfl⟩ := fieldsThrough_eq_some_iff.1 ht
    obtain ⟨k', hfind'⟩ := h.find hfind
    exact fieldsThrough_eq_some_iff.2 ⟨hnamed, k', e, own, hfind',
      fieldsBehind (find_eq_some_iff.1 hfind).2 (find_eq_some_iff.1 hfind').2 hown, rfl⟩

theorem hasShortNames (hshort : c.HasShortNames) : c'.HasShortNames := by
  intro j room fs hfs
  cases room with
  | zero => exact nomatch hfs
  | succ room =>
    obtain ⟨d, hj, -⟩ := fieldsBehind_eq_some_iff.1 hfs
    obtain ⟨i, hi⟩ := h.symm.exists_get hj
    exact h.fieldsBehind hi hj (hshort i _ fs (h.symm.fieldsBehind hj hi hfs))

theorem settledAt_eq {i j : Nat} {d : Declaration} (hi : c.get? i = some d)
    (hj : c'.get? j = some d) : c'.settledAt j d = c.settledAt i d := by
  unfold settledAt
  cases hfs : c.fieldsBehind (chainLimit + 1) i with
  | some fs => rw [h.fieldsBehind hi hj hfs]
  | none =>
    cases hfs' : c'.fieldsBehind (chainLimit + 1) j with
    | none => rfl
    | some fs => exact nomatch hfs.symm.trans (h.symm.fieldsBehind hj hi hfs')

/-- **Settled catalogs have the same declarations**, where no chain of names is too long. -/
theorem settle (hshort : c.HasShortNames) {w : Catalog} (hw : c.settle = .ok w) :
    ∃ w', c'.settle = .ok w' ∧ IsReordered w w' := by
  rcases settle_cases hshort with ⟨v, hv, hheads, hall⟩ | ⟨e, he, -⟩
  · obtain rfl := Except.ok.inj (hv.symm.trans hw)
    rcases settle_cases (h.hasShortNames hshort) with
      ⟨v', hv', hheads', hall'⟩ | ⟨e, -, j, d, hj, hunfit⟩
    · refine ⟨v', hv', h.of_places hheads hheads' fun hi hj => ?_⟩
      rw [(hall hi).1, (hall' hj).1, h.settledAt_eq hi hj]
    · obtain ⟨i, hi⟩ := h.symm.exists_get hj
      rw [h.settledAt_eq hi hj, (hall hi).2] at hunfit
      cases hunfit
  · exact nomatch he.symm.trans hw

theorem embedded? {f : Field} {i : Nat} {d : Declaration} (hf : c.embedded? f = some (i, d)) :
    ∃ j, c'.embedded? f = some (j, d) := by
  obtain ⟨he, hfind, hr⟩ := embedded?_eq_some_iff.1 hf
  obtain ⟨j, hj⟩ := h.find hfind
  exact ⟨j, embedded?_eq_some_iff.2 ⟨he, hj, hr⟩⟩

theorem declaredFields_eq (fs : List Field) : c'.declaredFields fs = c.declaredFields fs := by
  refine List.filterMap_congr fun f _ => ?_
  unfold declared?
  cases hfind : c.find f.type with
  | none => rw [h.find_none hfind]
  | some x =>
    obtain ⟨i, d⟩ := x
    obtain ⟨j, hj⟩ := h.find hfind
    rw [hj]

theorem promotedFields_eq {flat flat' : Nat → List Field} {fs : List Field}
    (hflat : ∀ f ∈ fs, ∀ i j d, c.embedded? f = some (i, d) → c'.embedded? f = some (j, d) →
      flat' j = flat i) :
    c'.promotedFields flat' fs = c.promotedFields flat fs := by
  unfold promotedFields
  rw [List.flatMap_def, List.flatMap_def]
  congr 1
  refine List.map_congr_left fun f hf => ?_
  cases hx : c.embedded? f with
  | some x =>
    obtain ⟨i, d⟩ := x
    obtain ⟨j, hj⟩ := h.embedded? hx
    rw [handedOn_of_some hx, handedOn_of_some hj, hflat f hf i j d hx hj]
  | none =>
    cases hx' : c'.embedded? f with
    | none => rw [handedOn_of_none hx, handedOn_of_none hx']
    | some x =>
      obtain ⟨j, d⟩ := x
      obtain ⟨i, hi⟩ := h.symm.embedded? hx'
      exact nomatch hx.symm.trans hi

/-- **A struct has the same flat fields.** -/
theorem isFlat {i j : Nat} {d : Declaration} {fs : List Field} (hfs : c.IsFlat i fs)
    (hi : c.get? i = some d) (hj : c'.get? j = some d) : c'.IsFlat j fs := by
  induction hfs generalizing j d with
  | @struct i e flat he hr hflat hnodup ih =>
    obtain rfl := Option.some.inj (hi.symm.trans he)
    have hinner : ∀ f ∈ d.body.fields, ∀ k k' e, c.embedded? f = some (k, e) →
        c'.embedded? f = some (k', e) → c'.IsFlat k' (flat k) := fun f hf k k' e hk hk' =>
      ih k (embeds_of_mem hi hf hk) (embedded?_get? hk).1 (embedded?_get? hk').1
    have hpromoted : c'.promotedFields c'.flatOf d.body.fields =
        c.promotedFields flat d.body.fields :=
      h.promotedFields_eq fun f hf k k' e hk hk' => (hinner f hf k k' e hk hk').flatOf_eq
    refine isFlat_iff.2 ⟨d, hj, hr, ?_, hpromoted ▸ hnodup, ?_⟩
    · rintro k' ⟨e, he', f, hf, base, hk'⟩
      obtain rfl := Option.some.inj (hj.symm.trans he')
      obtain ⟨k, hk⟩ := h.symm.embedded? hk'
      exact (hinner f hf k k' base hk hk').isFlat_flatOf
    · rw [flatFields, flatFields, hpromoted, h.declaredFields_eq]

theorem allFlat (hall : c.AllFlat) : c'.AllFlat := by
  intro j d hj hr
  obtain ⟨i, hi⟩ := h.symm.exists_get hj
  exact (h.isFlat (hall i d hi hr) hi hj).isFlat_flatOf

/-- **Flat catalogs have the same declarations.** If flattening fails in another order, then because
a chain of embedded structs is too long. -/
theorem flatten {v : Catalog} (hv : c.flatten = .ok v) :
    (∃ v', c'.flatten = .ok v' ∧ IsReordered v v') ∨
      ∃ first ids, (first :: ids).IsChain c'.Embeds ∧ ids.length = chainLimit ∧
        c'.flatten = .error (.deepEmbedding (c'.labelOf first) chainLimit) := by
  have hall := allFlat_of_flatten hv
  cases hv' : c'.flatten with
  | error e =>
    obtain ⟨first, ids, hpath, hlength, rfl⟩ := (h.allFlat hall).flatten_error hv'
    exact .inr ⟨first, ids, hpath, hlength, rfl⟩
  | ok v' =>
    refine .inl ⟨v', rfl, h.of_places (heads_flatten hv) (heads_flatten hv') ?_⟩
    intro i j d hi hj
    rw [get?_flatten hv hi, get?_flatten hv' hj]
    by_cases hr : d.isRecord = true
    · rw [if_pos hr, if_pos hr, (h.isFlat (hall i d hi hr) hi hj).flatOf_eq]
    · rw [if_neg hr, if_neg hr]

theorem exists_embeds : ∃ ψ : Nat → Nat, ∀ j j', c'.Embeds j j' → c.Embeds (ψ j) (ψ j') := by
  have hplace : ∀ j, ∃ i, ∀ d, c'.get? j = some d → c.get? i = some d := by
    intro j
    cases hj : c'.get? j with
    | none => exact ⟨0, fun _ hno => nomatch hno⟩
    | some d =>
      obtain ⟨i, hi⟩ := h.symm.exists_get hj
      exact ⟨i, fun e he => Option.some.inj he ▸ hi⟩
  choose ψ hψ using hplace
  refine ⟨ψ, ?_⟩
  rintro j j' ⟨d, hd, f, hf, e, he⟩
  obtain ⟨i, hi⟩ := h.symm.embedded? he
  have hsame : i = ψ j' :=
    h.get?_unique (embedded?_get? hi).1 (hψ j' e (embedded?_get? he).1)
  exact ⟨d, hψ j d hd, f, hf, e, hsame ▸ hi⟩

theorem exists_path {ids : List Nat} (hpath : ids.IsChain c'.Embeds) :
    ∃ ids' : List Nat, ids'.IsChain c.Embeds ∧ ids'.length = ids.length := by
  obtain ⟨ψ, hψ⟩ := h.exists_embeds
  exact ⟨ids.map ψ, (List.isChain_map ψ).2 (hpath.imp hψ), List.length_map ψ⟩

end IsReordered

theorem ofDeclarations_types {ds : Declarations} (h : (ds.types.map Declaration.key).Nodup) :
    (ofDeclarations ds).types = ds.types := by
  have hpush : ∀ (l : List Declaration) (c : Catalog), (c.keys ++ l.map Declaration.key).Nodup →
      (l.foldl (fun c d => (c.push d).1) c).types = c.types ++ l := by
    intro l
    induction l with
    | nil => exact fun c _ => (List.append_nil c.types).symm
    | cons d l ih =>
      intro c hc
      have hnew : d.key ∉ c.keys := by
        intro hmem
        exact (List.nodup_append.1 hc).2.2 _ hmem _ List.mem_cons_self rfl
      have hkeys : (c.push d).1.keys = c.keys ++ [d.key] := by
        rw [push_fst_keys, if_neg hnew]
      rw [List.foldl_cons, ih, push_of_none (idOf?_eq_none_iff.2 hnew)]
      · exact List.append_assoc ..
      · rw [hkeys, List.append_assoc]
        exact hc
  exact hpush ds.types { consts := ds.consts } (by simpa [keys] using h)

theorem isReordered_ofDeclarations {ds ds' : Declarations} (hperm : ds.types.Perm ds'.types)
    (hkeys : (ds.types.map Declaration.key).Nodup) :
    IsReordered (ofDeclarations ds) (ofDeclarations ds') where
  types := by
    rw [ofDeclarations_types hkeys,
      ofDeclarations_types ((hperm.map Declaration.key).nodup_iff.1 hkeys)]
    exact hperm
  keys := ofDeclarations_keys_nodup ds

end Catalog

/-! ### Outcomes in two orders -/

/-- Both runs give the same declarations in some order, or both fail. -/
def SameOutcome (x y : Except Fault Catalog) : Prop :=
  (∃ c c', x = .ok c ∧ y = .ok c' ∧ c.types.Perm c'.types) ∨ ∃ e e', x = .error e ∧ y = .error e'

/-- The second run fails because a chain of embedded structs is too long, the first one does not. -/
def OnlySecondIsDeep (x y : Except Fault Catalog) : Prop :=
  (∃ c, x = .ok c) ∧ ∃ owner, y = .error (.deepEmbedding owner chainLimit)

theorem SameOutcome.symm {x y : Except Fault Catalog} (h : SameOutcome x y) : SameOutcome y x := by
  rcases h with ⟨c, c', hx, hy, hsame⟩ | ⟨e, e', hx, hy⟩
  · exact .inl ⟨c', c, hy, hx, hsame.symm⟩
  · exact .inr ⟨e', e, hy, hx⟩

theorem SameOutcome.not_onlySecondIsDeep {x y : Except Fault Catalog} (h : SameOutcome x y) :
    ¬ OnlySecondIsDeep x y := by
  rintro ⟨⟨c, hc⟩, owner, hdeep⟩
  rcases h with ⟨_, _, -, hy, -⟩ | ⟨_, _, hx, -⟩
  · exact nomatch hy.symm.trans hdeep
  · exact nomatch hx.symm.trans hc

namespace Declarations

variable {ds ds' : Declarations}

/-- More than 32 settled structs embed each other in a row. -/
def HasLongPath (ds : Declarations) : Prop :=
  ∃ w, (Catalog.ofDeclarations ds).settle = .ok w ∧
    ∃ ids : List Nat, ids.IsChain w.Embeds ∧ 32 < ids.length

/-- Declarations in two orders settle alike, where no chain of names is too long. -/
theorem sameOutcome_settle (hperm : ds.types.Perm ds'.types)
    (hkeys : (ds.types.map Declaration.key).Nodup)
    (hshort : (Catalog.ofDeclarations ds).HasShortNames) :
    SameOutcome (Catalog.ofDeclarations ds).settle (Catalog.ofDeclarations ds').settle := by
  have hsame := Catalog.isReordered_ofDeclarations hperm hkeys
  cases hw : (Catalog.ofDeclarations ds).settle with
  | ok w =>
    obtain ⟨w', hw', hsettled⟩ := hsame.settle hshort hw
    exact .inl ⟨w, w', rfl, hw', hsettled.types⟩
  | error e =>
    cases hw' : (Catalog.ofDeclarations ds').settle with
    | ok w' =>
      obtain ⟨w, hok, -⟩ := hsame.symm.settle (hsame.hasShortNames hshort) hw'
      exact nomatch hw.symm.trans hok
    | error e' => exact .inr ⟨e, e', rfl, rfl⟩

/-- If one order gives a catalog, another one that settles alike gives the same declarations or has
a chain of embedded structs that is too long. -/
theorem flat_cases
    (hsettle : SameOutcome (Catalog.ofDeclarations ds).settle (Catalog.ofDeclarations ds').settle)
    {c : Catalog} (hc : ds.flat = .ok c) :
    (∃ c', ds'.flat = .ok c' ∧ c.types.Perm c'.types) ∨
      (∃ owner, ds'.flat = .error (.deepEmbedding owner chainLimit)) ∧
        ds.HasLongPath ∧ ds'.HasLongPath := by
  obtain ⟨w, hw, hflat⟩ := flat_eq_ok_iff.1 hc
  rcases hsettle with ⟨v, w', hv, hw', hperm⟩ | ⟨e, _, he, -⟩
  · obtain rfl := Except.ok.inj (hw.symm.trans hv)
    have hsettled : Catalog.IsReordered w w' :=
      ⟨hperm, Catalog.keys_eq_of_heads (Catalog.heads_settleAll hw) ▸
        Catalog.ofDeclarations_keys_nodup ds⟩
    have hrun : ds'.flat = w'.flatten := by
      rw [flat, hw']
      rfl
    rw [hrun]
    rcases hsettled.flatten hflat with ⟨c', hc', hsame⟩ | ⟨first, ids, hpath, hlength, hdeep⟩
    · exact .inl ⟨c', hc', hsame.types⟩
    · have hlong : 32 < (first :: ids).length := by
        rw [List.length_cons, hlength]
        exact Nat.lt_succ_self 32
      obtain ⟨ids', hpath', hlength'⟩ := hsettled.exists_path hpath
      exact .inr ⟨⟨_, hdeep⟩, ⟨w, hw, ids', hpath', hlength' ▸ hlong⟩, w', hw', _, hpath, hlong⟩
  · exact nomatch hw.symm.trans he

/-- Two orders that settle alike have the same outcome, or one of them has a chain of embedded
structs that is too long. -/
theorem sameOutcome_or_deep
    (hsettle : SameOutcome (Catalog.ofDeclarations ds).settle (Catalog.ofDeclarations ds').settle) :
    SameOutcome ds.flat ds'.flat ∨
      (OnlySecondIsDeep ds.flat ds'.flat ∨ OnlySecondIsDeep ds'.flat ds.flat) ∧
        ds.HasLongPath := by
  cases hx : ds.flat with
  | ok c =>
    rcases flat_cases hsettle hx with ⟨c', hy, hsame⟩ | ⟨hdeep, hlong, -⟩
    · exact .inl (.inl ⟨c, c', rfl, hy, hsame⟩)
    · exact .inr ⟨.inl ⟨⟨c, rfl⟩, hdeep⟩, hlong⟩
  | error e =>
    cases hy : ds'.flat with
    | error e' => exact .inl (.inr ⟨e, e', rfl, rfl⟩)
    | ok c' =>
      rcases flat_cases hsettle.symm hy with ⟨c, hc, -⟩ | ⟨hdeep, -, hlong⟩
      · exact nomatch hx.symm.trans hc
      · rw [hx] at hdeep
        exact .inr ⟨.inr ⟨⟨c', rfl⟩, hdeep⟩, hlong⟩

/-- **The order of declarations.** Where no chain of names is too long, two orders settle alike. Two
orders that settle alike have the same outcome exactly if none of them fails with a chain of
embedded structs that is too long while the other one does not fail; and they do if no chain of
embedded structs is longer than 32. -/
theorem flat_order (hperm : ds.types.Perm ds'.types)
    (hkeys : (ds.types.map Declaration.key).Nodup) :
    ((Catalog.ofDeclarations ds).HasShortNames →
      SameOutcome (Catalog.ofDeclarations ds).settle (Catalog.ofDeclarations ds').settle) ∧
      (SameOutcome (Catalog.ofDeclarations ds).settle (Catalog.ofDeclarations ds').settle →
        (SameOutcome ds.flat ds'.flat ↔
          ¬ OnlySecondIsDeep ds.flat ds'.flat ∧ ¬ OnlySecondIsDeep ds'.flat ds.flat) ∧
        (¬ ds.HasLongPath → SameOutcome ds.flat ds'.flat)) := by
  refine ⟨sameOutcome_settle hperm hkeys, fun hsettle => ?_⟩
  have hor := sameOutcome_or_deep hsettle
  refine ⟨⟨fun hsame => ?_, fun ⟨hno, hno'⟩ => ?_⟩, fun hpaths => ?_⟩
  · exact ⟨hsame.not_onlySecondIsDeep, hsame.symm.not_onlySecondIsDeep⟩
  · exact hor.resolve_right fun ⟨hdeep, _⟩ => hdeep.elim hno hno'
  · exact hor.resolve_right fun ⟨_, hlong⟩ => hpaths hlong

/-- A name for an instance, in front of the structs of `Catalog.garage`. -/
def garage : Declarations :=
  { types :=
      { plainBase with
        name := "Van"
        body := .defined (.named (some "m") none "Box" [.ofName "string"]) } ::
        Catalog.garage.types }

/-- The same declarations, from the last one on. -/
def garageReversed : Declarations := { types := garage.types.reverse }

theorem garage_order :
    garage.types.Perm garageReversed.types ∧ (garage.types.map Declaration.key).Nodup ∧
      (Catalog.ofDeclarations garage).HasShortNames ∧ ¬ garage.HasLongPath ∧
      SameOutcome garage.flat garageReversed.flat := by
  have hperm : garage.types.Perm garageReversed.types := (List.reverse_perm _).symm
  have hkeys : (garage.types.map Declaration.key).Nodup := by decide +kernel
  have hshort : (Catalog.ofDeclarations garage).HasShortNames := by decide +kernel
  have hsome : garage.flat.toOption.isSome = true := by decide +kernel
  obtain ⟨w, hw, hflat⟩ :=
    flat_eq_ok_iff.1 (eq_ok_of_toOption (Option.some_get hsome).symm : garage.flat = .ok _)
  have hlong : ¬ garage.HasLongPath := by
    rintro ⟨v, hv, ids, hpath, hlong⟩
    obtain rfl := Except.ok.inj (hw.symm.trans hv)
    have hlength : w.types.length = 5 := by
      rw [← Catalog.heads_length, Catalog.heads_settleAll hw, Catalog.heads_length]
      rfl
    match ids, hlong with
    | first :: next :: ids, hlong =>
      have hle := (Catalog.allFlat_of_flatten hflat).length_le hpath (List.cons_ne_nil next ids)
      omega
  exact ⟨hperm, hkeys, hshort, hlong,
    ((flat_order hperm hkeys).2 ((flat_order hperm hkeys).1 hshort)).2 hlong⟩

/-- The name `Nn`, which stands for the next one. -/
def rung (n : Nat) : Declaration :=
  { plainBase with
    name := "N" ++ toString n
    body := .defined (.named (some "m") none ("N" ++ toString (n + 1)) []) }

/-- A chain of 33 names that ends at a struct. -/
def ladder : List Declaration :=
  (List.range 33).map rung ++ [{ plainBase with name := "N33" }]

/-- Both bounds depend on the order: a chain of 33 structs is too long from its first struct on, but
not from its last one on; and the first of 33 names gets the fields of the struct at the end only if
the names behind it are settled. -/
theorem tower_and_ladder_order :
    (Catalog.tower.types.Perm Catalog.raised.types ∧
      (Catalog.tower.types.map Declaration.key).Nodup ∧
      ¬ SameOutcome (flat { types := Catalog.tower.types })
        (flat { types := Catalog.raised.types })) ∧
      ladder.Perm ladder.reverse ∧ (ladder.map Declaration.key).Nodup ∧
      ¬ SameOutcome (flat { types := ladder }) (flat { types := ladder.reverse }) := by
  refine ⟨⟨(List.reverse_perm _).symm, by decide +kernel, ?_⟩, (List.reverse_perm _).symm,
    by decide +kernel, ?_⟩
  · have hdeep : flat { types := Catalog.tower.types } = .error (.deepEmbedding "m.T0" 32) := by
      decide +kernel
    have hok : (flat { types := Catalog.raised.types }).toOption.isSome = true := by
      decide +kernel
    rintro (⟨_, _, hno, -, -⟩ | ⟨_, _, -, hno⟩)
    · exact nomatch hdeep.symm.trans hno
    · rw [hno] at hok
      cases hok
  · have hsome : (flat { types := ladder }).toOption.map (·.types.all Declaration.isRecord) =
        some false := by decide +kernel
    have hall : (flat { types := ladder.reverse }).toOption.map
        (·.types.all Declaration.isRecord) = some true := by decide +kernel
    rintro (⟨c, c', hc, hc', hperm⟩ | ⟨_, _, hno, -⟩)
    · rw [hc] at hsome
      rw [hc'] at hall
      have hsome' : c.types.all Declaration.isRecord = false := Option.some.inj hsome
      have hall' : c'.types.all Declaration.isRecord = true := Option.some.inj hall
      exact nomatch hsome'.symm.trans (hperm.all_eq.trans hall')
    · rw [hno] at hsome
      cases hsome

end Declarations

end GoSchema
