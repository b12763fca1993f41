/-
# Stages on similar catalogs

The stages before instantiation end alike on similar catalogs: settling and flattening fail with the
same fault or give similar catalogs again, and enums get the same values. A stage goes through the
numbers of the first catalog only; what else the second one has is of no account.

Key definitions: `Flattened.Similar`, `Promotion.Similar`.
Key theorems: `Catalog.Similar.fieldsBehind_cases`, `Catalog.Similar.settleAll`,
`Catalog.Similar.foldlM_addConstant_eq`, `Catalog.Similar.flattenFrom`,
`Catalog.Similar.flattenAll`.
-/
import GoSchema.Proofs.AlikeCatalogs
import GoSchema.Proofs.SimilarCatalogs

namespace GoSchema

open Outcome

variable {ok : String → Prop}

namespace Catalog.Similar

variable {c c' : Catalog} (h : Catalog.Similar ok id c c')
include h

theorem exists_get {i : Nat} (hi : i < c.types.length) :
    ∃ d d', c.get? i = some d ∧ c'.get? i = some d' ∧ d.Similar ok d' := by
  obtain ⟨d', hd', hs⟩ := h.get (List.getElem?_eq_getElem hi)
  exact ⟨_, d', List.getElem?_eq_getElem hi, hd', hs⟩

theorem nameOf_eq {i : Nat} (hi : i < c.types.length) : c'.nameOf i = c.nameOf i := by
  obtain ⟨d, d', hd, hd', hs⟩ := h.exists_get hi
  rw [nameOf, nameOf, hd, hd']
  exact hs.name

theorem labelOf_eq {i : Nat} (hi : i < c.types.length) : c'.labelOf i = c.labelOf i := by
  obtain ⟨d, d', hd, hd', hs⟩ := h.exists_get hi
  rw [labelOf, labelOf, hd, hd']
  exact hs.label

/-! ### Bodies and enums -/

omit h in
theorem lt_of_find {t : GoType} {i : Nat} {d : Declaration} (hf : c.find t = some (i, d)) :
    i < c.types.length :=
  (List.getElem?_eq_some_iff.1 (find_eq_some_iff.1 hf).2).1

theorem fieldsThrough_cases {room : Nat} (ih : ∀ i, i < c.types.length →
      (c.fieldsBehind room i = none ∧ c'.fieldsBehind room i = none) ∨
        ∃ fs fs', c.fieldsBehind room i = some fs ∧ c'.fieldsBehind room i = some fs' ∧
          FieldsSimilar ok fs fs') {t : GoType} (ht : t.AllNames ok) :
    (c.fieldsThrough room t = none ∧ c'.fieldsThrough room t = none) ∨
      ∃ fs fs', c.fieldsThrough room t = some fs ∧ c'.fieldsThrough room t = some fs' ∧
        FieldsSimilar ok fs fs' := by
  by_cases hn : t.isNamed
  · rw [fieldsThrough, fieldsThrough, if_pos hn, if_pos hn]
    rcases h.find_cases ht with ⟨hno, hno'⟩ | ⟨i, d, d', hd, hd', hs⟩
    · rw [hno, hno']
      exact .inl ⟨rfl, rfl⟩
    · rw [hd, hd', Option.bind_some, Option.bind_some]
      rcases ih i (lt_of_find hd) with ⟨hno, hno'⟩ | ⟨fs, fs', hfs, hfs', hsim⟩
      · rw [hno, show c'.fieldsBehind room (id i) = none from hno']
        exact .inl ⟨rfl, rfl⟩
      · rw [hfs, show c'.fieldsBehind room (id i) = some fs' from hfs', hs.typeParams]
        exact .inr ⟨_, _, rfl, rfl, hsim.subst d.typeParams ht.typeArgs⟩
  · rw [fieldsThrough, fieldsThrough, if_neg hn, if_neg hn]
    exact .inl ⟨rfl, rfl⟩

/-- The fields behind a name are similar. -/
theorem fieldsBehind_cases : ∀ (room : Nat) (i : Nat), i < c.types.length →
    (c.fieldsBehind room i = none ∧ c'.fieldsBehind room i = none) ∨
      ∃ fs fs', c.fieldsBehind room i = some fs ∧ c'.fieldsBehind room i = some fs' ∧
        FieldsSimilar ok fs fs'
  | 0, _, _ => .inl ⟨rfl, rfl⟩
  | room + 1, i, hi => by
    have through := fun {t} (ht : GoType.AllNames ok t) =>
      h.fieldsThrough_cases (fieldsBehind_cases room) ht
    obtain ⟨d, d', hd, hd', hs⟩ := h.exists_get hi
    rw [fieldsBehind_succ, fieldsBehind_succ, hd, hd', Option.bind_some, Option.bind_some]
    have hb := hs.body
    generalize d.body = b at hb
    generalize d'.body = b' at hb
    cases hb with
    | record hsim => exact .inr ⟨_, _, rfl, rfl, hsim⟩
    | defined ht | aliased ht => exact through ht

theorem settleBody {i : Nat} (hi : i < c.types.length) :
    Catalog.Similar ok id (c.settleBody i) (c'.settleBody i) := by
  unfold Catalog.settleBody
  rcases h.fieldsBehind_cases (chainLimit + 1) i hi with ⟨hno, hno'⟩ | ⟨fs, fs', hfs, hfs', hs⟩
  · rw [hno, hno']
    exact h
  · rw [hfs, hfs']
    exact h.setBody Function.injective_id (.record hs) i

theorem unfit?_eq {i : Nat} (hi : i < c.types.length) :
    (c'.get? i).bind unfit? = (c.get? i).bind unfit? := by
  obtain ⟨d, d', hd, hd', hs⟩ := h.exists_get hi
  rw [hd, hd', Option.bind_some, Option.bind_some]
  have hpath : d'.path = d.path := congrArg (·.path) hs.head
  simp only [unfit?, hs.isRecord, hs.requests, hs.enumRequest, hs.name, hpath]

omit h in
theorem length_settleBody (c : Catalog) (i : Nat) :
    (c.settleBody i).types.length = c.types.length := by
  unfold Catalog.settleBody
  split
  · rw [Catalog.setBody, modify_length]
  · rfl

omit h in
/-- **Settling keeps catalogs similar**, and fails on both with the same fault. -/
theorem settleAll : ∀ {ids : List Nat} {c c' : Catalog}, Catalog.Similar ok id c c' →
    (∀ i ∈ ids, i < c.types.length) →
    Outcome.Alike (Catalog.Similar ok id) (c.settleAll ids) (c'.settleAll ids)
  | [], _, _, h, _ => .ok h
  | i :: ids, c, c', h, hids => by
    obtain ⟨hi, hids⟩ := List.forall_mem_cons.1 hids
    have hnext := h.settleBody hi
    have hlength := length_settleBody c i
    unfold Catalog.settleAll
    dsimp only
    rw [hnext.unfit?_eq (hlength ▸ hi)]
    split
    · exact .error _
    · exact settleAll hnext fun j hj => by rw [hlength]; exact hids j hj

/-- A constant counts for the same enum. -/
theorem addConstant_eq {k : Constant} (hk : ∀ t, k.type = some t → t.AllNames ok)
    (values : EnumMembers) : c'.addConstant values k = c.addConstant values k := by
  unfold addConstant enumOf?
  cases ht : k.type with
  | none => rfl
  | some t =>
    rw [Option.bind_some, Option.bind_some]
    rcases h.find_cases (hk t ht) with ⟨hno, hno'⟩ | ⟨i, d, d', hd, hd', hs⟩
    · rw [hno, hno']
    · rw [hd, hd']
      have hvalue : enumValueOf d' k = enumValueOf d k := by
        rw [enumValueOf, enumValueOf, hs.name]
      by_cases hr : d.enumRequest.isSome
      · simp only [Option.filter, hr, hs.enumRequest, if_true, hvalue, hs.label]
        rfl
      · simp only [Option.filter, hr, hs.enumRequest]
        rfl

theorem foldlM_addConstant_eq : ∀ {consts : List Constant},
    (∀ k ∈ consts, ∀ t, k.type = some t → t.AllNames ok) → ∀ values : EnumMembers,
      consts.foldlM c'.addConstant values = consts.foldlM c.addConstant values
  | [], _, _ => rfl
  | k :: consts, hk, values => by
    obtain ⟨hhead, htail⟩ := List.forall_mem_cons.1 hk
    rw [List.foldlM_cons, List.foldlM_cons, h.addConstant_eq hhead]
    exact bind_congr fun next => foldlM_addConstant_eq htail next

end Catalog.Similar

/-! ### Flat structs -/

/-- The same structs are done, with similar fields. -/
abbrev Flattened.Similar (ok : String → Prop) : Flattened → Flattened → Prop :=
  List.Forall₂ fun p p' => p.1 = p'.1 ∧ FieldsSimilar ok p.2 p'.2

/-- Similar fields so far. -/
structure Promotion.Similar (ok : String → Prop) (p p' : Promotion) : Prop where
  promoted : FieldsSimilar ok p.promoted p'.promoted
  declared : FieldsSimilar ok p.declared p'.declared
  done : Flattened.Similar ok p.done p'.done

/-- What flattening one struct gives is similar. -/
abbrev FlatSimilar (ok : String → Prop) (r r' : List Field × Flattened) : Prop :=
  FieldsSimilar ok r.1 r'.1 ∧ Flattened.Similar ok r.2 r'.2

namespace Promotion

theorem promote_alike (owner : String) : ∀ {fs fs' ps ps' : List Field}, FieldsSimilar ok fs fs' →
    FieldsSimilar ok ps ps' →
    Outcome.Alike (FieldsSimilar ok) (promote owner ps fs) (promote owner ps' fs')
  | [], _, _, _, .nil, hps => .ok hps
  | f :: fs, f' :: fs', ps, ps', .cons hf hfs, hps => by
    unfold promote
    have hfind := Pointwise.find?_cases hps
      (p := fun p => p.goName.isSome && p.goName = f.goName)
      (q := fun p => p.goName.isSome && p.goName = f'.goName)
      fun p p' hp => by rw [hp.goName, hf.goName]
    rcases hfind with ⟨hno, hno'⟩ | ⟨p, p', hp, hp', hs⟩
    · rw [hno, hno']
      exact promote_alike owner hfs (List.rel_append hps (.cons hf .nil))
    · rw [hp, hp']
      dsimp only
      rw [hs.origin, hf.goName, hf.origin]
      exact .error _

theorem Similar.fields {p p' : Promotion} (h : p.Similar ok p') :
    FieldsSimilar ok p.fields p'.fields := by
  have hremains : ∀ f f', Field.Similar ok f f' →
      remains p.declared f = remains p'.declared f' := by
    intro f f' hf
    rw [remains, remains, hf.isEmbedded]
    congr 2
    exact Pointwise.any_eq h.declared fun g g' hg => by rw [hg.goName, hf.goName]
  exact List.rel_append (Pointwise.filter h.promoted hremains) h.declared

end Promotion

namespace Catalog.Similar

variable {c c' : Catalog} (h : Catalog.Similar ok id c c')
include h

theorem addField {flat flat' : Flattened → Nat → Except Fault (List Field × Flattened)}
    (hflat : ∀ done done' i, i < c.types.length → Flattened.Similar ok done done' →
      Outcome.Alike (FlatSimilar ok) (flat done i) (flat' done' i))
    (owner : String) {p p' : Promotion} (hp : p.Similar ok p') {f f' : Field}
    (hf : Field.Similar ok f f') :
    Outcome.Alike (Promotion.Similar ok) (c.addField owner flat p f)
      (c'.addField owner flat' p' f') := by
  have hdeclare : ∀ {g g'}, Field.Similar ok g g' →
      Promotion.Similar ok { p with declared := p.declared ++ [g] }
        { p' with declared := p'.declared ++ [g'] } := fun hg =>
    ⟨hp.promoted, List.rel_append hp.declared (.cons hg .nil), hp.done⟩
  unfold Catalog.addField
  by_cases he : f.isEmbedded = true
  · obtain ⟨hsame, hnames⟩ := hf.eq_of_embedded he
    rw [hsame]
    have hne : ¬ (!f.isEmbedded) = true := by simp [he]
    rw [if_neg hne, if_neg hne]
    rcases h.find_cases hnames with ⟨hno, hno'⟩ | ⟨i, d, d', hd, hd', hs⟩
    · rw [hno, hno']
      dsimp only
      by_cases ho : isOptedOut f
      · rw [if_pos ho, if_pos ho]
        exact .ok hp
      · rw [if_neg ho, if_neg ho]
        exact .ok (hdeclare (.same hnames))
    · rw [hd, hd']
      dsimp only
      rw [hs.isRecord]
      by_cases hr : d.isRecord
      · rw [if_pos hr, if_pos hr]
        have hrec := hflat p.done p'.done i (lt_of_find hd) hp.done
        rw [show flat' p'.done (id i) = flat' p'.done i from rfl]
        generalize flat p.done i = x at hrec
        generalize flat' p'.done i = y at hrec
        cases hrec with
        | error e => exact .error e
        | ok hrec =>
          rw [hs.typeParams]
          have hinner := hrec.1.subst d.typeParams hnames.typeArgs
          exact (Promotion.promote_alike owner hinner hp.promoted).map fun _ _ hps =>
            ⟨hps, hp.declared, hrec.2⟩
      · rw [if_neg hr, if_neg hr, hs.name]
        exact .ok (hdeclare (.same hnames))
  · rw [if_pos (by simp [he]), if_pos (by simp [hf.isEmbedded, he])]
    exact .ok (hdeclare hf)

omit h in
theorem chain_lt_concat {bound i : Nat} {chain : List Nat} (hchain : ∀ j ∈ chain, j < bound)
    (hi : i < bound) : ∀ j ∈ chain ++ [i], j < bound := by
  intro j hj
  rcases List.mem_append.1 hj with hj | hj
  · exact hchain j hj
  · rwa [List.mem_singleton.1 hj]

omit h in
theorem chain_lt {bound i : Nat} {chain : List Nat} (hchain : ∀ j ∈ chain, j < bound)
    (hi : i < bound) : ∀ j ∈ chain.dropWhile (· ≠ i) ++ [i], j < bound := by
  refine chain_lt_concat (fun j hj => ?_) hi
  exact hchain j ((List.dropWhile_sublist _).subset hj)

omit h in
theorem head_lt {bound i : Nat} {chain : List Nat} (hchain : ∀ j ∈ chain, j < bound)
    (hi : i < bound) : chain.head?.getD i < bound := by
  cases chain with
  | nil => exact hi
  | cons j chain => exact hchain j List.mem_cons_self

theorem map_nameOf_eq {ids : List Nat} (hids : ∀ j ∈ ids, j < c.types.length) :
    ids.map c'.nameOf = ids.map c.nameOf :=
  List.map_congr_left fun j hj => h.nameOf_eq (hids j hj)

/-- **Flattening a struct ends alike.** The induction is on the number of structs that may still be
entered; the numbers on the way are those of the first catalog. -/
theorem flattenFrom : ∀ (room : Nat) {chain : List Nat} {done done' : Flattened} {i : Nat},
    (∀ j ∈ chain, j < c.types.length) → i < c.types.length → Flattened.Similar ok done done' →
    Outcome.Alike (FlatSimilar ok) (c.flattenFrom room chain done i)
      (c'.flattenFrom room chain done' i) := by
  intro room
  induction room with
  | zero =>
    intro chain done done' i hchain hi hdone
    unfold Catalog.flattenFrom
    rcases Pointwise.lookup_cases hdone i with ⟨hno, hno'⟩ | ⟨fs, fs', hfs, hfs', hs⟩
    · rw [hno, hno']
      dsimp only
      by_cases hmem : chain.contains i
      · rw [if_pos hmem, if_pos hmem, h.map_nameOf_eq (chain_lt hchain hi)]
        exact .error _
      · rw [if_neg hmem, if_neg hmem, h.labelOf_eq (head_lt hchain hi)]
        exact .error _
    · rw [hfs, hfs']
      exact .ok ⟨hs, hdone⟩
  | succ room ih =>
    intro chain done done' i hchain hi hdone
    unfold Catalog.flattenFrom
    rcases Pointwise.lookup_cases hdone i with ⟨hno, hno'⟩ | ⟨fs, fs', hfs, hfs', hs⟩
    · rw [hno, hno']
      dsimp only
      by_cases hmem : chain.contains i
      · rw [if_pos hmem, if_pos hmem, h.map_nameOf_eq (chain_lt hchain hi)]
        exact .error _
      · rw [if_neg hmem, if_neg hmem]
        obtain ⟨d, d', hd, hd', hs⟩ := h.exists_get hi
        rw [hd, hd']
        dsimp only
        have hb := hs.body
        rw [hs.label]
        generalize d.body = b at hb
        generalize d'.body = b' at hb
        cases hb with
        | record hfs =>
          have hempty : Promotion.Similar ok { done } { done := done' } := ⟨.nil, .nil, hdone⟩
          have hflat : ∀ done done' j, j < c.types.length → Flattened.Similar ok done done' →
              Outcome.Alike (FlatSimilar ok) (c.flattenFrom room (chain ++ [i]) done j)
                (c'.flattenFrom room (chain ++ [i]) done' j) :=
            fun _ _ _ hj hdone => ih (chain_lt_concat hchain hi) hj hdone
          have hfold := Outcome.Alike.foldlM (R := Promotion.Similar ok) (S := Field.Similar ok)
            (fun p p' f f' hp hf => h.addField hflat d.label hp hf) hfs hempty
          dsimp only
          generalize List.foldlM (c.addField d.label _) _ _ = x at hfold ⊢
          generalize List.foldlM (c'.addField d.label _) _ _ = y at hfold ⊢
          cases hfold with
          | error e => exact .error e
          | ok hp => exact .ok ⟨hp.fields, .cons ⟨rfl, hp.fields⟩ hp.done⟩
        | defined | aliased => exact .ok ⟨.nil, hdone⟩
    · rw [hfs, hfs']
      exact .ok ⟨hs, hdone⟩

theorem flattenAll : ∀ {ids : List Nat} {done done' : Flattened},
    (∀ j ∈ ids, j < c.types.length) → Flattened.Similar ok done done' →
    Outcome.Alike (Flattened.Similar ok) (c.flattenAll done ids) (c'.flattenAll done' ids)
  | [], _, _, _, hdone => .ok hdone
  | i :: ids, done, done', hids, hdone => by
    obtain ⟨hi, hids⟩ := List.forall_mem_cons.1 hids
    obtain ⟨d, d', hd, hd', hs⟩ := h.exists_get hi
    unfold Catalog.flattenAll
    rw [hd, hd']
    simp only [Option.map_some, Option.getD_some, hs.isRecord]
    by_cases hr : d.isRecord
    · rw [if_pos hr, if_pos hr]
      have hnone : ∀ j ∈ ([] : List Nat), j < c.types.length := by simp
      have hflat := h.flattenFrom chainLimit hnone hi hdone
      generalize c.flattenFrom chainLimit [] done i = x at hflat
      generalize c'.flattenFrom chainLimit [] done' i = y at hflat
      cases hflat with
      | error e => exact .error e
      | ok hflat => exact flattenAll hids hflat.2
    · rw [if_neg hr, if_neg hr]
      exact flattenAll hids hdone

omit h in
theorem foldl_setBody : ∀ {done done' : Flattened} {c c' : Catalog}, Catalog.Similar ok id c c' →
    Flattened.Similar ok done done' →
    Catalog.Similar ok id (done.foldl (fun c (id, fields) => c.setBody id (.record fields)) c)
      (done'.foldl (fun c (id, fields) => c.setBody id (.record fields)) c')
  | [], [], _, _, h, .nil => h
  | (i, fs) :: _, (_, fs') :: _, _, _, h, .cons ⟨rfl, hs⟩ hdone => by
    rw [List.foldl_cons, List.foldl_cons]
    exact foldl_setBody (h.setBody Function.injective_id (.record hs) i) hdone

end Catalog.Similar

end GoSchema
