/-
# Fields with type arguments

Structs are flattened first, and generic structs get their type arguments afterwards. That is as if
they had got them before: the flat fields of a generic struct, with arguments for its parameters,
are the flat fields of the struct whose own fields have the arguments, or flattening fails with the
same fault. A parameter travels through the fields of embedded structs with parameters of the same
names, but only inside of arguments; what is left of the embedded struct itself are its own
parameters, which all have arguments, and predeclared names, which are no parameters.

Key definitions: `Catalog.HasScopes`, `Catalog.IsProper`, `Catalog.FieldFits`.
Key theorems: `Catalog.FieldFits.subst`, `Catalog.IsProper.settle`,
`Catalog.IsProper.fits_of_isFlat`, `Catalog.flattenFrom_setBody`,
`Catalog.IsProper.addField_subst`, `Catalog.IsProper.flattenFrom_subst`, `Catalog.flatten_subst`.
-/
import GoSchema.Catalog.Instance
import GoSchema.Proofs.FlatStructs
import GoSchema.Proofs.TypeArguments

namespace GoSchema

open Outcome

namespace Catalog

variable {c c' w : Catalog} {params params' : List String} {args : List GoType}

/-- Whether every bare name in a declaration is one of its type parameters, or predeclared. -/
def HasScopes (c : Catalog) : Prop :=
  ∀ d ∈ c.types, ∀ t ∈ d.body.types, ∀ name ∈ t.bareNames,
    name ∈ d.typeParams ∨ name ∈ predeclared

/-- Catalogs where type parameters cannot be mistaken for anything else. -/
structure IsProper (c : Catalog) : Prop where
  scopes : c.HasScopes
  /-- No type parameter is named like a predeclared type. -/
  params : ∀ d ∈ c.types, ∀ name ∈ d.typeParams, name ∉ predeclared
  /-- Every reference to a declaration has an argument for each of its parameters. -/
  full : ∀ d ∈ c.types, ∀ t ∈ d.body.types, ∀ u ∈ t.within, u.isNamed = true →
    ∀ x ∈ c.find u, x.2.typeParams.length ≤ u.typeArgs.length
  /-- No embedded field is a bare type parameter, or a pointer to one. -/
  embedded : ∀ d ∈ c.types, ∀ f ∈ d.body.fields, f.isEmbedded = true →
    f.type.isParameterOf d.typeParams = false

/-- Whether the type of a field makes sense where these type parameters are in scope. -/
structure FieldFits (c : Catalog) (params : List String) (f : Field) : Prop where
  type : c.FitsScope params f.type
  proper : f.isEmbedded = true → f.type.isParameterOf params = false

theorem isParameterOf_eq_false_iff {t : GoType} :
    t.isParameterOf params = false ↔
      ∀ name, t.stripPointers.bareName? = some name → name ∉ params := by
  unfold GoType.isParameterOf GoType.bareName?
  split <;> simp_all

/-- A field with sound arguments for all parameters fits as well. -/
theorem FieldFits.subst {f : Field} (h : c.FieldFits params f)
    (hfull : params.length ≤ args.length) (hargs : ∀ a ∈ args, c.FitsScope params' a)
    (hparams : ∀ name ∈ params', name ∉ predeclared) :
    c.FieldFits params' (f.subst params args) where
  type := h.type.subst hfull hargs
  proper he := by
    have hf : f.type.isParameterOf params = false := h.proper he
    refine isParameterOf_eq_false_iff.2 fun name hname hmem => ?_
    rw [Field.subst, GoType.stripPointers_subst args hf] at hname
    cases hbare : f.type.stripPointers.bareName? with
    | none => cases (GoType.bareName?_subst hbare).symm.trans hname
    | some own =>
      -- a bare name that is no parameter stays, and it is predeclared
      have hown := isParameterOf_eq_false_iff.1 hf own hbare
      rw [GoType.subst_of_bareName? hbare, GoType.argFor_eq_none hown, Option.getD_none] at hname
      obtain rfl := Option.some.inj (hbare.symm.trans hname)
      rcases h.type.bare own (GoType.mem_bareNames.2
        ⟨_, GoType.stripPointers_mem_within _, hbare⟩) with hno | hpredeclared
      · exact hown hno
      · exact hparams own hmem hpredeclared

theorem mem_types_of_mem_fields {b : Body} {f : Field} (h : f ∈ b.fields) : f.type ∈ b.types := by
  cases b with
  | record fs => exact List.mem_map_of_mem h
  | defined t | aliased t => cases h

namespace IsProper

theorem fits (h : c.IsProper) {d : Declaration} (hd : d ∈ c.types) {t : GoType}
    (ht : t ∈ d.body.types) : c.FitsScope d.typeParams t where
  bare := h.scopes d hd t ht
  full := h.full d hd t ht

theorem fieldFits (h : c.IsProper) {d : Declaration} (hd : d ∈ c.types) {f : Field}
    (hf : f ∈ d.body.fields) : c.FieldFits d.typeParams f where
  type := h.fits hd (mem_types_of_mem_fields hf)
  proper := h.embedded d hd f hf

theorem fieldFits_subst (h : c.IsProper) {d : Declaration} (hd : d ∈ c.types) {t : GoType}
    (ht : c.FitsScope d.typeParams t) {x : Nat × Declaration} (hx : c.find t = some x) {f : Field}
    (hf : c.FieldFits x.2.typeParams f) :
    c.FieldFits d.typeParams (f.subst x.2.typeParams t.typeArgs) :=
  hf.subst (ht.length_le hx) (fun _ ha => ht.of_mem_typeArgs ha) (h.params d hd)

/-! ### Bodies behind names -/

/-- The fields behind a name fit its scope. -/
theorem fits_of_fieldsBehind (h : c.IsProper) : ∀ {room id : Nat} {d : Declaration}
    {fs : List Field}, c.get? id = some d → c.fieldsBehind room id = some fs →
      ∀ f ∈ fs, c.FieldFits d.typeParams f
  | 0, _, _, _, _, hfs => nomatch hfs
  | room + 1, id, d, fs, hd, hfs => by
    have hmem : d ∈ c.types := List.mem_of_getElem? hd
    have through : ∀ t ∈ d.body.types, c.fieldsThrough room t = some fs →
        ∀ f ∈ fs, c.FieldFits d.typeParams f := by
      intro t ht hthrough
      unfold fieldsThrough at hthrough
      split at hthrough
      · obtain ⟨⟨i, e⟩, hfind, hmap⟩ := Option.bind_eq_some_iff.1 hthrough
        obtain ⟨gs, hgs, rfl⟩ := Option.map_eq_some_iff.1 hmap
        have hinner := fits_of_fieldsBehind h (find_eq_some_iff.1 hfind).2 hgs
        intro f hf
        obtain ⟨g, hg, rfl⟩ := List.mem_map.1 hf
        exact h.fieldFits_subst hmem (h.fits hmem ht) hfind (hinner g hg)
      · cases hthrough
    rw [fieldsBehind_succ, hd, Option.bind_some] at hfs
    cases hb : d.body with
    | record own =>
      rw [hb] at hfs
      obtain rfl := Option.some.inj hfs
      exact fun f hf => h.fieldFits hmem (by rwa [hb])
    | defined t | aliased t =>
      rw [hb] at hfs
      exact through t (by rw [hb]; exact List.mem_singleton_self t) hfs

theorem typeParams_of_find (hh : c'.heads = c.heads) {t : GoType} {x' : Nat × Declaration}
    (hx' : c'.find t = some x') : ∃ x, c.find t = some x ∧ x.2.typeParams = x'.2.typeParams := by
  obtain ⟨hid, hd'⟩ := find_eq_some_iff.1 hx'
  obtain ⟨d, hd, heq⟩ := exists_get?_of_heads hh hd'
  have hparams : d.head.typeParams = x'.2.head.typeParams := congrArg Declaration.typeParams heq
  refine ⟨(x'.1, d), find_eq_some_iff.2 ⟨?_, hd⟩, hparams⟩
  rwa [← idOfType?_eq_of_heads hh]

/-- A proper catalog stays proper when a declaration gets fields that fit its scope. -/
theorem setBody (h : c.IsProper) {id : Nat} {d : Declaration} (hd : c.get? id = some d)
    {fs : List Field} (hfs : ∀ f ∈ fs, c.FieldFits d.typeParams f) :
    (c.setBody id (.record fs)).IsProper := by
  have hmem : d ∈ c.types := List.mem_of_getElem? hd
  have hcases : ∀ e ∈ (c.setBody id (.record fs)).types,
      e ∈ c.types ∨ e = { d with body := .record fs } := by
    intro e he
    obtain ⟨i, hi⟩ := List.mem_iff_getElem?.1 he
    by_cases hne : id = i
    · subst hne
      exact .inr (Option.some.inj (hi.symm.trans (get?_setBody_self hd _)))
    · exact .inl (List.mem_of_getElem? ((get?_setBody_ne hne _).symm.trans hi))
  have htype : ∀ t ∈ (Body.record fs).types, c.FitsScope d.typeParams t := by
    intro t ht
    obtain ⟨f, hf, rfl⟩ := List.mem_map.1 ht
    exact (hfs f hf).type
  refine ⟨fun e he t ht => ?_, fun e he => ?_, fun e he t ht u hu hnamed x' hx' => ?_,
    fun e he f hf => ?_⟩
  · rcases hcases e he with he | rfl
    · exact h.scopes e he t ht
    · exact (htype t ht).bare
  · rcases hcases e he with he | rfl
    · exact h.params e he
    · exact h.params d hmem
  · obtain ⟨x, hx, hparams⟩ := typeParams_of_find (heads_setBody c id _) hx'
    rw [← hparams]
    rcases hcases e he with he | rfl
    · exact h.full e he t ht u hu hnamed x hx
    · exact (htype t ht).full u hu hnamed x hx
  · rcases hcases e he with he | rfl
    · exact h.embedded e he f hf
    · exact (hfs f hf).proper

theorem settleBody (h : c.IsProper) (id : Nat) : (c.settleBody id).IsProper := by
  unfold Catalog.settleBody
  split
  · rename_i fs hfs
    cases hd : c.get? id with
    | none => simp [fieldsBehind_succ, hd] at hfs
    | some d => exact h.setBody hd (h.fits_of_fieldsBehind hd hfs)
  · exact h

theorem settleAll : ∀ {ids : List Nat} {c w : Catalog}, c.IsProper → c.settleAll ids = .ok w →
    w.IsProper
  | [], c, w, h, hw => by rwa [← Except.ok.inj hw]
  | id :: ids, c, w, h, hw => by
    unfold Catalog.settleAll at hw
    dsimp only at hw
    split at hw
    · cases hw
    · exact settleAll (h.settleBody id) hw

/-- **Settling keeps a catalog proper.** -/
theorem settle (h : c.IsProper) (hw : c.settle = .ok w) : w.IsProper := h.settleAll hw

/-! ### Flat fields -/

/-- **Flat fields fit the scope of their struct.** -/
theorem fits_of_isFlat (h : c.IsProper) {id : Nat} {fs : List Field} (hflat : c.IsFlat id fs) :
    ∀ d, c.get? id = some d → ∀ f ∈ fs, c.FieldFits d.typeParams f := by
  induction hflat with
  | @struct id d flat hd hr _ _ ih =>
    intro e he f hf
    obtain rfl := Option.some.inj (hd.symm.trans he)
    have hmem : d ∈ c.types := List.mem_of_getElem? hd
    rcases List.mem_append.1 hf with hf | hf
    · obtain ⟨own, hown, hf⟩ := List.mem_flatMap.1 (List.mem_filter.1 hf).1
      cases hx : c.embedded? own with
      | none =>
        rw [handedOn_of_none hx] at hf
        exact absurd hf List.not_mem_nil
      | some x =>
        rw [handedOn_of_some hx] at hf
        obtain ⟨g, hg, rfl⟩ := List.mem_map.1 hf
        have hfind := (embedded?_eq_some_iff.1 hx).2.1
        have hinner := ih x.1 (embeds_of_mem hd hown hx) x.2 (embedded?_get? hx).1 g hg
        exact h.fieldFits_subst hmem (h.fieldFits hmem hown).type hfind hinner
    · obtain ⟨own, hown, hf⟩ := List.mem_filterMap.1 hf
      have hfits := h.fieldFits hmem hown
      unfold declared? at hf
      split at hf
      · split at hf
        · split at hf
          · cases hf
          · rwa [← Option.some.inj hf]
        · split at hf
          · cases hf
          · rw [← Option.some.inj hf]
            exact ⟨hfits.type, fun hno => (nomatch hno)⟩
      · rwa [← Option.some.inj hf]

end IsProper

/-- Taking a field into account reads no fields of the catalog. -/
theorem addField_setBody {id : Nat} {d : Declaration} (hd : c.get? id = some d)
    (hr : d.isRecord = true) (fs : List Field) :
    (c.setBody id (.record fs)).addField = c.addField := by
  funext owner run p f
  have hid : (c.setBody id (.record fs)).idOfType? f.type = c.idOfType? f.type :=
    idOfType?_eq_of_heads (heads_setBody c id _) f.type
  unfold addField find
  rw [hid]
  cases c.idOfType? f.type with
  | none => rfl
  | some i =>
    by_cases hi : id = i
    · subst hi
      have hr' : ({ d with body := .record fs } : Declaration).isRecord = true := rfl
      simp only [Option.bind_some, get?_setBody_self hd, hd, Option.map_some, hr, hr']
    · simp only [Option.bind_some, get?_setBody_ne hi]

theorem nameOf_setBody (c : Catalog) (id : Nat) (body : Body) :
    (c.setBody id body).nameOf = c.nameOf := by
  funext i
  have hheads := congrArg (·[i]?) (heads_setBody c id body)
  simp only [heads_getElem?] at hheads
  have hname := congrArg (Option.map Declaration.name) hheads
  rw [Option.map_map, Option.map_map] at hname
  exact congrArg (Option.getD · "") hname

theorem labelOf_setBody (c : Catalog) (id : Nat) (body : Body) :
    (c.setBody id body).labelOf = c.labelOf := by
  funext i
  have hheads := congrArg (·[i]?) (heads_setBody c id body)
  simp only [heads_getElem?] at hheads
  have hlabel := congrArg (Option.map Declaration.label) hheads
  rw [Option.map_map, Option.map_map] at hlabel
  exact congrArg (Option.getD · "") hlabel

/-- **Inside of a struct its own fields do not matter**: coming back to it is a fault. -/
theorem flattenFrom_setBody {id : Nat} {d : Declaration} (hd : c.get? id = some d)
    (hr : d.isRecord = true) (fs : List Field) : ∀ (room : Nat) {chain : List Nat}
    (done : Flattened) (i : Nat), id ∈ chain →
      (c.setBody id (.record fs)).flattenFrom room chain done i = c.flattenFrom room chain done i
  | 0, chain, done, i, hid => by
    rw [flattenFrom, flattenFrom, nameOf_setBody, labelOf_setBody]
  | room + 1, chain, done, i, hid => by
    rw [flattenFrom, flattenFrom, nameOf_setBody]
    have hinner : (c.setBody id (.record fs)).flattenFrom room (chain ++ [i]) =
        c.flattenFrom room (chain ++ [i]) := by
      funext done' j
      exact flattenFrom_setBody hd hr fs room done' j (List.mem_append_left _ hid)
    by_cases hi : id = i
    · subst hi
      simp [hid]
    · rw [get?_setBody_ne hi, addField_setBody hd hr, hinner]

/-! ### Fields with arguments -/

variable {owner : String}

theorem promote_map_subst (params : List String) (args : List GoType) : ∀ (fs ps : List Field),
    Promotion.promote owner (ps.map (Field.subst params args)) (fs.map (Field.subst params args)) =
      (Promotion.promote owner ps fs).map (·.map (Field.subst params args))
  | [], _ => rfl
  | f :: fs, ps => by
    have hfind : (ps.map (Field.subst params args)).find?
        (fun p => p.goName.isSome && p.goName = (f.subst params args).goName) =
          (ps.find? fun p => p.goName.isSome && p.goName = f.goName).map
            (Field.subst params args) :=
      List.find?_map ..
    rw [List.map_cons, Promotion.promote, Promotion.promote, hfind]
    cases ps.find? fun p => p.goName.isSome && p.goName = f.goName with
    | none =>
      have hrest := promote_map_subst params args fs (ps ++ [f])
      rwa [List.map_append] at hrest
    | some first => rfl

theorem fields_map_subst (params : List String) (args : List GoType)
    (promoted declared : List Field) (done : Flattened) :
    (Promotion.mk (promoted.map (Field.subst params args))
        (declared.map (Field.subst params args)) done).fields =
      (Promotion.mk promoted declared done).fields.map (Field.subst params args) := by
  have hremains : Promotion.remains (declared.map (Field.subst params args)) ∘
      Field.subst params args = Promotion.remains declared := by
    funext p
    simp only [Function.comp, Promotion.remains, List.any_map]
    rfl
  unfold Promotion.fields
  rw [List.filter_map, hremains, List.map_append]

theorem typeArgs_subst {t : GoType} (h : t.isParameterOf params = false) :
    (t.subst params args).typeArgs = t.typeArgs.map (GoType.subst params args) := by
  unfold GoType.typeArgs
  rw [GoType.stripPointers_subst args h]
  cases ht : t.stripPointers with
  | named package q name own =>
    cases hbare : (GoType.named package q name own).bareName? with
    | none => rw [GoType.subst_named hbare]
    | some bare =>
      obtain ⟨q', heq⟩ := GoType.bareName?_eq_some_iff.1 hbare
      have hno := isParameterOf_eq_false_iff.1 h bare (by rw [ht]; exact hbare)
      rw [GoType.subst_of_bareName? hbare, GoType.argFor_eq_none hno, Option.getD_none, heq]
      rfl
  | pointer t | slice t | array t => rfl
  | map k v => rfl
  | any => rfl
  | other text => rfl

theorem declared?_subst (args : List GoType) {f : Field}
    (h : f.isEmbedded = true → f.type.isParameterOf params = false) :
    c.declared? (f.subst params args) = (c.declared? f).map (Field.subst params args) := by
  have hsame : (f.subst params args).isEmbedded = f.isEmbedded := rfl
  unfold declared?
  rw [hsame]
  by_cases he : f.isEmbedded = true
  · have hfind : c.find (f.subst params args).type = c.find f.type := by
      rw [find, Field.subst, idOfType?_subst c args (h he)]
      rfl
    rw [if_pos he, if_pos he, hfind]
    cases c.find f.type with
    | none =>
      dsimp only
      rw [show isOptedOut (f.subst params args) = isOptedOut f from rfl]
      split <;> rfl
    | some x =>
      dsimp only
      split <;> rfl
  · rw [if_neg he, if_neg he]
    rfl

/-- What a struct has gathered from its fields, and what it gathers when they have arguments. -/
structure GatheredWith (c : Catalog) (params : List String) (args : List GoType)
    (p p' : Promotion) : Prop where
  promoted : p'.promoted = p.promoted.map (Field.subst params args)
  declared : p'.declared = p.declared.map (Field.subst params args)
  done : p'.done = p.done
  sound : c.IsSound p.done

/-- **One field more, with arguments.** What an embedded struct hands on first has its own
parameters replaced, by arguments that then have the parameters of the outer struct replaced. -/
theorem IsProper.addField_subst (h : c.IsProper)
    {run : Flattened → Nat → Except Fault (List Field × Flattened)} (hrun : c.Computes run)
    {d : Declaration} (hd : d ∈ c.types) {f : Field} (hf : f ∈ d.body.fields)
    {p p' : Promotion} (hp : c.GatheredWith d.typeParams args p p') :
    Outcome.Alike (c.GatheredWith d.typeParams args) (c.addField owner run p f)
      (c.addField owner run p' (f.subst d.typeParams args)) := by
  have hfits := h.fieldFits hd hf
  rw [addField_eq, addField_eq]
  cases hx : c.embedded? f with
  | none =>
    have hx' : c.embedded? (f.subst d.typeParams args) = none := by
      by_cases he : f.isEmbedded = true
      · rwa [embedded?_subst args (hfits.proper he)]
      · exact if_neg he
    rw [hx', declared?_subst args hfits.proper]
    refine .ok ⟨hp.promoted, ?_, hp.done, hp.sound⟩
    rw [hp.declared, List.map_append]
    cases c.declared? f <;> rfl
  | some x =>
    obtain ⟨i, base⟩ := x
    obtain ⟨he, hfind, hr⟩ := embedded?_eq_some_iff.1 hx
    have hproper := hfits.proper he
    rw [embedded?_subst args hproper, hx]
    dsimp only
    rw [hp.done]
    cases hinner : run p.done i with
    | error e => exact .error e
    | ok y =>
      obtain ⟨inner, done⟩ := y
      obtain ⟨hflat, hsound⟩ := hrun (embedded?_get? hx).1 hr hp.sound hinner
      have hlength : base.typeParams.length ≤ f.type.typeArgs.length := hfits.type.length_le hfind
      have hhanded : inner.map (Field.subst base.typeParams
          (f.subst d.typeParams args).type.typeArgs) =
          (inner.map (Field.subst base.typeParams f.type.typeArgs)).map
            (Field.subst d.typeParams args) := by
        rw [List.map_map]
        refine List.map_congr_left fun g hg => ?_
        have hg := (h.fits_of_isFlat hflat base (embedded?_get? hx).1 g hg).type
        simp only [Function.comp, Field.subst, typeArgs_subst hproper]
        rw [GoType.subst_subst hlength fun name hname hparam => ?_]
        -- a bare name in the embedded struct is its own parameter, or predeclared
        rcases hg.bare name hname with hown | hpredeclared
        · exact hown
        · exact absurd hpredeclared (h.params d hd name hparam)
      show Outcome.Alike _ (Except.map _ _) (Except.map _ _)
      rw [hhanded, hp.promoted, promote_map_subst]
      cases Promotion.promote owner p.promoted
        (inner.map (Field.subst base.typeParams f.type.typeArgs)) with
      | error e => exact .error e
      | ok promoted => exact .ok ⟨rfl, hp.declared, rfl, hsound⟩

/-- The outcomes of flattening a struct, and of flattening the struct with arguments. -/
def FlatWith (id : Nat) (params : List String) (args : List GoType)
    (x x' : List Field × Flattened) : Prop :=
  x'.1 = x.1.map (Field.subst params args) ∧
    ∃ done, x.2 = (id, x.1) :: done ∧ x'.2 = (id, x'.1) :: done

theorem flattenFrom_circular {id : Nat} {chain : List Nat} {done : Flattened}
    (hnew : done.lookup id = none) (hid : id ∈ chain) (room : Nat) :
    c.flattenFrom room chain done id =
      .error (.circularEmbedding ((chain.dropWhile (· ≠ id) ++ [id]).map c.nameOf)) := by
  unfold flattenFrom
  simp [hnew, hid]

theorem flattenFrom_struct {id : Nat} {d : Declaration} (hd : c.get? id = some d)
    (hr : d.isRecord = true) {chain : List Nat} {done : Flattened} (hnew : done.lookup id = none)
    (hid : id ∉ chain) (room : Nat) :
    c.flattenFrom (room + 1) chain done id =
      (d.body.fields.foldlM (c.addField d.label (c.flattenFrom room (chain ++ [id])))
        { done }).map fun p => (p.fields, (id, p.fields) :: p.done) := by
  have hcontains : chain.contains id = false := by simpa using hid
  rw [flattenFrom, hnew]
  dsimp only
  rw [hcontains, hd]
  generalize hfields : d.body.fields = fields
  have hb : d.body = .record fields := hfields ▸ Declaration.body_eq_record hr
  simp only [Bool.false_eq_true, if_false, hb]
  cases fields.foldlM (c.addField d.label (c.flattenFrom room (chain ++ [id]))) { done } <;> rfl

/-- A struct whose fields have arguments for its parameters gets the flat fields of the struct with
these arguments, or flattening it fails with the same fault. -/
theorem IsProper.flattenFrom_subst (h : c.IsProper) {id : Nat} {d : Declaration}
    (hd : c.get? id = some d) (hr : d.isRecord = true) (args : List GoType) (room : Nat)
    (chain : List Nat) {done : Flattened} (hdone : c.IsSound done)
    (hnew : done.lookup id = none) :
    Outcome.Alike (FlatWith id d.typeParams args) (c.flattenFrom room chain done id)
      ((c.setBody id (.record (d.body.fields.map (Field.subst d.typeParams args)))).flattenFrom
        room chain done id) := by
  by_cases hid : id ∈ chain
  · rw [flattenFrom_circular hnew hid, flattenFrom_circular hnew hid, nameOf_setBody]
    exact .error _
  cases room with
  | zero =>
    rw [flattenFrom, flattenFrom, hnew, nameOf_setBody, labelOf_setBody]
    dsimp only
    split <;> exact .error _
  | succ room =>
    have hinner : ∀ fs : List Field,
        (c.setBody id (.record fs)).flattenFrom room (chain ++ [id]) =
          c.flattenFrom room (chain ++ [id]) := by
      intro fs
      funext done' i
      exact flattenFrom_setBody hd hr fs room done' i (by simp)
    have hmem : d ∈ c.types := List.mem_of_getElem? hd
    have hfields : List.Forall₂ (fun f f' => f ∈ d.body.fields ∧ f' = f.subst d.typeParams args)
        d.body.fields (d.body.fields.map (Field.subst d.typeParams args)) :=
      List.forall₂_map_right_iff.2 (List.forall₂_same.2 fun f hf => ⟨hf, rfl⟩)
    have hfold : Outcome.Alike (c.GatheredWith d.typeParams args)
        (d.body.fields.foldlM (c.addField d.label (c.flattenFrom room (chain ++ [id]))) { done })
        ((d.body.fields.map (Field.subst d.typeParams args)).foldlM
          (c.addField d.label (c.flattenFrom room (chain ++ [id]))) { done }) := by
      refine Outcome.Alike.foldlM (fun p p' f f' hp hf => ?_) hfields ⟨rfl, rfl, rfl, hdone⟩
      obtain ⟨hf, rfl⟩ := hf
      exact h.addField_subst ((isFlattening_flattenFrom c).computes _ _) hmem hf hp
    rw [flattenFrom_struct hd hr hnew hid, flattenFrom_struct (get?_setBody_self hd _) rfl hnew hid,
      addField_setBody hd hr, hinner]
    refine hfold.map fun p p' hp => ?_
    have hflat : p'.fields = p.fields.map (Field.subst d.typeParams args) := by
      rw [Promotion.fields, Promotion.fields, hp.promoted, hp.declared]
      exact fields_map_subst _ _ p.promoted p.declared p.done
    exact ⟨hflat, p.done, rfl, by rw [hp.done]⟩

/-- In a flat catalog, the fields of a struct with arguments are the flat fields of the struct whose
fields had these arguments before. -/
theorem IsProper.isFlat_subst (h : c.IsProper) (hw : c.flatten = .ok w) {id : Nat}
    {d g : Declaration} (hd : c.get? id = some d) (hr : d.isRecord = true) (args : List GoType)
    (hg : w.get? id = some g) :
    (c.setBody id (.record (d.body.fields.map (Field.subst d.typeParams args)))).IsFlat id
      (g.body.fields.map (Field.subst d.typeParams args)) := by
  have hflat := get?_flatten hw hd
  rw [if_pos hr, hg] at hflat
  obtain rfl := Option.some.inj hflat
  obtain ⟨done', hok⟩ := (isFlattening_flattenFrom c).ok_of_length_le (allFlat_of_flatten hw)
    isSound_nil (Nat.le_refl _) hd hr
  obtain ⟨⟨fs, done⟩, hok', hfs, -⟩ :=
    (h.flattenFrom_subst hd hr args _ [] isSound_nil rfl).exists_of_ok hok
  obtain rfl : fs = (c.flatOf id).map (Field.subst d.typeParams args) := hfs
  exact ((isFlattening_flattenFrom _).computes _ _ (get?_setBody_self hd _) rfl isSound_nil hok').1

/-- **Flattening and type arguments commute.** In a proper catalog, a struct whose fields have
arguments for its parameters gets the flat fields of the struct with these arguments, or flattening
both fails with the same fault; so the instance that is made of a flat generic struct has the flat
fields of the struct with arguments. The catalogs of sources have scopes, and settling a catalog
keeps it proper. And two replacements in a row are one. -/
theorem flatten_subst :
    (∀ config files ds, Declarations.ofFiles config files = .ok ds →
      (ofDeclarations ds).HasScopes) ∧
    (∀ c w : Catalog, c.IsProper → c.settle = .ok w → w.IsProper) ∧
    (∀ (c : Catalog) id d args, c.IsProper → c.get? id = some d → d.isRecord = true →
      (∀ room chain done, c.IsSound done → done.lookup id = none →
        Outcome.Alike (FlatWith id d.typeParams args) (c.flattenFrom room chain done id)
          ((c.setBody id (.record (d.body.fields.map (Field.subst d.typeParams args)))).flattenFrom
            room chain done id)) ∧
      ∀ w g copy, c.flatten = .ok w → w.get? id = some g →
        (c.setBody id (.record (d.body.fields.map (Field.subst d.typeParams args)))).IsFlat id
          (Instances.instanceOf g copy args).body.fields) ∧
    ∀ params params' args args' (t : GoType), params.length ≤ args.length →
      (∀ name ∈ t.bareNames, name ∈ params' → name ∈ params) →
        (t.subst params args).subst params' args' =
          t.subst params (args.map (GoType.subst params' args')) := by
  refine ⟨fun config files ds hds d hd t ht name hname => ?_, fun c w h hw => h.settle hw,
    fun c id d args h hd hr => ⟨fun room chain done hdone hnew => ?_, fun w g copy hw hg => ?_⟩,
    fun params params' args args' t hfull h => GoType.subst_subst hfull h⟩
  · exact Declarations.bareNames_ofFiles hds hd ht hname
  · exact h.flattenFrom_subst hd hr args room chain hdone hnew
  · have hparams : g.typeParams = d.typeParams := by
      have hflat := get?_flatten hw hd
      rw [if_pos hr, hg] at hflat
      rw [Option.some.inj hflat]
    have hflat := h.isFlat_subst hw hd hr args hg
    rwa [← hparams] at hflat ⊢

/-- A generic struct, one that embeds it and has a parameter of the same name in another place, and
a name for that one. -/
def crateFile : SourceFile :=
  { path := ⟨"m.go"⟩
    package := "m"
    types :=
      [⟨"Base", none, 3, ["T"], .record [⟨some "Item", .ofName "T", none, none, 4⟩]⟩,
        ⟨"Pair", none, 7, ["T", "K"], .record
          [⟨none, .named none none "Base" [.slice (.ofName "K")], none, none, 8⟩,
            ⟨some "First", .ofName "T", none, none, 9⟩]⟩,
        ⟨"Crate", none, 12, ["K"],
          .defined (.named none none "Pair" [.ofName "K", .ofName "int"])⟩] }

/-- The declarations of the file. -/
def crates : Declarations := ((Declarations.ofFiles {} [crateFile]).toOption).getD {}

/-- The name for the struct gets the argument in the fields that it has from both structs, and a
parameter of the first struct is not taken for the one of the second struct. -/
theorem crates_flatten_subst :
    Declarations.ofFiles {} [crateFile] = .ok crates ∧ (ofDeclarations crates).IsProper ∧
      (∃ w d flat g, (ofDeclarations crates).settle = .ok w ∧ w.IsProper ∧ w.get? 2 = some d ∧
        d.isRecord = true ∧ w.flatten = .ok flat ∧ flat.get? 2 = some g ∧
        Outcome.Alike (FlatWith 2 d.typeParams [.ofName "string"])
          (w.flattenFrom chainLimit [] [] 2)
          ((w.setBody 2 (.record (d.body.fields.map
            (Field.subst d.typeParams [.ofName "string"])))).flattenFrom chainLimit [] [] 2) ∧
        (w.setBody 2 (.record (d.body.fields.map
            (Field.subst d.typeParams [.ofName "string"])))).IsFlat 2
          (Instances.instanceOf g 1 [.ofName "string"]).body.fields ∧
        (Instances.instanceOf g 1 [.ofName "string"]).body.fields.map
          (fun f => (f.goName, f.type.display)) =
            [(some "Item", "[]int"), (some "First", "string")]) ∧
      ((GoType.ofName "T").subst ["T"] [.slice (.ofName "K")]).subst ["T", "K"]
          [.ofName "K", .ofName "int"] =
        (GoType.ofName "T").subst ["T"] ([.slice (.ofName "K")].map
          (GoType.subst ["T", "K"] [.ofName "K", .ofName "int"])) := by
  have hfiles : Declarations.ofFiles {} [crateFile] = .ok crates :=
    eq_ok_of_toOption (by decide +kernel)
  have hproper : (ofDeclarations crates).IsProper :=
    { scopes := flatten_subst.1 _ _ _ hfiles
      params := by decide +kernel
      full := by decide +kernel
      embedded := by decide +kernel }
  have hrun : ((ofDeclarations crates).settle >>= fun w => w.flatten.map fun flat =>
      ((w.get? 2).map Declaration.isRecord, (flat.get? 2).map fun g =>
        (Instances.instanceOf g 1 [.ofName "string"]).body.fields.map
          fun f => (f.goName, f.type.display))) =
        .ok (some true, some [(some "Item", "[]int"), (some "First", "string")]) :=
    eq_ok_of_toOption (by decide +kernel)
  obtain ⟨w, hw, hrun⟩ := bind_eq_ok_iff.1 hrun
  obtain ⟨flat, hflat, hrun⟩ := map_eq_ok_iff.1 hrun
  obtain ⟨hd, hg⟩ := Prod.mk.inj hrun
  obtain ⟨d, hd, hr⟩ := Option.map_eq_some_iff.1 hd
  obtain ⟨g, hg, hfields⟩ := Option.map_eq_some_iff.1 hg
  have hw' : w.IsProper := flatten_subst.2.1 _ w hproper hw
  obtain ⟨halike, hisFlat⟩ := flatten_subst.2.2.1 w 2 d [.ofName "string"] hw' hd hr
  exact ⟨hfiles, hproper, ⟨w, d, flat, g, hw, hw', hd, hr, hflat, hg,
    halike chainLimit [] [] isSound_nil rfl, hisFlat flat g 1 hflat hg, hfields⟩,
    flatten_subst.2.2.2 _ _ _ _ _ (by decide) (by decide +kernel)⟩

end Catalog

end GoSchema
