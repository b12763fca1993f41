/-
# Structs of a flat catalog

When flattening does not fail, every struct has the flat fields that follow from the flat fields of
the structs it embeds, no name occurs twice among them, and no other declaration changes. The run
that remembers no result finds the same fields, if only it may take steps enough.

An embedded field that stays refers to no struct, with one exception: replacing type parameters may
make it refer to one. That takes a struct on the way that keeps an embedded field with the bare name
of one of its own type parameters.

Key definitions: `Catalog.flattenAnew`, `Catalog.fieldsOf`, `Catalog.KeepsParameter`.
Key theorems: `Catalog.isFlattening_flattenAnew`, `Catalog.nodup_of_isFlat`,
`Catalog.exists_parameter_of_isFlat`, `Catalog.flatten_fields`.
-/
import GoSchema.Proofs.EmbeddingCycles
import GoSchema.Proofs.ExtendedCatalogs

namespace GoSchema

open Outcome

namespace Catalog

variable {c c' : Catalog}

/-- The flat fields of a struct, where every struct is gone through each time that it is embedded.
The structs around it are in `chain`, outermost first; at most `room` more may be entered. -/
def flattenAnew (c : Catalog) (room : Nat) (chain : List Nat) (id : Nat) :
    Except Fault (List Field) :=
  if chain.contains id then
    .error (.circularEmbedding ((chain.dropWhile (· ≠ id) ++ [id]).map c.nameOf))
  else
    match room with
    | 0 => .error (.deepEmbedding (c.labelOf (chain.head?.getD id)) chainLimit)
    | room + 1 =>
      match c.get? id with
      | none => .ok []
      | some d =>
        match d.body with
        | .record fields =>
          (fields.foldlM (c.addField d.label fun done id' =>
            (flattenAnew c room (chain ++ [id]) id').map (·, done)) { done := [] }).map
              Promotion.fields
        | _ => .ok []

theorem isFlattening_flattenAnew (c : Catalog) :
    c.IsFlattening fun room chain done id => (c.flattenAnew room chain id).map (·, done) where
  ok {room chain done done' id d fs} hd hr h := by
    obtain ⟨gs, hgs, heq⟩ := map_eq_ok_iff.1 h
    obtain ⟨rfl, rfl⟩ := Prod.mk.inj heq
    unfold flattenAnew at hgs
    split at hgs
    · cases hgs
    · split at hgs
      · cases hgs
      · rename_i left
        rw [hd] at hgs
        dsimp only at hgs
        rw [Declaration.body_eq_record hr] at hgs
        obtain ⟨p, hp, rfl⟩ := map_eq_ok_iff.1 hgs
        exact .inr ⟨left, [], p, rfl, .inr rfl, hp, rfl, .inl rfl⟩
  error {room chain done id e} h := by
    replace h := map_eq_error_iff.1 h
    unfold flattenAnew at h
    split at h
    · rename_i hmem
      exact .inl ⟨by simpa using hmem, (Except.error.inj h).symm⟩
    · split at h
      · exact .inr (.inl ⟨rfl, (Except.error.inj h).symm⟩)
      · rename_i left
        split at h
        · cases h
        · rename_i d hd
          split at h
          · rename_i fields hb
            have hr : d.isRecord = true := by simp [Declaration.isRecord, Body.isRecord, hb]
            obtain rfl := Body.record.inj ((Declaration.body_eq_record hr).symm.trans hb)
            exact .inr (.inr ⟨left, [], d, rfl, .inr rfl, hd, hr, map_eq_error_iff.1 h⟩)
          · cases h

/-- Where every struct has flat fields, a run without memory finds them or takes too many steps. -/
theorem flattenAnew_cases (hall : c.AllFlat) {id : Nat} {d : Declaration} (hd : c.get? id = some d)
    (hr : d.isRecord = true) (room : Nat) :
    c.flattenAnew room [] id = .ok (c.flatOf id) ∨
      room < c.types.length ∧ ∃ first, c.flattenAnew room [] id =
        .error (.deepEmbedding (c.labelOf first) chainLimit) := by
  have hrun := isFlattening_flattenAnew c
  cases h : c.flattenAnew room [] id with
  | ok fs =>
    have hfs : (c.flattenAnew room [] id).map (·, ([] : Flattened)) = .ok (fs, []) := by
      rw [h]
      rfl
    exact .inl (by rw [(hrun.computes room [] hd hr isSound_nil hfs).1.flatOf_eq])
  | error e =>
    have he : (c.flattenAnew room [] id).map (·, ([] : Flattened)) = .error e := by
      rw [h]
      rfl
    obtain ⟨first, -, -, -, rfl⟩ := hrun.deep_of_error hall isSound_nil (.singleton id) he
    refine .inr ⟨Nat.lt_of_not_le fun hroom => ?_, first, rfl⟩
    obtain ⟨done', hok⟩ := hrun.ok_of_length_le hall isSound_nil hroom hd hr
    exact nomatch he.symm.trans hok

/-! ### The fields of the flat catalog -/

/-- The fields of the struct with this number. -/
def fieldsOf (c : Catalog) (id : Nat) : List Field :=
  ((c.get? id).map fun d => d.body.fields).getD []

theorem fieldsOf_eq {id : Nat} {d : Declaration} (h : c.get? id = some d) :
    c.fieldsOf id = d.body.fields := by
  rw [fieldsOf, h]
  rfl

theorem consts_withFlat : ∀ (done : Flattened) (c : Catalog), (c.withFlat done).consts = c.consts
  | [], _ => rfl
  | (i, fs) :: done, c => by
    rw [withFlat_cons, consts_withFlat done]
    rfl

theorem get?_withFlat {flat : Nat → List Field} : ∀ {done : Flattened} {c : Catalog} {id : Nat}
    {d : Declaration}, (∀ x ∈ done, x.2 = flat x.1) → c.get? id = some d →
      (c.withFlat done).get? id =
        some (if id ∈ Flattened.ids done then { d with body := .record (flat id) } else d)
  | [], c, id, d, _, hd => by simpa [withFlat, Flattened.ids] using hd
  | (i, fs) :: done, c, id, d, h, hd => by
    obtain ⟨hfs, h⟩ := List.forall_mem_cons.1 h
    rw [withFlat_cons]
    by_cases hi : i = id
    · subst hi
      have hself : i ∈ Flattened.ids ((i, fs) :: done) := List.mem_cons_self
      rw [get?_withFlat h (get?_setBody_self hd _), if_pos hself]
      split
      · rfl
      · rw [show fs = flat i from hfs]
    · rw [get?_withFlat h ((get?_setBody_ne hi _).trans hd)]
      have hmem : id ∈ Flattened.ids ((i, fs) :: done) ↔ id ∈ Flattened.ids done := by
        simp [Flattened.ids, Ne.symm hi]
      simp only [hmem]

theorem IsSound.isRecord {done : Flattened} (h : c.IsSound done) {id : Nat} (hid : id ∈ done.ids)
    {d : Declaration} (hd : c.get? id = some d) : d.isRecord = true := by
  obtain ⟨x, hx, rfl⟩ := List.mem_map.1 hid
  obtain ⟨e, he, hr, -⟩ := isFlat_iff.1 (h x hx)
  obtain rfl := Option.some.inj (hd.symm.trans he)
  exact hr

/-- **What flattening changes**: a struct gets its flat fields, and nothing else changes. -/
theorem get?_flatten (h : c.flatten = .ok c') {id : Nat} {d : Declaration}
    (hd : c.get? id = some d) :
    c'.get? id = some (if d.isRecord then { d with body := .record (c.flatOf id) } else d) := by
  rw [flatten_eq_map] at h
  obtain ⟨done, hdone, rfl⟩ := map_eq_ok_iff.1 h
  have hsound := isSound_flattenAll isSound_nil hdone
  rw [get?_withFlat (fun x hx => (hsound x hx).flatOf_eq.symm) hd]
  by_cases hr : d.isRecord = true
  · rw [if_pos hr, if_pos (isFlat_of_flattenAll hdone hd hr).2]
  · rw [if_neg hr, if_neg fun hid => hr (hsound.isRecord hid hd)]

theorem fieldsOf_flatten (h : c.flatten = .ok c') {id : Nat} {d : Declaration}
    (hd : c.get? id = some d) (hr : d.isRecord = true) : c'.fieldsOf id = c.flatOf id := by
  have hd' := get?_flatten h hd
  rw [if_pos hr] at hd'
  exact fieldsOf_eq hd'

/-- A field that hands on the fields of a struct of the flat catalog did so before. -/
theorem embedded?_of_flatten (h : c.flatten = .ok c') {f : Field} {id : Nat} {d' : Declaration}
    (hf : c'.embedded? f = some (id, d')) : ∃ d, c.embedded? f = some (id, d) := by
  obtain ⟨he, hfind, hr'⟩ := embedded?_eq_some_iff.1 hf
  obtain ⟨hid, hd'⟩ := find_eq_some_iff.1 hfind
  rw [idOfType?_eq_of_heads (heads_flatten h)] at hid
  obtain ⟨d, hd, -⟩ := exists_get?_of_heads (heads_flatten h) hd'
  refine ⟨d, embedded?_eq_some_iff.2 ⟨he, find_eq_some_iff.2 ⟨hid, hd⟩, ?_⟩⟩
  by_contra hr
  have hsame := get?_flatten h hd
  rw [if_neg hr] at hsame
  obtain rfl := Option.some.inj (hd'.symm.trans hsame)
  exact hr hr'

theorem goNames_filter_sublist (p : Field → Bool) (fs : List Field) :
    (goNames (fs.filter p)).Sublist (goNames fs) := List.filter_sublist.filterMap _

/-- **No name occurs twice** among the flat fields of a struct that declares no name twice. -/
theorem nodup_of_isFlat {id : Nat} {fs : List Field} (h : c.IsFlat id fs)
    (hdeclared : ∀ d, c.get? id = some d → (goNames (c.declaredFields d.body.fields)).Nodup) :
    (goNames fs).Nodup := by
  cases h with
  | @struct _ d flat hd hr hflat hnodup =>
    rw [flatFields, goNames_append, List.nodup_append]
    refine ⟨hnodup.sublist (goNames_filter_sublist _ _), hdeclared d hd, ?_⟩
    rintro name hname _ hname' rfl
    obtain ⟨p, hp, hpname⟩ := mem_goNames.1 hname
    obtain ⟨q, hq, hqname⟩ := mem_goNames.1 hname'
    have hremains := (List.mem_filter.1 hp).2
    have hnamed : p.isEmbedded = false := by simp [Field.isEmbedded, hpname]
    rw [Promotion.remains, hnamed, Bool.false_or, Bool.not_eq_true', List.any_eq_false] at hremains
    exact hremains q hq (by simp [hpname, hqname])

/-- A struct has an embedded field with the bare name of one of its own type parameters. -/
def KeepsParameter (c : Catalog) (id : Nat) : Prop :=
  ∃ d, c.get? id = some d ∧
    ∃ f ∈ d.body.fields, f.isEmbedded = true ∧ f.type.isParameterOf d.typeParams = true

theorem embedded?_of_declared? {f g : Field} (h : c.declared? f = some g) :
    c.embedded? g = none := by
  unfold declared? at h
  split at h
  · split at h
    · rename_i hfind
      split at h
      · cases h
      · obtain rfl := Option.some.inj h
        unfold embedded?
        rw [hfind]
        split <;> rfl
    · split at h
      · cases h
      · obtain rfl := Option.some.inj h
        rfl
  · rename_i he
    obtain rfl := Option.some.inj h
    exact if_neg he

theorem embedded?_subst {params : List String} (args : List GoType) {f : Field}
    (h : f.type.isParameterOf params = false) :
    c.embedded? (f.subst params args) = c.embedded? f := by
  have hfind : c.find (f.subst params args).type = c.find f.type := by
    show (c.idOfType? (f.type.subst params args)).bind _ = _
    rw [idOfType?_subst c args h]
    rfl
  unfold embedded?
  rw [hfind]
  rfl

/-- **Embedded fields that stay.** A flat field that refers to a struct comes from a struct on the
way that has one of its type parameters among its flat fields. -/
theorem exists_parameter_of_isFlat {id : Nat} {fs : List Field} (h : c.IsFlat id fs) {f : Field}
    (hf : f ∈ fs) {x : Nat × Declaration} (hx : c.embedded? f = some x) :
    ∃ i d, Relation.TransGen c.Embeds id i ∧ c.get? i = some d ∧
      ∃ g ∈ c.flatOf i, g.isEmbedded = true ∧ g.type.isParameterOf d.typeParams = true := by
  induction h generalizing f with
  | @struct id d flat hd hr hflat hnodup ih =>
    rcases List.mem_append.1 hf with hf | hf
    · obtain ⟨e, he, hf⟩ := List.mem_flatMap.1 (List.mem_filter.1 hf).1
      cases htarget : c.embedded? e with
      | none =>
        rw [handedOn_of_none htarget] at hf
        exact absurd hf List.not_mem_nil
      | some y =>
        obtain ⟨i, base⟩ := y
        rw [handedOn_of_some htarget] at hf
        obtain ⟨g, hg, rfl⟩ := List.mem_map.1 hf
        have hembeds : c.Embeds id i := embeds_of_mem hd he htarget
        cases hparam : g.type.isParameterOf base.typeParams with
        | true =>
          refine ⟨i, base, .single hembeds, (embedded?_get? htarget).1, g, ?_, ?_, hparam⟩
          · rwa [(hflat i hembeds).flatOf_eq]
          · exact (embedded?_eq_some_iff.1 hx).1
        | false =>
          rw [embedded?_subst e.type.typeArgs hparam] at hx
          obtain ⟨j, d', hreach, hd', hkept⟩ := ih i hembeds hg hx
          exact ⟨j, d', .head hembeds hreach, hd', hkept⟩
    · obtain ⟨e, -, he⟩ := List.mem_filterMap.1 hf
      rw [embedded?_of_declared? he] at hx
      cases hx

/-! ### The flat catalog -/

/-- **The structs of a flat catalog.** -/
theorem flatten_fields (hnames : ∀ d ∈ c.types, (goNames (c.declaredFields d.body.fields)).Nodup)
    (h : c.flatten = .ok c') :
    c'.heads = c.heads ∧ c'.consts = c.consts ∧
      ∀ id d, c.get? id = some d →
        (d.isRecord = false → c'.get? id = some d) ∧
        (d.isRecord = true → ∃ flat, c'.get? id = some { d with body := .record flat } ∧
          flat = c.flatFields c'.fieldsOf d.body.fields ∧ (goNames flat).Nodup ∧
          (∀ f ∈ flat, ∀ x, c'.embedded? f = some x →
            ∃ i, Relation.TransGen c.Embeds id i ∧ c'.KeepsParameter i) ∧
          ∀ room, c.flattenAnew room [] id = .ok flat ∨
            room < c.types.length ∧ ∃ first, c.flattenAnew room [] id =
              .error (.deepEmbedding (c.labelOf first) chainLimit)) := by
  have hall := allFlat_of_flatten h
  refine ⟨heads_flatten h, ?_, fun id d hd => ⟨fun hr => ?_, fun hr => ?_⟩⟩
  · rw [flatten_eq_map] at h
    obtain ⟨done, -, rfl⟩ := map_eq_ok_iff.1 h
    exact consts_withFlat done c
  · rw [get?_flatten h hd, if_neg (by simp [hr])]
  · have hd' := get?_flatten h hd
    rw [if_pos hr] at hd'
    refine ⟨c.flatOf id, hd', ?_, ?_, ?_, flattenAnew_cases hall hd hr⟩
    · obtain ⟨e, he, -, -, -, hflat⟩ := isFlat_iff.1 (hall id d hd hr)
      obtain rfl := Option.some.inj (hd.symm.trans he)
      refine hflat.trans (flatFields_congr fun f hf x hx => ?_)
      obtain ⟨hx', hr'⟩ := embedded?_get? hx
      exact (fieldsOf_flatten h hx' hr').symm
    · refine nodup_of_isFlat (hall id d hd hr) fun e he => hnames e ?_
      exact List.mem_of_getElem? he
    · rintro f hf ⟨i, e'⟩ hx'
      obtain ⟨e, hx⟩ := embedded?_of_flatten h hx'
      obtain ⟨j, base, hreach, hbase, g, hg, hge, hparam⟩ :=
        exists_parameter_of_isFlat (hall id d hd hr) hf hx
      obtain ⟨i', -, htail⟩ := Relation.TransGen.tail'_iff.1 hreach
      obtain ⟨base', hbase', hr'⟩ := htail.target_isRecord
      obtain rfl := Option.some.inj (hbase.symm.trans hbase')
      have hflat := get?_flatten h hbase
      rw [if_pos hr'] at hflat
      exact ⟨j, hreach, _, hflat, g, hg, hge, hparam⟩

/-- A generic struct over a struct, a type that is no struct, and a struct that embeds both and has
a field of the same name as one of the fields that it gets. -/
def garage : Catalog :=
  { types :=
      [{ plainBase with name := "Base", body := .record [namedField "ID", namedField "Name"] },
        { plainBase with
            name := "Box"
            typeParams := ["T"]
            body := .record [{ namedField "Item" with type := .ofName "T" }, embedding "Base" []] },
        plainColor,
        { plainBase with
            name := "S"
            body := .record
              [namedField "Name", embedding "Color" [],
                { embedding "Box" [] with
                  type := .pointer (.named (some "m") none "Box" [.slice (.ofName "int")]) }] }] }

theorem garage_flat_fields :
    (∀ d ∈ garage.types, (goNames (garage.declaredFields d.body.fields)).Nodup) ∧
      ∃ c', garage.flatten = .ok c' ∧ ∃ d flat, garage.get? 3 = some d ∧ d.isRecord = true ∧
        c'.get? 3 = some { d with body := .record flat } ∧
        flat = garage.flatFields c'.fieldsOf d.body.fields ∧ (goNames flat).Nodup ∧
        garage.flattenAnew 4 [] 3 = .ok flat := by
  have hnames : ∀ d ∈ garage.types, (goNames (garage.declaredFields d.body.fields)).Nodup := by
    decide +kernel
  have hsome : garage.flatten.toOption.isSome = true := by decide +kernel
  have hflat : garage.flatten = .ok (garage.flatten.toOption.get hsome) :=
    eq_ok_of_toOption (Option.some_get hsome).symm
  obtain ⟨flat, hget, hfields, hnodup, -, hanew⟩ :=
    ((flatten_fields hnames hflat).2.2 3 _ rfl).2 rfl
  refine ⟨hnames, _, hflat, _, flat, rfl, rfl, hget, hfields, hnodup, ?_⟩
  exact (hanew 4).resolve_right fun hshort => absurd hshort.1 (Nat.lt_irrefl 4)

example : garage.flatten.toOption.map (fun c' => (c'.fieldsOf 3).map fun f => (f.goName, f.type)) =
    some [(some "ID", .ofName "string"), (some "Item", .slice (.ofName "int")),
      (some "Name", .ofName "string"), (some "Color", .named (some "m") none "Color" [])] := by
  decide +kernel

/-- A generic struct that embeds its type parameter, and a struct that embeds it over a struct. -/
def holder : Catalog :=
  { types :=
      [{ plainBase with
           name := "E"
           typeParams := ["T"]
           body := .record [{ goName := none, type := .ofName "T" }] },
        { plainBase with name := "U", body := .record [namedField "A"] },
        { plainBase with
            name := "S"
            body := .record [embedding "E" [.named (some "m") none "U" []]] }] }

/-- The chain of 33 structs, from its last one on. -/
def raised : Catalog := { types := tower.types.reverse }

/-- The embedded parameter becomes an embedded struct, and stays. A long chain gets its flat fields
because those of the structs behind it are remembered; no struct is too deep then. -/
theorem holder_and_raised_fields :
    ((∀ d ∈ holder.types, (goNames (holder.declaredFields d.body.fields)).Nodup) ∧
      ∃ c', holder.flatten = .ok c' ∧ c'.fieldsOf 2 = [embedding "U" []] ∧
        ∃ d, c'.embedded? (embedding "U" []) = some (1, d)) ∧
      (∀ d ∈ raised.types, (goNames (raised.declaredFields d.body.fields)).Nodup) ∧
      (∃ c', raised.flatten = .ok c' ∧ c'.fieldsOf 32 = [embedding "T33" []]) ∧
      raised.flattenAnew chainLimit [] 32 = .error (.deepEmbedding "m.T0" 32) := by
  have hholder : holder.flatten = .ok (holder.setBody 2 (.record [embedding "U" []])) :=
    eq_ok_of_toOption (by decide +kernel)
  have hraised : raised.flatten =
      .ok (raised.withFlat (raised.ids.map fun id => (id, [embedding "T33" []]))) :=
    eq_ok_of_toOption (by decide +kernel)
  exact ⟨⟨by decide +kernel, _, hholder, rfl, _, rfl⟩, by decide +kernel,
    ⟨_, hraised, by decide +kernel⟩, by decide +kernel⟩

end Catalog

end GoSchema
