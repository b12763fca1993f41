/-
# Flat fields

What the flat fields of a struct are, without the order in which structs are gone through, the chain
around a struct and the structs that are done: the flat fields of each embedded struct, as far as no
declared field has their name, and then the declared fields. A struct has flat fields only if those
of all structs embedded in it can be had first, so none that reaches itself through embedded structs
has any, and no struct has two lists of them. Whatever the run returns or remembers for a struct is
its list.

Key definitions: `Catalog.embedded?`, `Catalog.flatFields`, `Catalog.Embeds`, `Catalog.IsFlat`,
`Catalog.flatOf`, `Catalog.Gathered`, `Catalog.Computes`, `Catalog.IsFlattening`.
Key theorems: `Catalog.IsFlat.unique`, `Catalog.IsFlat.acyclic`, `Catalog.isFlat_iff`,
`Promotion.promote_cases`, `Catalog.Gathered.addField`, `Catalog.Gathered.foldlM`,
`Catalog.IsFlattening.computes`, `Catalog.isFlat_of_flattenAll`.
-/
import GoSchema.Proofs.EmbeddedTags
import Mathlib.Data.List.Nodup
import Mathlib.Logic.Relation

namespace GoSchema

open Outcome

/-- The names of fields; an embedded field has none. -/
def goNames (fs : List Field) : List String := fs.filterMap Field.goName

theorem goNames_append (fs fs' : List Field) : goNames (fs ++ fs') = goNames fs ++ goNames fs' :=
  List.filterMap_append

theorem mem_goNames {fs : List Field} {name : String} :
    name ∈ goNames fs ↔ ∃ f ∈ fs, f.goName = some name := List.mem_filterMap

theorem Declaration.body_eq_record {d : Declaration} (h : d.isRecord = true) :
    d.body = .record d.body.fields := by
  cases hb : d.body with
  | record fs => rfl
  | defined t | aliased t => simp [isRecord, Body.isRecord, hb] at h

/-! ### The flat fields of a struct -/

namespace Catalog

/-- The struct whose fields an embedded field hands on, with its number. -/
def embedded? (c : Catalog) (f : Field) : Option (Nat × Declaration) :=
  if f.isEmbedded then (c.find f.type).filter (·.2.isRecord) else none

/-- What a field declares: itself if it has a name; an embedded type that is no struct is a field
with the name of that type, and one that is not declared stays, unless it is opted out. -/
def declared? (c : Catalog) (f : Field) : Option Field :=
  if f.isEmbedded then
    match c.find f.type with
    | none => if isOptedOut f then none else some f
    | some (_, d) => if d.isRecord then none else some { f with goName := some d.name }
  else some f

/-- The fields that a struct with these fields declares. -/
def declaredFields (c : Catalog) (fs : List Field) : List Field := fs.filterMap c.declared?

/-- The fields that a field hands on from the struct it embeds, if `flat` has those of structs. -/
def handedOn (c : Catalog) (flat : Nat → List Field) (f : Field) : List Field :=
  match c.embedded? f with
  | none => []
  | some (id, d) => (flat id).map (Field.subst d.typeParams f.type.typeArgs)

/-- The fields that a struct with these fields gets from the structs it embeds. -/
def promotedFields (c : Catalog) (flat : Nat → List Field) (fs : List Field) : List Field :=
  fs.flatMap (c.handedOn flat)

/-- The flat fields of a struct with these fields: those of the structs it embeds, but for the ones
whose name a declared field has, and then the declared ones. -/
def flatFields (c : Catalog) (flat : Nat → List Field) (fs : List Field) : List Field :=
  (c.promotedFields flat fs).filter (Promotion.remains (c.declaredFields fs)) ++
    c.declaredFields fs

/-- One declaration embeds another one, which is a struct. -/
def Embeds (c : Catalog) (id target : Nat) : Prop :=
  ∃ d, c.get? id = some d ∧ ∃ f ∈ d.body.fields, ∃ e, c.embedded? f = some (target, e)

/-- A struct has these flat fields: the structs that it embeds have some, and no name occurs twice
among what they hand on. -/
inductive IsFlat (c : Catalog) : Nat → List Field → Prop
  | struct {id : Nat} {d : Declaration} (flat : Nat → List Field) (hd : c.get? id = some d)
      (hr : d.isRecord = true) (hflat : ∀ i, c.Embeds id i → IsFlat c i (flat i))
      (hnodup : (goNames (c.promotedFields flat d.body.fields)).Nodup) :
      IsFlat c id (c.flatFields flat d.body.fields)

open Classical in
/-- The flat fields of a struct, if it has any. -/
noncomputable def flatOf (c : Catalog) (id : Nat) : List Field := Classical.epsilon (c.IsFlat id)

variable {c : Catalog}

theorem embedded?_eq_some_iff {f : Field} {id : Nat} {d : Declaration} :
    c.embedded? f = some (id, d) ↔
      f.isEmbedded = true ∧ c.find f.type = some (id, d) ∧ d.isRecord = true := by
  unfold embedded?
  split_ifs with he
  · rw [Option.filter_eq_some_iff]
    simp [he]
  · simp [he]

theorem embedded?_get? {f : Field} {id : Nat} {d : Declaration}
    (h : c.embedded? f = some (id, d)) : c.get? id = some d ∧ d.isRecord = true := by
  obtain ⟨-, hfind, hr⟩ := embedded?_eq_some_iff.1 h
  exact ⟨(find_eq_some_iff.1 hfind).2, hr⟩

theorem declaredFields_append (fs fs' : List Field) :
    c.declaredFields (fs ++ fs') = c.declaredFields fs ++ c.declaredFields fs' :=
  List.filterMap_append

theorem promotedFields_append (flat : Nat → List Field) (fs fs' : List Field) :
    c.promotedFields flat (fs ++ fs') = c.promotedFields flat fs ++ c.promotedFields flat fs' :=
  List.flatMap_append

theorem promotedFields_singleton (flat : Nat → List Field) (f : Field) :
    c.promotedFields flat [f] = c.handedOn flat f := List.flatMap_singleton ..

theorem handedOn_of_none {flat : Nat → List Field} {f : Field} (h : c.embedded? f = none) :
    c.handedOn flat f = [] := by
  simp [handedOn, h]

theorem handedOn_of_some {flat : Nat → List Field} {f : Field} {id : Nat} {d : Declaration}
    (h : c.embedded? f = some (id, d)) :
    c.handedOn flat f = (flat id).map (Field.subst d.typeParams f.type.typeArgs) := by
  simp [handedOn, h]

theorem declared?_of_embedded? {f : Field} {x : Nat × Declaration} (h : c.embedded? f = some x) :
    c.declared? f = none := by
  obtain ⟨he, hfind, hr⟩ := embedded?_eq_some_iff.1 h
  simp [declared?, he, hfind, hr]

theorem promotedFields_congr {flat flat' : Nat → List Field} {fs : List Field}
    (h : ∀ f ∈ fs, ∀ x, c.embedded? f = some x → flat x.1 = flat' x.1) :
    c.promotedFields flat fs = c.promotedFields flat' fs := by
  unfold promotedFields
  rw [List.flatMap_def, List.flatMap_def]
  congr 1
  refine List.map_congr_left fun f hf => ?_
  cases hx : c.embedded? f with
  | none => rw [handedOn_of_none hx, handedOn_of_none hx]
  | some x => rw [handedOn_of_some hx, handedOn_of_some hx, h f hf x hx]

theorem flatFields_congr {flat flat' : Nat → List Field} {fs : List Field}
    (h : ∀ f ∈ fs, ∀ x, c.embedded? f = some x → flat x.1 = flat' x.1) :
    c.flatFields flat fs = c.flatFields flat' fs := by
  rw [flatFields, flatFields, promotedFields_congr h]

theorem embeds_of_mem {id : Nat} {d : Declaration} (hd : c.get? id = some d) {f : Field}
    (hf : f ∈ d.body.fields) {x : Nat × Declaration} (hx : c.embedded? f = some x) :
    c.Embeds id x.1 := ⟨d, hd, f, hf, x.2, hx⟩

namespace IsFlat

/-- **A struct has one list of flat fields at most.** -/
theorem unique {id : Nat} {fs fs' : List Field} (h : c.IsFlat id fs) (h' : c.IsFlat id fs') :
    fs = fs' := by
  induction h generalizing fs' with
  | struct flat hd hr hflat hnodup ih =>
    cases h' with
    | struct flat' hd' hr' hflat' hnodup' =>
      obtain rfl := Option.some.inj (hd.symm.trans hd')
      exact flatFields_congr fun f hf x hx =>
        ih _ (embeds_of_mem hd hf hx) (hflat' _ (embeds_of_mem hd hf hx))

theorem flatOf_eq {id : Nat} {fs : List Field} (h : c.IsFlat id fs) : c.flatOf id = fs :=
  (Classical.epsilon_spec ⟨fs, h⟩ : c.IsFlat id (c.flatOf id)).unique h

theorem isFlat_flatOf {id : Nat} {fs : List Field} (h : c.IsFlat id fs) :
    c.IsFlat id (c.flatOf id) := by
  rw [h.flatOf_eq]
  exact h

/-- **A struct with flat fields does not reach itself through embedded structs.** The way back would
go through one of the structs that it embeds, which would reach itself as well. -/
theorem acyclic {id : Nat} {fs : List Field} (h : c.IsFlat id fs) :
    ¬ Relation.TransGen c.Embeds id id := by
  induction h with
  | struct flat hd hr hflat hnodup ih =>
    intro hself
    obtain ⟨i, he, hback⟩ := Relation.TransGen.head'_iff.1 hself
    exact ih i he (Relation.TransGen.tail' hback he)

end IsFlat

/-- What it takes for a struct to have flat fields. -/
theorem isFlat_iff {id : Nat} {fs : List Field} :
    c.IsFlat id fs ↔ ∃ d, c.get? id = some d ∧ d.isRecord = true ∧
      (∀ i, c.Embeds id i → c.IsFlat i (c.flatOf i)) ∧
      (goNames (c.promotedFields c.flatOf d.body.fields)).Nodup ∧
      fs = c.flatFields c.flatOf d.body.fields := by
  constructor
  · intro h
    cases h with
    | @struct _ d flat hd hr hflat hnodup =>
      have hof : ∀ f ∈ d.body.fields, ∀ x, c.embedded? f = some x → flat x.1 = c.flatOf x.1 :=
        fun f hf x hx => (hflat _ (embeds_of_mem hd hf hx)).flatOf_eq.symm
      refine ⟨d, hd, hr, fun i he => (hflat i he).isFlat_flatOf, ?_, flatFields_congr hof⟩
      rw [← promotedFields_congr hof]
      exact hnodup
  · rintro ⟨d, hd, hr, hflat, hnodup, rfl⟩
    exact .struct c.flatOf hd hr hflat hnodup

end Catalog

/-! ### Promoting fields -/

namespace Promotion

/-- Fields are promoted one and all if no name occurs twice then, and not at all else. -/
theorem promote_cases (owner : String) : ∀ {ps : List Field} (fs : List Field), (goNames ps).Nodup →
    (promote owner ps fs = .ok (ps ++ fs) ∧ (goNames (ps ++ fs)).Nodup) ∨
      (¬ (goNames (ps ++ fs)).Nodup ∧
        ∃ name first second, promote owner ps fs = .error (.repeatedField owner name first second))
  | ps, [], h => .inl ⟨by rw [List.append_nil]; rfl, by rwa [List.append_nil]⟩
  | ps, f :: fs, h => by
    unfold promote
    split
    · rename_i first hfirst
      right
      refine ⟨fun hnodup => ?_, _, _, _, rfl⟩
      have hfound := List.find?_some hfirst
      simp only [Bool.and_eq_true, decide_eq_true_eq, Option.isSome_iff_exists] at hfound
      obtain ⟨⟨name, hname⟩, hsame⟩ := hfound
      rw [goNames_append, List.nodup_append] at hnodup
      exact hnodup.2.2 name (mem_goNames.2 ⟨first, List.mem_of_find?_eq_some hfirst, hname⟩)
        name (mem_goNames.2 ⟨f, List.mem_cons_self, hsame ▸ hname⟩) rfl
    · rename_i hnone
      have hnext : (goNames (ps ++ [f])).Nodup := by
        rw [goNames_append, List.nodup_append]
        refine ⟨h, ?_, ?_⟩
        · cases hf : f.goName <;> simp [goNames, hf]
        · rintro name hname _ hname' rfl
          obtain ⟨p, hp, hpname⟩ := mem_goNames.1 hname
          obtain ⟨q, hq, hqname⟩ := mem_goNames.1 hname'
          obtain rfl := List.mem_singleton.1 hq
          simpa [hpname, hqname] using List.find?_eq_none.1 hnone p hp
      have hrest := promote_cases owner fs hnext
      rwa [List.append_assoc, List.singleton_append] at hrest

theorem promote_error {owner : String} {e : Fault} : ∀ {fs ps : List Field},
    promote owner ps fs = .error e → ∃ name first second, e = .repeatedField owner name first second
  | [], _, h => nomatch h
  | f :: fs, ps, h => by
    unfold promote at h
    split at h
    · exact ⟨_, _, _, (Except.error.inj h).symm⟩
    · exact promote_error h

end Promotion

namespace Catalog

variable {c : Catalog} {owner : String}
  {run : Flattened → Nat → Except Fault (List Field × Flattened)}

theorem addField_eq (p : Promotion) (f : Field) :
    c.addField owner run p f =
      match c.embedded? f with
      | some (id, d) => run p.done id >>= fun x =>
        (Promotion.promote owner p.promoted
          (x.1.map (Field.subst d.typeParams f.type.typeArgs))).map fun promoted =>
            { p with promoted, done := x.2 }
      | none => .ok { p with declared := p.declared ++ (c.declared? f).toList } := by
  by_cases he : f.isEmbedded = true
  · cases hfind : c.find f.type with
    | none =>
      cases hout : isOptedOut f <;> simp [addField, embedded?, declared?, he, hfind, hout]
    | some x =>
      obtain ⟨id, d⟩ := x
      by_cases hr : d.isRecord = true
      · rw [addField_struct he hfind hr, embedded?_eq_some_iff.2 ⟨he, hfind, hr⟩]
        rfl
      · simp [addField, embedded?, declared?, he, hfind, hr, Option.filter]
  · simp [addField, embedded?, declared?, he]

/-- Taking a field into account fails because the run over the struct that it embeds does, or
because a name is there already. -/
theorem addField_error {p : Promotion} {f : Field} {e : Fault}
    (h : c.addField owner run p f = .error e) :
    ∃ id d, c.embedded? f = some (id, d) ∧
      (run p.done id = .error e ∨ ∃ inner done, run p.done id = .ok (inner, done) ∧
        Promotion.promote owner p.promoted
          (inner.map (Field.subst d.typeParams f.type.typeArgs)) = .error e) := by
  rw [addField_eq] at h
  cases hx : c.embedded? f with
  | none =>
    rw [hx] at h
    exact nomatch h
  | some x =>
    obtain ⟨id, d⟩ := x
    rw [hx] at h
    refine ⟨id, d, rfl, ?_⟩
    cases hinner : run p.done id with
    | error e' =>
      dsimp only at h
      rw [hinner] at h
      exact .inl (congrArg Except.error (Except.error.inj h))
    | ok y =>
      dsimp only at h
      rw [hinner] at h
      exact .inr ⟨y.1, y.2, rfl, map_eq_error_iff.1 h⟩

/-- The results of a run are flat fields. -/
def IsSound (c : Catalog) (done : Flattened) : Prop := ∀ x ∈ done, c.IsFlat x.1 x.2

theorem isSound_nil : c.IsSound [] := fun _ hx => absurd hx List.not_mem_nil

theorem IsSound.lookup {done : Flattened} (h : c.IsSound done) {id : Nat} {fs : List Field}
    (hl : done.lookup id = some fs) : c.IsFlat id fs := h _ (Pointwise.mem_of_lookup hl)

/-- A run over structs returns and remembers flat fields. -/
def Computes (c : Catalog) (run : Flattened → Nat → Except Fault (List Field × Flattened)) : Prop :=
  ∀ {done : Flattened} {id : Nat} {d : Declaration} {fs : List Field} {done' : Flattened},
    c.get? id = some d → d.isRecord = true → c.IsSound done → run done id = .ok (fs, done') →
      c.IsFlat id fs ∧ c.IsSound done'

/-- What has been gathered when the fields `fs` of a struct have been gone through. -/
structure Gathered (c : Catalog) (fs : List Field) (p : Promotion) : Prop where
  promoted : p.promoted = c.promotedFields c.flatOf fs
  declared : p.declared = c.declaredFields fs
  nodup : (goNames p.promoted).Nodup
  flat : ∀ f ∈ fs, ∀ x, c.embedded? f = some x → c.IsFlat x.1 (c.flatOf x.1)
  done : c.IsSound p.done

namespace Gathered

variable {fs : List Field} {p p' : Promotion}

theorem start {done : Flattened} (h : c.IsSound done) : c.Gathered [] { done } where
  promoted := rfl
  declared := rfl
  nodup := List.nodup_nil
  flat _ hf := nomatch hf
  done := h

/-- One field more. -/
theorem addField (h : c.Gathered fs p) (hrun : c.Computes run) {f : Field}
    (hp : c.addField owner run p f = .ok p') : c.Gathered (fs ++ [f]) p' := by
  have hflat : ∀ {x}, c.embedded? f = x → (∀ y, x = some y → c.IsFlat y.1 (c.flatOf y.1)) →
      ∀ g ∈ fs ++ [f], ∀ y, c.embedded? g = some y → c.IsFlat y.1 (c.flatOf y.1) := by
    intro x hx hy g hg y hgy
    rcases List.mem_append.1 hg with hg | hg
    · exact h.flat g hg y hgy
    · obtain rfl := List.mem_singleton.1 hg
      exact hy y (hx.symm.trans hgy)
  rw [addField_eq] at hp
  cases hx : c.embedded? f with
  | none =>
    rw [hx] at hp
    obtain rfl := Except.ok.inj hp
    refine ⟨?_, ?_, h.nodup, hflat hx (fun _ hno => nomatch hno), h.done⟩
    · rw [promotedFields_append, promotedFields_singleton, handedOn_of_none hx, List.append_nil]
      exact h.promoted
    · rw [declaredFields_append, ← h.declared]
      cases hf : c.declared? f <;> simp [declaredFields, hf]
  | some x =>
    obtain ⟨id, d⟩ := x
    rw [hx] at hp
    obtain ⟨⟨inner, done⟩, hinner, hp⟩ := bind_eq_ok_iff.1 hp
    obtain ⟨promoted, hpromoted, rfl⟩ := map_eq_ok_iff.1 hp
    obtain ⟨hd, hr⟩ := embedded?_get? hx
    obtain ⟨hfs, hdone⟩ := hrun hd hr h.done hinner
    have hhanded : c.handedOn c.flatOf f =
        inner.map (Field.subst d.typeParams f.type.typeArgs) := by
      rw [handedOn_of_some hx, hfs.flatOf_eq]
    rcases Promotion.promote_cases owner (inner.map (Field.subst d.typeParams f.type.typeArgs))
      h.nodup with ⟨hok, hnodup⟩ | ⟨-, _, _, _, herror⟩
    · obtain rfl := Except.ok.inj (hok.symm.trans hpromoted)
      refine ⟨?_, ?_, hnodup, hflat hx fun y hy => ?_, hdone⟩
      · rw [promotedFields_append, promotedFields_singleton, hhanded, ← h.promoted]
      · rw [declaredFields_append, ← h.declared]
        simp [declaredFields, declared?_of_embedded? hx]
      · obtain rfl := Option.some.inj hy
        exact hfs.isFlat_flatOf
    · exact nomatch herror.symm.trans hpromoted

/-- **All fields.** -/
theorem foldlM (hrun : c.Computes run) : ∀ {fs' fs : List Field} {p p' : Promotion},
    c.Gathered fs p → fs'.foldlM (c.addField owner run) p = .ok p' → c.Gathered (fs ++ fs') p'
  | [], fs, p, p', h, hp => by
    obtain rfl := Except.ok.inj hp
    rwa [List.append_nil]
  | f :: fs', fs, p, p', h, hp => by
    rw [List.foldlM_cons] at hp
    obtain ⟨q, hq, hp⟩ := bind_eq_ok_iff.1 hp
    have hnext := foldlM hrun (h.addField hrun hq) hp
    rwa [List.append_assoc, List.singleton_append] at hnext

/-- When all fields of a struct have been gone through, its flat fields are known. -/
theorem isFlat {id : Nat} {d : Declaration} (h : c.Gathered d.body.fields p)
    (hd : c.get? id = some d) (hr : d.isRecord = true) : c.IsFlat id p.fields := by
  refine isFlat_iff.2 ⟨d, hd, hr, ?_, h.promoted ▸ h.nodup, ?_⟩
  · rintro i ⟨e, he, f, hf, x, hx⟩
    obtain rfl := Option.some.inj (hd.symm.trans he)
    exact h.flat f hf _ hx
  · rw [Promotion.fields, h.promoted, h.declared]
    rfl

/-- A field of a struct with flat fields is taken into account, unless the run over the struct that
it embeds fails. -/
theorem addField_error (h : c.Gathered fs p) (hrun : c.Computes run) {f : Field}
    (hnodup : (goNames (c.promotedFields c.flatOf (fs ++ [f]))).Nodup) {e : Fault}
    (hp : c.addField owner run p f = .error e) :
    ∃ x, c.embedded? f = some x ∧ run p.done x.1 = .error e := by
  obtain ⟨id, d, hx, hfail | ⟨inner, done, hinner, hpromote⟩⟩ := Catalog.addField_error hp
  · exact ⟨_, hx, hfail⟩
  · obtain ⟨hd, hr⟩ := embedded?_get? hx
    have hfs := (hrun hd hr h.done hinner).1
    rw [promotedFields_append, promotedFields_singleton, handedOn_of_some hx, hfs.flatOf_eq,
      ← h.promoted] at hnodup
    rcases Promotion.promote_cases owner (inner.map (Field.subst d.typeParams f.type.typeArgs))
      h.nodup with ⟨hok, -⟩ | ⟨hno, -⟩
    · exact nomatch hpromote.symm.trans hok
    · exact absurd hnodup hno

end Gathered

/-! ### Flattening -/

/-- Ways to flatten structs by going through their fields. All results are remembered, or none is.
What fails is a chain that comes back to a struct, a chain that is too long, or one of the
fields. -/
structure IsFlattening (c : Catalog)
    (run : Nat → List Nat → Flattened → Nat → Except Fault (List Field × Flattened)) : Prop where
  ok {room : Nat} {chain : List Nat} {done done' : Flattened} {id : Nat} {d : Declaration}
    {fs : List Field} (hd : c.get? id = some d) (hr : d.isRecord = true)
    (h : run room chain done id = .ok (fs, done')) :
    (done' = done ∧ done.lookup id = some fs) ∨
      ∃ left start p, room = left + 1 ∧ (start = done ∨ start = []) ∧
        d.body.fields.foldlM (c.addField d.label (run left (chain ++ [id]))) { done := start } =
          .ok p ∧
        fs = p.fields ∧ (done' = done ∨ done' = (id, fs) :: p.done)
  error {room : Nat} {chain : List Nat} {done : Flattened} {id : Nat} {e : Fault}
    (h : run room chain done id = .error e) :
    (id ∈ chain ∧ e = .circularEmbedding ((chain.dropWhile (· ≠ id) ++ [id]).map c.nameOf)) ∨
      (room = 0 ∧ e = .deepEmbedding (c.labelOf (chain.head?.getD id)) chainLimit) ∨
      ∃ left start d, room = left + 1 ∧ (start = done ∨ start = []) ∧ c.get? id = some d ∧
        d.isRecord = true ∧
        d.body.fields.foldlM (c.addField d.label (run left (chain ++ [id]))) { done := start } =
          .error e

theorem IsSound.start {done start : Flattened} (h : c.IsSound done)
    (hstart : start = done ∨ start = []) : c.IsSound start := by
  rcases hstart with rfl | rfl
  · exact h
  · exact isSound_nil

theorem isFlattening_flattenFrom (c : Catalog) : c.IsFlattening c.flattenFrom where
  ok {room chain done done' id d fs} hd hr h := by
    rcases flattenFrom_ok h with hl | ⟨-, -, hno⟩ |
      ⟨left, e, fields, p, hroom, -, he, hb, hp, rfl, rfl⟩
    · exact .inl hl
    · rw [hno d hd] at hr
      cases hr
    · obtain rfl := Option.some.inj (hd.symm.trans he)
      obtain rfl := Body.record.inj ((Declaration.body_eq_record hr).symm.trans hb)
      exact .inr ⟨left, done, p, hroom, .inl rfl, hp, rfl, .inr rfl⟩
  error {room chain done id e} h := by
    unfold flattenFrom at h
    split at h
    · cases h
    · split at h
      · rename_i hmem
        exact .inl ⟨by simpa using hmem, (Except.error.inj h).symm⟩
      · split at h
        · exact .inr (.inl ⟨rfl, (Except.error.inj h).symm⟩)
        · rename_i left
          split at h
          · cases h
          · rename_i d hd
            split at h
            · rename_i fields hb
              split at h
              · rename_i e' hp
                obtain rfl := Except.error.inj h
                have hr : d.isRecord = true := by simp [Declaration.isRecord, Body.isRecord, hb]
                obtain rfl := Body.record.inj ((Declaration.body_eq_record hr).symm.trans hb)
                exact .inr (.inr ⟨left, done, d, rfl, .inl rfl, hd, hr, hp⟩)
              · cases h
            · cases h

/-- **Flattening computes flat fields**, and remembers nothing else. -/
theorem IsFlattening.computes
    {run : Nat → List Nat → Flattened → Nat → Except Fault (List Field × Flattened)}
    (hrun : c.IsFlattening run) :
    ∀ (room : Nat) (chain : List Nat), c.Computes (run room chain) := by
  intro room
  induction room with
  | zero =>
    intro chain done id d fs done' hd hr hdone h
    rcases hrun.ok hd hr h with ⟨rfl, hl⟩ | ⟨left, _, _, hroom, -⟩
    · exact ⟨hdone.lookup hl, hdone⟩
    · omega
  | succ room ih =>
    intro chain done id d fs done' hd hr hdone h
    rcases hrun.ok hd hr h with ⟨rfl, hl⟩ | ⟨left, start, p, hroom, hstart, hp, rfl, hdone'⟩
    · exact ⟨hdone.lookup hl, hdone⟩
    · obtain rfl : room = left := by omega
      have hgathered := Gathered.foldlM (ih _) (.start (hdone.start hstart)) hp
      have hflat := hgathered.isFlat hd hr
      refine ⟨hflat, ?_⟩
      rcases hdone' with rfl | rfl
      · exact hdone
      · exact List.forall_mem_cons.2 ⟨hflat, hgathered.done⟩

theorem exists_struct {id : Nat} (h : ((c.get? id).map Declaration.isRecord).getD false = true) :
    ∃ d, c.get? id = some d ∧ d.isRecord = true := by
  cases hd : c.get? id with
  | none => simp [hd] at h
  | some d => exact ⟨d, rfl, by simpa [hd] using h⟩

theorem isSound_flattenAll : ∀ {ids : List Nat} {done done' : Flattened}, c.IsSound done →
    c.flattenAll done ids = .ok done' → c.IsSound done'
  | [], done, done', hdone, h => by
    obtain rfl := Except.ok.inj h
    exact hdone
  | id :: ids, done, done', hdone, h => by
    unfold flattenAll at h
    split at h
    · rename_i hr
      split at h
      · exact nomatch h
      · rename_i fs next hf
        obtain ⟨d, hd, hd'⟩ := exists_struct hr
        exact isSound_flattenAll ((isFlattening_flattenFrom c).computes _ _ hd hd' hdone hf).2 h
    · exact isSound_flattenAll hdone h

/-- **A run that does not fail remembers the flat fields of every struct.** -/
theorem isFlat_of_flattenAll {done : Flattened} (h : c.flattenAll [] c.ids = .ok done) {id : Nat}
    {d : Declaration} (hd : c.get? id = some d) (hr : d.isRecord = true) :
    c.IsFlat id (c.flatOf id) ∧ id ∈ done.ids := by
  have hmem := (mem_ids_of_flattenAll h).2 id (mem_ids_of_get? hd) d hd hr
  obtain ⟨x, hx, rfl⟩ := List.mem_map.1 hmem
  exact ⟨(isSound_flattenAll isSound_nil h x hx).isFlat_flatOf, hmem⟩

end Catalog

end GoSchema
