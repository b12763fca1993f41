/-
# Tags of embedded fields

What the tag of an embedded field decides depends on the embedded type. Flattening takes fields that
count alike into account alike, and gives every struct a result, so catalogs that count alike have
the same flat catalog and the same schema. In particular a hidden embedded field counts as if it
were not there only when its type is not declared: the tag on an embedded struct is never read.

Key definitions: `Flattened.ids`, `Declarations.withFields`.
Key theorems: `Catalog.Alike.flattenFrom_eq`, `Catalog.mem_ids_of_flattenAll`,
`Catalog.Alike.flatten_eq`, `toBlocks_eq_of_alike`, `toBlocks_of_hidden_embedded`.
-/
import GoSchema.Generation
import GoSchema.Proofs.AlikeCatalogs

namespace GoSchema

open Outcome

variable {w : Catalog}

/-- Of an embedded struct the type alone is read. -/
theorem Catalog.addField_struct {c : Catalog} {f : Field} {id : Nat} {d : Declaration}
    (he : f.isEmbedded = true) (hd : c.find f.type = some (id, d)) (hr : d.isRecord = true)
    (owner : String) (flat : Flattened → Nat → Except Fault (List Field × Flattened))
    (p : Promotion) :
    c.addField owner flat p f =
      (flat p.done id).bind fun x =>
        (Promotion.promote owner p.promoted
          (x.1.map (Field.subst d.typeParams f.type.typeArgs))).map fun promoted =>
            { p with promoted, done := x.2 } := by
  unfold addField
  rw [hd]
  simp only [he, hr]
  cases flat p.done id <;> rfl

theorem Catalog.addField_idle {c : Catalog} {f : Field} (hf : IsIdle c f) (owner : String)
    (flat : Flattened → Nat → Except Fault (List Field × Flattened)) (p : Promotion) :
    c.addField owner flat p f = .ok p := by
  unfold addField
  rw [hf.undeclared]
  simp [hf.embedded, hf.out]

namespace Catalog.Alike

variable {c c' : Catalog} (h : Catalog.Alike c c c')
include h

theorem addField_eq {f f' : Field} (hf : FieldAlike c f f') (owner : String)
    (flat : Flattened → Nat → Except Fault (List Field × Flattened)) (p : Promotion) :
    c'.addField owner flat p f' = c.addField owner flat p f := by
  cases hf with
  | same =>
    unfold addField
    rcases h.find_cases f.type with ⟨hno, hno'⟩ | ⟨id, d, body, hd, hd', hb⟩
    · rw [hno, hno']
    · rw [hd, hd']
      simp only [Declaration.isRecord, hb.isRecord]
      rfl
  | struct he he' ht hd hr =>
    rcases h.find_cases f.type with ⟨hno, -⟩ | ⟨i, e, body, hd', hd'', hb⟩
    · rw [hno] at hd
      cases hd
    · obtain ⟨rfl, rfl⟩ := Prod.mk.inj (Option.some.inj (hd'.symm.trans hd))
      have hr' : Declaration.isRecord { e with body } = true := hb.isRecord.trans hr
      rw [addField_struct he hd' hr, addField_struct he' (ht ▸ hd'') hr', ht]
  | named he hd hr =>
    have hno : f.goName = none := by simpa [Field.isEmbedded] using he
    unfold addField
    rw [hd]
    simp [hno, hr, Field.isEmbedded]

theorem foldlM_addField_eq {fs fs' : List Field} (hs : FieldsAlike c fs fs') (owner : String)
    (flat : Flattened → Nat → Except Fault (List Field × Flattened)) (p : Promotion) :
    fs'.foldlM (c'.addField owner flat) p = fs.foldlM (c.addField owner flat) p := by
  induction hs generalizing p with
  | nil => rfl
  | cons hf _ ih =>
    rw [List.foldlM_cons, List.foldlM_cons, h.addField_eq hf]
    exact bind_congr ih
  | idle hf _ ih =>
    rw [List.foldlM_cons, addField_idle hf, ih]
    rfl

/-- The flat fields of a struct are the same. -/
theorem flattenFrom_eq : ∀ room chain done id,
    c'.flattenFrom room chain done id = c.flattenFrom room chain done id := by
  intro room
  induction room with
  | zero =>
    intro chain done id
    unfold flattenFrom
    simp only [h.labelOf_eq, show c'.nameOf = c.nameOf from funext h.nameOf_eq]
  | succ room ih =>
    intro chain done id
    have hflat : ∀ chain, c'.flattenFrom room chain = c.flattenFrom room chain := fun chain =>
      funext fun done => funext fun id => ih chain done id
    unfold flattenFrom
    simp only [hflat, show c'.nameOf = c.nameOf from funext h.nameOf_eq]
    rcases h.get?_cases id with ⟨hno, hno'⟩ | ⟨d, body, hd, hd', hb⟩
    · rw [hno, hno']
    · rw [hd, hd']
      cases d with | mk name package path line place typeParams b =>
      cases hb with
      | record hs =>
        simp only [h.foldlM_addField_eq hs]
        rfl
      | same b =>
        cases b with
        | record fs =>
          simp only [h.foldlM_addField_eq (.refl fs)]
        | defined t => rfl
        | aliased t => rfl

theorem isRecord_eq (id : Nat) :
    (c'.get? id).map Declaration.isRecord = (c.get? id).map Declaration.isRecord := by
  rcases h.get?_cases id with ⟨hno, hno'⟩ | ⟨d, body, hd, hd', hb⟩
  · rw [hno, hno']
  · rw [hd, hd']
    exact congrArg some hb.isRecord

theorem flattenAll_eq : ∀ (ids : List Nat) (done : Flattened),
    c'.flattenAll done ids = c.flattenAll done ids
  | [], _ => rfl
  | id :: ids, done => by
    unfold flattenAll
    simp only [h.isRecord_eq, h.flattenFrom_eq, flattenAll_eq ids]

end Catalog.Alike

/-! ### Every struct gets a result -/

/-- The structs that have a result. -/
def Flattened.ids (done : Flattened) : List Nat := done.map Prod.fst

theorem Flattened.mem_ids_of_lookup {done : Flattened} {id : Nat} {fs : List Field}
    (h : done.lookup id = some fs) : id ∈ done.ids :=
  List.mem_map.2 ⟨_, Pointwise.mem_of_lookup h, rfl⟩

namespace Catalog

variable {c : Catalog}

/-- Taking a field into account leaves the results as they are, or flattens one struct. -/
theorem done_of_addField {owner : String}
    {flat : Flattened → Nat → Except Fault (List Field × Flattened)} {p p' : Promotion} {f : Field}
    (h : c.addField owner flat p f = .ok p') :
    p'.done = p.done ∨ ∃ id fs, flat p.done id = .ok (fs, p'.done) := by
  unfold addField at h
  split at h
  · obtain rfl := Except.ok.inj h
    exact .inl rfl
  · split at h
    · obtain rfl := Except.ok.inj h
      split <;> exact .inl rfl
    · rename_i id d hfind
      split at h
      · split at h
        · exact nomatch h
        · rename_i fs done hf
          obtain ⟨promoted, -, rfl⟩ := map_eq_ok_iff.1 h
          exact .inr ⟨id, fs, hf⟩
      · obtain rfl := Except.ok.inj h
        exact .inl rfl

theorem ids_subset_of_addField {owner : String}
    {flat : Flattened → Nat → Except Fault (List Field × Flattened)}
    (hflat : ∀ done id fs done', flat done id = .ok (fs, done') → done.ids ⊆ done'.ids)
    {p p' : Promotion} {f : Field} (h : c.addField owner flat p f = .ok p') :
    p.done.ids ⊆ p'.done.ids := by
  rcases done_of_addField h with heq | ⟨id, fs, hf⟩
  · rw [heq]
    exact List.Subset.refl _
  · exact hflat _ _ _ _ hf

/-- What flattening does if it does not fail: a struct that is done is looked up, what is no struct
has no fields, and the fields of another struct are taken into account one by one. -/
theorem flattenFrom_ok {room : Nat} {chain : List Nat} {done done' : Flattened} {id : Nat}
    {fs : List Field} (h : c.flattenFrom room chain done id = .ok (fs, done')) :
    (done' = done ∧ done.lookup id = some fs) ∨
      (done' = done ∧ fs = [] ∧ ∀ d, c.get? id = some d → d.isRecord = false) ∨
      ∃ left d fields p, room = left + 1 ∧ id ∉ chain ∧ c.get? id = some d ∧
        d.body = .record fields ∧
        fields.foldlM (c.addField d.label (c.flattenFrom left (chain ++ [id]))) { done } = .ok p ∧
        fs = p.fields ∧ done' = (id, p.fields) :: p.done := by
  unfold flattenFrom at h
  split at h
  · rename_i hl
    obtain ⟨rfl, rfl⟩ := Prod.mk.inj (Except.ok.inj h)
    exact .inl ⟨rfl, hl⟩
  · right
    split at h
    · exact nomatch h
    · rename_i hchain
      split at h
      · exact nomatch h
      · rename_i left
        split at h
        · rename_i hno
          obtain ⟨rfl, rfl⟩ := Prod.mk.inj (Except.ok.inj h)
          refine .inl ⟨rfl, rfl, fun d hd => ?_⟩
          rw [hno] at hd
          cases hd
        · rename_i d hd
          split at h
          · rename_i fields hb
            split at h
            · exact nomatch h
            · rename_i p hp
              obtain ⟨rfl, rfl⟩ := Prod.mk.inj (Except.ok.inj h)
              exact .inr ⟨left, d, fields, p, rfl, by simpa using hchain, hd, hb, hp, rfl, rfl⟩
          · rename_i hno
            obtain ⟨rfl, rfl⟩ := Prod.mk.inj (Except.ok.inj h)
            refine .inl ⟨rfl, rfl, fun e he => ?_⟩
            obtain rfl := Option.some.inj (hd.symm.trans he)
            cases hb : d.body with
            | record fields => exact absurd hb (hno fields)
            | defined t | aliased t => simp [Declaration.isRecord, Body.isRecord, hb]

theorem ids_subset_of_flattenFrom : ∀ {room : Nat} {chain : List Nat} {done done' : Flattened}
    {id : Nat} {fs : List Field}, c.flattenFrom room chain done id = .ok (fs, done') →
      done.ids ⊆ done'.ids := by
  intro room
  induction room with
  | zero =>
    intro chain done done' id fs h
    rcases flattenFrom_ok h with ⟨rfl, -⟩ | ⟨rfl, -⟩ | ⟨left, _, _, _, hroom, -⟩
    · exact List.Subset.refl _
    · exact List.Subset.refl _
    · omega
  | succ room ih =>
    intro chain done done' id fs h
    rcases flattenFrom_ok h with ⟨rfl, -⟩ | ⟨rfl, -⟩ | ⟨left, d, _, p, hroom, -, -, -, hp, -, rfl⟩
    · exact List.Subset.refl _
    · exact List.Subset.refl _
    · obtain rfl : room = left := by omega
      have hstep : ∀ (q : Promotion) f q', done.ids ⊆ q.done.ids →
          c.addField d.label (c.flattenFrom room (chain ++ [id])) q f = .ok q' →
          done.ids ⊆ q'.done.ids := fun q f q' hq hf =>
        List.Subset.trans hq (ids_subset_of_addField (fun _ _ _ _ hflat => ih hflat) hf)
      have hkeep : done.ids ⊆ p.done.ids := foldlM_ok hstep (List.Subset.refl _) hp
      exact fun i hi => List.mem_cons_of_mem _ (hkeep hi)

theorem mem_ids_of_flattenFrom {room : Nat} {chain : List Nat} {done done' : Flattened} {id : Nat}
    {fs : List Field} (h : c.flattenFrom room chain done id = .ok (fs, done')) {d : Declaration}
    (hd : c.get? id = some d) (hr : d.isRecord = true) : id ∈ done'.ids := by
  rcases flattenFrom_ok h with ⟨rfl, hl⟩ | ⟨-, -, hno⟩ | ⟨_, _, _, _, -, -, -, -, -, -, rfl⟩
  · exact Flattened.mem_ids_of_lookup hl
  · rw [hno d hd] at hr
    cases hr
  · exact List.mem_cons_self

theorem mem_ids_of_flattenAll : ∀ {ids : List Nat} {done done' : Flattened},
    c.flattenAll done ids = .ok done' →
      done.ids ⊆ done'.ids ∧
        ∀ id ∈ ids, ∀ d, c.get? id = some d → d.isRecord = true → id ∈ done'.ids
  | [], done, done', h => by
    obtain rfl := Except.ok.inj h
    exact ⟨List.Subset.refl _, fun _ hid => absurd hid List.not_mem_nil⟩
  | id :: ids, done, done', h => by
    unfold flattenAll at h
    split at h
    · split at h
      · exact nomatch h
      · rename_i fs next hf
        obtain ⟨hsub, hall⟩ := mem_ids_of_flattenAll h
        refine ⟨List.Subset.trans (ids_subset_of_flattenFrom hf) hsub, ?_⟩
        intro i hi d hd hr
        rcases List.mem_cons.1 hi with rfl | hi
        · exact hsub (mem_ids_of_flattenFrom hf hd hr)
        · exact hall i hi d hd hr
    · rename_i hno
      obtain ⟨hsub, hall⟩ := mem_ids_of_flattenAll h
      refine ⟨hsub, ?_⟩
      intro i hi d hd hr
      rcases List.mem_cons.1 hi with rfl | hi
      · simp [hd, hr] at hno
      · exact hall i hi d hd hr

end Catalog

namespace Catalog.Alike

variable {c c' : Catalog}

/-- Catalogs that have the same bodies but for some of the structs have the same bodies once each of
these has been given one. -/
theorem foldl_setBody_eq {w : Catalog} : ∀ {done : Flattened} {c c' : Catalog},
    Catalog.Alike w c c' → (∀ id, id ∉ done.ids → c'.get? id = c.get? id) →
      done.foldl (fun c (id, fields) => c.setBody id (.record fields)) c' =
        done.foldl (fun c (id, fields) => c.setBody id (.record fields)) c
  | [], c, c', h, hout => by
    have htypes : c'.types = c.types := List.ext_getElem? fun id => hout id List.not_mem_nil
    have hconsts : c'.consts = c.consts := h.consts
    show c' = c
    cases c
    cases c'
    exact Catalog.mk.injEq .. ▸ ⟨htypes, hconsts⟩
  | (id, fields) :: done, c, c', h, hout => by
    rw [List.foldl_cons, List.foldl_cons]
    refine foldl_setBody_eq (h.setBody (.same (.record fields)) id) ?_
    intro i hi
    by_cases hid : id = i
    · subst hid
      rcases h.get?_cases id with ⟨hno, hno'⟩ | ⟨d, body, hd, hd', -⟩
      · rw [get?_setBody_of_none hno', get?_setBody_of_none hno]
      · rw [get?_setBody_self hd', get?_setBody_self hd]
    · rw [get?_setBody_ne hid, get?_setBody_ne hid]
      refine hout i fun hmem => ?_
      rcases List.mem_cons.1 hmem with rfl | hmem
      · exact hid rfl
      · exact hi hmem

/-- **Flat catalogs are the same.** -/
theorem flatten_eq (h : Catalog.Alike c c c') : c'.flatten = c.flatten := by
  unfold flatten
  rw [h.ids_eq, h.flattenAll_eq]
  cases hf : c.flattenAll [] c.ids with
  | error e => rfl
  | ok done =>
    refine congrArg Except.ok (foldl_setBody_eq h fun id hid => ?_)
    rcases h.get?_cases id with ⟨hno, hno'⟩ | ⟨d, body, hd, hd', hb⟩
    · rw [hno, hno']
    · rw [hd, hd']
      cases hdb : d.body with
      | record fs =>
        have hlt : id < c.types.length := (List.getElem?_eq_some_iff.1 hd).1
        exact absurd ((mem_ids_of_flattenAll hf).2 id (List.mem_range.2 hlt) d hd
          (by simp [Declaration.isRecord, Body.isRecord, hdb])) hid
      | defined t | aliased t =>
        rw [hdb] at hb
        cases hb
        rw [← hdb]

end Catalog.Alike

/-! ### The schema -/

theorem Catalog.forall₂_foldl_push {ds ds' : List Declaration}
    (h : List.Forall₂ (DeclarationAlike w) ds ds') : ∀ c c' : Catalog,
    List.Forall₂ (DeclarationAlike w) c.types c'.types → c'.consts = c.consts →
      List.Forall₂ (DeclarationAlike w) (ds.foldl (fun c d => (c.push d).1) c).types
          (ds'.foldl (fun c d => (c.push d).1) c').types ∧
        (ds'.foldl (fun c d => (c.push d).1) c').consts =
          (ds.foldl (fun c d => (c.push d).1) c).consts := by
  induction h with
  | nil => exact fun _ _ htypes hconsts => ⟨htypes, hconsts⟩
  | @cons d d' _ _ hd _ ih =>
    intro c c' htypes hconsts
    have hkey : d'.key = d.key := by
      obtain ⟨body, rfl, -⟩ := hd
      rfl
    have hid : c'.idOf? d'.key = c.idOf? d.key := by
      rw [hkey, idOf?_eq_of_heads (map_head_eq htypes)]
    rw [List.foldl_cons, List.foldl_cons]
    cases hk : c.idOf? d.key with
    | some id =>
      rw [push_of_some hk, push_of_some (hid.trans hk)]
      exact ih c c' htypes hconsts
    | none =>
      rw [push_of_none hk, push_of_none (hid.trans hk)]
      exact ih _ _ (List.rel_append htypes (.cons hd .nil)) hconsts

/-- Declarations that count alike give the same schema. -/
theorem toBlocks_eq_of_alike {config : Config} {ds ds' : Declarations}
    (hw : (Catalog.ofDeclarations ds).settle = .ok w)
    (htypes : List.Forall₂ (DeclarationAlike w) ds.types ds'.types)
    (hconsts : ds'.consts = ds.consts) : ds'.toBlocks config = ds.toBlocks config := by
  have h : Catalog.Alike w (Catalog.ofDeclarations ds) (Catalog.ofDeclarations ds') := by
    obtain ⟨htypes', hconsts'⟩ := Catalog.forall₂_foldl_push htypes
      { consts := ds.consts } { consts := ds'.consts } .nil hconsts
    exact ⟨(Catalog.heads_settleAll hw).symm, htypes', hconsts'⟩
  have hsettle := h.settle
  rw [hw] at hsettle
  obtain ⟨w', hw', hww⟩ : ∃ w', (Catalog.ofDeclarations ds').settle = .ok w' ∧ w.Alike w w' := by
    revert hsettle
    generalize (Catalog.ofDeclarations ds').settle = x
    rintro (_ | ⟨hww⟩)
    exact ⟨_, rfl, hww⟩
  have hmaker : ds'.maker config = ds.maker config := by
    unfold Declarations.maker
    rw [hw, hw']
    show (w'.enumMembers >>= fun enums => w'.flatten >>= _) = (w.enumMembers >>= _)
    rw [hww.enumMembers_eq, hww.flatten_eq]
  rw [Declarations.toBlocks, Declarations.toBlocks, hmaker]

/-- The declarations with other fields in one of them. -/
def Declarations.withFields (ds : Declarations) (i : Nat) (fields : List Field) : Declarations :=
  { ds with types := ds.types.modify i ({ · with body := .record fields }) }

theorem toBlocks_withFields {config : Config} {ds : Declarations}
    (hw : (Catalog.ofDeclarations ds).settle = .ok w) {i : Nat} {d : Declaration}
    {fs fs' : List Field} (hi : ds.types[i]? = some d) (hb : d.body = .record fs)
    (hs : FieldsAlike w fs fs') : (ds.withFields i fs').toBlocks config = ds.toBlocks config := by
  refine toBlocks_eq_of_alike hw (Pointwise.modify_right DeclarationAlike.refl ?_) rfl
  intro e he
  obtain rfl := Option.some.inj (hi.symm.trans he)
  exact ⟨_, rfl, hb ▸ .record hs⟩

/-- **What hiding an embedded field does.** If its type is not declared, the schema is the one
without the field. If its type is a struct, the schema is the one where the field has any other tag,
or none: the fields of the struct are promoted all the same. If its type is declared as something
else, the field counts as a hidden one with the name of the type. -/
theorem toBlocks_of_hidden_embedded {config : Config} {ds : Declarations} {w : Catalog}
    (hw : (Catalog.ofDeclarations ds).settle = .ok w) {i : Nat} {d : Declaration}
    {before after : List Field} {f : Field} (hi : ds.types[i]? = some d)
    (hb : d.body = .record (before ++ f :: after)) (he : f.isEmbedded = true)
    (hh : f.options.hidden = true) :
    (w.find f.type = none → w.isParameter f.type = false →
        (ds.withFields i (before ++ after)).toBlocks config = ds.toBlocks config) ∧
      (∀ id e, w.find f.type = some (id, e) → e.isRecord = true →
        ∀ f' : Field, f'.isEmbedded = true → f'.type = f.type →
          (ds.withFields i (before ++ f' :: after)).toBlocks config = ds.toBlocks config) ∧
      ∀ id e, w.find f.type = some (id, e) → e.isRecord = false →
        (ds.withFields i (before ++ { f with goName := some e.name } :: after)).toBlocks config =
          ds.toBlocks config := by
  refine ⟨fun hno hp => ?_, fun id e hf hr f' he' ht => ?_, fun id e hf hr => ?_⟩
  · have hidle : IsIdle w f := ⟨he, by simp [Catalog.isOptedOut, hh], hno, hp⟩
    exact toBlocks_withFields hw hi hb ((FieldsAlike.idle hidle (.refl after)).append_left before)
  · exact toBlocks_withFields hw hi hb
      ((FieldsAlike.cons (.struct he he' ht hf hr) (.refl after)).append_left before)
  · exact toBlocks_withFields hw hi hb
      ((FieldsAlike.cons (.named he hf hr) (.refl after)).append_left before)

/-- An embedded field that is hidden. -/
def hiddenEmbed (type : GoType) : Field := { goName := none, type, options := { hidden := true } }

/-- Three hidden embedded fields: a struct, a type that is no struct, and one that is not
declared. -/
def hiddenBase : Field := hiddenEmbed (.named (some "m") none "Base" [])

def hiddenColor : Field := hiddenEmbed (.named (some "m") none "Color" [])

def hiddenThing : Field := hiddenEmbed (.pointer (.named (some "ext") none "Thing" []))

def namedField (name : String) : Field := { goName := some name, type := .ofName "string" }

/-- A struct of package `m` that no directive asks for. -/
def plainBase : Declaration :=
  { name := "Base"
    package := ⟨"m", none⟩
    path := ⟨"m.go"⟩
    line := 1
    place := ⟨0, 0, 0⟩
    body := .record [namedField "B"] }

/-- A type that is no struct. -/
def plainColor : Declaration :=
  { plainBase with name := "Color", place := ⟨0, 1, 0⟩, body := .defined (.ofName "string") }

/-- A struct that embeds all three types. -/
def embedder : Declaration :=
  { plainBase with
    name := "S"
    place := ⟨0, 2, 0⟩
    body := .record [hiddenBase, hiddenColor, hiddenThing, namedField "A"]
    requests := [{ kind := .type }] }

def embedders : Declarations := { types := [plainBase, plainColor, embedder] }

theorem embedders_of_hidden_embedded :
    ∃ w, (Catalog.ofDeclarations embedders).settle = .ok w ∧
      (embedders.withFields 2 [hiddenBase, hiddenColor, namedField "A"]).toBlocks {} =
        embedders.toBlocks {} ∧
      (embedders.withFields 2
          [{ hiddenBase with options := {} }, hiddenColor, hiddenThing, namedField "A"]).toBlocks
            {} = embedders.toBlocks {} ∧
      (embedders.withFields 2
          [hiddenBase, { hiddenColor with goName := some "Color" }, hiddenThing,
            namedField "A"]).toBlocks {} = embedders.toBlocks {} := by
  have hw : (Catalog.ofDeclarations embedders).settle = .ok (Catalog.ofDeclarations embedders) :=
    eq_ok_of_toOption (by decide +kernel)
  have hi : embedders.types[2]? = some embedder := rfl
  have hthing : embedder.body =
      .record ([hiddenBase, hiddenColor] ++ hiddenThing :: [namedField "A"]) := rfl
  have hbase : embedder.body =
      .record ([] ++ hiddenBase :: [hiddenColor, hiddenThing, namedField "A"]) := rfl
  have hcolor : embedder.body =
      .record ([hiddenBase] ++ hiddenColor :: [hiddenThing, namedField "A"]) := rfl
  refine ⟨_, hw, ?_, ?_, ?_⟩
  · exact (toBlocks_of_hidden_embedded hw hi hthing rfl rfl).1 (by decide +kernel)
      (by decide +kernel)
  · exact (toBlocks_of_hidden_embedded hw hi hbase rfl rfl).2.1 0 plainBase (by decide +kernel)
      (by decide +kernel) _ rfl rfl
  · exact (toBlocks_of_hidden_embedded hw hi hcolor rfl rfl).2.2 1 plainColor (by decide +kernel)
      (by decide +kernel)

/-- A struct, and one that embeds it with the tag `gql:"-"` if `embeds` holds. -/
def baseFile (embeds : Bool) : SourceFile :=
  { path := ⟨"m.go"⟩
    package := "m"
    types :=
      [⟨"Base", none, 1, [], .record [⟨some "B", .ofName "string", none, none, 1⟩]⟩,
        ⟨"S", some "@gqlType", 2, [],
          .record ((if embeds then [⟨none, .ofName "Base", some "gql:\"-\"", none, 3⟩] else []) ++
            [⟨some "A", .ofName "string", none, none, 4⟩])⟩] }

/-- **The tag on an embedded struct is not read.** Its field is promoted although it is hidden. -/
theorem baseFile_promotes_hidden :
    (∃ b, blocksOfFiles {} [baseFile true] = .ok [b] ∧
      b.fields.map SchemaField.name = ["b", "a"]) ∧
    ∃ b, blocksOfFiles {} [baseFile false] = .ok [b] ∧ b.fields.map SchemaField.name = ["a"] := by
  let made (fields : List SchemaField) : Block :=
    { kind := .type, name := "S", package := "m", place := ⟨0, 1, 0⟩, slot := 1, fields,
      source := "m.S (type)" }
  exact ⟨⟨made [{ name := "b", typeText := "String!" }, { name := "a", typeText := "String!" }],
      eq_ok_of_toOption (by decide +kernel), rfl⟩,
    made [{ name := "a", typeText := "String!" }], eq_ok_of_toOption (by decide +kernel), rfl⟩

end GoSchema
