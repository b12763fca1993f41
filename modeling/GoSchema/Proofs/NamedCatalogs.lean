/-
# Names in catalogs

What is said of all names in the declarations of the sources stays true through the stages: names of
declarations and of fields, and the names in types, are solid; names given by hand in directives are
those of directives, and the parts of tags are those of tags; an added field is not blank. Settling
and flattening hand fields on with arguments put in, an embedded type that is no struct becomes a
field with its name, and an instance is named after its generic struct and the names in the
arguments.

Key definitions: `Field.IsNamed`, `Declaration.IsNamed`, `Catalog.IsNamed`.
Key theorems: `Catalog.IsNamed.settle`, `Catalog.IsNamed.flatten`, `Catalog.IsNamed.withInstances`,
`Catalog.IsNamed.addDiscovered`, `Declarations.isNamed_maker`.
-/
import GoSchema.Proofs.Blocks
import GoSchema.Proofs.DiscoveredRequests
import GoSchema.Proofs.FlatStructs
import GoSchema.Proofs.InstanceTable
import GoSchema.Proofs.Places
import GoSchema.Proofs.SettledShapes
import GoSchema.Proofs.SolidNames
import GoSchema.Proofs.UndirectedStructs

namespace GoSchema

open Name Outcome

/-- A field whose names are solid and whose tag is one of the sources. -/
structure Field.IsNamed (tagged : JsonPart → GqlPart → Prop) (f : Field) : Prop where
  goName : ∀ name, f.goName = some name → IsSolid name
  type : f.type.AllNames IsSolid
  tag : tagged f.json f.options

/-- A body whose names are solid and whose tags are those of the sources. -/
def Body.IsNamed (tagged : JsonPart → GqlPart → Prop) : Body → Prop
  | .record fields => ∀ f ∈ fields, f.IsNamed tagged
  | .defined t | .aliased t => t.AllNames IsSolid

/-- A declaration whose names are solid, and where what is given by hand is what the sources give.
-/
structure Declaration.IsNamed (given : String → Prop) (tagged : JsonPart → GqlPart → Prop)
    (d : Declaration) : Prop where
  name : IsSolid d.name
  body : d.body.IsNamed tagged
  requests : ∀ r ∈ d.requests, ∀ name, r.customName = some name → given name
  enum : ∀ r, d.enumRequest = some r → ∀ name, r.customName = some name → given name
  additions : ∀ e ∈ d.additions, Text.isBlankText e.name.toList = false

/-- A catalog of such declarations. -/
def Catalog.IsNamed (given : String → Prop) (tagged : JsonPart → GqlPart → Prop) (c : Catalog) :
    Prop := ∀ d ∈ c.types, d.IsNamed given tagged

variable {given : String → Prop} {tagged : JsonPart → GqlPart → Prop}

theorem Body.IsNamed.fields {b : Body} (h : b.IsNamed tagged) :
    ∀ f ∈ b.fields, f.IsNamed tagged := by
  cases b with
  | record fields => exact h
  | defined t | aliased t => exact fun f hf => absurd hf List.not_mem_nil

theorem Field.IsNamed.subst {f : Field} (h : f.IsNamed tagged) {params : List String}
    {args : List GoType} (hargs : ∀ a ∈ args, a.AllNames IsSolid) :
    (f.subst params args).IsNamed tagged where
  goName := h.goName
  type := h.type.subst hargs
  tag := h.tag

theorem Field.IsNamed.map_subst {fs : List Field} (h : ∀ f ∈ fs, f.IsNamed tagged) {t : GoType}
    (ht : t.AllNames IsSolid) (params : List String) :
    ∀ f ∈ fs.map (Field.subst params t.typeArgs), f.IsNamed tagged := by
  intro f hf
  obtain ⟨g, hg, rfl⟩ := List.mem_map.1 hf
  exact (h g hg).subst ht.typeArgs

namespace Catalog

variable {c w : Catalog}

theorem mem_types_modify {id : Nat} {g : Declaration → Declaration} {d' : Declaration}
    (h : d' ∈ (c.modify id g).types) : d' ∈ c.types ∨ ∃ d ∈ c.types, d' = g d := by
  obtain ⟨i, hi⟩ := List.mem_iff_getElem?.1 h
  rw [modify, List.getElem?_modify] at hi
  obtain ⟨d, hd, rfl⟩ := Option.map_eq_some_iff.1 hi
  have hmem := List.mem_of_getElem? hd
  split
  · exact .inr ⟨d, hmem, rfl⟩
  · exact .inl hmem

namespace IsNamed

theorem get? (h : c.IsNamed given tagged) {id : Nat} {d : Declaration} (hd : c.get? id = some d) :
    d.IsNamed given tagged := h d (List.mem_of_getElem? hd)

theorem setBody (h : c.IsNamed given tagged) (id : Nat) {fs : List Field}
    (hfs : ∀ f ∈ fs, f.IsNamed tagged) : (c.setBody id (.record fs)).IsNamed given tagged := by
  intro d' hd'
  rcases mem_types_modify hd' with hd' | ⟨d, hd, rfl⟩
  · exact h d' hd'
  · have hnamed := h d hd
    exact ⟨hnamed.name, hfs, hnamed.requests, hnamed.enum, hnamed.additions⟩

theorem push (h : c.IsNamed given tagged) {d : Declaration} (hd : d.IsNamed given tagged) :
    (c.push d).1.IsNamed given tagged := by
  unfold Catalog.push
  split
  · exact h
  · intro e he
    rcases List.mem_append.1 he with he | he
    · exact h e he
    · obtain rfl := List.mem_singleton.1 he
      exact hd

/-! ### Settling and flattening -/

theorem fieldsBehind (h : c.IsNamed given tagged) : ∀ {room id : Nat} {fs : List Field},
    c.fieldsBehind room id = some fs → ∀ f ∈ fs, f.IsNamed tagged
  | 0, _, _, hfs => nomatch hfs
  | room + 1, id, fs, hfs => by
    obtain ⟨d, hd, hunder⟩ := fieldsBehind_eq_some_iff.1 hfs
    have hbody := (h.get? hd).body
    have hthrough : ∀ t : GoType, t.AllNames IsSolid → c.fieldsThrough room t = some fs →
        ∀ f ∈ fs, f.IsNamed tagged := by
      intro t ht hfs
      obtain ⟨-, i, e, own, -, hown, rfl⟩ := fieldsThrough_eq_some_iff.1 hfs
      exact Field.IsNamed.map_subst (h.fieldsBehind hown) ht _
    cases hb : d.body with
    | record own =>
      rw [hb] at hunder hbody
      obtain rfl := Option.some.inj hunder
      exact hbody
    | defined t | aliased t =>
      rw [hb] at hunder hbody
      exact hthrough t hbody hunder

theorem settleBody (h : c.IsNamed given tagged) (id : Nat) :
    (c.settleBody id).IsNamed given tagged := by
  unfold Catalog.settleBody
  split
  · rename_i fs hfs
    exact h.setBody id (h.fieldsBehind hfs)
  · exact h

theorem settleAll : ∀ {ids : List Nat} {c w : Catalog}, c.IsNamed given tagged →
    c.settleAll ids = .ok w → w.IsNamed given tagged
  | [], c, w, h, hw => by rwa [← Except.ok.inj hw]
  | id :: ids, c, w, h, hw => by
    unfold Catalog.settleAll at hw
    dsimp only at hw
    split at hw
    · cases hw
    · exact settleAll (h.settleBody id) hw

/-- **Settling keeps the names.** -/
theorem settle (h : c.IsNamed given tagged) (hw : c.settle = .ok w) : w.IsNamed given tagged :=
  h.settleAll hw

/-- A declared field keeps its name, or it gets that of an embedded type. -/
theorem declared? (h : c.IsNamed given tagged) {f g : Field} (hf : f.IsNamed tagged)
    (hg : c.declared? f = some g) : g.IsNamed tagged := by
  unfold Catalog.declared? at hg
  split at hg
  · split at hg
    · split at hg
      · cases hg
      · rwa [← Option.some.inj hg]
    · rename_i id d hfind
      split at hg
      · cases hg
      · obtain rfl := Option.some.inj hg
        refine ⟨fun name hname => ?_, hf.type, hf.tag⟩
        obtain rfl := Option.some.inj hname
        exact (h d (mem_of_find hfind)).name
  · rwa [← Option.some.inj hg]

theorem isFlat (h : c.IsNamed given tagged) {id : Nat} {fs : List Field} (hflat : c.IsFlat id fs) :
    ∀ f ∈ fs, f.IsNamed tagged := by
  induction hflat with
  | @struct id d flat hd hr _ _ ih =>
    have hown := (h.get? hd).body.fields
    intro f hf
    rcases List.mem_append.1 hf with hf | hf
    · obtain ⟨own, hmem, hf⟩ := List.mem_flatMap.1 (List.mem_filter.1 hf).1
      cases hx : c.embedded? own with
      | none =>
        rw [handedOn_of_none hx] at hf
        exact absurd hf List.not_mem_nil
      | some x =>
        rw [handedOn_of_some hx] at hf
        exact Field.IsNamed.map_subst (ih x.1 (embeds_of_mem hd hmem hx)) (hown own hmem).type _
          f hf
    · obtain ⟨own, hmem, hf⟩ := List.mem_filterMap.1 hf
      exact h.declared? (hown own hmem) hf

/-- **Flattening keeps the names.** -/
theorem flatten (h : c.IsNamed given tagged) (hw : c.flatten = .ok w) :
    w.IsNamed given tagged := by
  intro d' hd'
  obtain ⟨id, hid⟩ := List.mem_iff_getElem?.1 hd'
  obtain ⟨d, hd, -⟩ := exists_get?_of_heads (heads_flatten hw) hid
  have hnamed := h.get? hd
  have hget := get?_flatten hw hd
  obtain rfl := Option.some.inj (hid.symm.trans hget)
  split
  · rename_i hr
    rw [flatten_eq_map] at hw
    obtain ⟨done, hdone, -⟩ := map_eq_ok_iff.1 hw
    exact ⟨hnamed.name, h.isFlat (isFlat_of_flattenAll hdone hd hr).1, hnamed.requests,
      hnamed.enum, hnamed.additions⟩
  · exact hnamed

end IsNamed

end Catalog

/-! ### Instances -/

namespace Instances

/-- An instance is named after its generic struct and the names in the arguments. -/
theorem isNamed_instanceOf {generic : Declaration} (h : generic.IsNamed given tagged) (copy : Nat)
    {args : List GoType} (hargs : ∀ a ∈ args, a.AllNames IsSolid) :
    (instanceOf generic copy args).IsNamed given tagged where
  name := h.name.append (isGap_of_mem_namesOfArgs args (GoType.allNamesIn_iff.2 hargs))
  body f hf := by
    obtain ⟨g, hg, rfl⟩ := List.mem_map.1 hf
    exact (h.body.fields g hg).subst hargs
  requests r hr name hname := by
    obtain ⟨q, -, rfl⟩ := List.mem_map.1 hr
    exact nomatch hname
  enum r hr := nomatch hr
  additions := h.additions

variable {s : Instances}

theorem isNamed_instanceFor (h : s.catalog.IsNamed given tagged) {generic : Declaration}
    (hgeneric : generic.IsNamed given tagged) (id : Nat) {args : List GoType}
    (hargs : ∀ a ∈ args, a.AllNames IsSolid) :
    (s.instanceFor id generic args).2.catalog.IsNamed given tagged := by
  unfold instanceFor
  split
  · exact h
  · exact h.push (isNamed_instanceOf hgeneric _ hargs)

theorem allNames_reference {c : Catalog} (h : c.IsNamed given tagged) (id : Nat) :
    (reference c id).AllNames IsSolid := by
  unfold reference
  split
  · rename_i d hd
    exact ⟨(h.get? hd).name, trivial⟩
  · trivial

mutual

theorem isNamed_concrete : ∀ (t : GoType) {s : Instances}, t.AllNames IsSolid →
    s.catalog.IsNamed given tagged →
    (concrete s t).1.AllNames IsSolid ∧ (concrete s t).2.catalog.IsNamed given tagged
  | .pointer t, s, ht, h | .slice t, s, ht, h | .array t, s, ht, h => by
    simpa only [concrete, GoType.AllNames] using isNamed_concrete t ht h
  | .map k v, s, ht, h => by
    obtain ⟨hk, hs⟩ := isNamed_concrete k ht.1 h
    obtain ⟨hv, hs'⟩ := isNamed_concrete v ht.2 hs
    rw [concrete]
    exact ⟨⟨hk, hv⟩, hs'⟩
  | .any, s, ht, h | .other _, s, ht, h | .named _ _ _ [], s, ht, h => by
    rw [concrete]
    exact ⟨ht, h⟩
  | .named package qualifier name (t :: ts), s, ht, h => by
    obtain ⟨hargs, hs⟩ := isNamed_concreteAll (t :: ts) ht.2 h
    rw [concrete]
    · dsimp only
      split
      · rename_i id generic hfound
        obtain ⟨-, hget, -, -⟩ := genericOf?_eq_some_iff.1 hfound
        have hmade := isNamed_instanceFor hs (hs.get? hget) id (GoType.allNamesIn_iff.1 hargs)
        exact ⟨allNames_reference hmade _, hmade⟩
      · exact ⟨⟨ht.1, hargs⟩, hs⟩
    · simp

theorem isNamed_concreteAll : ∀ (ts : List GoType) {s : Instances},
    GoType.AllNamesIn IsSolid ts → s.catalog.IsNamed given tagged →
    GoType.AllNamesIn IsSolid (concreteAll s ts).1 ∧
      (concreteAll s ts).2.catalog.IsNamed given tagged
  | [], s, hts, h => by
    rw [concreteAll]
    exact ⟨hts, h⟩
  | t :: ts, s, hts, h => by
    obtain ⟨ht, hs⟩ := isNamed_concrete t hts.1 h
    obtain ⟨hrest, hs'⟩ := isNamed_concreteAll ts hts.2 hs
    rw [concreteAll]
    exact ⟨⟨ht, hrest⟩, hs'⟩

end

theorem isNamed_concreteFields : ∀ {fs : List Field} {s : Instances},
    (∀ f ∈ fs, f.IsNamed tagged) → s.catalog.IsNamed given tagged →
    (∀ f ∈ (concreteFields s fs).1, f.IsNamed tagged) ∧
      (concreteFields s fs).2.catalog.IsNamed given tagged
  | [], s, hfs, h => by
    rw [concreteFields]
    exact ⟨hfs, h⟩
  | f :: fs, s, hfs, h => by
    obtain ⟨hf, hfs⟩ := List.forall_mem_cons.1 hfs
    obtain ⟨ht, hs⟩ := isNamed_concrete f.type hf.type h
    obtain ⟨hrest, hs'⟩ := isNamed_concreteFields hfs hs
    rw [concreteFields]
    exact ⟨List.forall_mem_cons.2 ⟨⟨hf.goName, ht, hf.tag⟩, hrest⟩, hs'⟩

theorem isNamed_step (h : s.catalog.IsNamed given tagged) :
    s.step.catalog.IsNamed given tagged := by
  unfold step
  split
  · exact h
  · rename_i id queue hqueue
    dsimp only
    split
    · rename_i fields hbody
      obtain ⟨d, hd, hrecord⟩ := Option.map_eq_some_iff.1 hbody
      have hfields : ∀ f ∈ fields, f.IsNamed tagged := by
        have := (h.get? hd).body
        rwa [hrecord] at this
      obtain ⟨hmade, hs⟩ := isNamed_concreteFields (s := { s with queue }) hfields h
      exact hs.setBody id hmade
    · exact h

theorem isNamed_run : ∀ (limit : Nat) {s : Instances}, s.catalog.IsNamed given tagged →
    (run limit s).catalog.IsNamed given tagged
  | 0, _, h => h
  | limit + 1, s, h => by
    unfold run
    split
    · exact h
    · exact isNamed_run limit (isNamed_step h)

end Instances

namespace Catalog

namespace IsNamed

variable {c w : Catalog}

/-- **Instances have names like all else.** -/
theorem withInstances (h : c.IsNamed given tagged) (hw : c.withInstances = .ok w) :
    w.IsNamed given tagged := by
  obtain ⟨n, -, rfl⟩ := withInstances_eq_ok_iff.1 hw
  exact Instances.isNamed_run _ h

/-- **Discovery gives no name.** -/
theorem addDiscovered (h : c.IsNamed given tagged) {config : Config}
    (hw : c.addDiscovered config = .ok w) : w.IsNamed given tagged := by
  refine addDiscovered_keeps (P := Catalog.IsNamed given tagged) (K := fun _ => True) trivial
    (fun _ _ _ _ _ => trivial) (fun {c kind} id hc _ d' hd' => ?_) h hw
  rcases mem_types_modify hd' with hd' | ⟨d, hd, rfl⟩
  · exact hc d' hd'
  · have hnamed := hc d hd
    refine ⟨hnamed.name, hnamed.body, fun r hr name hname => ?_, hnamed.enum, hnamed.additions⟩
    rcases List.mem_append.1 hr with hr | hr
    · exact hnamed.requests r hr name hname
    · obtain rfl := List.mem_singleton.1 hr
      exact nomatch hname

end IsNamed

end Catalog

/-! ### Names in the sources -/

namespace SourceFile

open Source

/-- A directive in the documentation of a type gives a block this name. -/
def NamesBlock (file : SourceFile) (name : String) : Prop :=
  ∃ decl ∈ file.types, ∃ doc, file.readDoc decl.name decl.doc = .ok doc ∧
    ∃ x ∈ doc.directives, x.text? "name" = some name

/-- A field of a type in the file has a tag of these parts. -/
def TagsField (file : SourceFile) (json : JsonPart) (options : GqlPart) : Prop :=
  ∃ decl ∈ file.types, ∃ fields, decl.body = .record fields ∧
    ∃ f ∈ fields, FieldTag.ofRaw? f.tag = .ok ⟨json, options⟩

end SourceFile

theorem GoType.AllNames.mono {ok ok' : String → Prop} (hok : ∀ name, ok name → ok' name)
    {t : GoType} (h : t.AllNames ok) : t.AllNames ok' := by
  induction t using GoType.rec
    (motive_2 := fun ts => GoType.AllNamesIn ok ts → GoType.AllNamesIn ok' ts) with
  | pointer t ih | slice t ih | array t ih => exact ih h
  | map k v ihk ihv => exact ⟨ihk h.1, ihv h.2⟩
  | any | other => trivial
  | named package qualifier name args ih => exact ⟨hok name h.1, ih h.2⟩
  | nil => trivial
  | cons t ts ih ihs hts => exact ⟨ih hts.1, ihs hts.2⟩

theorem GoType.HasIdentifiers.allNames {t : GoType} (h : t.HasIdentifiers) :
    t.AllNames IsSolid := h.mono fun _ hname => hname.isSolid

namespace Field

open Source

theorem isSolid_goNameOf {decl : FieldDecl} (h : decl.HasIdentifiers) {tag : FieldTag}
    {name : String} (hname : goNameOf decl tag = some name) : IsSolid name := by
  unfold goNameOf at hname
  cases hdecl : decl.name with
  | some own =>
    rw [hdecl] at hname
    obtain rfl := Option.some.inj hname
    exact (h.name _ hdecl).isSolid
  | none =>
    rw [hdecl] at hname
    dsimp only at hname
    split at hname
    · have hstrip := h.type.allNames.stripPointers
      rcases h.embedded hdecl with hany | ⟨package, qualifier, own, args, hnamed⟩
      · rw [hany] at hname
        obtain rfl := Option.some.inj hname
        exact ⟨by decide, not_isGap_of_all (by decide)⟩
      · rw [hnamed] at hname hstrip
        obtain rfl := Option.some.inj hname
        exact hstrip.1
    · exact nomatch hname

theorem isNamed_ofDecl {config : Config} {file : SourceFile} {owner : TypeDecl}
    {decl : FieldDecl} (h : decl.HasIdentifiers) {f : Field}
    (hf : ofDecl config file owner decl = .ok f) :
    f.IsNamed fun json options => FieldTag.ofRaw? decl.tag = .ok ⟨json, options⟩ := by
  unfold ofDecl at hf
  dsimp only at hf
  split at hf
  · exact nomatch hf
  · split at hf
    · exact nomatch hf
    · split at hf
      · exact nomatch hf
      · rename_i tag htag
        obtain rfl := Except.ok.inj hf
        exact ⟨fun name hname => isSolid_goNameOf h hname,
          file.allNames_qualify _ h.type.allNames, htag⟩

end Field

namespace Declaration

open Source

theorem additions_withDirective {isLiteral : Bool} {d d' : Declaration} {x : Directive}
    (h : d.withDirective isLiteral x = .ok d')
    (hd : ∀ e ∈ d.additions, Text.isBlankText e.name.toList = false) :
    ∀ e ∈ d'.additions, Text.isBlankText e.name.toList = false := by
  cases hk : x.kind with
  | extraField =>
    simp only [withDirective, hk] at h
    obtain ⟨extra, hextra, rfl⟩ := map_eq_ok_iff.1 h
    unfold AddedField.ofDirective at hextra
    dsimp only at hextra
    split at hextra
    · cases hextra
    · rename_i hblank
      obtain rfl := Except.ok.inj hextra
      intro e he
      rcases List.mem_append.1 he with he | he
      · exact hd e he
      · obtain rfl := List.mem_singleton.1 he
        simp only [Bool.or_eq_true, not_or, Bool.not_eq_true] at hblank
        exact hblank.1
  | typeBlock | inputBlock | ignoreAll =>
    simp only [withDirective, hk] at h
    obtain rfl := Except.ok.inj h
    exact hd
  | enumBlock | packageName =>
    simp only [withDirective, hk] at h
    split_ifs at h
    obtain rfl := Except.ok.inj h
    exact hd
  | enumValue =>
    simp only [withDirective, hk] at h
    cases h

theorem additions_withDirectives {file : SourceFile} {isLiteral : Bool} :
    ∀ {xs : List Directive} {d d' : Declaration}, withDirectives file isLiteral d xs = .ok d' →
      (∀ e ∈ d.additions, Text.isBlankText e.name.toList = false) →
      ∀ e ∈ d'.additions, Text.isBlankText e.name.toList = false
  | [], d, d', h, hd => by
    obtain rfl := Except.ok.inj h
    exact hd
  | x :: xs, d, d', h, hd => by
    unfold withDirectives at h
    split at h
    · exact nomatch h
    · rename_i next hnext
      exact additions_withDirectives h (additions_withDirective hnext hd)

/-- **The declaration of a type is named as its file names it.** -/
theorem isNamed_ofDecl {config : Config} {file : SourceFile} (h : file.HasIdentifiers)
    {decl : TypeDecl} (hdecl : decl ∈ file.types) {space : Option String} {place : Place}
    {d : Declaration} (hd : ofDecl config file space place decl = .ok d) :
    d.IsNamed file.NamesBlock file.TagsField := by
  obtain ⟨hname, hbody⟩ := h.types decl hdecl
  obtain ⟨hnamed, -, -, -, doc, hdoc, hrequests, henum, -⟩ := isOf_ofDecl hd
  have hgiven : ∀ {x : Directive} {name : String}, x ∈ doc.directives →
      x.text? "name" = some name → file.NamesBlock name := fun hx hname =>
    ⟨decl, hdecl, doc, hdoc, _, hx, hname⟩
  refine ⟨by rw [hnamed]; exact hname.isSolid, ?body, ?requests, ?enum, ?additions⟩
  case body =>
    have hmade := bodyOf_of_ofDecl hd
    unfold bodyOf at hmade
    cases hb : decl.body with
    | record fields =>
      rw [hb] at hmade hbody
      obtain ⟨own, hown, heq⟩ := map_eq_ok_iff.1 hmade
      rw [← heq]
      intro f hf
      obtain ⟨g, hg, hfield⟩ := Pointwise.exists_left (forall₂_of_mapM hown) hf
      have hfnamed := Field.isNamed_ofDecl (hbody g hg) hfield
      exact ⟨hfnamed.goName, hfnamed.type, decl, hdecl, fields, hb, g, hg, hfnamed.tag⟩
    | defined t | aliased t =>
      rw [hb] at hmade hbody
      rw [← Except.ok.inj hmade]
      exact file.allNames_qualify _ (GoType.HasIdentifiers.allNames hbody)
  case requests =>
    intro r hr name hcustom
    rw [hrequests] at hr
    obtain ⟨x, hx, hblock⟩ := List.mem_filterMap.1 hr
    unfold Directive.blockRequest? at hblock
    split at hblock
    · obtain rfl := Option.some.inj hblock
      exact hgiven hx hcustom
    · obtain rfl := Option.some.inj hblock
      exact hgiven hx hcustom
    · exact nomatch hblock
  case enum =>
    intro r hr name hcustom
    rw [henum] at hr
    obtain ⟨x, hx, hblock⟩ := List.mem_filterMap.1 (List.mem_of_mem_head? hr)
    unfold Directive.enumRequest? at hblock
    split at hblock
    · obtain rfl := Option.some.inj hblock
      exact hgiven hx hcustom
    · exact nomatch hblock
  case additions =>
    unfold ofDecl at hd
    split at hd
    · exact nomatch hd
    · split at hd
      · exact nomatch hd
      · obtain ⟨r, hr, rfl⟩ := map_eq_ok_iff.1 hd
        intro e he
        exact additions_withDirectives hr (fun e he => absurd he List.not_mem_nil) e he

theorem IsNamed.mono {given' : String → Prop} {tagged' : JsonPart → GqlPart → Prop}
    {d : Declaration} (h : d.IsNamed given tagged) (hgiven : ∀ name, given name → given' name)
    (htagged : ∀ json options, tagged json options → tagged' json options) :
    d.IsNamed given' tagged' where
  name := h.name
  body := by
    have hbody := h.body
    cases hb : d.body with
    | record fields =>
      rw [hb] at hbody
      exact fun f hf => ⟨(hbody f hf).goName, (hbody f hf).type, htagged _ _ (hbody f hf).tag⟩
    | defined t | aliased t =>
      rw [hb] at hbody
      exact hbody
  requests r hr name hname := hgiven name (h.requests r hr name hname)
  enum r hr name hname := hgiven name (h.enum r hr name hname)
  additions := h.additions

end Declaration

namespace Declarations

variable {config : Config} {files : List SourceFile} {ds : Declarations}

/-- **The catalog that blocks are made of is named as the files name it.** -/
theorem isNamed_maker (hnames : ∀ file ∈ files, file.HasIdentifiers)
    (hds : ofFiles config files = .ok ds) {ctx : BlockMaker} (hctx : ds.maker config = .ok ctx) :
    ctx.catalog.IsNamed (fun name => ∃ file ∈ files, file.NamesBlock name)
      fun json options => ∃ file ∈ files, file.TagsField json options := by
  have hsources : Catalog.IsNamed (fun name => ∃ file ∈ files, file.NamesBlock name)
      (fun json options => ∃ file ∈ files, file.TagsField json options)
      (Catalog.ofDeclarations ds) := by
    intro d hd
    have hd := (Catalog.types_ofDeclarations_sublist ds).subset hd
    obtain ⟨⟨file, decl⟩, hmem, space, place, hdecl⟩ := Pointwise.exists_left (ofFiles_ok hds).1 hd
    obtain ⟨own, hfile, hown⟩ := List.mem_flatMap.1 hmem
    obtain ⟨declared, hdeclared, heq⟩ := List.mem_map.1 hown
    obtain ⟨rfl, rfl⟩ := Prod.mk.inj heq
    exact (Declaration.isNamed_ofDecl (hnames own hfile) hdeclared hdecl).mono
      (fun name h => ⟨own, hfile, h⟩) fun json options h => ⟨own, hfile, h⟩
  simp only [maker, bind_eq_ok_iff] at hctx
  obtain ⟨settled, hsettled, enums, -, flat, hflat, made, hmade, found, hfound, hctx⟩ := hctx
  obtain rfl := Except.ok.inj hctx
  exact (((hsources.settle hsettled).flatten hflat).withInstances hmade).addDiscovered hfound

theorem isSolid_consts (hnames : ∀ file ∈ files, file.HasIdentifiers)
    (hds : ofFiles config files = .ok ds) : ∀ k ∈ ds.consts, IsSolid k.name := by
  intro k hk
  obtain ⟨⟨file, decl⟩, hmem, place, hdecl⟩ := Pointwise.exists_left (ofFiles_ok hds).2 hk
  obtain ⟨own, hfile, hown⟩ := List.mem_flatMap.1 hmem
  obtain ⟨declared, hdeclared, heq⟩ := List.mem_map.1 hown
  obtain ⟨rfl, rfl⟩ := Prod.mk.inj heq
  have hname : k.name = declared.name := by
    unfold Constant.ofDecl at hdecl
    split at hdecl
    · exact nomatch hdecl
    · obtain ⟨request, -, rfl⟩ := map_eq_ok_iff.1 hdecl
      rfl
  rw [hname]
  exact isSolid_of_isConstName ((hnames own hfile).consts declared hdeclared)

end Declarations

end GoSchema
