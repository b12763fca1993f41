/-
# Catalogs that count alike

Two catalogs count alike when their declarations differ in embedded fields only: one that has opted
out is left out if its type is not declared, one whose type is a struct has any other tag, and one
whose type is declared as something else has the name of that type. Replacing type parameters keeps
this, so it holds for the fields behind names too: settled catalogs count alike, and enums get the
same values.

Key definitions: `Catalog.isParameter`, `FieldAlike`, `IsIdle`, `FieldsAlike`, `Catalog.Alike`.
Key theorems: `Catalog.find_subst`, `FieldsAlike.subst`, `Catalog.Alike.fieldsBehind_cases`,
`Catalog.Alike.settle`, `Catalog.Alike.enumMembers_eq`.
-/
import GoSchema.Catalog.EnumMembers
import GoSchema.Catalog.Flatten
import GoSchema.Proofs.Lookup
import GoSchema.Proofs.Outcome
import GoSchema.Proofs.Pointwise

namespace GoSchema

open Outcome

namespace GoType

variable {params : List String}

/-- Whether a type is, behind any pointers, the bare name of one of these type parameters. -/
def isParameterOf (params : List String) (t : GoType) : Bool :=
  match t.stripPointers with
  | .named none _ name [] => params.contains name
  | _ => false

theorem argFor_eq_none {args : List GoType} {name : String} (h : name ∉ params) :
    argFor params args name = none := by
  have hno : params.findIdx? (· = name) = none := by
    rw [List.findIdx?_eq_none_iff]
    intro x hx
    rw [decide_eq_false_iff_not]
    rintro rfl
    exact h hx
  simp [argFor, hno]

theorem subst_bare (args : List GoType) {q : Option String} {name : String}
    (h : (named none q name []).isParameterOf params = false) :
    (named none q name []).subst params args = named none q name [] := by
  have hname : name ∉ params := by simpa [isParameterOf, stripPointers] using h
  simp [subst, argFor_eq_none hname]

/-- Arguments for parameters other than the type itself are put in behind the pointers. -/
theorem stripPointers_subst (args : List GoType) {t : GoType} (h : t.isParameterOf params = false) :
    (t.subst params args).stripPointers = t.stripPointers.subst params args := by
  induction t using stripPointers.induct with
  | case1 t ih => exact ih h
  | case2 t hpointer =>
    cases t with
    | pointer t => exact absurd rfl (hpointer t)
    | named package q name own =>
      cases package with
      | some p => cases own <;> rfl
      | none =>
        cases own with
        | nil => exact (congrArg stripPointers (subst_bare args h)).trans (subst_bare args h).symm
        | cons a as => rfl
    | slice t | array t => rfl
    | map k v => rfl
    | any => rfl
    | other text => rfl

end GoType

namespace Catalog

variable {c c' w : Catalog}

/-- Whether a type is a bare name that some declaration uses for a type parameter. -/
def isParameter (c : Catalog) (t : GoType) : Bool :=
  match t.stripPointers with
  | .named none _ name [] => c.types.any (·.typeParams.contains name)
  | _ => false

/-- The type parameters of some declaration. -/
def IsParams (c : Catalog) (params : List String) : Prop :=
  ∃ d ∈ c.types, d.typeParams = params

theorem isParameterOf_eq_false {params : List String} (hparams : c.IsParams params) {t : GoType}
    (h : c.isParameter t = false) : t.isParameterOf params = false := by
  obtain ⟨d, hd, rfl⟩ := hparams
  unfold isParameter at h
  unfold GoType.isParameterOf
  split
  · rename_i heq
    rw [heq] at h
    exact Bool.eq_false_iff.2 fun hmem => List.any_eq_false.1 h d hd hmem
  · rfl

theorem idOfType?_subst (c : Catalog) {params : List String} (args : List GoType) {t : GoType}
    (h : t.isParameterOf params = false) : c.idOfType? (t.subst params args) = c.idOfType? t := by
  unfold idOfType?
  rw [GoType.stripPointers_subst args h]
  unfold GoType.isParameterOf at h
  cases ht : t.stripPointers with
  | named package q name own =>
    cases package with
    | some p => cases own <;> rfl
    | none =>
      cases own with
      | nil =>
        rw [GoType.subst_bare]
        rw [ht] at h
        exact h
      | cons a as => rfl
  | pointer t => rfl
  | slice t | array t => rfl
  | map k v => rfl
  | any => rfl
  | other text => rfl

/-- A type that is no parameter of the catalog is still none when parameters are replaced. -/
theorem isParameter_subst {params : List String} (hparams : c.IsParams params) (args : List GoType)
    {t : GoType} (h : c.isParameter t = false) : c.isParameter (t.subst params args) = false := by
  have hp := isParameterOf_eq_false hparams h
  unfold isParameter at h ⊢
  rw [GoType.stripPointers_subst args hp]
  unfold GoType.isParameterOf at hp
  cases ht : t.stripPointers with
  | named package q name own =>
    cases package with
    | some p => cases own <;> rfl
    | none =>
      cases own with
      | nil =>
        rw [ht] at h hp
        rwa [GoType.subst_bare args hp]
      | cons a as => rfl
  | pointer t => rfl
  | slice t | array t => rfl
  | map k v => rfl
  | any => rfl
  | other text => rfl

theorem find_subst {params : List String} (hparams : c.IsParams params) (args : List GoType)
    {t : GoType} (h : c.isParameter t = false) : c.find (t.subst params args) = c.find t := by
  rw [find, idOfType?_subst c args (isParameterOf_eq_false hparams h), find]

theorem isParameter_of_find {t : GoType} {x : Nat × Declaration} (h : c.find t = some x) :
    c.isParameter t = false := by
  have hid := (find_eq_some_iff.1 h).1
  unfold idOfType? at hid
  unfold isParameter
  split at hid
  · rename_i heq
    rw [heq]
  · exact nomatch hid

end Catalog

/-! ### Fields that count alike -/

/-- Fields that count alike in a catalog: an embedded struct may have any other tag, and an embedded
type that is declared and no struct may have its name. -/
inductive FieldAlike (w : Catalog) : Field → Field → Prop
  | same (f : Field) : FieldAlike w f f
  | struct {f f' : Field} {id : Nat} {d : Declaration} (he : f.isEmbedded = true)
      (he' : f'.isEmbedded = true) (ht : f'.type = f.type) (hd : w.find f.type = some (id, d))
      (hr : d.isRecord = true) : FieldAlike w f f'
  | named {f : Field} {id : Nat} {d : Declaration} (he : f.isEmbedded = true)
      (hd : w.find f.type = some (id, d)) (hr : d.isRecord = false) :
      FieldAlike w f { f with goName := some d.name }

/-- Whether an embedded field gives nothing: it has opted out, and its type is not declared. -/
structure IsIdle (w : Catalog) (f : Field) : Prop where
  embedded : f.isEmbedded = true
  out : Catalog.isOptedOut f = true
  undeclared : w.find f.type = none
  proper : w.isParameter f.type = false

/-- Fields that count alike one by one, where the first list may have further ones that give
nothing. -/
inductive FieldsAlike (w : Catalog) : List Field → List Field → Prop
  | nil : FieldsAlike w [] []
  | cons {f f' : Field} {fs fs' : List Field} (hf : FieldAlike w f f') (hs : FieldsAlike w fs fs') :
      FieldsAlike w (f :: fs) (f' :: fs')
  | idle {f : Field} {fs fs' : List Field} (hf : IsIdle w f) (hs : FieldsAlike w fs fs') :
      FieldsAlike w (f :: fs) fs'

variable {w : Catalog}

theorem FieldAlike.subst {params : List String} (hparams : w.IsParams params) (args : List GoType)
    {f f' : Field} (h : FieldAlike w f f') :
    FieldAlike w (f.subst params args) (f'.subst params args) := by
  cases h with
  | same => exact .same _
  | struct he he' ht hd hr =>
    have hfind := Catalog.find_subst hparams args (Catalog.isParameter_of_find hd)
    exact .struct he he' (by simp [Field.subst, ht]) (hfind.trans hd) hr
  | named he hd hr =>
    have hfind := Catalog.find_subst hparams args (Catalog.isParameter_of_find hd)
    exact .named (f := f.subst params args) he (hfind.trans hd) hr

theorem IsIdle.subst {params : List String} (hparams : w.IsParams params) (args : List GoType)
    {f : Field} (h : IsIdle w f) : IsIdle w (f.subst params args) where
  embedded := h.embedded
  out := h.out
  undeclared := (Catalog.find_subst hparams args h.proper).trans h.undeclared
  proper := Catalog.isParameter_subst hparams args h.proper

theorem FieldsAlike.refl : ∀ fs : List Field, FieldsAlike w fs fs
  | [] => .nil
  | f :: fs => .cons (.same f) (refl fs)

theorem FieldsAlike.subst {params : List String} (hparams : w.IsParams params) (args : List GoType)
    {fs fs' : List Field} (h : FieldsAlike w fs fs') :
    FieldsAlike w (fs.map (Field.subst params args)) (fs'.map (Field.subst params args)) := by
  induction h with
  | nil => exact .nil
  | cons hf _ ih => exact .cons (hf.subst hparams args) ih
  | idle hf _ ih => exact .idle (hf.subst hparams args) ih

theorem FieldsAlike.append_left {fs fs' : List Field} (h : FieldsAlike w fs fs') :
    ∀ before : List Field, FieldsAlike w (before ++ fs) (before ++ fs')
  | [] => h
  | f :: before => .cons (.same f) (append_left h before)

/-- Bodies whose fields count alike; anything but a struct must be the same. -/
inductive BodyAlike (w : Catalog) : Body → Body → Prop
  | record {fs fs' : List Field} (h : FieldsAlike w fs fs') :
      BodyAlike w (.record fs) (.record fs')
  | same (b : Body) : BodyAlike w b b

theorem BodyAlike.isRecord {b b' : Body} (h : BodyAlike w b b') : b'.isRecord = b.isRecord := by
  cases h <;> rfl

/-- Declarations that differ in their bodies only, which count alike. -/
def DeclarationAlike (w : Catalog) (d d' : Declaration) : Prop :=
  ∃ body, d' = { d with body } ∧ BodyAlike w d.body body

theorem DeclarationAlike.refl (d : Declaration) : DeclarationAlike w d d := ⟨d.body, rfl, .same _⟩

theorem map_head_eq {ds ds' : List Declaration} (h : List.Forall₂ (DeclarationAlike w) ds ds') :
    ds'.map Declaration.head = ds.map Declaration.head := by
  induction h with
  | nil => rfl
  | cons hd _ ih =>
    obtain ⟨body, rfl, -⟩ := hd
    rw [List.map_cons, List.map_cons, ih]
    rfl

/-- Catalogs whose declarations count alike, by the lookups of the catalog `w`. -/
structure Catalog.Alike (w c c' : Catalog) : Prop where
  base : c.heads = w.heads
  types : List.Forall₂ (DeclarationAlike w) c.types c'.types
  consts : c'.consts = c.consts

/-- Whether a type is a name. -/
def GoType.isNamed : GoType → Bool
  | .named .. => true
  | _ => false

/-- The fields that the type behind a name hands on, if it is a name itself. -/
def Catalog.fieldsThrough (c : Catalog) (room : Nat) (t : GoType) : Option (List Field) :=
  if t.isNamed then
    (c.find t).bind fun x =>
      (c.fieldsBehind room x.1).map (·.map (Field.subst x.2.typeParams t.typeArgs))
  else none

theorem Catalog.fieldsBehind_succ (c : Catalog) (room id : Nat) :
    c.fieldsBehind (room + 1) id =
      (c.get? id).bind fun d =>
        match d.body with
        | .record fields => some fields
        | .defined t | .aliased t => c.fieldsThrough room t := by
  unfold fieldsBehind
  cases c.get? id with
  | none => rfl
  | some d =>
    simp only [Option.map_some, Option.bind_some]
    cases d.body with
    | record fields => rfl
    | defined t | aliased t =>
      cases t <;> try rfl
      simp only [fieldsThrough, GoType.isNamed, if_true]
      cases c.find _ <;> rfl

namespace Catalog.Alike

variable {c c' : Catalog} (h : Catalog.Alike w c c')
include h

/-! ### Lookups end alike -/

theorem heads_eq : c'.heads = c.heads := map_head_eq h.types

theorem ids_eq : c'.ids = c.ids := by
  rw [ids, ids, ← heads_length, h.heads_eq, heads_length]

theorem get?_cases (id : Nat) :
    (c.get? id = none ∧ c'.get? id = none) ∨
      ∃ d body, c.get? id = some d ∧ c'.get? id = some { d with body } ∧
        BodyAlike w d.body body := by
  rcases Pointwise.getElem?_cases h.types id with hno | ⟨d, _, hd, hd', body, rfl, hb⟩
  · exact .inl hno
  · exact .inr ⟨d, body, hd, hd', hb⟩

theorem find_cases (t : GoType) :
    (c.find t = none ∧ c'.find t = none) ∨
      ∃ id d body, c.find t = some (id, d) ∧ c'.find t = some (id, { d with body }) ∧
        BodyAlike w d.body body := by
  unfold find
  rw [idOfType?_eq_of_heads h.heads_eq]
  cases c.idOfType? t with
  | none => exact .inl ⟨rfl, rfl⟩
  | some id =>
    rcases h.get?_cases id with ⟨hno, hno'⟩ | ⟨d, body, hd, hd', hb⟩
    · exact .inl ⟨by simp [hno], by simp [hno']⟩
    · exact .inr ⟨id, d, body, by simp [hd], by simp [hd'], hb⟩

theorem isParams {d : Declaration} (hd : d ∈ c.types) : w.IsParams d.typeParams := by
  have hmem : d.head ∈ w.heads := h.base ▸ List.mem_map_of_mem hd
  obtain ⟨e, he, heq⟩ := List.mem_map.1 hmem
  exact ⟨e, he, by simpa [Declaration.head] using congrArg Declaration.typeParams heq⟩

theorem labelOf_eq (id : Nat) : c'.labelOf id = c.labelOf id := by
  unfold labelOf
  rcases h.get?_cases id with ⟨hno, hno'⟩ | ⟨d, body, hd, hd', -⟩
  · rw [hno, hno']
  · rw [hd, hd']
    rfl

theorem nameOf_eq (id : Nat) : c'.nameOf id = c.nameOf id := by
  unfold nameOf
  rcases h.get?_cases id with ⟨hno, hno'⟩ | ⟨d, body, hd, hd', -⟩
  · rw [hno, hno']
  · rw [hd, hd']
    rfl

theorem setBody {body body' : Body} (hb : BodyAlike w body body') (id : Nat) :
    Catalog.Alike w (c.setBody id body) (c'.setBody id body') where
  base := by rw [heads_setBody, h.base]
  types := Pointwise.modify_both h.types (fun d _ ⟨_, hd, _⟩ => ⟨body', by rw [hd], hb⟩) id
  consts := h.consts

/-! ### Bodies and enums -/

theorem fieldsThrough_cases {room : Nat} (ih : ∀ id,
      (c.fieldsBehind room id = none ∧ c'.fieldsBehind room id = none) ∨
        ∃ fs fs', c.fieldsBehind room id = some fs ∧ c'.fieldsBehind room id = some fs' ∧
          FieldsAlike w fs fs') (t : GoType) :
    (c.fieldsThrough room t = none ∧ c'.fieldsThrough room t = none) ∨
      ∃ fs fs', c.fieldsThrough room t = some fs ∧ c'.fieldsThrough room t = some fs' ∧
        FieldsAlike w fs fs' := by
  by_cases ht : t.isNamed
  · rw [fieldsThrough, fieldsThrough, if_pos ht, if_pos ht]
    rcases h.find_cases t with ⟨hno, hno'⟩ | ⟨id, d, body, hd, hd', -⟩
    · rw [hno, hno']
      exact .inl ⟨rfl, rfl⟩
    · rw [hd, hd', Option.bind_some, Option.bind_some]
      rcases ih id with ⟨hno, hno'⟩ | ⟨fs, fs', hfs, hfs', hs⟩
      · rw [hno, hno']
        exact .inl ⟨rfl, rfl⟩
      · rw [hfs, hfs']
        exact .inr ⟨_, _, rfl, rfl, hs.subst (h.isParams (mem_of_find hd)) t.typeArgs⟩
  · rw [fieldsThrough, fieldsThrough, if_neg ht, if_neg ht]
    exact .inl ⟨rfl, rfl⟩

/-- The fields behind a name count alike. -/
theorem fieldsBehind_cases : ∀ room id : Nat,
    (c.fieldsBehind room id = none ∧ c'.fieldsBehind room id = none) ∨
      ∃ fs fs', c.fieldsBehind room id = some fs ∧ c'.fieldsBehind room id = some fs' ∧
        FieldsAlike w fs fs'
  | 0, _ => .inl ⟨rfl, rfl⟩
  | room + 1, id => by
    have through := h.fieldsThrough_cases (fieldsBehind_cases room)
    rw [fieldsBehind_succ, fieldsBehind_succ]
    rcases h.get?_cases id with ⟨hno, hno'⟩ | ⟨d, body, hd, hd', hb⟩
    · exact .inl ⟨by simp [hno], by simp [hno']⟩
    · rw [hd, hd']
      cases d with | mk name package path line place typeParams b =>
      cases hb with
      | record hs => exact .inr ⟨_, _, rfl, rfl, hs⟩
      | same b =>
        cases b with
        | record fs => exact .inr ⟨fs, fs, rfl, rfl, .refl fs⟩
        | defined t => exact through t
        | aliased t => exact through t

theorem settleBody (id : Nat) : Catalog.Alike w (c.settleBody id) (c'.settleBody id) := by
  unfold Catalog.settleBody
  rcases h.fieldsBehind_cases (chainLimit + 1) id with ⟨hno, hno'⟩ | ⟨fs, fs', hfs, hfs', hs⟩
  · rw [hno, hno']
    exact h
  · rw [hfs, hfs']
    exact h.setBody (.record hs) id

theorem unfit?_eq (id : Nat) : (c'.get? id).bind unfit? = (c.get? id).bind unfit? := by
  rcases h.get?_cases id with ⟨hno, hno'⟩ | ⟨d, body, hd, hd', hb⟩
  · rw [hno, hno']
  · rw [hd, hd', Option.bind_some, Option.bind_some]
    simp only [unfit?, Declaration.isRecord, hb.isRecord]

omit h in
/-- Settling keeps catalogs alike, and fails on both with the same fault. -/
theorem settleAll : ∀ {ids : List Nat} {c c' : Catalog}, Catalog.Alike w c c' →
    Outcome.Alike (Catalog.Alike w) (c.settleAll ids) (c'.settleAll ids)
  | [], _, _, h => .ok h
  | id :: ids, c, c', h => by
    have hnext := h.settleBody id
    unfold Catalog.settleAll
    dsimp only
    rw [hnext.unfit?_eq id]
    split
    · exact .error _
    · exact settleAll hnext

theorem settle : Outcome.Alike (Catalog.Alike w) c.settle c'.settle := by
  unfold Catalog.settle
  rw [h.ids_eq]
  exact h.settleAll

theorem enumIds_eq : c'.enumIds = c.enumIds := by
  unfold enumIds
  rw [h.ids_eq]
  congr 1
  funext id
  rcases h.get?_cases id with ⟨hno, hno'⟩ | ⟨d, body, hd, hd', -⟩
  · rw [hno, hno']
  · rw [hd, hd']
    rfl

theorem addConstant_eq : c'.addConstant = c.addConstant := by
  funext values k
  unfold addConstant enumOf?
  cases k.type with
  | none => rfl
  | some t =>
    rw [Option.bind_some, Option.bind_some]
    rcases h.find_cases t with ⟨hno, hno'⟩ | ⟨id, d, body, hd, hd', -⟩
    · rw [hno, hno']
    · rw [hd, hd']
      by_cases hr : d.enumRequest.isSome
      · simp only [Option.filter, hr, if_true]
        rfl
      · simp only [Option.filter, hr]
        rfl

theorem enumMembers_eq : c'.enumMembers = c.enumMembers := by
  unfold enumMembers
  rw [h.consts, h.addConstant_eq, h.enumIds_eq]
  have hlabel : ∀ id, ((c'.get? id).map Declaration.label).getD "" =
      ((c.get? id).map Declaration.label).getD "" := h.labelOf_eq
  simp only [hlabel]

end Catalog.Alike

end GoSchema
