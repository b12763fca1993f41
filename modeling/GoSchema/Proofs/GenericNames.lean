/-
# Names with type arguments

A name with type arguments may stand for a type that is no struct, as a generic name for lists does.
Its type text is that of the type behind the name as the declaration has it: the arguments are never
put in. That makes no difference where the parameters are only arguments in turn, or in maps, or not
there at all: a type text does not read the arguments of names, nor what a map is from and to. But
where a parameter is the type of a value or of the items of a list, it is a name that nothing
declares.

Key definitions: `GoType.outline`, `Instances.namesGeneric`, `BlockMaker.Spot.withType`.
Key theorems: `GoType.outline_subst`, `Instances.outline_concrete`, `BlockMaker.refer_outline`,
`BlockMaker.refer_more_room`, `BlockMaker.fieldTypeText_genericName`.
-/
import GoSchema.Proofs.AlikeCatalogs
import GoSchema.Proofs.IdFields
import GoSchema.Proofs.InstanceQueue

namespace GoSchema

open Instances Outcome

namespace GoType

/-- The type without the arguments of names, and without what maps are from and to. -/
def outline : GoType → GoType
  | named package qualifier name _ => named package qualifier name []
  | pointer t => pointer (outline t)
  | slice t => slice (outline t)
  | array t => array (outline t)
  | map _ _ => map any any
  | any => any
  | other text => other text

theorem isPointer_outline (t : GoType) : t.outline.isPointer = t.isPointer := by
  cases t <;> rfl

/-- **Only a parameter gives a type another outline**: arguments show where the innermost type is
one of the parameters. -/
theorem outline_subst {params : List String} (args : List GoType) {t : GoType}
    (h : t.innermost.isParameterOf params = false) :
    (t.subst params args).outline = t.outline := by
  induction t using GoType.rec (motive_2 := fun _ => True) with
  | pointer t ih => exact congrArg pointer (ih h)
  | slice t ih => exact congrArg slice (ih h)
  | array t ih => exact congrArg array (ih h)
  | map | any | other => rfl
  | named package q name own _ =>
    cases package with
    | some p => cases own <;> rfl
    | none =>
      cases own with
      | nil => exact congrArg outline (subst_bare args h)
      | cons a as => rfl
  | nil => trivial
  | cons => trivial

end GoType

namespace Instances

/-- Whether a type has the name of a generic struct, behind pointers and lists. -/
def namesGeneric (c : Catalog) : GoType → Bool
  | .pointer t => namesGeneric c t
  | .slice t => namesGeneric c t
  | .array t => namesGeneric c t
  | .named package _ name _ => (genericIdOf? c package name).isSome
  | _ => false

theorem namesGeneric_outline (c : Catalog) (t : GoType) :
    namesGeneric c t.outline = namesGeneric c t := by
  induction t using GoType.rec (motive_2 := fun _ => True) with
  | pointer t ih | slice t ih | array t ih => exact ih
  | named | map | any | other => rfl
  | nil => trivial
  | cons => trivial

/-- **Instances leave the outline of a type as it is**, unless it has the name of a generic
struct. -/
theorem outline_concrete {t : GoType} {s : Instances} (h : namesGeneric s.catalog t = false) :
    (concrete s t).1.outline = t.outline := by
  induction t using GoType.rec (motive_2 := fun _ => True) generalizing s with
  | pointer t ih => exact congrArg GoType.pointer (ih h)
  | slice t ih => exact congrArg GoType.slice (ih h)
  | array t ih => exact congrArg GoType.array (ih h)
  | map | any | other => rfl
  | named package q name args _ =>
    cases args with
    | nil => rfl
    | cons a as =>
      have hbefore : genericIdOf? s.catalog package name = none := by
        simpa [namesGeneric] using h
      -- the instances for the arguments are not generic
      have hfades : Fades s.catalog (concreteAll s (a :: as)).2.catalog :=
        fades_of_growsTo (growsTo_concreteAll s (a :: as))
      have hno : genericOf? (concreteAll s (a :: as)).2.catalog package name = none :=
        Option.map_eq_none_iff.1 (hfades.genericIdOf?_eq_none hbefore)
      rw [concrete]
      · simp only [hno]
        rfl
      · simp
  | nil => trivial
  | cons => trivial

end Instances

namespace BlockMaker

variable {ctx : BlockMaker}

/-- The place of the field if it were declared with another type. -/
def Spot.withType (spot : Spot) (type : GoType) : Spot :=
  { spot with field := { spot.field with type } }

theorem referWith_withType (spot : Spot) (type : GoType)
    (behind : GoType → GoType → Except Fault TypeRef) (t : GoType) :
    ctx.referWith (spot.withType type) behind t = ctx.referWith spot behind t := by
  induction t using GoType.rec (motive_2 := fun _ => True) with
  | pointer t ih | slice t ih | array t ih => simp only [referWith, ih]
  | named package => cases package <;> rfl
  | map | any | other => rfl
  | nil => trivial
  | cons => trivial

theorem refer_withType (spot : Spot) (type : GoType) (room : Nat) (t : GoType) :
    ctx.refer (spot.withType type) room t = ctx.refer spot room t := by
  induction room generalizing t with
  | zero => exact referWith_withType spot type _ t
  | succ room ih =>
    have hroom : ctx.refer (spot.withType type) room = ctx.refer spot room := funext ih
    simp only [refer, referWith_withType, hroom]

theorem withoutBlock_named_args {spot : Spot} {package q : Option String} {name : String}
    (args args' : List GoType) {r : TypeRef} :
    ctx.withoutBlock spot (.named package q name args) = .ok r ↔
      ctx.withoutBlock spot (.named package q name args') = .ok r := by
  rw [withoutBlock_named_ok_iff, withoutBlock_named_ok_iff]

theorem find_named_args (c : Catalog) (package q : Option String) (name : String)
    (args args' : List GoType) :
    c.find (.named package q name args) = c.find (.named package q name args') := by
  rw [Catalog.find, Catalog.find, Catalog.idOfType?_named, Catalog.idOfType?_named]

theorem isByteType_outline (t : GoType) : isByteType t.outline = isByteType t := by
  cases t with
  | named package => cases package <;> rfl
  | pointer | slice | array | map | any | other => rfl

section Outline

variable {spot : Spot} {behind : GoType → GoType → Except Fault TypeRef}

theorem referWith_outline
    (hb : ∀ {package q : Option String} {name : String} (args : List GoType) {u : GoType}
      {r : TypeRef}, behind (.named package q name []) u = .ok r ↔
        behind (.named package q name args) u = .ok r)
    (t : GoType) {r : TypeRef} :
    ctx.referWith spot behind t.outline = .ok r ↔ ctx.referWith spot behind t = .ok r := by
  induction t using GoType.rec (motive_2 := fun _ => True) generalizing r with
  | pointer t ih =>
    simp only [GoType.outline, referWith, map_eq_ok_iff, ih]
  | slice t ih | array t ih =>
    simp only [GoType.outline, referWith, isByteType_outline]
    split
    · exact Iff.rfl
    · simp only [map_eq_ok_iff, ih]
  | map | any | other => exact Iff.rfl
  | named package q name args _ =>
    cases package with
    | none =>
      simp only [GoType.outline, referWith]
      split
      · exact Iff.rfl
      · exact withoutBlock_named_args [] args
    | some package =>
      simp only [GoType.outline, referWith, find_named_args ctx.catalog _ q name args []]
      split
      · exact Iff.rfl
      split
      · rename_i d _
        unfold declarationRef
        split
        · exact Iff.rfl
        split
        · split
          · exact Iff.rfl
          · exact withoutBlock_named_args [] args
        all_goals exact hb args
      · exact withoutBlock_named_args [] args
  | nil => trivial
  | cons => trivial

/-- **A type text reads the outline of a type only.** -/
theorem refer_outline (room : Nat) (t : GoType) {r : TypeRef} :
    ctx.refer spot room t.outline = .ok r ↔ ctx.refer spot room t = .ok r := by
  cases room with
  | zero => exact referWith_outline (fun args => withoutBlock_named_args [] args) t
  | succ room => exact referWith_outline (fun _ => Iff.rfl) t

end Outline

/-! ### The bound on names -/

/-- A name that stands for another type is not without a block of its own. -/
theorem not_noBlock_of_named {kind : BlockKind} {package name : String} {q : Option String}
    {args : List GoType} {id : Nat} {d : Declaration} {u : GoType}
    (hd : ctx.catalog.find (.named (some package) q name args) = some (id, d))
    (hn : d.body.named? = some u) : ¬ctx.NoBlock kind (.named (some package) q name args) := by
  rintro (_ | ⟨-, hno⟩ | ⟨-, hd', -, hr, -⟩ | _)
  · rw [hd] at hno
    cases hno
  · obtain ⟨rfl, rfl⟩ := Prod.mk.inj (Option.some.inj (hd.symm.trans hd'))
    rw [isRecord_of_named? hn] at hr
    cases hr

/-- The step for `refer_more_room`: one more name can only matter behind the next name. -/
theorem refer_more_room_of_named {spot : Spot} {room : Nat}
    (hb : ∀ {package name : String} {q : Option String} {args : List GoType} {id : Nat}
      {d : Declaration} {u : GoType}, ctx.scalarOfName? package q name = none →
      ctx.catalog.find (.named (some package) q name args) = some (id, d) →
      d.enumRequest = none → d.body.named? = some u →
      (∀ v, ctx.Unresolved spot.kind room (.named (some package) q name args) v →
        ctx.NoBlock spot.kind v) →
      ctx.refer spot (room + 1) (.named (some package) q name args) =
        ctx.refer spot room (.named (some package) q name args))
    {t : GoType} (h : ∀ u, ctx.Unresolved spot.kind room t u → ctx.NoBlock spot.kind u) :
    ctx.refer spot (room + 1) t = ctx.refer spot room t := by
  induction t using GoType.rec (motive_2 := fun _ => True) with
  | pointer t ih => rw [refer_pointer, refer_pointer, ih fun u hu => h u (.pointer hu)]
  | slice t ih =>
    rw [refer_list (.inl rfl), refer_list (.inl rfl)]
    cases hbyte : isByteType t with
    | true => rfl
    | false => rw [ih fun u hu => h u (.slice hbyte hu)]
  | array t ih =>
    rw [refer_list (.inr rfl), refer_list (.inr rfl)]
    cases hbyte : isByteType t with
    | true => rfl
    | false => rw [ih fun u hu => h u (.array hbyte hu)]
  | map | any | other => cases room <;> rfl
  | named package q name args _ =>
    cases package with
    | none => cases room <;> simp only [refer, referWith]
    | some package =>
      cases hs : ctx.scalarOfName? package q name with
      | some scalar => cases room <;> simp only [refer, referWith, hs]
      | none =>
        cases hd : ctx.catalog.find (.named (some package) q name args) with
        | none => cases room <;> simp only [refer, referWith, hs, hd]
        | some x =>
          obtain ⟨id, d⟩ := x
          cases he : d.enumRequest with
          | some request => cases room <;> simp only [refer, referWith, hs, hd, declarationRef, he]
          | none =>
            cases hbody : d.body with
            | record fields =>
              cases room <;> simp only [refer, referWith, hs, hd, declarationRef, he, hbody]
            | defined u | aliased u => exact hb hs hd he (by rw [hbody]; rfl) h
  | nil => trivial
  | cons => trivial

/-- **Where the bound on names does not end a walk, one more name changes nothing.** The induction
is on the number of names that may be looked through. -/
theorem refer_more_room {spot : Spot} {room : Nat} {t : GoType}
    (h : ∀ u, ctx.Unresolved spot.kind room t u → ctx.NoBlock spot.kind u) :
    ctx.refer spot (room + 1) t = ctx.refer spot room t := by
  induction room generalizing t with
  | zero =>
    refine refer_more_room_of_named (fun hs hd he hn h => ?_) h
    exact absurd (h _ (.tooFar hs hd he hn)) (not_noBlock_of_named hd hn)
  | succ room ih =>
    refine refer_more_room_of_named (fun {package name q args id d u} hs hd he hn h => ?_) h
    have hlook : ctx.LooksThrough 1 (.named (some package) q name args) u :=
      .step hs hd he hn (.refl u)
    rw [refer_of_looksThrough hlook, refer_of_looksThrough hlook]
    exact ih fun v hv => h v (.behind hs hd he hn hv)

/-- A type that has no block is the only one where the walk over types around it can stop. -/
theorem eq_innermost_of_unresolved {kind : BlockKind} {room : Nat} {t u : GoType}
    (h : ctx.NoBlock kind t.innermost) (hu : ctx.Unresolved kind room t u) : u = t.innermost := by
  induction hu with
  | here hno => cases hno <;> rfl
  | pointer _ ih | slice _ _ ih | array _ _ ih => exact ih h
  | tooFar _ hd _ hn | behind _ hd _ hn => exact absurd h (not_noBlock_of_named hd hn)

theorem isByteType_of_noBlock {kind : BlockKind} {t : GoType} (h : ctx.NoBlock kind t.innermost) :
    isByteType t = false := by
  rw [Bool.eq_false_iff]
  intro hbyte
  unfold isByteType at hbyte
  split at hbyte
  · cases h with
    | predeclared hno =>
      simp only [Bool.or_eq_true, decide_eq_true_eq] at hbyte
      rcases hbyte with rfl | rfl <;> simp [predeclaredScalar?] at hno
  · cases hbyte

theorem unresolved_innermost {kind : BlockKind} (room : Nat) {t : GoType}
    (h : ctx.NoBlock kind t.innermost) : ctx.Unresolved kind room t t.innermost := by
  induction t using GoType.rec (motive_2 := fun _ => True) with
  | pointer t ih => exact .pointer (ih h)
  | slice t ih => exact .slice (isByteType_of_noBlock (t := t) h) (ih h)
  | array t ih => exact .array (isByteType_of_noBlock (t := t) h) (ih h)
  | named | map | any | other => exact .here h
  | nil => trivial
  | cons => trivial

/-! ### Names with arguments -/

theorem plainRef_of_id {spot : Spot} (h : ctx.isIdField spot.field = true) :
    ctx.plainRef spot = .ok ⟨"ID", spot.field.type.isPointer⟩ := by
  rw [plainRef, if_pos h]

theorem plainRef_of_not_id {spot : Spot} (h : ctx.isIdField spot.field = false) :
    ctx.plainRef spot = ctx.refer spot chainLimit spot.field.type := by
  simp [plainRef, h]

theorem servesAsId_of_noBlock {kind : BlockKind} {t : GoType}
    (h : ctx.NoBlock kind t.innermost) : ctx.servesAsId t.stripPointers = false := by
  induction t using GoType.stripPointers.induct with
  | case1 t ih => exact ih h
  | case2 t hpointer =>
    cases t with
    | pointer t => exact absurd rfl (hpointer t)
    | slice | array | map | any | other => rfl
    | named package q name args =>
      cases h with
      | predeclared hnone => simp [GoType.stripPointers, servesAsId, isIdScalar, hnone]
      | undeclared _ hd => simp [GoType.stripPointers, servesAsId, hd]
      | @lacking _ _ _ _ _ d _ hd he hr _ =>
        have hnamed : d.body.named? = none := by
          cases hn : d.body.named? with
          | none => rfl
          | some u =>
            rw [isRecord_of_named? hn] at hr
            cases hr
        simp [GoType.stripPointers, servesAsId, hd, hnamed]

section Generic

variable {spot : Spot} {package name : String} {qualifier : Option String} {args : List GoType}
  {id : Nat} {d : Declaration} {target : GoType}
  (hs : ctx.scalarOfName? package qualifier name = none)
  (hd : ctx.catalog.find (.named (some package) qualifier name args) = some (id, d))
  (he : d.enumRequest = none) (hn : d.body.named? = some target)

include hd hn

theorem isIdScalar_of_generic (htype : spot.field.type = .named (some package) qualifier name args)
    (h : ctx.isIdField spot.field = true) :
    ∃ q base own, target = .named none q base own ∧ isIdScalar base = true := by
  simp only [isIdField, htype, GoType.stripPointers, servesAsId, hd, hn, Bool.and_eq_true] at h
  obtain ⟨-, -, hbase⟩ := h
  split at hbase
  · rename_i q base own heq
    exact ⟨q, base, own, Option.some.inj heq, hbase⟩
  · cases hbase

include hs he

theorem refer_generic (own : List GoType) :
    ctx.refer spot chainLimit (.named (some package) qualifier name own) =
      ctx.refer spot (chainLimit - 1) target := by
  rw [find_named_args _ _ _ _ args own] at hd
  exact refer_of_looksThrough (.step hs hd he hn (.refl target)) (chainLimit - 1)

variable (htype : spot.field.type = .named (some package) qualifier name args)
include htype

/-- **The arguments of a name are not read.** -/
theorem plainRef_generic (own : List GoType) :
    ctx.plainRef (spot.withType (.named (some package) qualifier name own)) =
      ctx.plainRef spot := by
  have hid : ctx.isIdField (spot.withType (.named (some package) qualifier name own)).field =
      ctx.isIdField spot.field := by
    simp only [isIdField, Spot.withType, htype, GoType.stripPointers, servesAsId,
      find_named_args ctx.catalog _ qualifier name own args]
    rfl
  cases hisId : ctx.isIdField spot.field with
  | true =>
    rw [plainRef_of_id (hid.trans hisId), plainRef_of_id hisId, htype]
    rfl
  | false =>
    rw [plainRef_of_not_id (hid.trans hisId), plainRef_of_not_id hisId, htype, refer_withType,
      refer_generic hs hd he hn args]
    exact refer_generic hs hd he hn own

/-- **A parameter behind a name is taken for a name of its own**, which nothing declares. -/
theorem plainRef_generic_of_noBlock (hno : ctx.NoBlock spot.kind target.innermost) :
    ctx.plainRef spot = ctx.plainRef (spot.withType target) ∧
      (spot.field.options.forceResolver = false →
        ctx.plainRef spot = .error (faultAt spot target.innermost)) := by
  have hid : ctx.isIdField spot.field = false := by
    rw [Bool.eq_false_iff]
    intro hisId
    obtain ⟨q, base, own, rfl, hbase⟩ := isIdScalar_of_generic hd hn htype hisId
    cases hno with
    | predeclared hnone => simp [isIdScalar, hnone] at hbase
  have hidTarget : ctx.isIdField (spot.withType target).field = false := by
    simp [isIdField, Spot.withType, servesAsId_of_noBlock hno]
  rw [plainRef_of_not_id hid, plainRef_of_not_id hidTarget, refer_withType, htype,
    refer_generic hs hd he hn]
  refine ⟨(refer_more_room fun u hu => ?_).symm, fun hf =>
    refer_error_iff.2 ⟨hf, _, unresolved_innermost _ hno, rfl⟩⟩
  rw [eq_innermost_of_unresolved hno hu]
  exact hno

/-- **A field has the reference of every type with the outline of the one behind the name**, unless
only that type by itself stays within the bound on names. -/
theorem plainRef_generic_of_outline {t : GoType} (ht : t.outline = target.outline)
    (hid : ctx.isIdField spot.field = ctx.isIdField (spot.withType t).field) :
    ((∀ u, ctx.Unresolved spot.kind (chainLimit - 1) target u → ctx.NoBlock spot.kind u) →
      ∀ r, ctx.plainRef spot = .ok r ↔ ctx.plainRef (spot.withType t) = .ok r) ∧
    (∀ u, ctx.Unresolved spot.kind (chainLimit - 1) target u →
      spot.field.options.forceResolver = false → ctx.plainRef spot = .error (faultAt spot u)) := by
  cases hisId : ctx.isIdField spot.field with
  | true =>
    obtain ⟨q, base, own, rfl, hbase⟩ := isIdScalar_of_generic hd hn htype hisId
    have hpointer : (spot.withType t).field.type.isPointer = spot.field.type.isPointer := by
      calc (spot.withType t).field.type.isPointer
        _ = t.outline.isPointer := (GoType.isPointer_outline t).symm
        _ = spot.field.type.isPointer := by
          rw [ht, htype]
          rfl
    refine ⟨fun _ r => ?_, fun u hu => ?_⟩
    · rw [plainRef_of_id hisId, plainRef_of_id (hid.symm.trans hisId), hpointer]
    · cases hu with
      | here hno =>
        cases hno with
        | predeclared hnone => simp [isIdScalar, hnone] at hbase
  | false =>
    rw [plainRef_of_not_id hisId, htype, refer_generic hs hd he hn]
    refine ⟨fun hroom r => ?_, fun u hu hf => refer_error_iff.2 ⟨hf, u, hu, rfl⟩⟩
    rw [plainRef_of_not_id (hid.symm.trans hisId), refer_withType, ← refer_more_room hroom,
      ← refer_outline (t := target), ← ht, refer_outline]
    exact Iff.rfl

end Generic

theorem fieldTypeText_congr {spot : Spot} {t : GoType} (ht : spot.field.options.typeText = none)
    (h : ∀ r, ctx.plainRef spot = .ok r ↔ ctx.plainRef (spot.withType t) = .ok r) (text : String) :
    ctx.fieldTypeText spot = .ok text ↔ ctx.fieldTypeText (spot.withType t) = .ok text := by
  rw [fieldTypeText_of_derived spot ht, fieldTypeText_of_derived (spot.withType t) ht,
    map_eq_ok_iff, map_eq_ok_iff]
  exact exists_congr fun r => and_congr_left fun _ => h r

theorem fieldTypeText_error {spot : Spot} (ht : spot.field.options.typeText = none) {e : Fault}
    (h : ctx.plainRef spot = .error e) : ctx.fieldTypeText spot = .error e := by
  rw [fieldTypeText_of_derived spot ht, h]
  rfl

/-- **The type text of a field whose type is a name with arguments** is that of the type behind the
name as the declaration has it.

The arguments are not read. If the innermost type is a parameter of the declaration, and no
predeclared type has its name, then the field has the type text that it would have if it were
declared with the type behind the name as that stands, with the parameter in it; and such a text is
only derived on request. If the innermost type is no parameter, the field has the type text that it
would have if it were declared with the type behind the name and the arguments in place of the
parameters, as far as the bound on names allows for the one name more; instances of generic structs
in that type make no difference unless it is a generic struct itself. -/
theorem fieldTypeText_genericName (ctx : BlockMaker) (spot : Spot)
    (ht : spot.field.options.typeText = none)
    {package name : String} {qualifier : Option String} {args : List GoType} {id : Nat}
    {d : Declaration} {target : GoType}
    (htype : spot.field.type = .named (some package) qualifier name args)
    (hs : ctx.scalarOfName? package qualifier name = none)
    (hd : ctx.catalog.find (.named (some package) qualifier name args) = some (id, d))
    (he : d.enumRequest = none) (hn : d.body.named? = some target) :
    (∀ own, ctx.fieldTypeText (spot.withType (.named (some package) qualifier name own)) =
      ctx.fieldTypeText spot) ∧
    (∀ q param, target.innermost = .named none q param [] → predeclaredScalar? param = none →
      ctx.fieldTypeText spot = ctx.fieldTypeText (spot.withType target) ∧
      (spot.field.options.forceResolver = false →
        ctx.fieldTypeText spot = .error (faultAt spot target.innermost))) ∧
    (target.innermost.isParameterOf d.typeParams = false →
      ∀ s : Instances, Instances.namesGeneric s.catalog target = false →
      ∀ t, (s.concrete (target.subst d.typeParams args)).1 = t →
        ctx.isIdField spot.field = ctx.isIdField (spot.withType t).field →
      ((∀ u, ctx.Unresolved spot.kind (chainLimit - 1) target u → ctx.NoBlock spot.kind u) →
        ∀ text, ctx.fieldTypeText spot = .ok text ↔
          ctx.fieldTypeText (spot.withType t) = .ok text) ∧
      (∀ u, ctx.Unresolved spot.kind (chainLimit - 1) target u →
        spot.field.options.forceResolver = false →
          ctx.fieldTypeText spot = .error (faultAt spot u))) := by
  refine ⟨fun own => ?_, fun q param htarget hnone => ?_,
    fun hparam s hgeneric t hconcrete hid => ?_⟩
  · have hderived : ctx.fieldTypeText
        (spot.withType (.named (some package) qualifier name own)) = _ :=
      fieldTypeText_of_derived _ ht
    rw [fieldTypeText_of_derived spot ht, hderived, plainRef_generic hs hd he hn htype own]
    rfl
  · have hno : ctx.NoBlock spot.kind target.innermost := htarget ▸ .predeclared hnone
    obtain ⟨href, herror⟩ := plainRef_generic_of_noBlock hs hd he hn htype hno
    refine ⟨?_, fun hf => fieldTypeText_error ht (herror hf)⟩
    rw [fieldTypeText_of_derived spot ht, fieldTypeText_of_derived (spot.withType target) ht, href]
    rfl
  · have houtline : t.outline = target.outline := by
      have hsubst : namesGeneric s.catalog (target.subst d.typeParams args) = false := by
        rw [← namesGeneric_outline, GoType.outline_subst args hparam, namesGeneric_outline,
          hgeneric]
      calc t.outline
        _ = (target.subst d.typeParams args).outline := by rw [← hconcrete, outline_concrete hsubst]
        _ = target.outline := GoType.outline_subst args hparam
    obtain ⟨hsame, hfar⟩ := plainRef_generic_of_outline hs hd he hn htype houtline hid
    exact ⟨fun hroom => fieldTypeText_congr ht (hsame hroom),
      fun u hu hf => fieldTypeText_error ht (hfar u hu hf)⟩

/-! ### A generic name for lists -/

/-- A generic name for lists, one that makes no use of its parameter, and a struct with a field of
each, where the type of the first may be replaced. -/
def albumsOf (tracks : GoType) : SourceFile :=
  { path := ⟨"m.go"⟩
    package := "m"
    types :=
      [⟨"List", none, 1, ["T"], .defined (.slice (.ofName "T"))⟩,
        ⟨"Tagged", none, 2, ["T"], .defined (.slice (.ofName "string"))⟩,
        ⟨"Album", some "@gqlType", 3, [], .record
          [⟨some "Tracks", tracks, none, none, 4⟩,
            ⟨some "Tags", .named none none "Tagged" [.ofName "int"], none, none, 5⟩]⟩] }

/-- The file with the generic name for lists. -/
def albums : SourceFile := albumsOf (.named none none "List" [.ofName "string"])

/-- A field of the struct of `albums`. -/
def albumField (name : String) (type : GoType) (line : Nat) : Field :=
  { goName := some name, type, origin := "Album." ++ name, line }

def trackField : Field :=
  albumField "Tracks" (.named (some "m") none "List" [.ofName "string"]) 4

def tagField : Field := albumField "Tags" (.named (some "m") none "Tagged" [.ofName "int"]) 5

/-- The declarations of `albums`. -/
def albumTypes : List Declaration :=
  [{ localDeclaration "List" 0 (.defined (.slice (.ofName "T"))) with typeParams := ["T"] },
    { localDeclaration "Tagged" 1 (.defined (.slice (.ofName "string"))) with
      typeParams := ["T"] },
    { localDeclaration "Album" 2 (.record [trackField, tagField]) with
      requests := [{ kind := .type }] }]

/-- What the blocks of `albums` are made with. -/
def albumMaker : BlockMaker := ⟨⟨albumTypes, []⟩, [], {}⟩

/-- The schema of the file with a list in place of the generic name. -/
def albumBlocks : List Block :=
  [{ kind := .type
     name := "Album"
     package := "m"
     place := ⟨0, 2, 0⟩
     slot := 1
     fields := [{ name := "tracks", typeText := "[String!]!" },
       { name := "tags", typeText := "[String!]!" }]
     source := "m.Album (type)" }]

/-- The place of a field of the struct of `albums`. -/
def albumSpot (f : Field) : Spot := ⟨f, "Album", .type⟩

theorem run_albums :
    Declarations.ofFiles {} [albums] = .ok ⟨albumTypes, []⟩ ∧
      Declarations.maker {} ⟨albumTypes, []⟩ = .ok albumMaker ∧
      blocksOfFiles {} [albums] = .error (.unknownType "Album" "Tracks" "T") ∧
      blocksOfFiles {} [albumsOf (.slice (.ofName "string"))] = .ok albumBlocks :=
  ⟨by decide +kernel, Declarations.maker_eq_ok albumMaker (by decide +kernel), by decide +kernel,
    eq_ok_of_toOption (by decide +kernel)⟩

theorem albums_genericName :
    Declarations.ofFiles {} [albums] = .ok ⟨albumTypes, []⟩ ∧
      Declarations.maker {} ⟨albumTypes, []⟩ = .ok albumMaker ∧
      albumMaker.fieldTypeText (albumSpot trackField) =
        .error (.unknownType "Album" "Tracks" "T") ∧
      (∀ text, albumMaker.fieldTypeText (albumSpot tagField) = .ok text ↔
        albumMaker.fieldTypeText ((albumSpot tagField).withType (.slice (.ofName "string"))) =
          .ok text) ∧
      albumMaker.fieldTypeText (albumSpot tagField) = .ok "[String!]!" := by
  obtain ⟨hfiles, hmaker, -, -⟩ := run_albums
  refine ⟨hfiles, hmaker, ?_, ?_, rfl⟩
  · obtain ⟨-, hparam, -⟩ := fieldTypeText_genericName albumMaker (albumSpot trackField)
      rfl rfl rfl rfl rfl rfl
    exact (hparam none "T" rfl (by decide)).2 rfl
  · obtain ⟨-, -, hother⟩ := fieldTypeText_genericName albumMaker (albumSpot tagField)
      rfl rfl rfl rfl rfl rfl
    refine (hother (by decide) (.start albumMaker.catalog) rfl _ rfl rfl).1 fun u hu => ?_
    cases hu with
    | here hno => exact hno
    | slice _ hu =>
      cases hu with
      | here hno => exact hno

/-- **The arguments of a generic name for lists get lost.** Where the field is declared with the
list that the name stands for, it has a type text, and with the name it has none. -/
theorem albums_not_substituted :
    blocksOfFiles {} [albums] = .error (.unknownType "Album" "Tracks" "T") ∧
      blocksOfFiles {} [albumsOf (.slice (.ofName "string"))] = .ok albumBlocks ∧
      Declarations.ofFiles {} [albums] = .ok ⟨albumTypes, []⟩ ∧
      Declarations.maker {} ⟨albumTypes, []⟩ = .ok albumMaker ∧
      ∃ id d target args, trackField.type = .named (some "m") none "List" args ∧
        albumMaker.scalarOfName? "m" none "List" = none ∧
        albumMaker.catalog.find trackField.type = some (id, d) ∧ d.isRecord = false ∧
        d.enumRequest = none ∧ d.body.named? = some target ∧ args.length = d.typeParams.length ∧
        target.subst d.typeParams args = .slice (.ofName "string") ∧
        albumMaker.fieldTypeText (albumSpot trackField) ≠
          albumMaker.fieldTypeText
            ((albumSpot trackField).withType (target.subst d.typeParams args)) := by
  obtain ⟨hfiles, hmaker, hfails, hplain⟩ := run_albums
  refine ⟨hfails, hplain, hfiles, hmaker, 0, _, _, _, rfl, rfl, rfl, rfl, rfl, rfl, rfl, rfl, ?_⟩
  have htracks : albumMaker.fieldTypeText (albumSpot trackField) =
      .error (.unknownType "Album" "Tracks" "T") := rfl
  have hlist : albumMaker.fieldTypeText
      ((albumSpot trackField).withType (.slice (.ofName "string"))) = .ok "[String!]!" := rfl
  intro heq
  exact nomatch htracks.symm.trans (heq.trans hlist)

end BlockMaker

end GoSchema
