/-
# Type arguments

A bare name in a type is one without a package and without type arguments: a type parameter or a
predeclared type. Where every parameter has an argument, what is in a type with the parameters
replaced is in an argument, or comes from a type that is no parameter. So two replacements in a row
are one, with the second one made in the arguments of the first one, if the second one finds no
parameter in the type itself that the first one leaves.

A type fits a scope if its bare names are the type parameters in scope or predeclared, and every
reference in it has an argument for each parameter of the declaration. The bare names in sources are
such names, and a type that fits one scope fits another one when its parameters are replaced by
arguments that fit the other one.

Key definitions: `GoType.bareNames`, `GoType.ComesFrom`, `Catalog.FitsScope`.
Key theorems: `GoType.comesFrom_of_within`, `GoType.subst_subst`, `Catalog.FitsScope.subst`,
`Declarations.bareNames_ofFiles`.
-/
import GoSchema.Proofs.AlikeCatalogs
import GoSchema.Proofs.PackageReferences

namespace GoSchema

open Outcome Source

namespace GoType

variable {params params' : List String} {args args' : List GoType}

/-- The name that a type is, if it has neither a package nor arguments. -/
def bareName? : GoType → Option String
  | named none _ name [] => some name
  | _ => none

/-- The names without a package and without arguments in a type. -/
def bareNames (t : GoType) : List String := t.within.filterMap bareName?

theorem mem_bareNames {t : GoType} {name : String} :
    name ∈ t.bareNames ↔ ∃ u ∈ t.within, u.bareName? = some name := List.mem_filterMap

theorem bareName?_eq_some_iff {t : GoType} {name : String} :
    t.bareName? = some name ↔ ∃ q, t = named none q name [] := by
  unfold bareName?
  split <;> simp_all

theorem self_mem_within (t : GoType) : t ∈ t.within := by
  obtain ⟨inner, hinner⟩ := within_eq_cons t
  rw [hinner]
  exact List.mem_cons_self

theorem mem_withinAll {ts : List GoType} {u : GoType} :
    u ∈ withinAll ts ↔ ∃ t ∈ ts, u ∈ t.within := by
  induction ts with
  | nil => simp [withinAll]
  | cons t ts ih => simp [withinAll, ih]

theorem stripPointers_mem_within (t : GoType) : t.stripPointers ∈ t.within := by
  induction t using stripPointers.induct with
  | case1 t ih => exact List.mem_cons_of_mem _ ih
  | case2 t hpointer =>
    rw [show t.stripPointers = t by cases t <;> simp_all [stripPointers]]
    exact self_mem_within t

theorem within_trans {u v : GoType} (hv : v ∈ u.within) : ∀ {t : GoType}, u ∈ t.within →
    v ∈ t.within := by
  intro t
  induction t using GoType.rec
    (motive_2 := fun ts => u ∈ withinAll ts → v ∈ withinAll ts) with
  | pointer t ih | slice t ih | array t ih =>
    intro hu
    rcases List.mem_cons.1 hu with rfl | hu
    · exact hv
    · exact List.mem_cons_of_mem _ (ih hu)
  | map k w ihk ihw =>
    intro hu
    rcases List.mem_cons.1 hu with rfl | hu
    · exact hv
    · exact List.mem_cons_of_mem _ (List.mem_append.2 ((List.mem_append.1 hu).imp ihk ihw))
  | any | other =>
    intro hu
    obtain rfl := List.mem_singleton.1 hu
    exact hv
  | named package q name own ih =>
    intro hu
    rcases List.mem_cons.1 hu with rfl | hu
    · exact hv
    · exact List.mem_cons_of_mem _ (ih hu)
  | nil hu => exact absurd hu List.not_mem_nil
  | cons t ts ih ihs hu => exact List.mem_append.2 ((List.mem_append.1 hu).imp ih ihs)

theorem bareNames_subset {t u : GoType} (h : u ∈ t.within) : u.bareNames ⊆ t.bareNames := by
  intro name hname
  obtain ⟨v, hv, hbare⟩ := mem_bareNames.1 hname
  exact mem_bareNames.2 ⟨v, within_trans hv h, hbare⟩

theorem mem_within_of_mem_typeArgs {t a : GoType} (ha : a ∈ t.typeArgs) : a ∈ t.within := by
  refine within_trans ?_ (stripPointers_mem_within t)
  unfold typeArgs at ha
  split at ha
  · rename_i heq
    rw [heq]
    exact List.mem_cons_of_mem _ (mem_withinAll.2 ⟨a, ha, self_mem_within a⟩)
  · exact absurd ha List.not_mem_nil

/-! ### Arguments for parameters -/

theorem argFor_map (f : GoType → GoType) (name : String) :
    argFor params (args.map f) name = (argFor params args name).map f := by
  unfold argFor
  cases params.findIdx? (· = name) with
  | none => rfl
  | some i => simp

theorem mem_of_argFor {name : String} {a : GoType} (h : argFor params args name = some a) :
    a ∈ args := by
  obtain ⟨i, -, hi⟩ := Option.bind_eq_some_iff.1 h
  exact List.mem_of_getElem? hi

theorem exists_argFor (hfull : params.length ≤ args.length) {name : String} (h : name ∈ params) :
    ∃ a, argFor params args name = some a := by
  unfold argFor
  cases hi : params.findIdx? (· = name) with
  | none => simpa using List.findIdx?_eq_none_iff.1 hi name h
  | some i =>
    have hlt : i < args.length :=
      Nat.lt_of_lt_of_le (List.findIdx?_eq_some_iff_getElem.1 hi).1 hfull
    exact ⟨args[i], List.getElem?_eq_getElem hlt⟩

theorem subst_of_bareName? {t : GoType} {name : String} (h : t.bareName? = some name) :
    t.subst params args = (argFor params args name).getD t := by
  obtain ⟨q, rfl⟩ := bareName?_eq_some_iff.1 h
  rw [subst]

theorem subst_named {package q : Option String} {name : String} {own : List GoType}
    (h : (named package q name own).bareName? = none) :
    (named package q name own).subst params args =
      named package q name (own.map (subst params args)) := by
  rw [← substAll_eq_map]
  cases package with
  | some p => rfl
  | none =>
    cases own with
    | nil => cases h
    | cons a as => rfl

theorem bareName?_subst {t : GoType} (h : t.bareName? = none) :
    (t.subst params args).bareName? = none := by
  cases t with
  | named package q name own =>
    rw [subst_named h]
    cases package <;> cases own <;> first | rfl | exact h
  | pointer t | slice t | array t => rfl
  | map k v => rfl
  | any => rfl
  | other text => rfl

/-- Where a type with parameters replaced comes from: it is in an argument, or it comes from a type
that is no parameter with an argument. -/
inductive ComesFrom (params : List String) (args : List GoType) (t u : GoType) : Prop
  | argument {a : GoType} (ha : a ∈ args) (hu : u ∈ a.within)
  | inner {v : GoType} (hv : v ∈ t.within) (hu : u = v.subst params args)
      (hkept : ∀ name, v.bareName? = some name → argFor params args name = none)

theorem ComesFrom.of_within {t t' u : GoType} (h : ComesFrom params args t u)
    (ht : t ∈ t'.within) : ComesFrom params args t' u := by
  cases h with
  | argument ha hu => exact .argument ha hu
  | inner hv hu hkept => exact .inner (within_trans hv ht) hu hkept

/-- What is in a type with parameters replaced is in an argument or comes from what is in the
type. -/
theorem comesFrom_of_within {u : GoType} : ∀ {t : GoType}, u ∈ (t.subst params args).within →
    ComesFrom params args t u := by
  intro t
  have itself : ∀ {t : GoType}, t.bareName? = none → u = t.subst params args →
      ComesFrom params args t u := fun {t} ht hu =>
    .inner (self_mem_within t) hu fun name hname => nomatch ht.symm.trans hname
  induction t using GoType.rec (motive_2 := fun ts =>
    ∀ t ∈ ts, u ∈ (t.subst params args).within → ComesFrom params args t u) with
  | pointer t ih | slice t ih | array t ih =>
    intro hu
    rcases List.mem_cons.1 hu with hu | hu
    · exact itself rfl hu
    · exact (ih hu).of_within (List.mem_cons_of_mem _ (self_mem_within t))
  | map k w ihk ihw =>
    intro hu
    rcases List.mem_cons.1 hu with hu | hu
    · exact itself rfl hu
    rcases List.mem_append.1 hu with hu | hu
    · exact (ihk hu).of_within
        (List.mem_cons_of_mem _ (List.mem_append_left _ (self_mem_within k)))
    · exact (ihw hu).of_within
        (List.mem_cons_of_mem _ (List.mem_append_right _ (self_mem_within w)))
  | any | other => exact fun hu => itself rfl (List.mem_singleton.1 hu)
  | named package q name own ih =>
    intro hu
    cases hbare : (named package q name own).bareName? with
    | none =>
      rw [subst_named hbare] at hu
      rcases List.mem_cons.1 hu with hu | hu
      · exact itself hbare (hu.trans (subst_named hbare).symm)
      · obtain ⟨_, hmem, hu⟩ := mem_withinAll.1 hu
        obtain ⟨t, ht, rfl⟩ := List.mem_map.1 hmem
        exact (ih t ht hu).of_within
          (List.mem_cons_of_mem _ (mem_withinAll.2 ⟨t, ht, self_mem_within t⟩))
    | some bare =>
      rw [subst_of_bareName? hbare] at hu
      cases harg : argFor params args bare with
      | some a =>
        rw [harg] at hu
        exact .argument (mem_of_argFor harg) hu
      | none =>
        rw [harg] at hu
        obtain ⟨q', heq⟩ := bareName?_eq_some_iff.1 hbare
        rw [heq] at hu hbare ⊢
        have hu : u = named none q' bare [] := List.mem_singleton.1 hu
        refine .inner (self_mem_within _) ?_ fun name hname => ?_
        · rw [subst_of_bareName? hbare, harg]
          exact hu
        · rwa [← Option.some.inj hname]
  | nil t ht => exact absurd ht List.not_mem_nil
  | cons t ts ih ihs v hv hu => exact List.forall_mem_cons.2 ⟨ih, ihs⟩ v hv hu

/-- **Two replacements are one**, if the second one finds no parameter in the type that is none of
the first one. -/
theorem subst_subst (hfull : params.length ≤ args.length) {t : GoType}
    (h : ∀ name ∈ t.bareNames, name ∈ params' → name ∈ params) :
    (t.subst params args).subst params' args' =
      t.subst params (args.map (subst params' args')) := by
  have inside : ∀ {t u : GoType}, u ∈ t.within →
      (∀ name ∈ t.bareNames, name ∈ params' → name ∈ params) →
        ∀ name ∈ u.bareNames, name ∈ params' → name ∈ params :=
    fun hu h name hname => h name (bareNames_subset hu hname)
  induction t using GoType.rec (motive_2 := fun ts => ∀ t ∈ ts,
    (∀ name ∈ t.bareNames, name ∈ params' → name ∈ params) →
      (t.subst params args).subst params' args' =
        t.subst params (args.map (subst params' args'))) with
  | pointer t ih | slice t ih | array t ih =>
    have ht := inside (List.mem_cons_of_mem _ (self_mem_within t)) h
    simp only [subst, ih ht]
  | map k w ihk ihw =>
    have hk := inside (List.mem_cons_of_mem _ (List.mem_append_left _ (self_mem_within k))) h
    have hw := inside (List.mem_cons_of_mem _ (List.mem_append_right _ (self_mem_within w))) h
    simp only [subst, ihk hk, ihw hw]
  | any | other => rfl
  | named package q name own ih =>
    cases hbare : (named package q name own).bareName? with
    | none =>
      have hbare' : (named package q name (own.map (subst params args))).bareName? = none := by
        rw [← subst_named hbare]
        exact bareName?_subst hbare
      rw [subst_named hbare, subst_named hbare', subst_named hbare, List.map_map]
      congr 1
      refine List.map_congr_left fun t ht => ih t ht (inside ?_ h)
      exact List.mem_cons_of_mem _ (mem_withinAll.2 ⟨t, ht, self_mem_within t⟩)
    | some bare =>
      rw [subst_of_bareName? hbare, subst_of_bareName? hbare, argFor_map]
      by_cases hname : bare ∈ params
      · obtain ⟨a, ha⟩ := exists_argFor hfull hname
        rw [ha]
        rfl
      · have hname' : bare ∉ params' := fun hno =>
          hname (h bare (mem_bareNames.2 ⟨_, self_mem_within _, hbare⟩) hno)
        rw [argFor_eq_none hname, Option.getD_none, subst_of_bareName? hbare, argFor_eq_none hname']
        rfl
  | nil t ht => exact absurd ht List.not_mem_nil
  | cons t ts ih ihs v hv hinner => exact List.forall_mem_cons.2 ⟨ih, ihs⟩ v hv hinner

end GoType

/-! ### Types in scope -/

/-- Whether a type makes sense where these type parameters are in scope. -/
structure Catalog.FitsScope (c : Catalog) (params : List String) (t : GoType) : Prop where
  /-- A bare name is a type parameter or predeclared. -/
  bare : ∀ name ∈ t.bareNames, name ∈ params ∨ name ∈ predeclared
  /-- Every parameter of a declaration has an argument. -/
  full : ∀ u ∈ t.within, u.isNamed = true →
    ∀ x ∈ c.find u, x.2.typeParams.length ≤ u.typeArgs.length

namespace Catalog.FitsScope

variable {c : Catalog} {params params' : List String} {t u : GoType}

theorem of_within (h : c.FitsScope params t) (hu : u ∈ t.within) : c.FitsScope params u where
  bare name hname := h.bare name (GoType.bareNames_subset hu hname)
  full v hv := h.full v (GoType.within_trans hv hu)

theorem of_mem_typeArgs (h : c.FitsScope params t) {a : GoType} (ha : a ∈ t.typeArgs) :
    c.FitsScope params a := h.of_within (GoType.mem_within_of_mem_typeArgs ha)

/-- A reference to a declaration has an argument for each of its parameters, also behind
pointers. -/
theorem length_le (h : c.FitsScope params t) {x : Nat × Declaration} (hx : c.find t = some x) :
    x.2.typeParams.length ≤ t.typeArgs.length := by
  have hid := (find_eq_some_iff.1 hx).1
  have hnamed : t.stripPointers.isNamed = true := by
    unfold idOfType? at hid
    split at hid
    · rename_i heq
      rw [heq]
      rfl
    · cases hid
  have hstrip : c.find t.stripPointers = some x := by
    rw [find, idOfType?, GoType.stripPointers_stripPointers]
    exact hx
  have hle := h.full _ (GoType.stripPointers_mem_within t) hnamed x hstrip
  rwa [GoType.typeArgs, GoType.stripPointers_stripPointers] at hle

/-- **Sound arguments for all parameters make a sound type.** -/
theorem subst (h : c.FitsScope params t) {args : List GoType}
    (hfull : params.length ≤ args.length) (hargs : ∀ a ∈ args, c.FitsScope params' a) :
    c.FitsScope params' (t.subst params args) where
  bare name hname := by
    obtain ⟨u, hu, hbare⟩ := GoType.mem_bareNames.1 hname
    cases GoType.comesFrom_of_within hu with
    | argument ha hu => exact (hargs _ ha).bare name (GoType.mem_bareNames.2 ⟨u, hu, hbare⟩)
    | @inner v hv hu hkept =>
      subst hu
      cases hv' : v.bareName? with
      | none => exact nomatch (GoType.bareName?_subst hv').symm.trans hbare
      | some own =>
        rw [GoType.subst_of_bareName? hv', hkept own hv', Option.getD_none] at hbare
        obtain rfl := Option.some.inj (hv'.symm.trans hbare)
        rcases h.bare own (GoType.mem_bareNames.2 ⟨v, hv, hv'⟩) with hown | hown
        · obtain ⟨a, ha⟩ := GoType.exists_argFor hfull hown
          exact nomatch ha.symm.trans (hkept own hv')
        · exact .inr hown
  full u hu hnamed x hx := by
    cases GoType.comesFrom_of_within hu with
    | argument ha hu => exact (hargs _ ha).full u hu hnamed x hx
    | @inner v hv hu hkept =>
      subst hu
      cases v with
      | named package q name own =>
        cases hbare : (GoType.named package q name own).bareName? with
        | none =>
          rw [GoType.subst_named hbare] at hx ⊢
          have hle := h.full _ hv rfl x ?_
          · simpa [GoType.typeArgs, GoType.stripPointers] using hle
          · rw [Option.mem_def, find, idOfType?_named] at hx ⊢
            exact hx
        | some bare =>
          obtain ⟨q', heq⟩ := GoType.bareName?_eq_some_iff.1 hbare
          rw [GoType.subst_of_bareName? hbare, hkept bare hbare, Option.getD_none, heq] at hx
          cases hx
      | pointer t | slice t | array t => cases hnamed
      | map k w => cases hnamed
      | any => cases hnamed
      | other text => cases hnamed

end Catalog.FitsScope

theorem SourceFile.bareName?_qualify {file : SourceFile} {params : List String} {t : GoType}
    {name : String} (h : (file.qualify params t).bareName? = some name) :
    name ∈ params ∨ name ∈ predeclared := by
  obtain ⟨q, heq⟩ := GoType.bareName?_eq_some_iff.1 h
  cases t with
  | named package qualifier n own =>
    obtain ⟨hpackage, -, rfl, -⟩ := GoType.named.inj heq
    unfold packageOf at hpackage
    split at hpackage
    · cases hpackage
    · split at hpackage
      · rename_i hmem
        simpa using hmem
      · cases hpackage
  | pointer t | slice t | array t => cases heq
  | map k w => cases heq
  | any => cases heq
  | other text => cases heq

/-- **Bare names in sources** are the type parameters of the declaration, or predeclared. -/
theorem Declarations.bareNames_ofFiles {config : Config} {files : List SourceFile}
    {ds : Declarations} (h : ofFiles config files = .ok ds) {d : Declaration}
    (hd : d ∈ (Catalog.ofDeclarations ds).types) {t : GoType} (ht : t ∈ d.body.types)
    {name : String} (hname : name ∈ t.bareNames) : name ∈ d.typeParams ∨ name ∈ predeclared := by
  obtain ⟨⟨file, decl⟩, -, _, _, hdecl⟩ := Pointwise.exists_left (ofFiles_ok h).1
    ((Catalog.types_ofDeclarations_sublist ds).subset hd)
  rw [Declaration.types_of_bodyOf (Declaration.bodyOf_of_ofDecl hdecl)] at ht
  obtain ⟨written, -, rfl⟩ := List.mem_map.1 ht
  obtain ⟨u, hu, hbare⟩ := GoType.mem_bareNames.1 hname
  rw [SourceFile.within_qualify] at hu
  obtain ⟨v, -, rfl⟩ := List.mem_map.1 hu
  rw [(Declaration.isOf_ofDecl hdecl).typeParams]
  exact SourceFile.bareName?_qualify hbare

end GoSchema
