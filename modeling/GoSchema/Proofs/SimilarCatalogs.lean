/-
# Similar catalogs

Two catalogs are similar when what stands in the first one stands in the second one too, under other
numbers, and when every lookup of a name that is spoken of ends alike in both. Fields are the same,
but hidden ones may have other types, if all names are spoken of. So two things can be compared with
one relation: catalogs that differ in the types of hidden fields, and a catalog with one more
declaration whose name nothing speaks of.

Key definitions: `GoType.AllNames`, `Field.Similar`, `Body.Similar`, `Declaration.Similar`,
`Catalog.search`, `Catalog.Similar`.
Key theorems: `GoType.AllNames.subst`, `Field.Similar.subst`, `Catalog.Similar.lookup_eq`,
`Catalog.Similar.find_cases`, `Catalog.Similar.setBody`, `Catalog.Similar.push`.
-/
import GoSchema.Proofs.Lookup
import GoSchema.Proofs.Pointwise

namespace GoSchema

namespace GoType

mutual

/-- Whether every name in a type, at any depth, has a property. -/
def AllNames (ok : String → Prop) : GoType → Prop
  | pointer t | slice t | array t => AllNames ok t
  | map k v => AllNames ok k ∧ AllNames ok v
  | named _ _ name args => ok name ∧ AllNamesIn ok args
  | any | other _ => True

/-- Whether every name in the types of a list has a property. -/
def AllNamesIn (ok : String → Prop) : List GoType → Prop
  | [] => True
  | t :: ts => AllNames ok t ∧ AllNamesIn ok ts

end

variable {ok : String → Prop}

theorem allNamesIn_iff {ts : List GoType} : AllNamesIn ok ts ↔ ∀ t ∈ ts, AllNames ok t := by
  induction ts with
  | nil => simp [AllNamesIn]
  | cons t ts ih => simp [AllNamesIn, ih]

theorem allNames_of_forall (h : ∀ name, ok name) : ∀ t : GoType, AllNames ok t := by
  intro t
  induction t using GoType.rec (motive_2 := AllNamesIn ok) with
  | pointer t ih | slice t ih | array t ih => exact ih
  | map k v ihk ihv => exact ⟨ihk, ihv⟩
  | any | other => trivial
  | named package qualifier name args ih => exact ⟨h name, ih⟩
  | nil => trivial
  | cons t ts ih ihs => exact ⟨ih, ihs⟩

theorem AllNames.stripPointers {t : GoType} (h : AllNames ok t) : AllNames ok t.stripPointers := by
  induction t using GoType.stripPointers.induct with
  | case1 t ih => exact ih h
  | case2 t hne =>
    rwa [show t.stripPointers = t by cases t <;> simp_all [GoType.stripPointers]]

theorem AllNames.innermost {t : GoType} (h : AllNames ok t) : AllNames ok t.innermost := by
  induction t using GoType.innermost.induct with
  | case1 t ih | case2 t ih | case3 t ih => exact ih h
  | case4 t h1 h2 h3 =>
    rwa [show t.innermost = t by cases t <;> simp_all [GoType.innermost]]

theorem AllNames.typeArgs {t : GoType} (h : AllNames ok t) : ∀ a ∈ t.typeArgs, AllNames ok a := by
  have hs := h.stripPointers
  unfold GoType.typeArgs
  split
  · rename_i heq
    rw [heq] at hs
    exact allNamesIn_iff.1 hs.2
  · exact fun _ hno => absurd hno List.not_mem_nil

/-- The names in a type with its parameters replaced are those of the type and of the arguments. -/
theorem AllNames.subst {params : List String} {args : List GoType}
    (hargs : ∀ a ∈ args, AllNames ok a) :
    ∀ {t : GoType}, AllNames ok t → AllNames ok (t.subst params args) := by
  intro t
  induction t using GoType.rec
    (motive_2 := fun ts => AllNamesIn ok ts → AllNamesIn ok (GoType.substAll params args ts)) with
  | pointer t ih | slice t ih | array t ih => exact ih
  | map k v ihk ihv => exact fun ⟨hk, hv⟩ => ⟨ihk hk, ihv hv⟩
  | any | other => exact id
  | named package qualifier name own ih =>
    rintro ⟨hname, hown⟩
    have hkept : AllNames ok (.named package qualifier name (GoType.substAll params args own)) :=
      ⟨hname, ih hown⟩
    cases package with
    | some p => simpa only [GoType.subst] using hkept
    | none =>
      cases own with
      | cons a as => simpa only [GoType.subst] using hkept
      | nil =>
        rw [GoType.subst]
        cases ha : GoType.argFor params args name with
        | none => exact ⟨hname, trivial⟩
        | some a =>
          obtain ⟨i, -, hi⟩ := Option.bind_eq_some_iff.1 ha
          exact hargs a (List.mem_of_getElem? hi)
  | nil => trivial
  | cons t ts ih ihs h => exact ⟨ih h.1, ihs h.2⟩

end GoType

/-! ### Similar declarations -/

variable {ok : String → Prop}

/-- Similar fields are the same and speak of names with a property only; where all names have it, a
hidden field with a name of its own may have any other type. -/
inductive Field.Similar (ok : String → Prop) : Field → Field → Prop
  | same {f : Field} (h : f.type.AllNames ok) : Similar ok f f
  | hidden {f : Field} (hall : ∀ name, ok name) (hh : f.options.hidden = true)
      (hn : f.isEmbedded = false) (type : GoType) : Similar ok f { f with type }

namespace Field.Similar

variable {f f' : Field} (h : Field.Similar ok f f')
include h

theorem goName : f'.goName = f.goName := by cases h <;> rfl

theorem isEmbedded : f'.isEmbedded = f.isEmbedded := by cases h <;> rfl

theorem origin : f'.origin = f.origin := by cases h <;> rfl

theorem options : f'.options = f.options := by cases h <;> rfl

theorem isShownIn (target : Scope.Target) (hidesAll : Bool) :
    f'.isShownIn target hidesAll = f.isShownIn target hidesAll := by
  cases h <;> rfl

theorem eq_of_not_hidden (hf : f.options.hidden = false) : f' = f ∧ f.type.AllNames ok := by
  cases h with
  | same h => exact ⟨rfl, h⟩
  | hidden _ hh => rw [hf] at hh; cases hh

theorem eq_of_embedded (hf : f.isEmbedded = true) : f' = f ∧ f.type.AllNames ok := by
  cases h with
  | same h => exact ⟨rfl, h⟩
  | hidden _ _ hn => rw [hf] at hn; cases hn

theorem subst (params : List String) {args : List GoType} (hargs : ∀ a ∈ args, a.AllNames ok) :
    Field.Similar ok (f.subst params args) (f'.subst params args) := by
  cases h with
  | same h => exact .same (h.subst hargs)
  | hidden hall hh hn type =>
    exact .hidden (f := f.subst params args) hall hh hn (type.subst params args)

end Field.Similar

/-- Fields that are similar one by one. -/
abbrev FieldsSimilar (ok : String → Prop) : List Field → List Field → Prop :=
  List.Forall₂ (Field.Similar ok)

theorem FieldsSimilar.subst {fs fs' : List Field} (h : FieldsSimilar ok fs fs')
    (params : List String) {args : List GoType} (hargs : ∀ a ∈ args, a.AllNames ok) :
    FieldsSimilar ok (fs.map (Field.subst params args)) (fs'.map (Field.subst params args)) :=
  List.forall₂_map_left_iff.2 (List.forall₂_map_right_iff.2
    (h.imp fun _ _ hf => hf.subst params hargs))

/-- Bodies whose fields are similar; anything but a struct is the same. -/
inductive Body.Similar (ok : String → Prop) : Body → Body → Prop
  | record {fs fs' : List Field} (h : FieldsSimilar ok fs fs') :
      Similar ok (.record fs) (.record fs')
  | defined {t : GoType} (h : t.AllNames ok) : Similar ok (.defined t) (.defined t)
  | aliased {t : GoType} (h : t.AllNames ok) : Similar ok (.aliased t) (.aliased t)

theorem Body.Similar.fields {b b' : Body} (h : b.Similar ok b') :
    FieldsSimilar ok b.fields b'.fields := by
  cases h with
  | record h => exact h
  | defined | aliased => exact .nil

theorem Body.Similar.isRecord {b b' : Body} (h : b.Similar ok b') : b'.isRecord = b.isRecord := by
  cases h <;> rfl

/-- Declarations that differ in their bodies only, which are similar. -/
structure Declaration.Similar (ok : String → Prop) (d d' : Declaration) : Prop where
  head : d'.head = d.head
  body : d.body.Similar ok d'.body

namespace Declaration.Similar

variable {d d' : Declaration} (h : d.Similar ok d')
include h

theorem name : d'.name = d.name := congrArg (·.name) h.head

theorem package : d'.package = d.package := congrArg (·.package) h.head

theorem typeParams : d'.typeParams = d.typeParams := congrArg (·.typeParams) h.head

theorem requests : d'.requests = d.requests := congrArg (·.requests) h.head

theorem enumRequest : d'.enumRequest = d.enumRequest := congrArg (·.enumRequest) h.head

theorem label : d'.label = d.label := by
  rw [Declaration.label, Declaration.label, h.name, h.package]

theorem isRecord : d'.isRecord = d.isRecord := h.body.isRecord

theorem isGeneric : d'.isGeneric = d.isGeneric := by
  rw [Declaration.isGeneric, Declaration.isGeneric, h.typeParams]

theorem withBody {b b' : Body} (hb : b.Similar ok b') :
    Declaration.Similar ok { d with body := b } { d' with body := b' } where
  head := h.head
  body := hb

end Declaration.Similar

/-! ### Similar catalogs -/

namespace Catalog

variable {c c' : Catalog}

/-- The number of the first declaration with a property of its name and its package. -/
def search (c : Catalog) (q : String → Package → Bool) : Option Nat :=
  c.types.findIdx? fun d => q d.name d.package

theorem search_eq_heads (c : Catalog) (q : String → Package → Bool) :
    c.search q = c.heads.findIdx? fun d => q d.name d.package := by
  simp only [search, heads, List.findIdx?_map]
  rfl

theorem search_eq_of_heads (h : c'.heads = c.heads) (q : String → Package → Bool) :
    c'.search q = c.search q := by
  rw [search_eq_heads, search_eq_heads, h]

theorem exists_of_search {q : String → Package → Bool} {id : Nat} (h : c.search q = some id) :
    ∃ d, c.get? id = some d ∧ q d.name d.package = true := by
  obtain ⟨hlt, hq, -⟩ := List.findIdx?_eq_some_iff_getElem.1 h
  exact ⟨c.types[id], List.getElem?_eq_getElem hlt, by simpa using hq⟩

/-- Whether a key is that of a name in a package. -/
def hasKey (key : String × String) (name : String) (package : Package) : Bool :=
  decide ((package.identity, name) = key)

/-- Whether a name in a package without an import path is meant by a name under a path. -/
def fitsLoosely (path name : String) (own : String) (package : Package) : Bool :=
  own = name && package.importPath.isNone && package.name = lastSegment path

theorem idOf?_eq_search (c : Catalog) (key : String × String) :
    c.idOf? key = c.search (hasKey key) :=
  rfl

theorem lookup_eq_search (c : Catalog) (package name : String) :
    c.lookup package name =
      (c.search (hasKey (package, name))).or (c.search (fitsLoosely package name)) :=
  rfl

/-- What stands in the first catalog stands in the second one under the number that `φ` gives, and
searches for names with a property end alike. -/
structure Similar (ok : String → Prop) (φ : Nat → Nat) (c c' : Catalog) : Prop where
  get : ∀ {id d}, c.get? id = some d → ∃ d', c'.get? (φ id) = some d' ∧ d.Similar ok d'
  search : ∀ q, (∀ name package, q name package = true → ok name) →
    c'.search q = (c.search q).map φ

namespace Similar

variable {φ : Nat → Nat} (h : Catalog.Similar ok φ c c')
include h

theorem idOf?_eq {key : String × String} (hok : ok key.2) : c'.idOf? key = (c.idOf? key).map φ := by
  rw [idOf?_eq_search, idOf?_eq_search]
  refine h.search _ fun name package hkey => ?_
  rw [hasKey, decide_eq_true_eq] at hkey
  rw [← hkey] at hok
  exact hok

theorem lookup_eq {name : String} (hok : ok name) (package : String) :
    c'.lookup package name = (c.lookup package name).map φ := by
  rw [lookup_eq_search, lookup_eq_search, h.search, h.search]
  · cases c.search (hasKey (package, name)) <;> rfl
  · intro own pkg hfit
    rw [fitsLoosely, Bool.and_eq_true, Bool.and_eq_true, decide_eq_true_eq] at hfit
    rw [hfit.1.1]
    exact hok
  · intro own pkg hkey
    rw [hasKey, decide_eq_true_eq] at hkey
    rw [(Prod.mk.inj hkey).2]
    exact hok

theorem idOfType?_eq {t : GoType} (ht : t.AllNames ok) :
    c'.idOfType? t = (c.idOfType? t).map φ := by
  have hs := ht.stripPointers
  unfold idOfType?
  split
  · rename_i heq
    rw [heq] at hs
    exact h.lookup_eq hs.1 _
  · rfl

omit h in
theorem exists_of_idOfType? {t : GoType} {id : Nat} (ht : c.idOfType? t = some id) :
    ∃ d, c.get? id = some d := by
  unfold idOfType? at ht
  split at ht
  · rw [lookup_eq_search, Option.or_eq_some_iff] at ht
    rcases ht with hkey | ⟨-, hloose⟩
    · obtain ⟨d, hd, -⟩ := exists_of_search hkey
      exact ⟨d, hd⟩
    · obtain ⟨d, hd, -⟩ := exists_of_search hloose
      exact ⟨d, hd⟩
  · cases ht

/-- **Types refer to similar declarations.** -/
theorem find_cases {t : GoType} (ht : t.AllNames ok) :
    (c.find t = none ∧ c'.find t = none) ∨
      ∃ id d d', c.find t = some (id, d) ∧ c'.find t = some (φ id, d') ∧ d.Similar ok d' := by
  unfold find
  rw [h.idOfType?_eq ht]
  cases hid : c.idOfType? t with
  | none => exact .inl ⟨rfl, rfl⟩
  | some id =>
    obtain ⟨d, hd⟩ := exists_of_idOfType? hid
    obtain ⟨d', hd', hs⟩ := h.get hd
    exact .inr ⟨id, d, d', by simp [hd], by simp [hd'], hs⟩

/-- New bodies that are similar keep catalogs similar. -/
theorem setBody (hφ : Function.Injective φ) {b b' : Body} (hb : b.Similar ok b') (id : Nat) :
    Catalog.Similar ok φ (c.setBody id b) (c'.setBody (φ id) b') where
  get {i d} hd := by
    by_cases hi : id = i
    · subst hi
      cases hold : c.get? id with
      | none =>
        rw [get?_setBody_of_none hold] at hd
        cases hd
      | some e =>
        rw [get?_setBody_self hold] at hd
        obtain rfl := Option.some.inj hd
        obtain ⟨e', he', hs⟩ := h.get hold
        exact ⟨_, get?_setBody_self he' b', hs.withBody hb⟩
    · rw [get?_setBody_ne hi] at hd
      obtain ⟨d', hd', hs⟩ := h.get hd
      exact ⟨d', (get?_setBody_ne (fun heq => hi (hφ heq)) b').trans hd', hs⟩
  search q hq := by
    rw [search_eq_of_heads (heads_setBody ..), search_eq_of_heads (heads_setBody ..), h.search q hq]

omit h in
theorem search_concat (c : Catalog) (d : Declaration) (q : String → Package → Bool) :
    Catalog.search { c with types := c.types ++ [d] } q =
      (c.search q).or (if q d.name d.package then some c.types.length else none) := by
  rw [Catalog.search, List.findIdx?_append]
  congr 1
  by_cases hq : q d.name d.package <;> simp [hq]

/-- **A declaration whose name has the property can be pushed on both.** What is behind the end of
the first catalog is so for the second one. -/
theorem push {d d' : Declaration} (hd : d.Similar ok d') (hok : ok d.name)
    (hnext : ∀ k, φ (c.types.length + k) = c'.types.length + k) :
    Catalog.Similar ok φ (c.push d).1 (c'.push d').1 ∧ (c'.push d').2 = φ (c.push d).2 ∧
      ∀ k, φ ((c.push d).1.types.length + k) = (c'.push d').1.types.length + k := by
  have hkey : d'.key = d.key := by rw [Declaration.key, Declaration.key, hd.name, hd.package]
  have hid : c'.idOf? d.key = (c.idOf? d.key).map φ := h.idOf?_eq hok
  cases hk : c.idOf? d.key with
  | some id =>
    rw [hk] at hid
    rw [push_of_some hk, push_of_some (hkey ▸ hid)]
    exact ⟨h, rfl, hnext⟩
  | none =>
    rw [hk] at hid
    rw [push_of_none hk, push_of_none (hkey ▸ hid)]
    refine ⟨⟨fun {i e} hi => ?_, fun q hq => ?_⟩, (hnext 0).symm, fun k => ?_⟩
    · unfold get? at hi
      rcases Nat.lt_or_ge i c.types.length with hlt | hge
      · rw [List.getElem?_append_left hlt] at hi
        obtain ⟨e', he', hs⟩ := h.get hi
        refine ⟨e', ?_, hs⟩
        rw [get?, List.getElem?_append_left (List.getElem?_eq_some_iff.1 he').1]
        exact he'
      · obtain rfl : i = c.types.length := by
          have hlt := (List.getElem?_eq_some_iff.1 hi).1
          rw [List.length_append, List.length_singleton] at hlt
          omega
        rw [List.getElem?_concat_length] at hi
        obtain rfl := Option.some.inj hi
        refine ⟨d', ?_, hd⟩
        rw [get?, show φ c.types.length = c'.types.length from hnext 0, List.getElem?_concat_length]
    · rw [search_concat, search_concat, h.search q hq, hd.name, hd.package,
        ← show φ c.types.length = c'.types.length from hnext 0]
      cases c.search q with
      | some id => rfl
      | none => by_cases hq' : q d.name d.package <;> simp [hq']
    · dsimp only
      rw [List.length_append, List.length_append, List.length_singleton, List.length_singleton,
        Nat.add_assoc, Nat.add_assoc]
      exact hnext (1 + k)

end Similar

/-- The names of all declarations. -/
def names (c : Catalog) : List String := c.types.map Declaration.name

theorem names_eq_of_heads (h : c'.heads = c.heads) : c'.names = c.names := by
  have hnames : ∀ x : Catalog, x.names = x.heads.map Declaration.name := fun x => by
    rw [names, heads, List.map_map]
    rfl
  rw [hnames, hnames, h]

theorem name_mem_names {i : Nat} {d : Declaration} (h : c.get? i = some d) : d.name ∈ c.names :=
  List.mem_map_of_mem (List.mem_of_getElem? h)

end Catalog

end GoSchema
