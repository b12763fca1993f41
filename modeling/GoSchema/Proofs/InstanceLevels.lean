/-
# Generic structs with levels

A generic struct may refer to generic structs with its own parameters in the arguments. It may hand
a parameter on as it is, or put it into a larger argument. If the parameters have levels that do not
fall where one is handed on, and rise where one is put into something, then no parameter gets larger
and larger arguments: what an argument adds to the name of an instance is, level by level, one of
finitely many possibilities. So there are finitely many names of instances, and instantiation ends
(`ends_of_leveled`). Without levels it may not: a struct that refers to itself with a list of its
parameter keeps a run going for ever (`spiral_never_ends`).

Key definitions: `Instances.Leveled`, `Instances.Below`, `Instances.Good`, `Instances.Keys`,
`Instances.Fits`, `Instances.Bounded`, `Instances.Spiraling`.
Key theorems: `below_finite`, `keys_finite`, `fits_subst`, `Bounded.concrete`, `Bounded.step`,
`instances_end`, `Spiraling.step`, `spiral_never_ends`.
-/
import GoSchema.Catalog.Shape
import GoSchema.Declaration.OfSource
import GoSchema.Proofs.InstanceFields
import GoSchema.Proofs.InstanceNames
import Mathlib.Data.Set.Finite.Lattice

namespace GoSchema


/-- The lists of arguments in the fields of a catalog. -/
def Catalog.argLists (c : Catalog) : List (List GoType) :=
  c.types.flatMap fun d => d.body.fields.flatMap fun f => f.type.argLists

namespace Instances

/-- What an argument below a level can add to a name. Each level puts what the levels below it add
into the arguments that are written in the catalog. -/
def Below (c : Catalog) : Nat → Set NamePart
  | 0 => ∅
  | level + 1 => Below c level ∪ ⋃ own ∈ c.argLists, ⋃ a ∈ own, Parts (Below c level) a

theorem below_finite (c : Catalog) : ∀ level, (Below c level).Finite
  | 0 => Set.finite_empty
  | level + 1 => by
    refine (below_finite c level).union ?_
    refine (List.finite_toSet c.argLists).biUnion fun own _ => ?_
    exact (List.finite_toSet own).biUnion fun a _ => parts_finite (below_finite c level) a

theorem below_mono {low high : Nat} (h : low ≤ high) : Below c low ⊆ Below c high := by
  induction h with
  | refl => exact subset_rfl
  | step _ ih => exact ih.trans Set.subset_union_left

theorem parts_subset_below {own : List GoType} (hown : own ∈ c.argLists) {a : GoType} (ha : a ∈ own)
    (level : Nat) : Parts (Below c level) a ⊆ Below c (level + 1) := by
  intro f hf
  refine .inr (Set.mem_biUnion hown (Set.mem_biUnion ha hf))

/-- The level of every parameter that an argument mentions is at most that of the place of the
argument if it is a bare name, and below it otherwise. -/
def Rises (level : Nat → Nat) (params : List String) (top : Nat) (a : GoType) : Prop :=
  ∀ name ∈ params, a.mentions name = true →
    if a.isBare then level (params.findIdx (· = name)) ≤ top
    else level (params.findIdx (· = name)) < top

/-- The parameters of generic structs have levels, by the number of the struct and of the parameter:
where a generic struct refers to one, the levels do not fall where a parameter is handed on, and
rise where it is put into an argument. -/
def Leveled (c : Catalog) (level : Nat → Nat → Nat) : Prop :=
  ∀ p ∈ c.types.zipIdx, p.1.isGeneric = true → ∀ f ∈ p.1.body.fields,
    f.type.AllRefs fun package name own => ∀ target ∈ genericIdOf? c package name,
      ∀ q ∈ own.zipIdx, Rises (level p.2) p.1.typeParams (level target q.2) q.1

instance (level : Nat → Nat) (params : List String) (top : Nat) (a : GoType) :
    Decidable (Rises level params top a) :=
  inferInstanceAs (Decidable (∀ name ∈ params, a.mentions name = true →
    if a.isBare then level (params.findIdx (· = name)) ≤ top
    else level (params.findIdx (· = name)) < top))

instance (c : Catalog) (level : Nat → Nat → Nat) : Decidable (Leveled c level) :=
  inferInstanceAs (Decidable (∀ p ∈ c.types.zipIdx, p.1.isGeneric = true →
    ∀ f ∈ p.1.body.fields, f.type.AllRefs fun package name own =>
      ∀ target ∈ genericIdOf? c package name,
        ∀ q ∈ own.zipIdx, Rises (level p.2) p.1.typeParams (level target q.2) q.1))

/-- Arguments for a generic struct that may occur: as many as somewhere in the catalog, and each
within the level of its parameter. -/
def Good (c : Catalog) (level : Nat → Nat → Nat) (id : Nat) (args : List GoType) : Prop :=
  (∃ own ∈ c.argLists, args.length = own.length) ∧
    ∀ j a, args[j]? = some a → namePart a ∈ Below c (level id j + 1)

variable {c : Catalog} {level : Nat → Nat → Nat}

theorem Good.congr {id : Nat} {args args' : List GoType}
    (heq : args'.map namePart = args.map namePart) (h : Good c level id args) :
    Good c level id args' := by
  obtain ⟨⟨own, hown, hlen⟩, hparts⟩ := h
  have hlen' : args'.length = args.length := by simpa using congrArg List.length heq
  refine ⟨⟨own, hown, hlen'.trans hlen⟩, fun j a' ha' => ?_⟩
  have hj : (args.map namePart)[j]? = some (namePart a') := by
    rw [← heq, List.getElem?_map, ha']
    rfl
  rw [List.getElem?_map, Option.map_eq_some_iff] at hj
  obtain ⟨a, ha, hpart⟩ := hj
  rw [← hpart]
  exact hparts j a ha

/-! ### Names and references that may occur -/

/-- What a number of arguments add to a name, from one parameter on, each within its level. -/
def Names (c : Catalog) (level : Nat → Nat) : (param count : Nat) → Set String
  | _, 0 => {""}
  | param, count + 1 =>
    Set.image2 (fun f s => f 0 ++ s) (Below c (level param + 1)) (Names c level (param + 1) count)

theorem names_finite (c : Catalog) (level : Nat → Nat) :
    ∀ count param, (Names c level param count).Finite
  | 0, _ => Set.finite_singleton _
  | count + 1, param => (below_finite c _).image2 _ (names_finite c level count (param + 1))

theorem namesOfArgs_mem {level : Nat → Nat} : ∀ {args : List GoType} {param : Nat},
    (∀ j a, args[j]? = some a → namePart a ∈ Below c (level (param + j) + 1)) →
    namesOfArgs args ∈ Names c level param args.length
  | [], _, _ => rfl
  | a :: args, param, h => by
    refine Set.mem_image2_of_mem (h 0 a rfl) (namesOfArgs_mem fun j b hb => ?_)
    have := h (j + 1) b hb
    rwa [show param + (j + 1) = param + 1 + j by omega] at this

/-- The keys that instances may have. -/
def Keys (c : Catalog) (level : Nat → Nat → Nat) : Set (String × String) :=
  ⋃ p ∈ c.types.zipIdx, ⋃ own ∈ c.argLists,
    (fun s => (p.1.package.identity, p.1.name ++ s)) '' Names c (level p.2) 0 own.length

theorem keys_finite (c : Catalog) (level : Nat → Nat → Nat) : (Keys c level).Finite := by
  refine (List.finite_toSet c.types.zipIdx).biUnion fun p _ => ?_
  exact (List.finite_toSet c.argLists).biUnion fun own _ => (names_finite c _ _ _).image _

theorem instanceKey_mem {id : Nat} {generic : Declaration} (hd : c.get? id = some generic)
    {args : List GoType} (h : Good c level id args) : instanceKey generic args ∈ Keys c level := by
  obtain ⟨⟨own, hown, hlen⟩, hparts⟩ := h
  have hname : namesOfArgs args ∈ Names c (level id) 0 own.length := by
    rw [← hlen]
    refine namesOfArgs_mem fun j a ha => ?_
    rw [Nat.zero_add]
    exact hparts j a ha
  have hmem : (generic, id) ∈ c.types.zipIdx := List.mk_mem_zipIdx_iff_getElem?.2 hd
  exact Set.mem_biUnion hmem (Set.mem_biUnion hown ⟨_, hname, rfl⟩)

/-- Every reference to a generic struct in a type has arguments that may occur. -/
def Fits (c : Catalog) (level : Nat → Nat → Nat) (now : Catalog) (t : GoType) : Prop :=
  t.AllRefs fun package name args =>
    ∀ id, genericIdOf? now package name = some id → Good c level id args

variable {now later : Catalog}

theorem Fits.fades (hf : Fades now later) {t : GoType} (h : Fits c level now t) :
    Fits c level later t :=
  GoType.AllRefs.imp (fun _ _ _ hgood id hid => hgood id (hf hid)) h

theorem fits_of_clean {t : GoType} (h : Clean now t) : Fits c level now t := by
  refine GoType.AllRefs.imp (fun package name args hno id hid => ?_) h
  rw [hno] at hid
  cases hid

theorem argLists_of_field {d : Declaration} (hd : d ∈ c.types) {f : Field}
    (hf : f ∈ d.body.fields) : f.type.AllRefs fun _ _ args => args ∈ c.argLists := by
  refine GoType.allRefs_argLists fun own hown => ?_
  exact List.mem_flatMap.2 ⟨d, hd, List.mem_flatMap.2 ⟨f, hf, hown⟩⟩

theorem fits_written {d : Declaration} (hd : d ∈ c.types) {f : Field} (hf : f ∈ d.body.fields) :
    Fits c level now f.type := by
  refine GoType.AllRefs.imp (fun package name own hown id _ => ?_) (argLists_of_field hd hf)
  refine ⟨⟨own, hown, rfl⟩, fun j a ha => ?_⟩
  exact parts_subset_below hown (List.mem_of_getElem? ha) _ (namePart_mem_parts a)

/-- An argument that rises stays within the level of its place when parameters are replaced. -/
theorem namePart_subst_below {own : List GoType} (hown : own ∈ c.argLists) {a : GoType}
    (ha : a ∈ own) {params : List String} {levels : Nat → Nat} {top : Nat}
    (hrises : Rises levels params top a) {args : List GoType}
    (hargs : ∀ j b, args[j]? = some b → namePart b ∈ Below c (levels j + 1)) :
    namePart (a.subst params args) ∈ Below c (top + 1) := by
  by_cases hbare : a.isBare = true
  · -- a parameter that is handed on, or a name that is none
    rw [namePart_subst_stripPointers]
    have hself : namePart (a.stripPointers.subst [] []) ∈ Below c (top + 1) := by
      rw [← namePart_subst_stripPointers, subst_nil]
      exact parts_subset_below hown ha top (namePart_mem_parts a)
    have hmentions : ∀ name, a.stripPointers.mentions name = a.mentions name := by
      intro name
      clear hself hbare hrises ha
      induction a using GoType.stripPointers.induct with
      | case1 t ih => exact ih
      | case2 t h => cases t <;> first | rfl | exact absurd rfl (h _)
    unfold GoType.isBare at hbare
    split at hbare
    · rename_i qualifier name hstrip
      rw [hstrip] at hself hmentions ⊢
      rw [GoType.subst]
      cases harg : GoType.argFor params args name with
      | none => exact hself
      | some b =>
        obtain ⟨hname, hb⟩ := GoType.argFor_eq_some harg
        have hlevel := hrises name hname (by rw [← hmentions]; simp [GoType.mentions])
        rw [if_pos (by simp [GoType.isBare, hstrip])] at hlevel
        exact below_mono (Nat.succ_le_succ hlevel) (hargs _ b hb)
    · cases hbare
  · refine parts_subset_below hown ha top (namePart_subst_mem a fun name b hname hb => ?_)
    obtain ⟨hmem, hb⟩ := GoType.argFor_eq_some hb
    have hlevel := hrises name hmem hname
    rw [if_neg hbare] at hlevel
    exact below_mono hlevel (hargs _ b hb)

/-- The fields of a generic struct with arguments that may occur fit. -/
theorem fits_subst (hl : Leveled c level) (hf : Fades c now) {id : Nat} {generic : Declaration}
    (hd : c.get? id = some generic) (hg : generic.isGeneric = true) {f : Field}
    (hfield : f ∈ generic.body.fields) {args : List GoType} (hgood : Good c level id args)
    (hclean : ∀ a ∈ args, Clean now a) :
    Fits c level now (f.type.subst generic.typeParams args) := by
  have hleveled := hl (generic, id) (List.mk_mem_zipIdx_iff_getElem?.2 hd) hg f hfield
  have hlists := argLists_of_field (List.mem_of_getElem? hd) hfield
  refine GoType.AllRefs.subst ?_ (fun a ha => fits_of_clean (hclean a ha)) (hlists.and hleveled)
  rintro package name own ⟨hown, hrises⟩ target htarget
  refine ⟨⟨own, hown, List.length_map _⟩, fun j a' ha' => ?_⟩
  rw [List.getElem?_map, Option.map_eq_some_iff] at ha'
  obtain ⟨a, ha, rfl⟩ := ha'
  have hrise := hrises target (hf htarget) (a, j) (List.mk_mem_zipIdx_iff_getElem?.2 ha)
  exact namePart_subst_below hown (List.mem_of_getElem? ha) hrise hgood.2

/-! ### What a run keeps -/

/-- What a run keeps of a catalog with levels: a declaration that was added has one of finitely many
keys, each of them once, what a struct refers to may occur, and a generic struct is as it was or has
nothing left to replace. -/
structure Bounded (c : Catalog) (level : Nat → Nat → Nat) (now : Catalog) : Prop where
  fades : Fades c now
  keys : ∃ new, now.keys = c.keys ++ new ∧ new.Nodup ∧ ∀ key ∈ new, key ∈ Keys c level
  fits : ∀ id d, now.get? id = some d → ∀ f ∈ d.body.fields, Fits c level now f.type
  generics : ∀ id d, now.get? id = some d → d.isGeneric = true →
    CleanFields now d.body.fields ∨ c.get? id = some d

namespace Bounded

theorem start (c : Catalog) (level : Nat → Nat → Nat) : Bounded c level c where
  fades := fun h => h
  keys := ⟨[], by simp, List.nodup_nil, by simp⟩
  fits _ _ hd _ hf := fits_written (List.mem_of_getElem? hd) hf
  generics _ _ hd _ := .inr hd

theorem push (h : Bounded c level now) {d : Declaration} (hd : d.isGeneric = false)
    (hkey : d.key ∈ Keys c level) (hfits : ∀ f ∈ d.body.fields, Fits c level now f.type) :
    Bounded c level (now.push d).1 := by
  have hfades : Fades now (now.push d).1 := fades_of_growsTo ((Catalog.GrowsTo.refl now).push hd)
  refine ⟨fun hid => h.fades (hfades hid), ?_, ?_, ?_⟩
  · obtain ⟨new, hnew, hnodup, hmem⟩ := h.keys
    rw [Catalog.push_fst_keys]
    split
    · exact ⟨new, hnew, hnodup, hmem⟩
    · rename_i hno
      rw [hnew, List.mem_append, not_or] at hno
      refine ⟨new ++ [d.key], by rw [hnew, List.append_assoc], ?_, fun key hk => ?_⟩
      · exact List.nodup_append.2 ⟨hnodup, List.nodup_singleton _, fun a ha b hb hab =>
          hno.2 (List.mem_singleton.1 hb ▸ hab ▸ ha)⟩
      · rcases List.mem_append.1 hk with hk | hk
        · exact hmem key hk
        · obtain rfl := List.mem_singleton.1 hk
          exact hkey
  · intro id e he f hf
    rcases Catalog.get?_push he with he | rfl
    · exact (h.fits id e he f hf).fades hfades
    · exact (hfits f hf).fades hfades
  · intro id e he hg
    rcases Catalog.get?_push he with he | rfl
    · exact (h.generics id e he hg).imp (·.fades hfades) fun hold => hold
    · rw [hd] at hg
      cases hg

theorem setBody (h : Bounded c level now) {id : Nat} {d : Declaration} (hd : now.get? id = some d)
    (hr : d.isRecord = true) {fields : List Field} (hclean : CleanFields now fields) :
    Bounded c level (now.setBody id (.record fields)) := by
  have hfades : Fades now (now.setBody id (.record fields)) := by
    intro package name i hi
    rwa [genericIdOf?_setBody hd hr] at hi
  have hself := Catalog.get?_setBody_self hd (.record fields)
  have hkeys := Catalog.keys_eq_of_heads (Catalog.heads_setBody now id (.record fields))
  refine ⟨fun hid => h.fades (hfades hid), by rw [hkeys]; exact h.keys, ?_, ?_⟩
  · intro i e he f hf
    by_cases hi : id = i
    · subst hi
      obtain rfl := Option.some.inj (hself.symm.trans he)
      exact fits_of_clean ((hclean f hf).fades hfades)
    · rw [Catalog.get?_setBody_ne hi] at he
      exact (h.fits i e he f hf).fades hfades
  · intro i e he hg
    by_cases hi : id = i
    · subst hi
      obtain rfl := Option.some.inj (hself.symm.trans he)
      exact .inl (hclean.fades hfades)
    · rw [Catalog.get?_setBody_ne hi] at he
      exact (h.generics i e he hg).imp (·.fades hfades) fun hold => hold

theorem length_le (h : Bounded c level now) :
    now.types.length ≤ c.types.length + (keys_finite c level).toFinset.card := by
  obtain ⟨new, hnew, hnodup, hmem⟩ := h.keys
  have hsub : new.toFinset ⊆ (keys_finite c level).toFinset := fun key hk =>
    (keys_finite c level).mem_toFinset.2 (hmem key (List.mem_toFinset.1 hk))
  have hlength : now.types.length = c.types.length + new.length := by
    simpa [Catalog.keys] using congrArg List.length hnew
  rw [hlength, ← List.toFinset_card_of_nodup hnodup]
  exact Nat.add_le_add_left (Finset.card_le_card hsub) _

theorem fits_instance (h : Bounded c level now) (hl : Leveled c level) {id : Nat}
    {generic : Declaration} (hd : now.get? id = some generic) (hg : generic.isGeneric = true)
    {args : List GoType} (hgood : Good c level id args) (hclean : ∀ a ∈ args, Clean now a)
    {f : Field} (hf : f ∈ generic.body.fields) :
    Fits c level now (f.type.subst generic.typeParams args) := by
  rcases h.generics id generic hd hg with hdone | hold
  · exact fits_of_clean (GoType.AllRefs.subst (fun _ _ _ hno => hno) hclean (hdone f hf))
  · exact fits_subst hl h.fades hold hg hf hgood hclean

end Bounded

theorem catalog_instanceFor (s : Instances) (id : Nat) (generic : Declaration)
    (args : List GoType) : (s.instanceFor id generic args).2.catalog = s.catalog ∨
      ∃ copy, (s.instanceFor id generic args).2.catalog =
        (s.catalog.push (instanceOf generic copy args)).1 := by
  unfold instanceFor
  split
  · exact .inl rfl
  · exact .inr ⟨_, rfl⟩

theorem mem_known_instanceFor (s : Instances) (id : Nat) (generic : Declaration)
    (args : List GoType) : ((id, args), (s.instanceFor id generic args).1) ∈
      (s.instanceFor id generic args).2.known := by
  unfold instanceFor
  split
  · rename_i made hk
    exact Pointwise.mem_of_lookup hk
  · exact List.mem_append_right _ (List.mem_singleton.2 rfl)

variable {s : Instances}

theorem Bounded.instanceFor (hl : Leveled c level) (hf : Framed c s)
    (h : Bounded c level s.catalog) {id : Nat} {generic : Declaration}
    (hd : s.catalog.get? id = some generic) (hg : generic.isGeneric = true) {args : List GoType}
    (hgood : Good c level id args) (hclean : ∀ a ∈ args, Clean s.catalog a) :
    Bounded c level (s.instanceFor id generic args).2.catalog := by
  rcases catalog_instanceFor s id generic args with hsame | ⟨copy, hpush⟩
  · rw [hsame]
    exact h
  · rw [hpush]
    obtain ⟨written, hwritten, hhead⟩ := hf.exists_generic hd hg
    refine h.push rfl ?_ fun g hmem => ?_
    · rw [key_instanceOf, ← instanceKey_of_head hhead]
      exact instanceKey_mem hwritten hgood
    · obtain ⟨f, hfield, rfl⟩ := List.mem_map.1 hmem
      exact h.fits_instance hl hd hg hgood hclean hfield

/-- The instance that takes the place of a reference adds to a name what the reference does. -/
theorem namePart_reference (hf : Framed c s) {package : Option String} {name : String} {id : Nat}
    {generic : Declaration} (hg : genericOf? s.catalog package name = some (id, generic))
    {args args' : List GoType} (hargs : args'.map namePart = args.map namePart)
    (qualifier : Option String) :
    namePart (reference (s.instanceFor id generic args').2.catalog
        (s.instanceFor id generic args').1) =
      namePart (.named package qualifier name args) := by
  obtain ⟨⟨p, -, hl⟩, hd, hgen, -⟩ := genericOf?_eq_some_iff.1 hg
  obtain ⟨written, hwritten, hhead⟩ := hf.exists_generic hd hgen
  have hname : written.name = name :=
    (congrArg (·.name) hhead).trans (Catalog.name_of_lookup hl hd)
  rw [(hf.instanceFor hd hgen args').reference_eq (mem_known_instanceFor s id generic args')
    hwritten]
  funext lists
  change Name.listedName (written.name ++ namesOfArgs args' ++ "") lists =
    Name.listedName (name ++ namesOfArgs args) lists
  rw [hname, namesOfArgs_congr hargs, String.append_empty]

mutual

/-- **Rewriting a type** that fits stays within the bound, and does not change what the type adds to
a name. -/
theorem Bounded.concrete (hl : Leveled c level) : ∀ (t : GoType) {s : Instances}, Framed c s →
    Bounded c level s.catalog → Fits c level s.catalog t →
    Bounded c level (concrete s t).2.catalog ∧ namePart (concrete s t).1 = namePart t
  | .pointer t, s, hf, h, hfits => by
    simp only [Instances.concrete]
    exact Bounded.concrete hl t hf h hfits
  | .slice t, s, hf, h, hfits | .array t, s, hf, h, hfits => by
    simp only [Instances.concrete]
    obtain ⟨hb, hname⟩ := Bounded.concrete hl t hf h hfits
    exact ⟨hb, funext fun lists => congrFun hname (lists + 1)⟩
  | .map k v, s, hf, h, hfits => by
    simp only [Instances.concrete]
    obtain ⟨hk, -⟩ := Bounded.concrete hl k hf h hfits.1
    have hfk : Framed c (Instances.concrete s k).2 :=
      concrete_preserves (fun args hs hg => hs.of_genericOf? args hg) k hf
    obtain ⟨hv, -⟩ := Bounded.concrete hl v hfk hk
      (Fits.fades (fades_of_growsTo (growsTo_concrete s k)) hfits.2)
    exact ⟨hv, rfl⟩
  | .any, s, hf, h, _ | .other _, s, hf, h, _ | .named _ _ _ [], s, hf, h, _ => by
    simp only [Instances.concrete]
    exact ⟨h, trivial⟩
  | .named package qualifier name (t :: ts), s, hf, h, hfits => by
    obtain ⟨hb, hnames⟩ := Bounded.concreteAll hl (t :: ts) hf h hfits.2
    have hfa : Framed c (Instances.concreteAll s (t :: ts)).2 :=
      concreteAll_preserves (fun args hs hg => hs.of_genericOf? args hg) (t :: ts) hf
    have hfades : Fades s.catalog (Instances.concreteAll s (t :: ts)).2.catalog :=
      fades_of_growsTo (growsTo_concreteAll s (t :: ts))
    have hclean := GoType.allRefsIn_iff.1 (cleanIn_concreteAll (t :: ts) s)
    rw [Instances.concrete]
    · dsimp only
      split
      · rename_i id generic hg
        obtain ⟨-, hd, hgen, -⟩ := genericOf?_eq_some_iff.1 hg
        have hgood : Good c level id (t :: ts) :=
          hfits.1 (List.cons_ne_nil _ _) id (hfades (by rw [genericIdOf?, hg]; rfl))
        exact ⟨hb.instanceFor hl hfa hd hgen (hgood.congr hnames) hclean,
          namePart_reference hfa hg hnames qualifier⟩
      · refine ⟨hb, funext fun lists => ?_⟩
        change Name.listedName (name ++ namesOfArgs _) lists =
          Name.listedName (name ++ namesOfArgs _) lists
        rw [namesOfArgs_congr hnames]
    · simp

theorem Bounded.concreteAll (hl : Leveled c level) : ∀ (ts : List GoType) {s : Instances},
    Framed c s → Bounded c level s.catalog →
    GoType.AllRefsIn (fun package name args =>
      ∀ id, genericIdOf? s.catalog package name = some id → Good c level id args) ts →
    Bounded c level (concreteAll s ts).2.catalog ∧
      (concreteAll s ts).1.map namePart = ts.map namePart
  | [], s, hf, h, _ => by
    simp only [Instances.concreteAll]
    exact ⟨h, trivial⟩
  | t :: ts, s, hf, h, hfits => by
    simp only [Instances.concreteAll]
    obtain ⟨ht, hname⟩ := Bounded.concrete hl t hf h hfits.1
    have hft : Framed c (Instances.concrete s t).2 :=
      concrete_preserves (fun args hs hg => hs.of_genericOf? args hg) t hf
    have hrest := GoType.allRefsIn_iff.2 fun u hu =>
      Fits.fades (fades_of_growsTo (growsTo_concrete s t)) (GoType.allRefsIn_iff.1 hfits.2 u hu)
    obtain ⟨hts, hnames⟩ := Bounded.concreteAll hl ts hft ht hrest
    exact ⟨hts, by rw [List.map_cons, List.map_cons, hname, hnames]⟩

end

theorem Bounded.concreteFields (hl : Leveled c level) : ∀ (fs : List Field) {s : Instances},
    Framed c s → Bounded c level s.catalog → (∀ f ∈ fs, Fits c level s.catalog f.type) →
    Bounded c level (concreteFields s fs).2.catalog
  | [], s, _, h, _ => by
    simp only [Instances.concreteFields]
    exact h
  | f :: fs, s, hf, h, hfits => by
    simp only [Instances.concreteFields]
    obtain ⟨hb, -⟩ := Bounded.concrete hl f.type hf h (hfits f List.mem_cons_self)
    have hff : Framed c (Instances.concrete s f.type).2 :=
      concrete_preserves (fun args hs hg => hs.of_genericOf? args hg) f.type hf
    have hfades : Fades s.catalog (Instances.concrete s f.type).2.catalog :=
      fades_of_growsTo (growsTo_concrete s f.type)
    exact Bounded.concreteFields hl fs hff hb fun g hg =>
      (hfits g (List.mem_cons_of_mem _ hg)).fades hfades

/-- **A step** stays within the bound. -/
theorem Bounded.step (hl : Leveled c level) (hf : Framed c s) (h : Bounded c level s.catalog) :
    Bounded c level s.step.catalog := by
  cases hq : s.queue with
  | nil =>
    unfold Instances.step
    rw [hq]
    exact h
  | cons id queue =>
    rcases step_cases hq with ⟨hstep, -⟩ | ⟨d, hd, hr, hstep⟩
    · rw [hstep]
      exact h
    · have hb :
          Bounded c level (Instances.concreteFields { s with queue } d.body.fields).2.catalog :=
        Bounded.concreteFields hl d.body.fields ⟨hf.heads, hf.entries⟩ h (h.fits id d hd)
      rw [hstep]
      exact hb.setBody ((growsTo_concreteFields { s with queue } d.body.fields).get? hd) hr
        (clean_concreteFields d.body.fields { s with queue })

/-- **A run** stays within the bound. -/
theorem Bounded.run (hl : Leveled c level) : ∀ (n : Nat),
    Bounded c level (Instances.run n (Instances.start c)).catalog
  | 0 => Bounded.start c level
  | n + 1 => by
    rw [run_succ']
    exact (Bounded.run hl n).step hl (framed_run c n)

/-- **A catalog with levels has its instances after finitely many steps.** -/
theorem ends_of_leveled (hl : Leveled c level) : ∃ n, (run n (start c)).queue = [] :=
  ends_of_bounded _ fun n => (Bounded.run hl n).length_le

/-- **Instantiation ends** exactly when the number of its declarations stays bounded, which it does
if the parameters of the generic structs have levels. -/
theorem instances_end (c : Catalog) :
    ((∃ n, (run n (start c)).queue = []) ↔
      ∃ bound, ∀ n, (run n (start c)).catalog.types.length ≤ bound) ∧
    ∀ level, Leveled c level → ∃ n, (run n (start c)).queue = [] :=
  ⟨ends_iff_bounded c, fun _ hl => ends_of_leveled hl⟩

/-- A generic struct that hands its parameter on to itself, and puts it into an argument of another
one, which hands it on to itself. -/
def layered : Catalog :=
  { types :=
      [plainDeclaration "Chain" ["T"]
          [("Item", .ofName "T"),
            ("Rest", .pointer (.named (some "m") none "Chain" [.pointer (.ofName "T")])),
            ("Packed", .named (some "m") none "Crate" [.slice (.ofName "T")])],
        plainDeclaration "Crate" ["U"]
          [("Inner", .ofName "U"), ("Again", .named (some "m") none "Crate" [.ofName "U"])],
        plainDeclaration "Root" [] [("Names", .named (some "m") none "Chain" [.ofName "string"])]] }

theorem layered_ends : Leveled layered (fun id _ => id) ∧
    ∃ n, (run n (start layered)).queue = [] := by
  have hl : Leveled layered fun id _ => id := by decide +kernel
  exact ⟨hl, (instances_end layered).2 _ hl⟩

/-! ### Without levels -/

/-- A generic struct that refers to itself with a list of its parameter, and a struct that refers to
it. -/
def spiral : SourceFile :=
  { path := ⟨"m.go"⟩
    package := "m"
    types :=
      [⟨"Box", none, 1, ["T"],
          .record
            [⟨some "Next", .pointer (.named none none "Box" [.slice (.ofName "T")]), none, none,
              1⟩]⟩,
        ⟨"Root", none, 2, [],
          .record
            [⟨some "First", .pointer (.named none none "Box" [.ofName "int"]), none, none, 2⟩]⟩] }

/-- A reference to the generic struct of `spiral`. -/
def spiralRef (arg : GoType) : GoType := .named (some "m") none "Box" [arg]

def spiralBox : Declaration :=
  { name := "Box"
    package := ⟨"m", none⟩
    path := ⟨"m.go"⟩
    line := 1
    place := ⟨0, 0, 0⟩
    typeParams := ["T"]
    body := .record [{
      goName := some "Next"
      type := .pointer (spiralRef (.slice (.ofName "T")))
      origin := "Box.Next"
      line := 1 }] }

def spiralRoot : Declaration :=
  { name := "Root"
    package := ⟨"m", none⟩
    path := ⟨"m.go"⟩
    line := 2
    place := ⟨0, 1, 0⟩
    body := .record [{
      goName := some "First"
      type := .pointer (spiralRef (.ofName "int"))
      origin := "Root.First"
      line := 2 }] }

/-- A number of lists around an integer. -/
def listsOfInt : Nat → GoType
  | 0 => .ofName "int"
  | n + 1 => .slice (listsOfInt n)

theorem concrete_listsOfInt (s : Instances) : ∀ n, concrete s (listsOfInt n) = (listsOfInt n, s)
  | 0 => by simp only [listsOfInt, GoType.ofName, concrete]
  | n + 1 => by
    simp only [listsOfInt, concrete]
    rw [concrete_listsOfInt s n]

theorem nameOfArg_listsOfInt : ∀ n lists,
    nameOfArg lists (listsOfInt n) = Name.listedName "int" (lists + n)
  | 0, _ => rfl
  | n + 1, lists => by
    rw [listsOfInt, nameOfArg, nameOfArg_listsOfInt n, Nat.succ_add_eq_add_succ]

/-- The name of the instance for a number of lists around an integer. -/
def spiralName (n : Nat) : String := "Box" ++ namesOfArgs [listsOfInt n]

theorem spiralName_length (n : Nat) : (spiralName n).length = 6 + 4 * n := by
  have hlists : ((List.replicate n "List".toList).flatten).length = 4 * n := by
    rw [List.length_flatten, List.map_replicate, List.sum_replicate_nat, Nat.mul_comm]
    rfl
  have harg : (nameOfArg 0 (listsOfInt n)).length = 3 + 4 * n := by
    rw [nameOfArg_listsOfInt, Nat.zero_add, Name.listedName, String.length_ofList,
      List.length_append, hlists]
    rfl
  calc (spiralName n).length = "Box".length + (nameOfArg 0 (listsOfInt n) ++ "").length :=
        String.length_append _ _
    _ = 3 + (3 + 4 * n) := by rw [String.append_empty, harg]; rfl
    _ = 6 + 4 * n := by omega

theorem spiralName_injective {m n : Nat} (h : spiralName m = spiralName n) : m = n := by
  have hlength := congrArg String.length h
  rw [spiralName_length, spiralName_length] at hlength
  omega

theorem instanceFor_of_new {id : Nat} {generic : Declaration} {args : List GoType}
    (hk : s.known.lookup (id, args) = none)
    (hnew : s.catalog.idOf? (instanceKey generic args) = none) :
    s.instanceFor id generic args =
      (s.catalog.types.length,
        { catalog := { s.catalog with
            types := s.catalog.types ++ [instanceOf generic (s.made.count id + 1) args] }
          known := s.known ++ [((id, args), s.catalog.types.length)]
          made := id :: s.made
          queue := s.queue ++ [s.catalog.types.length] }) := by
  have hpush := Catalog.push_of_none (c := s.catalog)
    (d := instanceOf generic (s.made.count id + 1) args) hnew
  unfold instanceFor
  simp only [hk, hpush]

/-- The state after a number of steps with `spiral`: the struct to go through refers to an instance
that is not there. -/
structure Spiraling (n : Nat) (s : Instances) : Prop where
  types : ∃ rest, s.catalog.types = spiralBox :: rest
  queue : ∃ id d f, s.queue = [id + 1] ∧ s.catalog.get? (id + 1) = some d ∧ d.body = .record [f] ∧
    f.type = .pointer (spiralRef (listsOfInt n))
  known : ∀ e ∈ s.known, ∃ j < n, e.1.2 = [listsOfInt j]
  names : ∀ key ∈ s.catalog.keys, key.2 = "Box" ∨ key.2 = "Root" ∨ ∃ j < n, key.2 = spiralName j

theorem spiraling_start : Spiraling 0 (start ⟨[spiralBox, spiralRoot], []⟩) where
  types := ⟨_, rfl⟩
  queue := ⟨0, _, _, by decide +kernel, rfl, rfl, rfl⟩
  known := by simp [start]
  names := by simp [start, Catalog.keys, Declaration.key, spiralBox, spiralRoot]

namespace Spiraling

variable {n : Nat} (h : Spiraling n s)
include h

theorem genericOf?_eq : genericOf? s.catalog (some "m") "Box" = some (0, spiralBox) := by
  obtain ⟨rest, hrest⟩ := h.types
  refine genericOf?_eq_some_iff.2 ⟨⟨"m", rfl, Catalog.lookup_of_idOf? ?_⟩, ?_, rfl, rfl⟩
  · rw [Catalog.idOf?, hrest]
    rfl
  · rw [Catalog.get?, hrest]
    rfl

theorem lookup_known : s.known.lookup (0, [listsOfInt n]) = none := by
  cases hk : s.known.lookup (0, [listsOfInt n]) with
  | none => rfl
  | some made =>
    obtain ⟨j, hj, heq⟩ := h.known _ (Pointwise.mem_of_lookup hk)
    have hname : spiralName n = spiralName j := congrArg (fun args => "Box" ++ namesOfArgs args) heq
    have := spiralName_injective hname
    omega

theorem idOf?_eq_none : s.catalog.idOf? (instanceKey spiralBox [listsOfInt n]) = none := by
  refine Catalog.idOf?_eq_none_iff.2 fun hmem => ?_
  have hlong := spiralName_length n
  change ("m", spiralName n) ∈ s.catalog.keys at hmem
  rcases h.names _ hmem with hbox | hroot | ⟨j, hj, heq⟩
  · rw [show spiralName n = "Box" from hbox, show "Box".length = 3 from rfl] at hlong
    omega
  · rw [show spiralName n = "Root" from hroot, show "Root".length = 4 from rfl] at hlong
    omega
  · have := spiralName_injective heq
    omega

/-- What a step does: an instance is put at the end, and a struct before it has its reference
replaced. -/
theorem step_eq : ∃ id d g, id + 1 < s.catalog.types.length ∧
    d = instanceOf spiralBox (s.made.count 0 + 1) [listsOfInt n] ∧
    s.step =
      { catalog := Catalog.setBody { s.catalog with types := s.catalog.types ++ [d] } (id + 1)
          (.record [g])
        known := s.known ++ [((0, [listsOfInt n]), s.catalog.types.length)]
        made := 0 :: s.made
        queue := [s.catalog.types.length] } := by
  obtain ⟨id, d, f, hq, hd, hbody, hf⟩ := h.queue
  let types := s.catalog.types ++ [instanceOf spiralBox (s.made.count 0 + 1) [listsOfInt n]]
  let made := reference { s.catalog with types } s.catalog.types.length
  refine ⟨id, _, { f with type := .pointer made }, (List.getElem?_eq_some_iff.1 hd).1, rfl, ?_⟩
  have hmade := instanceFor_of_new (s := { s with queue := [] }) h.lookup_known h.idOf?_eq_none
  unfold step
  rw [hq]
  simp only [hd, Option.map_some, hbody, concreteFields, hf, concrete, spiralRef, concreteAll,
    concrete_listsOfInt, h.genericOf?_eq, hmade]
  rfl

/-- **A step** makes one more instance, which is the next to go through. -/
theorem step : Spiraling (n + 1) s.step := by
  obtain ⟨id, d, g, hlt, rfl, hstep⟩ := h.step_eq
  obtain ⟨rest, hrest⟩ := h.types
  rw [hstep]
  refine ⟨⟨_, by rw [hrest]; rfl⟩, ?_, ?_, ?_⟩
  · refine ⟨rest.length, instanceOf spiralBox (s.made.count 0 + 1) [listsOfInt n], _,
      by rw [hrest]; rfl, ?_, rfl, rfl⟩
    have hlast : rest.length + 1 = s.catalog.types.length := by rw [hrest]; rfl
    rw [hlast, Catalog.get?_setBody_ne (Nat.ne_of_lt hlt), Catalog.get?,
      List.getElem?_append_right (Nat.le_refl _), Nat.sub_self]
    rfl
  · intro e he
    rcases List.mem_append.1 he with he | he
    · obtain ⟨j, hj, heq⟩ := h.known e he
      exact ⟨j, Nat.lt_succ_of_lt hj, heq⟩
    · obtain rfl := List.mem_singleton.1 he
      exact ⟨n, Nat.lt_succ_self n, rfl⟩
  · intro key hkey
    rw [Catalog.keys_eq_of_heads (Catalog.heads_setBody ..), Catalog.keys, List.map_append] at hkey
    rcases List.mem_append.1 hkey with hkey | hkey
    · refine (h.names key hkey).imp_right (Or.imp_right ?_)
      rintro ⟨j, hj, heq⟩
      exact ⟨j, Nat.lt_succ_of_lt hj, heq⟩
    · obtain rfl := List.mem_singleton.1 hkey
      exact .inr (.inr ⟨n, Nat.lt_succ_self n, rfl⟩)

end Spiraling

theorem spiraling_run : ∀ n, Spiraling n (run n (start ⟨[spiralBox, spiralRoot], []⟩))
  | 0 => spiraling_start
  | n + 1 => by
    rw [run_succ']
    exact (spiraling_run n).step

/-- **Instantiation may never end.** The file of `spiral` is accepted, and no number of steps empties
the queue. -/
theorem spiral_never_ends :
    (do
      let ds ← Declarations.ofFiles {} [spiral]
      let settled ← (Catalog.ofDeclarations ds).settle
      settled.flatten) = Except.ok ⟨[spiralBox, spiralRoot], []⟩ ∧
    ∀ n, (run n (start ⟨[spiralBox, spiralRoot], []⟩)).queue ≠ [] := by
  refine ⟨by decide +kernel, fun n hq => ?_⟩
  obtain ⟨id, -, -, hqueue, -⟩ := (spiraling_run n).queue
  rw [hq] at hqueue
  cases hqueue

end Instances

end GoSchema
