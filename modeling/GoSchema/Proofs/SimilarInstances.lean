/-
# Instantiation of similar catalogs

Two runs of instantiation that start from similar catalogs go through similar structs and ask for
the same instances, so they stay similar: the tables have the same entries under other numbers, and
what one run puts into its queue the other one does. A hidden field may have any type; then what the
two types ask for must be known to be the same, because going through a type does nothing but ask.
The tables tell, since a state is what it was with the new entries of the table asked for in order.

Key definitions: `Instances.ask`, `Instances.renumber`, `Instances.Similar`, `Instances.Follows`,
`Instances.fieldTables`, `Instances.tables`.
Key theorems: `exists_asks_concrete`, `Instances.Similar.instanceFor`, `concrete_similar`,
`concreteFields_similar`, `step_similar`, `run_similar`, `run_front_similar`.
-/
import GoSchema.Proofs.InstanceQueue
import GoSchema.Proofs.SimilarCatalogs

namespace GoSchema.Instances

variable {s s' r r' : Instances}

/-- Asks for an instance of the generic struct with a number. -/
def ask (s : Instances) (a : Nat × List GoType) : Instances :=
  match s.catalog.get? a.1 with
  | some generic => (s.instanceFor a.1 generic a.2).2
  | none => s

/-- A state is another one after new instances were asked for, in order. -/
def AskedFor (s : Instances) (asks : List (Nat × List GoType)) (r : Instances) : Prop :=
  r = asks.foldl ask s ∧ r.known.map Prod.fst = s.known.map Prod.fst ++ asks

theorem askedFor_kept (s : Instances) : KeptByAsking fun r => ∃ asks, AskedFor s asks r := by
  intro r package name id generic args h hg
  obtain ⟨asks, rfl, hknown⟩ := h
  obtain ⟨-, hd, -, -⟩ := genericOf?_eq_some_iff.1 hg
  cases hl : (asks.foldl ask s).known.lookup (id, args) with
  | some made =>
    refine ⟨asks, ?_, ?_⟩
    · simp only [instanceFor, hl]
    · simpa only [instanceFor, hl] using hknown
  | none =>
    refine ⟨asks ++ [(id, args)], ?_, ?_⟩
    · rw [List.foldl_append, List.foldl_cons, List.foldl_nil, ask]
      simp only [hd]
    · simp only [instanceFor, hl, List.map_append, hknown, List.append_assoc]
      rfl

/-- **Going through a type only asks for instances.** -/
theorem exists_asks_concrete (s : Instances) (t : GoType) :
    ∃ asks, AskedFor s asks (concrete s t).2 :=
  concrete_preserves (askedFor_kept s) t ⟨[], rfl, by simp⟩

theorem exists_asks_concreteFields (s : Instances) (fs : List Field) :
    ∃ asks, AskedFor s asks (concreteFields s fs).2 :=
  concreteFields_preserves (askedFor_kept s) fs ⟨[], rfl, by simp⟩

/-- A table that stays the same tells that nothing was asked for. -/
theorem AskedFor.eq_of_known {asks : List (Nat × List GoType)} (h : AskedFor s asks r)
    (hknown : r.known = s.known) : r = s := by
  obtain ⟨heq, hkeys⟩ := h
  rw [hknown, List.self_eq_append_right] at hkeys
  rw [heq, hkeys]
  rfl

/-! ### Similar states -/

/-- An entry of a table under other numbers. -/
def renumber (φ : Nat → Nat) (e : (Nat × List GoType) × Nat) : (Nat × List GoType) × Nat :=
  ((φ e.1.1, e.1.2), φ e.2)

theorem lookup_map_renumber {φ : Nat → Nat} (hφ : Function.Injective φ) (id : Nat)
    (args : List GoType) : ∀ known : Table,
    (known.map (renumber φ)).lookup (φ id, args) = (known.lookup (id, args)).map φ
  | [] => rfl
  | ((i, as), made) :: known => by
    rw [List.map_cons, renumber, List.lookup_cons, List.lookup_cons]
    have hkey : ((φ id, args) == (φ i, as)) = ((id, args) == (i, as)) := by
      rw [Bool.eq_iff_iff, beq_iff_eq, beq_iff_eq, Prod.mk.injEq, Prod.mk.injEq, hφ.eq_iff]
    rw [hkey]
    cases (id, args) == (i, as) with
    | true => rfl
    | false => exact lookup_map_renumber hφ id args known

variable {ok : String → Prop} {φ : Nat → Nat}

/-- States with similar catalogs and the same table. The queues are left out. -/
structure Similar (ok : String → Prop) (φ : Nat → Nat) (s s' : Instances) : Prop where
  catalog : Catalog.Similar ok φ s.catalog s'.catalog
  next : ∀ k, φ (s.catalog.types.length + k) = s'.catalog.types.length + k
  known : s'.known = s.known.map (renumber φ)
  made : s'.made = s.made.map φ

/-- The states `r` and `r'` follow on `s` and `s'`: they are similar, and the same numbers were put
at the end of both queues. -/
structure Follows (ok : String → Prop) (φ : Nat → Nat) (s s' r r' : Instances) : Prop where
  similar : Similar ok φ r r'
  queue : ∃ new, r.queue = s.queue ++ new ∧ r'.queue = s'.queue ++ new.map φ

theorem Follows.refl (h : Similar ok φ s s') : Follows ok φ s s' s s' := ⟨h, [], by simp, by simp⟩

theorem Follows.trans {u u' : Instances} (h : Follows ok φ s s' r r')
    (h' : Follows ok φ r r' u u') : Follows ok φ s s' u u' := by
  obtain ⟨new, hnew, hnew'⟩ := h.queue
  obtain ⟨more, hmore, hmore'⟩ := h'.queue
  refine ⟨h'.similar, new ++ more, ?_, ?_⟩
  · rw [hmore, hnew, List.append_assoc]
  · rw [hmore', hnew', List.map_append, List.append_assoc]

theorem Similar.withQueue (h : Similar ok φ s s') (queue queue' : List Nat) :
    Similar ok φ { s with queue } { s' with queue := queue' } :=
  ⟨h.catalog, h.next, h.known, h.made⟩

theorem Similar.get?_of_none (h : Similar ok φ s s') {id : Nat} (hd : s.catalog.get? id = none) :
    s'.catalog.get? (φ id) = none := by
  have hge : s.catalog.types.length ≤ id := List.getElem?_eq_none_iff.1 hd
  obtain ⟨k, rfl⟩ := Nat.exists_eq_add_of_le hge
  rw [h.next k]
  exact List.getElem?_eq_none (Nat.le_add_right _ _)

theorem similar_instanceOf {generic generic' : Declaration} (hg : generic.Similar ok generic')
    {args : List GoType} (hargs : ∀ a ∈ args, a.AllNames ok) (copy : Nat) :
    (instanceOf generic copy args).Similar ok (instanceOf generic' copy args) where
  head := by
    rw [Declaration.eq_of_head hg.head]
    rfl
  body := by
    show Body.Similar ok (.record _) (.record _)
    rw [hg.typeParams]
    exact .record (hg.body.fields.subst _ hargs)

theorem names_subset_of_growsTo {c c' : Catalog} (h : c.GrowsTo c') : c.names ⊆ c'.names := by
  obtain ⟨new, hnew, -⟩ := h
  rw [Catalog.names, Catalog.names, hnew, List.map_append]
  exact List.subset_append_left _ _

theorem names_kept (names : List String) : KeptByAsking fun r => names ⊆ r.catalog.names :=
  fun args h _ =>
    List.Subset.trans h (names_subset_of_growsTo (growsTo_instanceFor _ _ _ args (.refl _)))

theorem names_subset_run (limit : Nat) (s : Instances) :
    s.catalog.names ⊆ (run limit s).catalog.names := by
  refine run_preserves (P := fun r => s.catalog.names ⊆ r.catalog.names) (names_kept _)
    (fun _ h => h) (fun id fields h => ?_) limit (List.Subset.refl _)
  rwa [Catalog.names_eq_of_heads (Catalog.heads_setBody ..)]

section Asking

variable (hφ : Function.Injective φ)
include hφ

/-- **The same instance is made or found in both states.** -/
theorem Similar.instanceFor (h : Similar ok φ s s') {id : Nat} {generic generic' : Declaration}
    (hg : generic.Similar ok generic') {args : List GoType} (hargs : ∀ a ∈ args, a.AllNames ok)
    (hok : ∀ name ∈ (s.instanceFor id generic args).2.catalog.names, ok name) :
    (s'.instanceFor (φ id) generic' args).1 = φ (s.instanceFor id generic args).1 ∧
      Follows ok φ s s' (s.instanceFor id generic args).2
        (s'.instanceFor (φ id) generic' args).2 := by
  have hlookup : s'.known.lookup (φ id, args) = (s.known.lookup (id, args)).map φ := by
    rw [h.known]
    exact lookup_map_renumber hφ id args s.known
  cases hl : s.known.lookup (id, args) with
  | some made =>
    rw [hl] at hlookup
    simp only [Instances.instanceFor, hl, hlookup, Option.map_some]
    exact ⟨trivial, .refl h⟩
  | none =>
    rw [hl] at hlookup
    have hcount : s'.made.count (φ id) = s.made.count id := by
      rw [h.made, List.count_map_of_injective _ _ hφ]
    simp only [Instances.instanceFor, hl] at hok
    simp only [Instances.instanceFor, hl, hlookup, Option.map_none, hcount]
    have hsim := similar_instanceOf hg hargs (s.made.count id + 1)
    generalize instanceOf generic (s.made.count id + 1) args = d at hsim hok
    generalize instanceOf generic' (s.made.count id + 1) args = d' at hsim
    have hname : ok d.name := by
      obtain ⟨x, hx, hkey⟩ := Catalog.exists_of_idOf? (Catalog.idOf?_push s.catalog d)
      have hxname : x.name = d.name := congrArg Prod.snd hkey
      rw [← hxname]
      exact hok _ (Catalog.name_mem_names hx)
    obtain ⟨hcatalog, hmade, hnext⟩ := h.catalog.push hsim hname h.next
    refine ⟨hmade, ⟨hcatalog, hnext, ?_, ?_⟩, [(s.catalog.push d).2], rfl, ?_⟩
    · rw [List.map_append, h.known, hmade]
      rfl
    · rw [List.map_cons, h.made]
    · rw [hmade]
      rfl

theorem Similar.foldl_ask (hall : ∀ name, ok name) : ∀ (asks : List (Nat × List GoType))
    {s s' : Instances}, Similar ok φ s s' →
    Follows ok φ s s' (asks.foldl ask s) ((asks.map fun a => (φ a.1, a.2)).foldl ask s')
  | [], _, _, h => .refl h
  | a :: asks, s, s', h => by
    rw [List.map_cons, List.foldl_cons, List.foldl_cons]
    have hstep : Follows ok φ s s' (s.ask a) (s'.ask (φ a.1, a.2)) := by
      unfold ask
      cases hd : s.catalog.get? a.1 with
      | none =>
        rw [h.get?_of_none hd]
        exact .refl h
      | some generic =>
        obtain ⟨generic', hd', hg⟩ := h.catalog.get hd
        rw [hd']
        exact (h.instanceFor hφ hg (fun b _ => GoType.allNames_of_forall hall b)
          fun name _ => hall name).2
    exact hstep.trans (foldl_ask hall asks hstep.similar)

/-- States that have the same table after going through types follow on those before. -/
theorem Similar.follows_of_known (h : Similar ok φ s s') (hall : ∀ name, ok name)
    {asks asks' : List (Nat × List GoType)} (hr : AskedFor s asks r) (hr' : AskedFor s' asks' r')
    (hknown : r'.known = r.known.map (renumber φ)) : Follows ok φ s s' r r' := by
  obtain ⟨rfl, hkeys⟩ := hr
  obtain ⟨rfl, hkeys'⟩ := hr'
  have hmap : ∀ known : Table, (known.map (renumber φ)).map Prod.fst =
      (known.map Prod.fst).map fun a => (φ a.1, a.2) := fun known => by
    rw [List.map_map, List.map_map]
    rfl
  rw [hknown, hmap, hkeys, h.known, hmap, List.map_append, List.append_cancel_left_eq] at hkeys'
  rw [← hkeys']
  exact h.foldl_ask hφ hall asks

end Asking

/-! ### Types and fields -/

theorem reference_similar (h : Similar ok φ s s') (hok : ∀ name ∈ s.catalog.names, ok name)
    (id : Nat) : reference s'.catalog (φ id) = reference s.catalog id ∧
      (reference s.catalog id).AllNames ok := by
  unfold reference
  cases hd : s.catalog.get? id with
  | none =>
    rw [h.get?_of_none hd]
    exact ⟨rfl, trivial⟩
  | some d =>
    obtain ⟨d', hd', hs⟩ := h.catalog.get hd
    rw [hd']
    dsimp only
    rw [hs.name, hs.package]
    exact ⟨rfl, hok _ (Catalog.name_mem_names hd), trivial⟩

theorem genericOf?_cases {c c' : Catalog} (h : Catalog.Similar ok φ c c') {name : String}
    (hname : ok name) (package : Option String) :
    (genericOf? c package name = none ∧ genericOf? c' package name = none) ∨
      ∃ id d d', genericOf? c package name = some (id, d) ∧
        genericOf? c' package name = some (φ id, d') ∧ d.Similar ok d' := by
  have ht : (GoType.named package none name []).AllNames ok := ⟨hname, trivial⟩
  unfold genericOf?
  rcases h.find_cases ht with ⟨hno, hno'⟩ | ⟨id, d, d', hd, hd', hs⟩
  · rw [hno, hno']
    exact .inl ⟨rfl, rfl⟩
  · rw [hd, hd']
    simp only [Option.filter, hs.isGeneric, hs.isRecord]
    split
    · exact .inr ⟨id, d, d', rfl, rfl, hs⟩
    · exact .inl ⟨rfl, rfl⟩

theorem concrete_named (s : Instances) (package qualifier : Option String) (name : String)
    {args : List GoType} (hargs : args ≠ []) :
    concrete s (.named package qualifier name args) =
      match genericOf? (concreteAll s args).2.catalog package name with
      | some (id, generic) =>
        let made := (concreteAll s args).2.instanceFor id generic (concreteAll s args).1
        (reference made.2.catalog made.1, made.2)
      | none => (.named package qualifier name (concreteAll s args).1, (concreteAll s args).2) := by
  cases args with
  | nil => exact absurd rfl hargs
  | cons t ts => exact concrete.eq_def s (.named package qualifier name (t :: ts))

mutual

/-- **A type becomes the same in similar states**, and asks for the same instances. -/
theorem concrete_similar (hφ : Function.Injective φ) : ∀ (t : GoType) {s s' : Instances},
    Similar ok φ s s' → t.AllNames ok → (∀ name ∈ (concrete s t).2.catalog.names, ok name) →
    (concrete s' t).1 = (concrete s t).1 ∧ (concrete s t).1.AllNames ok ∧
      Follows ok φ s s' (concrete s t).2 (concrete s' t).2
  | .pointer t, _, _, h, ht, hok | .slice t, _, _, h, ht, hok | .array t, _, _, h, ht, hok => by
    simp only [concrete] at hok ⊢
    obtain ⟨heq, hnames, hf⟩ := concrete_similar hφ t h ht hok
    exact ⟨by rw [heq], hnames, hf⟩
  | .map k v, s, s', h, ht, hok => by
    simp only [concrete] at hok ⊢
    have hgrow := names_subset_of_growsTo (growsTo_concrete (concrete s k).2 v)
    obtain ⟨hk, hkn, hkf⟩ := concrete_similar hφ k h ht.1 fun name hname => hok name (hgrow hname)
    obtain ⟨hv, hvn, hvf⟩ := concrete_similar hφ v hkf.similar ht.2 hok
    exact ⟨by rw [hk, hv], ⟨hkn, hvn⟩, hkf.trans hvf⟩
  | .any, _, _, h, _, _ | .other _, _, _, h, _, _ => by
    simp only [concrete]
    exact ⟨trivial, trivial, .refl h⟩
  | .named _ _ _ [], _, _, h, ht, _ => by
    simp only [concrete]
    exact ⟨trivial, ht, .refl h⟩
  | .named package qualifier name (t :: ts), s, s', h, ht, hok => by
    rw [concrete_named s _ _ _ (List.cons_ne_nil t ts)] at hok ⊢
    rw [concrete_named s' _ _ _ (List.cons_ne_nil t ts)]
    have all : (∀ n ∈ (concreteAll s (t :: ts)).2.catalog.names, ok n) → _ :=
      concreteAll_similar hφ (t :: ts) h (GoType.allNamesIn_iff.1 ht.2)
    cases hg : genericOf? (concreteAll s (t :: ts)).2.catalog package name with
    | none =>
      rw [hg] at hok
      obtain ⟨heqs, hns, hfs⟩ := all hok
      rcases genericOf?_cases hfs.similar.catalog ht.1 package with ⟨-, hno'⟩ | ⟨_, _, _, hd, -⟩
      · rw [hno', heqs]
        exact ⟨rfl, ⟨ht.1, GoType.allNamesIn_iff.2 hns⟩, hfs⟩
      · rw [hg] at hd
        cases hd
    | some x =>
      obtain ⟨id, generic⟩ := x
      rw [hg] at hok
      have hgrow := names_subset_of_growsTo (growsTo_instanceFor (concreteAll s (t :: ts)).2 id
        generic (concreteAll s (t :: ts)).1 (.refl _))
      obtain ⟨heqs, hns, hfs⟩ := all fun n hn => hok n (hgrow hn)
      rcases genericOf?_cases hfs.similar.catalog ht.1 package with
        ⟨hno, -⟩ | ⟨i, d, d', hd, hd', hs⟩
      · rw [hg] at hno
        cases hno
      · obtain ⟨rfl, rfl⟩ := Prod.mk.inj (Option.some.inj (hg.symm.trans hd))
        obtain ⟨hmade, hf⟩ := hfs.similar.instanceFor hφ hs hns hok
        obtain ⟨href, hrefNames⟩ := reference_similar hf.similar hok
          ((concreteAll s (t :: ts)).2.instanceFor id generic (concreteAll s (t :: ts)).1).1
        rw [hd', heqs]
        dsimp only
        rw [hmade]
        exact ⟨href, hrefNames, hfs.trans hf⟩

theorem concreteAll_similar (hφ : Function.Injective φ) : ∀ (ts : List GoType)
    {s s' : Instances}, Similar ok φ s s' → (∀ t ∈ ts, t.AllNames ok) →
    (∀ name ∈ (concreteAll s ts).2.catalog.names, ok name) →
    (concreteAll s' ts).1 = (concreteAll s ts).1 ∧ (∀ t ∈ (concreteAll s ts).1, t.AllNames ok) ∧
      Follows ok φ s s' (concreteAll s ts).2 (concreteAll s' ts).2
  | [], _, _, h, _, _ => by
    simp only [concreteAll]
    exact ⟨trivial, by simp, .refl h⟩
  | t :: ts, s, s', h, hts, hok => by
    simp only [concreteAll] at hok ⊢
    obtain ⟨ht, hts⟩ := List.forall_mem_cons.1 hts
    have hgrow := names_subset_of_growsTo (growsTo_concreteAll (concrete s t).2 ts)
    obtain ⟨heq, hn, hf⟩ := concrete_similar hφ t h ht fun name hname => hok name (hgrow hname)
    obtain ⟨heqs, hns, hfs⟩ := concreteAll_similar hφ ts hf.similar hts hok
    exact ⟨by rw [heq, heqs], List.forall_mem_cons.2 ⟨hn, hns⟩, hf.trans hfs⟩

end

/-- The tables after each of some fields, as they are gone through. -/
def fieldTables (s : Instances) : List Field → List Table
  | [] => []
  | f :: fs => (concrete s f.type).2.known :: fieldTables (concrete s f.type).2 fs

theorem length_fieldTables : ∀ (fs : List Field) (s : Instances),
    (fieldTables s fs).length = fs.length
  | [], _ => rfl
  | _ :: fs, _ => congrArg (· + 1) (length_fieldTables fs _)

/-- Tables under other numbers. -/
def renumberAll (φ : Nat → Nat) (tables : List Table) : List Table :=
  tables.map (List.map (renumber φ))

/-- A field becomes similar; where a hidden one may have any type, the tables must be the same. -/
theorem concreteField_similar (hφ : Function.Injective φ) {f f' : Field}
    (hf : Field.Similar ok f f') (h : Similar ok φ s s')
    (hok : ∀ name ∈ (concrete s f.type).2.catalog.names, ok name)
    (hknown : (∀ name, ok name) →
      (concrete s' f'.type).2.known = (concrete s f.type).2.known.map (renumber φ)) :
    Field.Similar ok { f with type := (concrete s f.type).1 }
        { f' with type := (concrete s' f'.type).1 } ∧
      Follows ok φ s s' (concrete s f.type).2 (concrete s' f'.type).2 := by
  cases hf with
  | same ht =>
    obtain ⟨heq, hnames, hfollow⟩ := concrete_similar hφ f.type h ht hok
    rw [heq]
    exact ⟨.same hnames, hfollow⟩
  | hidden hall hh hn type =>
    obtain ⟨asks, hasks⟩ := exists_asks_concrete s f.type
    obtain ⟨asks', hasks'⟩ := exists_asks_concrete s' type
    refine ⟨?_, h.follows_of_known hφ hall hasks hasks' (hknown hall)⟩
    exact .hidden (f := { f with type := (concrete s f.type).1 }) hall hh hn _

/-- **Similar fields become similar.** Where hidden fields may have any type, the tables must stay
the same. -/
theorem concreteFields_similar (hφ : Function.Injective φ) {fs fs' : List Field}
    (hfs : FieldsSimilar ok fs fs') (h : Similar ok φ s s')
    (hok : ∀ name ∈ (concreteFields s fs).2.catalog.names, ok name)
    (htables : (∀ name, ok name) → fieldTables s' fs' = renumberAll φ (fieldTables s fs)) :
    FieldsSimilar ok (concreteFields s fs).1 (concreteFields s' fs').1 ∧
      Follows ok φ s s' (concreteFields s fs).2 (concreteFields s' fs').2 := by
  induction hfs generalizing s s' with
  | nil =>
    simp only [concreteFields]
    exact ⟨.nil, .refl h⟩
  | @cons f f' fs fs' hf _ ih =>
    simp only [concreteFields] at hok ⊢
    have hgrow := names_subset_of_growsTo (growsTo_concreteFields (concrete s f.type).2 fs)
    obtain ⟨hsim, hfollow⟩ := concreteField_similar hφ hf h
      (fun name hname => hok name (hgrow hname)) fun hall => (List.cons.inj (htables hall)).1
    obtain ⟨hsims, hfollows⟩ := ih hfollow.similar hok fun hall => (List.cons.inj (htables hall)).2
    exact ⟨.cons hsim hsims, hfollow.trans hfollows⟩

/-! ### Steps and runs -/

/-- The fields that the next step goes through. -/
def nextFields (s : Instances) (id : Nat) : List Field :=
  ((s.catalog.get? id).map fun d => d.body.fields).getD []

/-- The tables after each field that a run goes through. -/
def tables : (limit : Nat) → Instances → List Table
  | 0, _ => []
  | limit + 1, s =>
    match s.queue with
    | [] => []
    | id :: queue => fieldTables { s with queue } (s.nextFields id) ++ tables limit s.step

/-- **A step on similar states.** The same number is taken from both queues. -/
theorem step_similar (hφ : Function.Injective φ) (h : Similar ok φ s s') {id : Nat}
    {queue queue' : List Nat} (hq : s.queue = id :: queue) (hq' : s'.queue = φ id :: queue')
    (hok : ∀ name ∈ s.step.catalog.names, ok name)
    (htables : (∀ name, ok name) →
      fieldTables { s' with queue := queue' } (s'.nextFields (φ id)) =
        renumberAll φ (fieldTables { s with queue } (s.nextFields id))) :
    Follows ok φ { s with queue } { s' with queue := queue' } s.step s'.step := by
  have hrest := h.withQueue queue queue'
  unfold step at hok ⊢
  rw [hq] at hok ⊢
  rw [hq']
  dsimp only at hok ⊢
  unfold nextFields at htables
  cases hd : s.catalog.get? id with
  | none =>
    rw [h.get?_of_none hd]
    exact .refl hrest
  | some d =>
    obtain ⟨d', hd', hs⟩ := h.catalog.get hd
    rw [hd, hd'] at htables
    rw [hd] at hok
    rw [hd']
    have hb := hs.body
    simp only [Option.map_some, Option.getD_some] at hok htables ⊢
    generalize d.body = b at hb hok htables
    generalize d'.body = b' at hb htables
    cases hb with
    | record hfs =>
      dsimp only at hok ⊢
      rw [Catalog.names_eq_of_heads (Catalog.heads_setBody ..)] at hok
      obtain ⟨hsims, hfollow⟩ := concreteFields_similar hφ hfs hrest hok htables
      obtain ⟨new, hnew, hnew'⟩ := hfollow.queue
      refine ⟨⟨hfollow.similar.catalog.setBody hφ (.record hsims) id, ?_, hfollow.similar.known,
        hfollow.similar.made⟩, new, hnew, hnew'⟩
      intro k
      rw [Catalog.setBody, Catalog.setBody, Catalog.modify_length, Catalog.modify_length]
      exact hfollow.similar.next k
    | defined | aliased => exact .refl hrest

theorem length_nextFields (h : Similar ok φ s s') (id : Nat) :
    (s'.nextFields (φ id)).length = (s.nextFields id).length := by
  unfold nextFields
  cases hd : s.catalog.get? id with
  | none => rw [h.get?_of_none hd]
  | some d =>
    obtain ⟨d', hd', hs⟩ := h.catalog.get hd
    rw [hd']
    exact hs.body.fields.length_eq.symm

theorem tables_succ_eq (h : Similar ok φ s s') {id : Nat} {queue queue' : List Nat}
    (hq : s.queue = id :: queue) (hq' : s'.queue = φ id :: queue') {n : Nat}
    (htables : tables (n + 1) s' = renumberAll φ (tables (n + 1) s)) :
    fieldTables { s' with queue := queue' } (s'.nextFields (φ id)) =
        renumberAll φ (fieldTables { s with queue } (s.nextFields id)) ∧
      tables n s'.step = renumberAll φ (tables n s.step) := by
  rw [tables, tables, hq, hq', renumberAll, List.map_append] at htables
  refine List.append_inj htables ?_
  rw [renumberAll, List.length_map, length_fieldTables, length_fieldTables]
  exact length_nextFields h id

/-- **Runs on similar states end in similar states**, with the same numbers in their queues. -/
theorem run_similar (hφ : Function.Injective φ) : ∀ (n : Nat) {s s' : Instances},
    Similar ok φ s s' → s'.queue = s.queue.map φ →
    (∀ name ∈ (run n s).catalog.names, ok name) →
    ((∀ name, ok name) → tables n s' = renumberAll φ (tables n s)) →
    Similar ok φ (run n s) (run n s') ∧ (run n s').queue = (run n s).queue.map φ
  | 0, _, _, h, hqueue, _, _ => ⟨h, hqueue⟩
  | n + 1, s, s', h, hqueue, hok, htables => by
    cases hq : s.queue with
    | nil =>
      rw [hq] at hqueue
      rw [run_of_empty hq, run_of_empty hqueue]
      exact ⟨h, by rw [hqueue, hq]⟩
    | cons id queue =>
      have hq' : s'.queue = φ id :: queue.map φ := by rw [hqueue, hq, List.map_cons]
      rw [run_succ hq] at hok ⊢
      rw [run_succ hq']
      have hstep := step_similar hφ h hq hq'
        (fun name hname => hok name (names_subset_run n _ hname))
        fun hall => (tables_succ_eq h hq hq' (htables hall)).1
      obtain ⟨new, hnew, hnew'⟩ := hstep.queue
      refine run_similar hφ n hstep.similar ?_ hok
        fun hall => (tables_succ_eq h hq hq' (htables hall)).2
      rw [hnew', hnew, List.map_append]

/-- Runs through the front of queues that go on differently. -/
theorem run_front_similar (hφ : Function.Injective φ) (hno : ¬ ∀ name, ok name) :
    ∀ (front : List Nat) {s s' : Instances} {back back' : List Nat}, Similar ok φ s s' →
      s.queue = front ++ back → s'.queue = front.map φ ++ back' →
      (∀ name ∈ (run front.length s).catalog.names, ok name) →
      Similar ok φ (run front.length s) (run front.length s') ∧
        ∃ new, (run front.length s).queue = back ++ new ∧
          (run front.length s').queue = back' ++ new.map φ
  | [], s, s', back, back', h, hq, hq', _ =>
    ⟨h, [], by simpa [run] using hq, by simpa [run] using hq'⟩
  | id :: front, s, s', back, back', h, hq, hq', hok => by
    rw [List.length_cons, run_succ hq] at hok ⊢
    rw [run_succ hq']
    have hstep := step_similar hφ h hq hq'
      (fun name hname => hok name (names_subset_run front.length _ hname))
      fun hall => absurd hall hno
    obtain ⟨new, hnew, hnew'⟩ := hstep.queue
    obtain ⟨hsim, more, hmore, hmore'⟩ := run_front_similar hφ hno front hstep.similar
      (hnew.trans (List.append_assoc front back new))
      (hnew'.trans (List.append_assoc (front.map φ) back' (new.map φ))) hok
    refine ⟨hsim, new ++ more, ?_, ?_⟩
    · rw [hmore, List.append_assoc]
    · rw [hmore', List.map_append, List.append_assoc]

end GoSchema.Instances
