/-
# Fields when instantiation has ended

Every struct that is not generic is in the queue at the start, and a new one is put there when it is
made. A struct that leaves the queue is gone through, and no reference to a generic struct is left
in it from then on, not even one that leads to a declaration that is added later. So at every moment
each struct that is not generic is clean or still in the queue, and when the queue is empty all of
them are clean. What a step changes of a declaration that was there before are the types of its
fields, and of these only the ones that have a reference to a generic struct in them.

Key definitions: `Instances.Covered`, `Instances.FieldKept`, `Instances.Kept`.
Key theorems: `fades_step`, `covered_step`, `kept_concreteFields`, `kept_step`, `Ends.rewritten`.
-/
import GoSchema.Proofs.ExtendedCatalogs

namespace GoSchema

namespace Instances

variable {c v : Catalog} {s : Instances}

/-- No name comes to refer to a generic struct by a step. -/
theorem fades_step (s : Instances) : Fades s.catalog s.step.catalog := by
  cases hq : s.queue with
  | nil =>
    rw [step, hq]
    exact id
  | cons id queue =>
    rcases step_cases hq with ⟨hstep, -⟩ | ⟨d, hd, hr, hstep⟩
    · rw [hstep]
      exact fun h => h
    · have hgrow := growsTo_concreteFields { s with queue } d.body.fields
      rw [hstep]
      intro package name i hi
      rw [genericIdOf?_setBody (hgrow.get? hd) hr] at hi
      exact fades_of_growsTo hgrow hi

/-! ### What is still to be done -/

/-- Whether every struct that is not generic is clean or in the queue. -/
def Covered (s : Instances) : Prop :=
  ∀ i d, s.catalog.get? i = some d → d.isRecord = true → d.isGeneric = false →
    CleanAt s.catalog i ∨ i ∈ s.queue

theorem covered_start (c : Catalog) : Covered (start c) := by
  intro i d hd hr hg
  refine .inr (List.mem_filter.2 ⟨Catalog.mem_ids_of_get? hd, ?_⟩)
  have hd : c.get? i = some d := hd
  simp [hd, hr, hg]

theorem added_kept (m : Nat) : KeptByAsking fun r =>
    ∀ i, m ≤ i → i < r.catalog.types.length → i ∈ r.queue := by
  rintro r package name id generic args h -
  unfold instanceFor
  split
  · exact h
  · dsimp only
    generalize instanceOf generic (r.made.count id + 1) args = d
    intro i hm hi
    rw [List.mem_append, List.mem_singleton]
    cases hk : r.catalog.idOf? d.key with
    | some old =>
      rw [Catalog.push_of_some hk] at hi
      exact .inl (h i hm hi)
    | none =>
      rw [Catalog.push_of_none hk] at hi ⊢
      rcases Nat.lt_or_ge i r.catalog.types.length with hlt | hge
      · exact .inl (h i hm hlt)
      · have hi : i < r.catalog.types.length + 1 := by simpa using hi
        exact .inr (by dsimp only; omega)

/-- **A step leaves nothing behind.** A struct that was there is clean, or was in the queue, and
then it is gone through or stays there; a new one is in the queue. -/
theorem covered_step (h : Covered s) : Covered s.step := by
  cases hq : s.queue with
  | nil =>
    have hstep : s.step = s := by
      rw [step, hq]
    rwa [hstep]
  | cons id queue =>
    intro i d hd hr hg
    rcases Nat.lt_or_ge i s.catalog.types.length with hlt | hge
    · by_cases hi : i = id
      · exact .inl (cleanAt_step hq (.inr ⟨hi, hlt⟩))
      · have hold : s.catalog.get? i = some s.catalog.types[i] := List.getElem?_eq_getElem hlt
        obtain ⟨hsame, new, hnew⟩ := step_other hq (Ne.symm hi) hold
        obtain rfl := Option.some.inj (hsame.symm.trans hd)
        rcases h i _ hold hr hg with hclean | hmem
        · exact .inl (cleanAt_step hq (.inl hclean))
        · rw [hq, List.mem_cons] at hmem
          rw [hnew]
          exact .inr (List.mem_append_left _ (hmem.resolve_left hi))
    · right
      have hlt := Catalog.lt_of_get? hd
      rcases step_cases hq with ⟨hstep, -⟩ | ⟨e, -, -, hstep⟩
      · rw [hstep] at hlt
        exact absurd hlt (Nat.not_lt.2 hge)
      · rw [hstep] at hlt ⊢
        rw [Catalog.setBody, Catalog.modify_length] at hlt
        refine concreteFields_preserves (added_kept s.catalog.types.length) e.body.fields
          (s := { s with queue }) (fun j hj hjlt => ?_) i hge hlt
        exact absurd hjlt (Nat.not_lt.2 hj)

theorem covered_run : ∀ (n : Nat) {s : Instances}, Covered s → Covered (run n s)
  | 0, _, h => h
  | n + 1, s, h => by
    unfold run
    split
    · exact h
    · exact covered_run n (covered_step h)

/-! ### What stays -/

/-- What becomes of a field: its type may change if there is a reference to a generic struct in
it. -/
structure FieldKept (c : Catalog) (f f' : Field) : Prop where
  eq : f' = { f with type := f'.type }
  type : Clean c f.type → f'.type = f.type

theorem FieldKept.trans {c' : Catalog} {f g h : Field} (hf : Fades c c')
    (hfirst : FieldKept c f g) (hthen : FieldKept c' g h) : FieldKept c f h where
  eq := by rw [hthen.eq, hfirst.eq]
  type hclean := by
    have htype := hfirst.type hclean
    rw [hthen.type (htype ▸ hclean.fades hf), htype]

/-- Going through fields changes their types only, and these only if they are not clean. -/
theorem kept_concreteFields : ∀ (fs : List Field) (s : Instances),
    List.Forall₂ (FieldKept s.catalog) fs (concreteFields s fs).1
  | [], s => by
    simp only [concreteFields]
    exact .nil
  | f :: fs, s => by
    simp only [concreteFields]
    refine .cons ⟨rfl, fun hclean => by rw [concrete_of_clean f.type hclean]⟩ ?_
    have hfades : Fades s.catalog (concrete s f.type).2.catalog :=
      fades_of_growsTo (growsTo_concrete s f.type)
    exact (kept_concreteFields fs _).imp fun g h hkept =>
      ⟨hkept.eq, fun hclean => hkept.type (hclean.fades hfades)⟩

theorem forall₂_trans {α : Type} {R S T : α → α → Prop} (h : ∀ a b c, R a b → S b c → T a c)
    {as bs cs : List α} (hfirst : List.Forall₂ R as bs) (hthen : List.Forall₂ S bs cs) :
    List.Forall₂ T as cs := by
  induction hfirst generalizing cs with
  | nil =>
    cases hthen
    exact .nil
  | cons hab _ ih =>
    cases hthen with
    | cons hbc hrest => exact .cons (h _ _ _ hab hbc) (ih hrest)

/-- What becomes of a declaration: everything but the types of fields stays. -/
structure Kept (c : Catalog) (d d' : Declaration) : Prop where
  head : d'.head = d.head
  plain : d.isRecord = false → d' = d
  record : d.isRecord = true → d'.isRecord = true
  fields : List.Forall₂ (FieldKept c) d.body.fields d'.body.fields

theorem Kept.refl (c : Catalog) (d : Declaration) : Kept c d d where
  head := rfl
  plain _ := rfl
  record h := h
  fields := List.forall₂_same.2 fun _ _ => ⟨rfl, fun _ => rfl⟩

theorem Kept.trans {c' : Catalog} {d e g : Declaration} (hf : Fades c c') (hfirst : Kept c d e)
    (hthen : Kept c' e g) : Kept c d g where
  head := hthen.head.trans hfirst.head
  plain hplain := by
    obtain rfl := hfirst.plain hplain
    exact hthen.plain hplain
  record hr := hthen.record (hfirst.record hr)
  fields := forall₂_trans (fun _ _ _ hfg hgh => hfg.trans hf hgh) hfirst.fields hthen.fields

/-- **A step keeps** every declaration in its place. -/
theorem kept_step {i : Nat} {d : Declaration} (hd : s.catalog.get? i = some d) :
    ∃ d', s.step.catalog.get? i = some d' ∧ Kept s.catalog d d' := by
  cases hq : s.queue with
  | nil =>
    rw [step, hq]
    exact ⟨d, hd, .refl _ d⟩
  | cons id queue =>
    by_cases hi : id = i
    · subst hi
      rcases step_cases hq with ⟨hstep, -⟩ | ⟨e, he, hr, hstep⟩
      · rw [hstep]
        exact ⟨d, hd, .refl _ d⟩
      · obtain rfl := Option.some.inj (hd.symm.trans he)
        have hgrow := growsTo_concreteFields { s with queue } d.body.fields
        rw [hstep]
        refine ⟨_, Catalog.get?_setBody_self (hgrow.get? hd) _, ?_⟩
        exact ⟨rfl, fun hno => absurd hr (by simp [hno]), fun _ => rfl,
          kept_concreteFields d.body.fields { s with queue }⟩
    · exact ⟨d, (step_other hq hi hd).1, .refl _ d⟩

/-- **A run keeps** every declaration in its place. -/
theorem kept_run : ∀ (n : Nat) {s : Instances} {i : Nat} {d : Declaration},
    s.catalog.get? i = some d → ∃ d', (run n s).catalog.get? i = some d' ∧ Kept s.catalog d d'
  | 0, _, _, d, hd => ⟨d, hd, .refl _ d⟩
  | n + 1, s, i, d, hd => by
    unfold run
    split
    · exact ⟨d, hd, .refl _ d⟩
    · obtain ⟨e, he, hfirst⟩ := kept_step hd
      obtain ⟨g, hg, hthen⟩ := kept_run n he
      exact ⟨g, hg, hfirst.trans (fades_step s) hthen⟩

/-- **What instantiation leaves.** When it ends, no field of a struct that is not generic has a
reference to a generic struct in its type, at any depth. Every declaration that was there before is
in its place, and nothing of it has changed but the types of fields that had such a reference in
them. -/
theorem Ends.rewritten (h : Ends c v) :
    (∀ d ∈ v.types, d.isRecord = true → d.isGeneric = false →
      ∀ f ∈ d.body.fields, Clean v f.type) ∧
    ∀ id d, c.get? id = some d → ∃ d', v.get? id = some d' ∧ Kept c d d' := by
  obtain ⟨n, hend, rfl⟩ := h
  refine ⟨fun d hmem hr hg f hf => ?_, fun id d hd => kept_run n hd⟩
  obtain ⟨i, hi⟩ := List.getElem?_of_mem hmem
  obtain ⟨e, he, hclean⟩ : CleanAt (run n (start c)).catalog i := by
    refine (covered_run n (covered_start c) i d hi hr hg).resolve_right ?_
    rw [hend]
    exact List.not_mem_nil
  obtain rfl := Option.some.inj (he.symm.trans hi)
  exact hclean f hf

/-- Two generic structs, one with the other one in it, a struct that has an instance of an instance
in a list, and a name for a type. -/
def shelfFile : SourceFile :=
  { path := ⟨"m.go"⟩
    package := "m"
    types :=
      [⟨"Box", none, 3, ["T"], .record [⟨some "Item", .ofName "T", none, none, 4⟩]⟩,
        ⟨"Pair", none, 7, ["K"], .record
          [⟨some "Left", .named none none "Box" [.ofName "K"], none, none, 8⟩]⟩,
        ⟨"Shelf", none, 11, [], .record
          [⟨some "Pairs", .slice (.named none none "Pair" [.named none none "Box"
              [.ofName "string"]]), none, none, 12⟩,
            ⟨some "Label", .ofName "Label", none, none, 13⟩]⟩,
        ⟨"Label", none, 16, [], .defined (.ofName "string")⟩] }

/-- The declarations of the file. -/
def shelves : Catalog :=
  Catalog.ofDeclarations (((Declarations.ofFiles {} [shelfFile]).toOption).getD {})

/-- The instance in the list is renamed, the instances that it needs are made, and the rest
stays. -/
theorem shelves_rewritten : ∃ v, Ends shelves v ∧
    v.types.map (fun d => (d.name, d.body.fields.map (·.type.display))) =
      [("Box", ["T"]), ("Pair", ["Box[K]"]), ("Shelf", ["[]PairBoxString", "Label"]), ("Label", []),
        ("BoxString", ["string"]), ("PairBoxString", ["BoxBoxString"]),
        ("BoxBoxString", ["BoxString"])] ∧
    (∀ d ∈ v.types, d.isRecord = true → d.isGeneric = false →
      ∀ f ∈ d.body.fields, Clean v f.type) ∧
    ∀ id d, shelves.get? id = some d → ∃ d', v.get? id = some d' ∧ Kept shelves d d' := by
  have hrun : shelves.withInstances.map (fun v =>
      v.types.map fun d => (d.name, d.body.fields.map (·.type.display))) =
      .ok [("Box", ["T"]), ("Pair", ["Box[K]"]), ("Shelf", ["[]PairBoxString", "Label"]),
        ("Label", []), ("BoxString", ["string"]), ("PairBoxString", ["BoxBoxString"]),
        ("BoxBoxString", ["BoxString"])] :=
    Outcome.eq_ok_of_toOption (by decide +kernel)
  obtain ⟨v, hv, hfields⟩ := Outcome.map_eq_ok_iff.1 hrun
  have hends : Ends shelves v := Catalog.withInstances_eq_ok_iff.1 hv
  exact ⟨v, hends, hfields, Ends.rewritten hends⟩

end Instances

end GoSchema
