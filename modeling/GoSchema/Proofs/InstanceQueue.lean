/-
# When instantiation ends

A run goes through a queue that grows while it is gone through. A struct that has been gone through
is clean: no reference to a generic struct is left in it, and it stays so, because what is added is
never generic. Going through a clean struct asks for nothing. So a step makes one more struct clean
or makes the queue shorter, and a run ends exactly when there is a bound on the number of
declarations (`ends_iff_bounded`).

Key definitions: `GoType.AllRefs`, `Instances.genericIdOf?`, `Instances.Clean`,
`Catalog.GrowsTo`, `Instances.cleanIds`.
Key theorems: `clean_concrete`, `concrete_of_clean`, `cleanAt_step`, `ends_of_bounded`,
`ends_iff_bounded`.
-/
import GoSchema.Proofs.InstanceTable
import Mathlib.Data.Finset.Card
import Mathlib.Order.Interval.Finset.Nat

namespace GoSchema

namespace GoType

mutual

/-- Whether every name with arguments in a type, at any depth, has a property. -/
def AllRefs (P : Option String → String → List GoType → Prop) : GoType → Prop
  | pointer t | slice t | array t => AllRefs P t
  | map k v => AllRefs P k ∧ AllRefs P v
  | named package _ name args => (args ≠ [] → P package name args) ∧ AllRefsIn P args
  | any | other _ => True

/-- Whether every name with arguments in the types of a list has a property. -/
def AllRefsIn (P : Option String → String → List GoType → Prop) : List GoType → Prop
  | [] => True
  | t :: ts => AllRefs P t ∧ AllRefsIn P ts

end

variable {P Q : Option String → String → List GoType → Prop}

section Decidable

variable [∀ package name args, Decidable (P package name args)]

mutual

instance decidableAllRefs : ∀ t : GoType, Decidable (AllRefs P t)
  | pointer t | slice t | array t => decidableAllRefs t
  | map k v => @instDecidableAnd _ _ (decidableAllRefs k) (decidableAllRefs v)
  | named package _ name args =>
    @instDecidableAnd _ _ (inferInstanceAs (Decidable (args ≠ [] → P package name args)))
      (decidableAllRefsIn args)
  | any | other _ => .isTrue trivial

instance decidableAllRefsIn : ∀ ts : List GoType, Decidable (AllRefsIn P ts)
  | [] => .isTrue trivial
  | t :: ts => @instDecidableAnd _ _ (decidableAllRefs t) (decidableAllRefsIn ts)

end

end Decidable

theorem allRefsIn_iff {ts : List GoType} : AllRefsIn P ts ↔ ∀ t ∈ ts, AllRefs P t := by
  induction ts with
  | nil => simp [AllRefsIn]
  | cons t ts ih => simp [AllRefsIn, ih]

theorem AllRefs.imp (h : ∀ package name args, P package name args → Q package name args) :
    ∀ {t : GoType}, AllRefs P t → AllRefs Q t := by
  intro t
  induction t using GoType.rec (motive_2 := fun ts => AllRefsIn P ts → AllRefsIn Q ts) with
  | pointer t ih | slice t ih | array t ih => exact ih
  | map k v ihk ihv => exact fun ⟨hk, hv⟩ => ⟨ihk hk, ihv hv⟩
  | any | other => exact id
  | named package qualifier name args ih =>
    exact fun ⟨hp, hargs⟩ => ⟨fun hne => h _ _ _ (hp hne), ih hargs⟩
  | nil => trivial
  | cons t ts ih ihs h => exact ⟨ih h.1, ihs h.2⟩

theorem AllRefs.and : ∀ {t : GoType}, AllRefs P t → AllRefs Q t →
    AllRefs (fun package name args => P package name args ∧ Q package name args) t := by
  intro t
  induction t using GoType.rec (motive_2 := fun ts => AllRefsIn P ts → AllRefsIn Q ts →
    AllRefsIn (fun package name args => P package name args ∧ Q package name args) ts) with
  | pointer t ih | slice t ih | array t ih => exact ih
  | map k v ihk ihv => exact fun hp hq => ⟨ihk hp.1 hq.1, ihv hp.2 hq.2⟩
  | any | other => exact fun _ _ => trivial
  | named package qualifier name args ih =>
    exact fun hp hq => ⟨fun hne => ⟨hp.1 hne, hq.1 hne⟩, ih hp.2 hq.2⟩
  | nil => trivial
  | cons t ts ih ihs hp hq => exact ⟨ih hp.1 hq.1, ihs hp.2 hq.2⟩

/-- The references of a type with its parameters replaced are those of the type and those of the
arguments. -/
theorem AllRefs.subst {params : List String} {args : List GoType}
    (h : ∀ package name own, P package name own →
      Q package name (own.map (GoType.subst params args)))
    (hargs : ∀ a ∈ args, AllRefs Q a) :
    ∀ {t : GoType}, AllRefs P t → AllRefs Q (t.subst params args) := by
  intro t
  induction t using GoType.rec
    (motive_2 := fun ts => AllRefsIn P ts → AllRefsIn Q (GoType.substAll params args ts)) with
  | pointer t ih | slice t ih | array t ih => exact ih
  | map k v ihk ihv => exact fun ⟨hk, hv⟩ => ⟨ihk hk, ihv hv⟩
  | any | other => exact id
  | named package qualifier name own ih =>
    rintro ⟨hp, hown⟩
    have hkept : AllRefs Q (.named package qualifier name (GoType.substAll params args own)) := by
      refine ⟨fun hne => ?_, ih hown⟩
      rw [GoType.substAll_eq_map] at hne ⊢
      exact h _ _ _ (hp fun hnil => hne (by rw [hnil]; rfl))
    cases package with
    | some p => simpa only [GoType.subst] using hkept
    | none =>
      cases own with
      | cons a as => simpa only [GoType.subst] using hkept
      | nil =>
        rw [GoType.subst]
        cases ha : GoType.argFor params args name with
        | none => exact ⟨fun hne => absurd rfl hne, trivial⟩
        | some a =>
          obtain ⟨i, -, hi⟩ := Option.bind_eq_some_iff.1 ha
          exact hargs a (List.mem_of_getElem? hi)
  | nil => trivial
  | cons t ts ih ihs h => exact ⟨ih h.1, ihs h.2⟩

end GoType

namespace Catalog

/-! ### Catalogs that grow -/

/-- More declarations at the end, none of them generic. -/
def GrowsTo (c c' : Catalog) : Prop :=
  ∃ new, c'.types = c.types ++ new ∧ ∀ d ∈ new, d.isGeneric = false

variable {c c' : Catalog}

theorem GrowsTo.refl (c : Catalog) : c.GrowsTo c := ⟨[], by simp, by simp⟩

theorem GrowsTo.get? (h : c.GrowsTo c') {id : Nat} {d : Declaration} (hd : c.get? id = some d) :
    c'.get? id = some d := by
  obtain ⟨new, hnew, -⟩ := h
  have hlt : id < c.types.length := (List.getElem?_eq_some_iff.1 hd).1
  rw [Catalog.get?, hnew, List.getElem?_append_left hlt]
  exact hd

theorem GrowsTo.push (h : c.GrowsTo c') {d : Declaration} (hd : d.isGeneric = false) :
    c.GrowsTo (c'.push d).1 := by
  obtain ⟨new, hnew, hplain⟩ := h
  cases hk : c'.idOf? d.key with
  | some id => exact ⟨new, by rw [push_of_some hk]; exact hnew, hplain⟩
  | none =>
    refine ⟨new ++ [d], by rw [push_of_none hk, ← List.append_assoc, ← hnew], fun e he => ?_⟩
    rcases List.mem_append.1 he with he | he
    · exact hplain e he
    · obtain rfl := List.mem_singleton.1 he
      exact hd

end Catalog

namespace Instances

variable {c c' : Catalog} {s : Instances}

/-- The number of the generic struct that a name with arguments refers to. -/
def genericIdOf? (c : Catalog) (package : Option String) (name : String) : Option Nat :=
  (genericOf? c package name).map Prod.fst

theorem genericIdOf?_eq_some_iff {package : Option String} {name : String} {id : Nat} :
    genericIdOf? c package name = some id ↔
      (∃ p, package = some p ∧ c.lookup p name = some id) ∧
        ∃ d, c.get? id = some d ∧ d.isGeneric = true ∧ d.isRecord = true := by
  simp only [genericIdOf?, Option.map_eq_some_iff, Prod.exists, genericOf?_eq_some_iff]
  constructor
  · rintro ⟨i, d, ⟨hl, hd⟩, rfl⟩
    exact ⟨hl, d, hd⟩
  · rintro ⟨hl, d, hd⟩
    exact ⟨id, d, ⟨hl, hd⟩, rfl⟩

/-- Names that refer to a generic struct in the second catalog refer to the same one in the
first. -/
def Fades (c c' : Catalog) : Prop :=
  ∀ {package name id}, genericIdOf? c' package name = some id →
    genericIdOf? c package name = some id

theorem Fades.genericIdOf?_eq_none (hf : Fades c c') {package : Option String} {name : String}
    (h : genericIdOf? c package name = none) : genericIdOf? c' package name = none := by
  cases hid : genericIdOf? c' package name with
  | none => rfl
  | some id =>
    rw [hf hid] at h
    cases h

/-- **What is added is never generic**, so no name comes to refer to a generic struct. -/
theorem fades_of_growsTo (h : c.GrowsTo c') : Fades c c' := by
  intro package name id hid
  obtain ⟨⟨p, rfl, hl⟩, d, hd, hg, hr⟩ := genericIdOf?_eq_some_iff.1 hid
  obtain ⟨new, hnew, hplain⟩ := h
  have hheads : c'.heads = c.heads ++ new.map .head := by simp [Catalog.heads, hnew]
  -- the generic struct is an old declaration
  have hlt : id < c.types.length := by
    by_contra hge
    have hd' : (c.types ++ new)[id]? = some d := hnew ▸ hd
    rw [List.getElem?_append_right (by omega)] at hd'
    rw [hplain d (List.mem_of_getElem? hd')] at hg
    cases hg
  have hold : c.get? id = some d := by
    have hd' : (c.types ++ new)[id]? = some d := hnew ▸ hd
    rwa [List.getElem?_append_left hlt] at hd'
  have hlookup : c.lookup p name = some id := Catalog.lookup_of_append hheads hl hlt
  exact genericIdOf?_eq_some_iff.2 ⟨⟨p, rfl, hlookup⟩, d, hold, hg, hr⟩

theorem genericIdOf?_setBody {id : Nat} {d : Declaration} (hd : c.get? id = some d)
    (hr : d.isRecord = true) (fields : List Field) (package : Option String) (name : String) :
    genericIdOf? (c.setBody id (.record fields)) package name = genericIdOf? c package name := by
  apply Option.ext
  intro i
  rw [genericIdOf?_eq_some_iff, genericIdOf?_eq_some_iff]
  simp only [Catalog.lookup_eq_of_heads (Catalog.heads_setBody c id _)]
  refine and_congr_right fun _ => ?_
  by_cases hi : id = i
  · subst hi
    rw [Catalog.get?_setBody_self hd, hd]
    constructor
    · rintro ⟨e, he, hg, -⟩
      obtain rfl := Option.some.inj he
      exact ⟨d, rfl, hg, hr⟩
    · rintro ⟨e, he, hg, -⟩
      obtain rfl := Option.some.inj he
      exact ⟨_, rfl, hg, rfl⟩
  · rw [Catalog.get?_setBody_ne hi]

/-! ### Clean types -/

/-- No reference to a generic struct is left in a type. -/
def Clean (c : Catalog) (t : GoType) : Prop :=
  t.AllRefs fun package name _ => genericIdOf? c package name = none

theorem Clean.fades (hf : Fades c c') {t : GoType} (h : Clean c t) : Clean c' t :=
  GoType.AllRefs.imp (fun _ _ _ hno => hf.genericIdOf?_eq_none hno) h

theorem growsTo_instanceFor (s : Instances) (id : Nat) (generic : Declaration)
    (args : List GoType) (h : c.GrowsTo s.catalog) :
    c.GrowsTo (s.instanceFor id generic args).2.catalog := by
  unfold instanceFor
  split
  · exact h
  · exact h.push rfl

theorem grows_kept (c : Catalog) : KeptByAsking fun s => c.GrowsTo s.catalog :=
  fun args h _ => growsTo_instanceFor _ _ _ args h

theorem growsTo_concrete (s : Instances) (t : GoType) :
    s.catalog.GrowsTo (concrete s t).2.catalog :=
  concrete_preserves (grows_kept s.catalog) t (.refl _)

theorem growsTo_concreteAll (s : Instances) (ts : List GoType) :
    s.catalog.GrowsTo (concreteAll s ts).2.catalog :=
  concreteAll_preserves (grows_kept s.catalog) ts (.refl _)

theorem growsTo_concreteFields (s : Instances) (fs : List Field) :
    s.catalog.GrowsTo (concreteFields s fs).2.catalog :=
  concreteFields_preserves (grows_kept s.catalog) fs (.refl _)

theorem clean_reference (c c' : Catalog) (id : Nat) : Clean c (reference c' id) := by
  unfold reference
  split
  · exact ⟨fun hne => absurd rfl hne, trivial⟩
  · trivial

mutual

/-- **Rewriting cleans a type.** -/
theorem clean_concrete : ∀ (t : GoType) (s : Instances),
    Clean (concrete s t).2.catalog (concrete s t).1
  | .pointer t, s | .slice t, s | .array t, s => by
    simp only [concrete]
    exact clean_concrete t s
  | .map k v, s => by
    simp only [concrete]
    have hgrow := growsTo_concrete (concrete s k).2 v
    exact ⟨(clean_concrete k s).fades (fades_of_growsTo hgrow), clean_concrete v _⟩
  | .any, s | .other _, s => by
    simp only [concrete]
    trivial
  | .named _ _ _ [], s => by
    simp only [concrete]
    exact ⟨fun hne => absurd rfl hne, trivial⟩
  | .named package qualifier name (t :: ts), s => by
    rw [concrete]
    · dsimp only
      split
      · exact clean_reference _ _ _
      · rename_i hno
        exact ⟨fun _ => Option.map_eq_none_iff.2 hno, cleanIn_concreteAll (t :: ts) s⟩
    · simp

theorem cleanIn_concreteAll : ∀ (ts : List GoType) (s : Instances),
    GoType.AllRefsIn (fun package name _ =>
      genericIdOf? (concreteAll s ts).2.catalog package name = none) (concreteAll s ts).1
  | [], s => by
    simp only [concreteAll]
    trivial
  | t :: ts, s => by
    simp only [concreteAll]
    have hgrow := growsTo_concreteAll (concrete s t).2 ts
    exact ⟨(clean_concrete t s).fades (fades_of_growsTo hgrow), cleanIn_concreteAll ts _⟩

end

mutual

/-- **A clean type asks for nothing.** -/
theorem concrete_of_clean : ∀ (t : GoType) {s : Instances}, Clean s.catalog t →
    concrete s t = (t, s)
  | .pointer t, s, h | .slice t, s, h | .array t, s, h => by
    simp only [concrete]
    rw [concrete_of_clean t h]
  | .map k v, s, h => by
    simp only [concrete]
    rw [concrete_of_clean k h.1]
    dsimp only
    rw [concrete_of_clean v h.2]
  | .any, s, _ | .other _, s, _ | .named _ _ _ [], s, _ => by
    simp only [concrete]
  | .named package qualifier name (t :: ts), s, h => by
    rw [concrete]
    · rw [concreteAll_of_clean (t :: ts) h.2]
      dsimp only
      have hno : genericOf? s.catalog package name = none :=
        Option.map_eq_none_iff.1 (h.1 (List.cons_ne_nil _ _))
      rw [hno]
    · simp

theorem concreteAll_of_clean : ∀ (ts : List GoType) {s : Instances},
    GoType.AllRefsIn (fun package name _ => genericIdOf? s.catalog package name = none) ts →
    concreteAll s ts = (ts, s)
  | [], s, _ => by simp only [concreteAll]
  | t :: ts, s, h => by
    simp only [concreteAll]
    rw [concrete_of_clean t h.1]
    dsimp only
    rw [concreteAll_of_clean ts h.2]

end

/-- No reference to a generic struct is left in fields. -/
def CleanFields (c : Catalog) (fs : List Field) : Prop := ∀ f ∈ fs, Clean c f.type

theorem CleanFields.fades (hf : Fades c c') {fs : List Field} (h : CleanFields c fs) :
    CleanFields c' fs := fun f hmem => (h f hmem).fades hf

theorem clean_concreteFields : ∀ (fs : List Field) (s : Instances),
    CleanFields (concreteFields s fs).2.catalog (concreteFields s fs).1
  | [], s => by
    simp only [concreteFields]
    exact fun _ hno => absurd hno List.not_mem_nil
  | f :: fs, s => by
    simp only [concreteFields]
    have hgrow := growsTo_concreteFields (concrete s f.type).2 fs
    intro g hg
    rcases List.mem_cons.1 hg with rfl | hg
    · exact (clean_concrete f.type s).fades (fades_of_growsTo hgrow)
    · exact clean_concreteFields fs _ g hg

theorem concreteFields_of_clean : ∀ {fs : List Field} {s : Instances}, CleanFields s.catalog fs →
    concreteFields s fs = (fs, s)
  | [], s, _ => by simp only [concreteFields]
  | f :: fs, s, h => by
    simp only [concreteFields]
    rw [concrete_of_clean f.type (h f List.mem_cons_self)]
    dsimp only
    rw [concreteFields_of_clean fun g hg => h g (List.mem_cons_of_mem _ hg)]

/-! ### Steps and runs -/

/-- A step goes through the fields of a struct, or only takes a number from the queue. -/
theorem step_cases {id : Nat} {queue : List Nat} (hq : s.queue = id :: queue) :
    (s.step = { s with queue } ∧ ∀ d, s.catalog.get? id = some d → d.body.fields = []) ∨
      ∃ d, s.catalog.get? id = some d ∧ d.isRecord = true ∧
        s.step =
          { (concreteFields { s with queue } d.body.fields).2 with
            catalog := (concreteFields { s with queue } d.body.fields).2.catalog.setBody id
              (.record (concreteFields { s with queue } d.body.fields).1) } := by
  unfold step
  rw [hq]
  dsimp only
  cases hd : s.catalog.get? id with
  | none => exact .inl ⟨rfl, fun d hno => nomatch hno⟩
  | some d =>
    cases hb : d.body with
    | record fields =>
      right
      refine ⟨d, rfl, by simp [Declaration.isRecord, hb, Body.isRecord], ?_⟩
      simp only [Option.map_some, hb, Body.fields]
    | defined t | aliased t =>
      left
      simp only [Option.map_some, hb]
      refine ⟨trivial, fun e he => ?_⟩
      obtain rfl := Option.some.inj he
      rw [hb]
      rfl

/-- The declaration of a number has no reference to a generic struct left in it. -/
def CleanAt (c : Catalog) (id : Nat) : Prop :=
  ∃ d, c.get? id = some d ∧ CleanFields c d.body.fields

/-- What is clean after a step: what was clean before, and the struct that was gone through. -/
theorem cleanAt_step {id : Nat} {queue : List Nat} (hq : s.queue = id :: queue) {i : Nat}
    (h : CleanAt s.catalog i ∨ i = id ∧ i < s.catalog.types.length) : CleanAt s.step.catalog i := by
  rcases step_cases hq with ⟨hstep, hempty⟩ | ⟨d, hd, hr, hstep⟩
  · rw [hstep]
    rcases h with h | ⟨rfl, hlt⟩
    · exact h
    · have hd : s.catalog.get? i = some s.catalog.types[i] := List.getElem?_eq_getElem hlt
      refine ⟨_, hd, ?_⟩
      rw [hempty _ hd]
      exact fun _ hno => absurd hno List.not_mem_nil
  · have hgrow := growsTo_concreteFields { s with queue } d.body.fields
    have hclean := clean_concreteFields d.body.fields { s with queue }
    rw [hstep]
    generalize concreteFields { s with queue } d.body.fields = r at hgrow hclean
    have hd' : r.2.catalog.get? id = some d := hgrow.get? hd
    have hsame := genericIdOf?_setBody hd' hr r.1
    have hfades : Fades r.2.catalog (r.2.catalog.setBody id (.record r.1)) := by
      intro package name j hj
      rwa [hsame] at hj
    by_cases hi : id = i
    · subst hi
      exact ⟨_, Catalog.get?_setBody_self hd' _, hclean.fades hfades⟩
    · rcases h with ⟨e, he, hce⟩ | ⟨heq, -⟩
      · refine ⟨e, (Catalog.get?_setBody_ne hi _).trans (hgrow.get? he), ?_⟩
        exact (hce.fades (fades_of_growsTo hgrow)).fades hfades
      · exact absurd heq.symm hi

theorem queue_step_of_clean {id : Nat} {queue : List Nat} (hq : s.queue = id :: queue)
    (h : CleanAt s.catalog id ∨ s.catalog.types.length ≤ id) : s.step.queue = queue := by
  rcases step_cases hq with ⟨hstep, -⟩ | ⟨d, hd, -, hstep⟩
  · rw [hstep]
  · have hclean : CleanFields s.catalog d.body.fields := by
      rcases h with ⟨e, he, hce⟩ | hge
      · obtain rfl := Option.some.inj (he.symm.trans hd)
        exact hce
      · have := (List.getElem?_eq_some_iff.1 hd).1
        omega
    have hnone :
        concreteFields { s with queue } d.body.fields = (d.body.fields, { s with queue }) :=
      concreteFields_of_clean hclean
    rw [hstep, hnone]

theorem length_le_step (s : Instances) : s.catalog.types.length ≤ s.step.catalog.types.length := by
  cases hq : s.queue with
  | nil =>
    unfold step
    rw [hq]
  | cons id queue =>
    rcases step_cases hq with ⟨hstep, -⟩ | ⟨d, -, -, hstep⟩
    · rw [hstep]
    · obtain ⟨new, hnew, -⟩ := growsTo_concreteFields { s with queue } d.body.fields
      rw [hstep, Catalog.setBody, Catalog.modify_length, hnew, List.length_append]
      exact Nat.le_add_right _ _

theorem run_succ {id : Nat} {queue : List Nat} (hq : s.queue = id :: queue) (n : Nat) :
    run (n + 1) s = run n s.step := by
  rw [run, if_neg (by simp [hq])]

theorem run_of_empty (hq : s.queue = []) : ∀ n, run n s = s
  | 0 => rfl
  | n + 1 => by rw [run, if_pos (by simp [hq])]

theorem length_le_run : ∀ (n : Nat) (s : Instances),
    s.catalog.types.length ≤ (run n s).catalog.types.length
  | 0, _ => Nat.le_refl _
  | n + 1, s => by
    unfold run
    split
    · exact Nat.le_refl _
    · exact Nat.le_trans (length_le_step s) (length_le_run n s.step)

theorem run_add : ∀ (m n : Nat) (s : Instances), run (m + n) s = run n (run m s)
  | 0, n, s => by rw [Nat.zero_add, run]
  | m + 1, n, s => by
    cases hq : s.queue with
    | nil => rw [run_of_empty hq, run_of_empty hq, run_of_empty hq]
    | cons id queue =>
      rw [show m + 1 + n = m + n + 1 by omega, run_succ hq, run_succ hq, run_add m n]

theorem run_succ' (n : Nat) (s : Instances) : run (n + 1) s = (run n s).step := by
  rw [run_add]
  cases hq : (run n s).queue with
  | nil =>
    rw [run_of_empty hq, step]
    simp only [hq]
  | cons id queue => rw [run_succ hq, run]

open Classical in
/-- The numbers below a bound whose declarations are clean. -/
noncomputable def cleanIds (bound : Nat) (c : Catalog) : Finset Nat :=
  (Finset.range bound).filter (CleanAt c)

theorem mem_cleanIds {bound : Nat} {c : Catalog} {i : Nat} :
    i ∈ cleanIds bound c ↔ i < bound ∧ CleanAt c i := by
  simp [cleanIds]

theorem card_cleanIds_le (bound : Nat) (c : Catalog) : (cleanIds bound c).card ≤ bound := by
  have hsub : cleanIds bound c ⊆ Finset.range bound := fun i hi =>
    Finset.mem_range.2 (mem_cleanIds.1 hi).1
  simpa using Finset.card_le_card hsub

/-- **A step makes progress.** One more struct is clean, or all that were clean are and the queue is
shorter. -/
theorem progress_step {bound id : Nat} {queue : List Nat} (hq : s.queue = id :: queue)
    (hb : s.catalog.types.length ≤ bound) :
    bound - (cleanIds bound s.step.catalog).card < bound - (cleanIds bound s.catalog).card ∨
      bound - (cleanIds bound s.step.catalog).card ≤ bound - (cleanIds bound s.catalog).card ∧
        s.step.queue.length < s.queue.length := by
  have hsub : cleanIds bound s.catalog ⊆ cleanIds bound s.step.catalog := by
    intro i hi
    obtain ⟨hlt, hc⟩ := mem_cleanIds.1 hi
    exact mem_cleanIds.2 ⟨hlt, cleanAt_step hq (.inl hc)⟩
  by_cases hdone : CleanAt s.catalog id ∨ s.catalog.types.length ≤ id
  · right
    refine ⟨Nat.sub_le_sub_left (Finset.card_le_card hsub) bound, ?_⟩
    rw [queue_step_of_clean hq hdone, hq, List.length_cons]
    exact Nat.lt_succ_self _
  · left
    have hlt : id < s.catalog.types.length := by
      by_contra hge
      exact hdone (.inr (by omega))
    have hnew : id ∈ cleanIds bound s.step.catalog :=
      mem_cleanIds.2 ⟨by omega, cleanAt_step hq (.inr ⟨rfl, hlt⟩)⟩
    have hold : id ∉ cleanIds bound s.catalog := fun hmem =>
      hdone (.inl (mem_cleanIds.1 hmem).2)
    have hcard : (cleanIds bound s.catalog).card < (cleanIds bound s.step.catalog).card :=
      Finset.card_lt_card ((Finset.ssubset_iff_of_subset hsub).2 ⟨id, hnew, hold⟩)
    have hle := card_cleanIds_le bound s.step.catalog
    omega

/-- **A run with a bound on the number of declarations ends.** -/
theorem ends_of_bounded {bound : Nat} (s : Instances)
    (h : ∀ n, (run n s).catalog.types.length ≤ bound) : ∃ n, (run n s).queue = [] := by
  cases hq : s.queue with
  | nil => exact ⟨0, hq⟩
  | cons id queue =>
    have hnext : ∀ n, (run n s.step).catalog.types.length ≤ bound := by
      intro n
      rw [← run_succ hq]
      exact h (n + 1)
    have hprogress := progress_step hq (h 0)
    obtain ⟨n, hn⟩ := ends_of_bounded s.step hnext
    exact ⟨n + 1, by rwa [run_succ hq]⟩
termination_by (bound - (cleanIds bound s.catalog).card, s.queue.length)
decreasing_by
  rcases hprogress with hlt | ⟨hle, hlt⟩
  · exact Prod.Lex.left _ _ hlt
  · rcases Nat.lt_or_eq_of_le hle with hlt' | heq
    · exact Prod.Lex.left _ _ hlt'
    · rw [heq]
      exact Prod.Lex.right _ hlt

/-- **Instantiation ends exactly when it makes a bounded number of declarations.** -/
theorem ends_iff_bounded (c : Catalog) : (∃ n, (run n (start c)).queue = []) ↔
    ∃ bound, ∀ n, (run n (start c)).catalog.types.length ≤ bound := by
  refine ⟨fun ⟨n, hn⟩ => ⟨(run n (start c)).catalog.types.length, fun m => ?_⟩,
    fun ⟨bound, h⟩ => ends_of_bounded _ h⟩
  rcases Nat.le_total m n with hle | hle
  · obtain ⟨k, rfl⟩ := Nat.exists_eq_add_of_le hle
    rw [run_add]
    exact length_le_run k _
  · obtain ⟨k, rfl⟩ := Nat.exists_eq_add_of_le hle
    rw [run_add, run_of_empty hn]

end Instances

end GoSchema
