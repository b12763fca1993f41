/-
# The table of instances

A run of instantiation keeps a table of the instances that it was asked for. An instance is put into
the catalog under a key that is made of the names of the generic struct and of the arguments, and
what already has that key is taken instead. So two entries of the table share a declaration exactly
when their keys are the same (`Framed.share_iff`), and an entry shares one with a declared type
exactly when a declared type has its key (`Framed.declared_iff`). Both hold of every run, finished
or not.

Key definitions: `Instances.instanceKey`, `Instances.Framed`, `Instances.Ends`.
Key theorems: `concrete_preserves`, `run_preserves`, `Framed.share_iff`, `Framed.declared_iff`,
`framed_run`, `known_subset_run`, `Catalog.withInstances_eq_ok_iff`,
`Catalog.withInstances_eq_error_iff`.
-/
import GoSchema.Catalog.Instance
import GoSchema.Proofs.Lookup

namespace GoSchema

theorem Declaration.isGeneric_head (d : Declaration) : d.head.isGeneric = d.isGeneric := rfl

namespace Instances

/-- The entries of a table of instances: the number of the generic struct, the arguments, and the
number of the instance. -/
abbrev Table : Type := List ((Nat × List GoType) × Nat)

instance : DecidableEq Table := inferInstance

/-- The key of the instance of a generic struct for arguments. -/
def instanceKey (generic : Declaration) (args : List GoType) : String × String :=
  (generic.package.identity, generic.name ++ namesOfArgs args)

theorem key_instanceOf (generic : Declaration) (copy : Nat) (args : List GoType) :
    (instanceOf generic copy args).key = instanceKey generic args := rfl

theorem instanceKey_of_head {generic generic' : Declaration} (h : generic.head = generic'.head)
    (args : List GoType) : instanceKey generic args = instanceKey generic' args := by
  have hp : generic.package = generic'.package := congrArg (·.package) h
  have hn : generic.name = generic'.name := congrArg (·.name) h
  rw [instanceKey, instanceKey, hp, hn]

theorem genericOf?_eq_some_iff {c : Catalog} {package : Option String} {name : String} {id : Nat}
    {d : Declaration} :
    genericOf? c package name = some (id, d) ↔
      (∃ p, package = some p ∧ c.lookup p name = some id) ∧ c.get? id = some d ∧
        d.isGeneric = true ∧ d.isRecord = true := by
  simp only [genericOf?, Option.filter_eq_some_iff, Catalog.find_eq_some_iff,
    Catalog.idOfType?_named, Option.bind_eq_some_iff, Bool.and_eq_true, and_assoc]

/-! ### What one step may do

Rewriting a type changes the state only by asking for instances, and a step only replaces the body
of the struct that it goes through. -/

/-- A property of states that asking for an instance keeps. -/
def KeptByAsking (P : Instances → Prop) : Prop :=
  ∀ {s : Instances} {package : Option String} {name : String} {id : Nat} {generic : Declaration}
    (args : List GoType), P s → genericOf? s.catalog package name = some (id, generic) →
    P (s.instanceFor id generic args).2

variable {P : Instances → Prop}

mutual

theorem concrete_preserves (hP : KeptByAsking P) :
    ∀ (t : GoType) {s : Instances}, P s → P (concrete s t).2
  | .pointer t, _, h | .slice t, _, h | .array t, _, h => by
    simpa only [concrete] using concrete_preserves hP t h
  | .map k v, _, h => by
    simpa only [concrete] using concrete_preserves hP v (concrete_preserves hP k h)
  | .any, _, h | .other _, _, h | .named _ _ _ [], _, h => by
    simpa only [concrete] using h
  | .named package qualifier name (t :: ts), s, h => by
    have hargs := concreteAll_preserves hP (t :: ts) h
    rw [concrete]
    · dsimp only
      split
      · rename_i id generic hg
        exact hP _ hargs hg
      · exact hargs
    · simp

theorem concreteAll_preserves (hP : KeptByAsking P) :
    ∀ (ts : List GoType) {s : Instances}, P s → P (concreteAll s ts).2
  | [], _, h => by simpa only [concreteAll] using h
  | t :: ts, _, h => by
    simpa only [concreteAll] using concreteAll_preserves hP ts (concrete_preserves hP t h)

end

theorem concreteFields_preserves (hP : KeptByAsking P) :
    ∀ (fs : List Field) {s : Instances}, P s → P (concreteFields s fs).2
  | [], _, h => by simpa only [concreteFields] using h
  | f :: fs, _, h => by
    simpa only [concreteFields] using
      concreteFields_preserves hP fs (concrete_preserves hP f.type h)

section Steps

variable (hP : KeptByAsking P)
  (hqueue : ∀ {s : Instances} (queue : List Nat), P s → P { s with queue })
  (hbody : ∀ {s : Instances} (id : Nat) (fields : List Field), P s →
    P { s with catalog := s.catalog.setBody id (.record fields) })
include hP hqueue hbody

theorem step_preserves {s : Instances} (h : P s) : P s.step := by
  unfold step
  split
  · exact h
  · dsimp only
    split
    · exact hbody _ _ (concreteFields_preserves hP _ (hqueue _ h))
    · exact hqueue _ h

theorem run_preserves : ∀ (limit : Nat) {s : Instances}, P s → P (run limit s)
  | 0, _, h => h
  | limit + 1, s, h => by
    unfold run
    split
    · exact h
    · exact run_preserves limit (step_preserves hP hqueue hbody h)

end Steps

theorem known_subset_instanceFor (s : Instances) (id : Nat) (generic : Declaration)
    (args : List GoType) : s.known ⊆ (s.instanceFor id generic args).2.known := by
  unfold instanceFor
  split
  · exact List.Subset.refl _
  · exact List.subset_append_left _ _

theorem keeps_known (s : Instances) : KeptByAsking fun s' => s.known ⊆ s'.known :=
  fun _ h _ => List.Subset.trans h (known_subset_instanceFor ..)

theorem known_subset_concrete (s : Instances) (t : GoType) : s.known ⊆ (concrete s t).2.known :=
  concrete_preserves (keeps_known s) t (List.Subset.refl _)

theorem known_subset_concreteAll (s : Instances) (ts : List GoType) :
    s.known ⊆ (concreteAll s ts).2.known :=
  concreteAll_preserves (keeps_known s) ts (List.Subset.refl _)

theorem known_subset_concreteFields (s : Instances) (fs : List Field) :
    s.known ⊆ (concreteFields s fs).2.known :=
  concreteFields_preserves (keeps_known s) fs (List.Subset.refl _)

theorem known_subset_run (s : Instances) (limit : Nat) : s.known ⊆ (run limit s).known :=
  run_preserves (keeps_known s) (fun _ h => h) (fun _ _ h => h) limit (List.Subset.refl _)

/-! ### The frame of a run -/

/-- What a run keeps of the catalog `c` that it starts from. The old declarations stay in their
places and only their bodies may change, the new ones are not generic, and every entry of the table
is what a lookup finds under the key of the instance. -/
structure Framed (c : Catalog) (s : Instances) : Prop where
  heads : ∃ ext, s.catalog.heads = c.heads ++ ext ∧ ∀ d ∈ ext, d.isGeneric = false
  entries : ∀ e ∈ s.known, ∃ generic, c.get? e.1.1 = some generic ∧ generic.isGeneric = true ∧
    s.catalog.idOf? (instanceKey generic e.1.2) = some e.2

namespace Framed

variable {c : Catalog} {s : Instances}

theorem exists_generic (h : Framed c s) {id : Nat} {d : Declaration}
    (hd : s.catalog.get? id = some d) (hg : d.isGeneric = true) :
    ∃ generic, c.get? id = some generic ∧ generic.head = d.head := by
  obtain ⟨ext, hext, hplain⟩ := h.heads
  rcases Catalog.get?_cases_of_heads hext hd with hold | hnew
  · exact hold
  · -- among the new declarations it would not be generic
    have := hplain _ hnew
    rw [Declaration.isGeneric_head, hg] at this
    exact nomatch this

theorem exists_get (h : Framed c s) {id : Nat} {d : Declaration} (hd : c.get? id = some d) :
    ∃ d', s.catalog.get? id = some d' ∧ d'.head = d.head := by
  obtain ⟨ext, hext, -⟩ := h.heads
  exact Catalog.exists_get?_of_heads_append hext hd

theorem start (c : Catalog) : Framed c (start c) where
  heads := ⟨[], by simp [Instances.start], by simp⟩
  entries := by simp [Instances.start]

theorem instanceFor (h : Framed c s) {id : Nat} {generic : Declaration}
    (hd : s.catalog.get? id = some generic) (hg : generic.isGeneric = true) (args : List GoType) :
    Framed c (s.instanceFor id generic args).2 := by
  unfold Instances.instanceFor
  split
  · exact h
  · dsimp only
    obtain ⟨ext, hext, hplain⟩ := h.heads
    have hkey := key_instanceOf generic (s.made.count id + 1) args
    have hplainNew : (instanceOf generic (s.made.count id + 1) args).isGeneric = false := rfl
    generalize instanceOf generic (s.made.count id + 1) args = d at hkey hplainNew
    have hgrow : ∃ new, (s.catalog.push d).1.heads = s.catalog.heads ++ new ∧
        ∀ e ∈ new, e.isGeneric = false := by
      rcases Catalog.heads_push s.catalog d with hp | hp
      · exact ⟨[], by simp [hp], by simp⟩
      · refine ⟨[d.head], hp, ?_⟩
        rintro e he
        obtain rfl := List.mem_singleton.1 he
        exact hplainNew
    obtain ⟨new, hnew, hnewPlain⟩ := hgrow
    refine ⟨⟨ext ++ new, by rw [hnew, hext, List.append_assoc], ?_⟩, ?_⟩
    · intro e he
      rcases List.mem_append.1 he with he | he
      · exact hplain e he
      · exact hnewPlain e he
    · intro e he
      rcases List.mem_append.1 he with he | he
      · obtain ⟨B, hB, hBg, hid⟩ := h.entries e he
        exact ⟨B, hB, hBg, Catalog.idOf?_append_of_some hnew hid⟩
      · obtain rfl := List.mem_singleton.1 he
        obtain ⟨B, hB, hhead⟩ := h.exists_generic hd hg
        refine ⟨B, hB, ?_, ?_⟩
        · rw [← Declaration.isGeneric_head, hhead]
          exact hg
        · rw [instanceKey_of_head hhead, ← hkey]
          exact Catalog.idOf?_push s.catalog d

theorem setBody (h : Framed c s) (id : Nat) (body : Body) :
    Framed c { s with catalog := s.catalog.setBody id body } where
  heads := by
    obtain ⟨ext, hext, hplain⟩ := h.heads
    exact ⟨ext, by rw [Catalog.heads_setBody, hext], hplain⟩
  entries e he := by
    obtain ⟨B, hB, hBg, hid⟩ := h.entries e he
    exact ⟨B, hB, hBg, by rwa [Catalog.idOf?_eq_of_heads (Catalog.heads_setBody ..)]⟩

end Framed

theorem Framed.of_genericOf? {c : Catalog} {s : Instances} (h : Framed c s)
    {package : Option String} {name : String} {id : Nat} {generic : Declaration}
    (args : List GoType) (hg : genericOf? s.catalog package name = some (id, generic)) :
    Framed c (s.instanceFor id generic args).2 := by
  obtain ⟨-, hd, hgen, -⟩ := genericOf?_eq_some_iff.1 hg
  exact h.instanceFor hd hgen args

/-- **The frame of every run.** -/
theorem framed_run (c : Catalog) (limit : Nat) : Framed c (run limit (start c)) :=
  run_preserves (P := Framed c) (fun args h hg => h.of_genericOf? args hg)
    (fun _ h => ⟨h.heads, h.entries⟩) (fun id _ h => h.setBody id _) limit (Framed.start c)

namespace Framed

variable {c : Catalog} {s : Instances}

/-- **Two entries of the table share a declaration exactly when their keys are the same.** -/
theorem share_iff (h : Framed c s) {e e' : (Nat × List GoType) × Nat} (he : e ∈ s.known)
    (he' : e' ∈ s.known) {generic generic' : Declaration} (hd : c.get? e.1.1 = some generic)
    (hd' : c.get? e'.1.1 = some generic') :
    e.2 = e'.2 ↔ instanceKey generic e.1.2 = instanceKey generic' e'.1.2 := by
  obtain ⟨B, hB, -, hid⟩ := h.entries e he
  obtain ⟨B', hB', -, hid'⟩ := h.entries e' he'
  obtain rfl := Option.some.inj (hB.symm.trans hd)
  obtain rfl := Option.some.inj (hB'.symm.trans hd')
  constructor
  · intro heq
    obtain ⟨x, hx, hkey⟩ := Catalog.exists_of_idOf? hid
    obtain ⟨x', hx', hkey'⟩ := Catalog.exists_of_idOf? hid'
    rw [heq] at hx
    obtain rfl := Option.some.inj (hx.symm.trans hx')
    exact hkey.symm.trans hkey'
  · intro hkey
    rw [hkey, hid'] at hid
    exact (Option.some.inj hid).symm

/-- **An entry shares its declaration with a declared type exactly when a declared type has its
key.** -/
theorem declared_iff (h : Framed c s) {e : (Nat × List GoType) × Nat} (he : e ∈ s.known)
    {generic : Declaration} (hd : c.get? e.1.1 = some generic) :
    e.2 < c.types.length ↔ instanceKey generic e.1.2 ∈ c.keys := by
  obtain ⟨B, hB, -, hid⟩ := h.entries e he
  obtain rfl := Option.some.inj (hB.symm.trans hd)
  obtain ⟨ext, hext, -⟩ := h.heads
  cases hk : c.idOf? (instanceKey B e.1.2) with
  | none =>
    have hle := Catalog.length_le_of_idOf?_append hext hk hid
    have hnot := Catalog.idOf?_eq_none_iff.1 hk
    exact ⟨fun hlt => absurd hlt (by omega), fun hmem => absurd hmem hnot⟩
  | some id =>
    obtain ⟨x, hx, hkey⟩ := Catalog.exists_of_idOf? hk
    have hsame : id = e.2 :=
      Option.some.inj ((Catalog.idOf?_append_of_some hext hk).symm.trans hid)
    refine ⟨fun _ => ?_, fun _ => ?_⟩
    · rw [← hkey]
      exact List.mem_map_of_mem (List.mem_of_getElem? hx)
    · rw [← hsame]
      exact (List.getElem?_eq_some_iff.1 hx).1

end Framed

end Instances

/-! ### Whether instantiation ends -/

/-- Whether instantiation of a catalog ends, and with which catalog. -/
def Instances.Ends (c v : Catalog) : Prop :=
  ∃ n, (run n (start c)).queue = [] ∧ (run n (start c)).catalog = v

/-- **A catalog gets its instances exactly when instantiation ends.** -/
theorem Catalog.withInstances_eq_ok_iff {c v : Catalog} :
    c.withInstances = .ok v ↔ Instances.Ends c v := by
  unfold withInstances
  rw [Instances.finish_eq_exhaust]
  constructor
  · intro h
    split at h
    · rename_i s hs
      obtain ⟨n, rfl, hend⟩ := Instances.exhaust_eq_some_iff.1 hs
      exact ⟨n, hend, Except.ok.inj h⟩
    · cases h
  · rintro ⟨n, hend, rfl⟩
    rw [Instances.exhaust_eq_some_iff.2 ⟨n, rfl, hend⟩]

/-- There is no other fault than that of instantiation without end. -/
theorem Catalog.withInstances_eq_error_iff {c : Catalog} {e : Fault} :
    c.withInstances = .error e ↔ e = .endlessInstances ∧ ∀ v, ¬ Instances.Ends c v := by
  constructor
  · intro h
    refine ⟨?_, fun v hv => ?_⟩
    · unfold withInstances at h
      split at h
      · cases h
      · exact (Except.error.inj h).symm
    · rw [withInstances_eq_ok_iff.2 hv] at h
      cases h
  · rintro ⟨rfl, hnever⟩
    cases hw : c.withInstances with
    | ok v => exact absurd (withInstances_eq_ok_iff.1 hw) (hnever v)
    | error e =>
      unfold withInstances at hw
      split at hw
      · cases hw
      · exact hw.symm

end GoSchema
