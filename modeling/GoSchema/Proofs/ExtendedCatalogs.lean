/-
# Catalogs with a bystander

A bystander is a struct that takes no part: it has no type parameters, asks for no blocks, and
embeds nothing. A catalog with a bystander at its end, whose name nothing speaks of, goes through
the stages like the one without it. Instances are put behind the bystander, so from there on the
numbers of declarations differ by one; they are the same instances as long as the fields of the
bystander refer to no further ones.

Key definitions: `Declaration.IsBystander`, `Catalog.Extends`, `stepOver`, `Catalog.Ignores`,
`Catalog.Surrounds`.
Key theorems: `Catalog.Extends.settle`, `Catalog.Extends.enumMembers`, `Catalog.Extends.flatten`,
`Catalog.Extends.withInstances`, `BlockMaker.blocks_eq_of_bystander`.
-/
import GoSchema.Proofs.EmbeddedTags
import GoSchema.Proofs.InstanceTable
import GoSchema.Proofs.SimilarBlocks
import GoSchema.Proofs.SimilarInstances
import GoSchema.Proofs.SimilarShapes

namespace GoSchema

open Outcome

/-- A struct that is not generic, asks for no block, and embeds nothing. -/
structure Declaration.IsBystander (d : Declaration) (own : List Field) : Prop where
  plain : d.typeParams = []
  body : d.body = .record own
  requests : d.requests = []
  enumRequest : d.enumRequest = none
  named : ∀ f ∈ own, f.isEmbedded = false

namespace Catalog

/-- The second catalog is like the first one, whose declarations do not speak of `d`, and ends in
`d`. -/
structure Extends (d : Declaration) (c c' : Catalog) : Prop where
  similar : Catalog.Similar (· ≠ d.name) id c c'
  length : c'.types.length = c.types.length + 1
  last : c'.get? c.types.length = some d

namespace Extends

variable {d : Declaration} {own : List Field} {c c' : Catalog}

theorem ids_eq (h : Extends d c c') : c'.ids = c.ids ++ [c.types.length] := by
  rw [ids, ids, h.length, List.range_succ]

end Extends

/-! ### Settling and enums -/

theorem settleAll_append : ∀ (ids ids' : List Nat) (c : Catalog),
    c.settleAll (ids ++ ids') = c.settleAll ids >>= fun w => w.settleAll ids'
  | [], _, _ => rfl
  | id :: ids, ids', c => by
    rw [List.cons_append, settleAll, settleAll]
    split
    · rfl
    · exact settleAll_append ids ids' _

theorem setBody_eq_self {c : Catalog} {id : Nat} {d : Declaration} (hd : c.get? id = some d) :
    c.setBody id d.body = c := by
  have htypes : (c.setBody id d.body).types = c.types := by
    refine List.ext_getElem? fun i => ?_
    by_cases hi : id = i
    · subst hi
      exact (get?_setBody_self hd d.body).trans hd.symm
    · exact get?_setBody_ne hi d.body
  calc c.setBody id d.body = { c with types := (c.setBody id d.body).types } := rfl
    _ = c := by rw [htypes]

theorem settleAll_bystander {c : Catalog} {id : Nat} {d : Declaration} {own : List Field}
    (hd : c.get? id = some d) (h : d.IsBystander own) : c.settleAll [id] = .ok c := by
  have hbehind : c.fieldsBehind (chainLimit + 1) id = some own := by
    rw [fieldsBehind_succ, hd, Option.bind_some, h.body]
  have hsettled : c.settleBody id = c := by
    unfold settleBody
    rw [hbehind]
    dsimp only
    rw [← h.body, setBody_eq_self hd]
  have hfit : (c.get? id).bind unfit? = none := by
    rw [hd, Option.bind_some, unfit?, h.requests, h.enumRequest]
    rfl
  rw [settleAll, hsettled, hfit]
  rfl

namespace Extends

variable {d : Declaration} {own : List Field} {c c' w : Catalog}

theorem settle (h : Extends d c c') (hd : d.IsBystander own) (hw : c.settle = .ok w) :
    ∃ w', c'.settle = .ok w' ∧ Extends d w w' := by
  have hids : ∀ i ∈ c.ids, i < c.types.length := fun i hi => List.mem_range.1 hi
  obtain ⟨w', hw', hsim⟩ := (h.similar.settleAll hids).exists_of_ok hw
  have hlast : w'.get? c.types.length = some d := by
    rw [get?_settleAll_of_not_mem hw' fun hmem => Nat.lt_irrefl _ (hids _ hmem), h.last]
  have hlength : w.types.length = c.types.length := by
    rw [← heads_length, heads_settleAll hw, heads_length]
  refine ⟨w', ?_, hsim, ?_, hlength ▸ hlast⟩
  · unfold Catalog.settle
    rw [h.ids_eq, settleAll_append, hw']
    exact settleAll_bystander hlast hd
  · rw [← heads_length, heads_settleAll hw', heads_length, h.length, hlength]

theorem enumIds_eq (h : Extends d c c') (hd : d.IsBystander own) : c'.enumIds = c.enumIds := by
  unfold enumIds
  rw [h.ids_eq, List.filter_append]
  have hno : [c.types.length].filter
      (fun i => ((c'.get? i).map (·.enumRequest.isSome)).getD false) = [] := by
    simp [h.last, hd.enumRequest]
  rw [hno, List.append_nil]
  refine List.filter_congr fun i hi => ?_
  obtain ⟨e, e', he, he', hs⟩ := h.similar.exists_get (List.mem_range.1 hi)
  rw [he, he', Option.map_some, Option.map_some, hs.enumRequest]

/-- Enums get the same values. -/
theorem enumMembers (h : Extends d c c') (hd : d.IsBystander own) (hconsts : c'.consts = c.consts)
    (hnames : ∀ k ∈ c.consts, ∀ t, k.type = some t → t.AllNames (· ≠ d.name))
    {values : EnumMembers} (hvalues : c.enumMembers = .ok values) :
    c'.enumMembers = .ok values := by
  unfold Catalog.enumMembers at hvalues ⊢
  rw [hconsts, h.enumIds_eq hd, h.similar.foldlM_addConstant_eq hnames]
  split at hvalues
  · exact nomatch hvalues
  · split at hvalues
    · exact nomatch hvalues
    · exact hvalues

end Extends

/-! ### Flattening -/

theorem flattenAll_append (c : Catalog) : ∀ (ids ids' : List Nat) (done : Flattened),
    c.flattenAll done (ids ++ ids') = c.flattenAll done ids >>= fun done => c.flattenAll done ids'
  | [], _, _ => rfl
  | id :: ids, ids', done => by
    rw [List.cons_append, flattenAll, flattenAll]
    split
    · split
      · rfl
      · exact flattenAll_append c ids ids' _
    · exact flattenAll_append c ids ids' _

theorem foldlM_addField_named (c : Catalog) (owner : String)
    (flat : Flattened → Nat → Except Fault (List Field × Flattened)) : ∀ {fs : List Field},
    (∀ f ∈ fs, f.isEmbedded = false) → ∀ p : Promotion,
      fs.foldlM (c.addField owner flat) p = .ok { p with declared := p.declared ++ fs }
  | [], _, p => by
    rw [List.append_nil]
    rfl
  | f :: fs, hfs, p => by
    obtain ⟨hf, hfs⟩ := List.forall_mem_cons.1 hfs
    have hfirst : c.addField owner flat p f = .ok { p with declared := p.declared ++ [f] } := by
      unfold addField
      rw [hf]
      rfl
    rw [List.foldlM_cons, hfirst]
    refine (foldlM_addField_named c owner flat hfs _).trans ?_
    rw [List.append_assoc]
    rfl

theorem flattenAll_bystander {c : Catalog} {id : Nat} {d : Declaration} {own : List Field}
    (hd : c.get? id = some d) (h : d.IsBystander own) {done : Flattened}
    (hnew : done.lookup id = none) : c.flattenAll done [id] = .ok ((id, own) :: done) := by
  have hfields : ∀ flat, own.foldlM (c.addField d.label flat) { done } =
      .ok { done, declared := own } := fun flat => foldlM_addField_named c d.label flat h.named _
  have hflat : c.flattenFrom chainLimit [] done id = .ok (own, (id, own) :: done) := by
    unfold chainLimit flattenFrom
    rw [hnew, hd]
    simp only [h.body, hfields]
    rfl
  have hrecord : ((c.get? id).map Declaration.isRecord).getD false = true := by
    rw [hd, Option.map_some, Declaration.isRecord, h.body]
    rfl
  rw [flattenAll, if_pos hrecord, hflat]
  rfl

theorem lt_of_flattenFrom {c : Catalog} : ∀ {room : Nat} {chain : List Nat} {done done' : Flattened}
    {id : Nat} {fs : List Field}, c.flattenFrom room chain done id = .ok (fs, done') →
      (∀ i ∈ done.ids, i < c.types.length) → ∀ i ∈ done'.ids, i < c.types.length := by
  intro room
  induction room with
  | zero =>
    intro chain done done' id fs h hdone
    rcases flattenFrom_ok h with ⟨rfl, -⟩ | ⟨rfl, -⟩ | ⟨left, _, _, _, hroom, -⟩
    · exact hdone
    · exact hdone
    · omega
  | succ room ih =>
    intro chain done done' id fs h hdone
    rcases flattenFrom_ok h with ⟨rfl, -⟩ | ⟨rfl, -⟩ | ⟨left, d, _, p, hroom, -, hd, -, hp, -, rfl⟩
    · exact hdone
    · exact hdone
    · obtain rfl : room = left := by omega
      have hstep : ∀ (q : Promotion) f q', (∀ i ∈ q.done.ids, i < c.types.length) →
          c.addField d.label (c.flattenFrom room (chain ++ [id])) q f = .ok q' →
          ∀ i ∈ q'.done.ids, i < c.types.length := by
        intro q f q' hq hf
        rcases done_of_addField hf with heq | ⟨j, gs, hflat⟩
        · rwa [heq]
        · exact ih hflat hq
      have hlast : ∀ i ∈ p.done.ids, i < c.types.length :=
        foldlM_ok (P := fun q => ∀ i ∈ q.done.ids, i < c.types.length) hstep hdone hp
      exact List.forall_mem_cons.2 ⟨(List.getElem?_eq_some_iff.1 hd).1, hlast⟩

theorem lt_of_flattenAll {c : Catalog} : ∀ {ids : List Nat} {done done' : Flattened},
    c.flattenAll done ids = .ok done' → (∀ i ∈ done.ids, i < c.types.length) →
      ∀ i ∈ done'.ids, i < c.types.length
  | [], _, _, h, hdone => by rwa [← Except.ok.inj h]
  | id :: ids, done, done', h, hdone => by
    rw [flattenAll] at h
    split at h
    · split at h
      · cases h
      · rename_i hf
        exact lt_of_flattenAll h (lt_of_flattenFrom hf hdone)
    · exact lt_of_flattenAll h hdone

/-- The catalog with the results of flattening in their places. -/
def withFlat (c : Catalog) (done : Flattened) : Catalog :=
  done.foldl (fun c (id, fields) => c.setBody id (.record fields)) c

theorem flatten_eq_map (c : Catalog) : c.flatten = (c.flattenAll [] c.ids).map c.withFlat := rfl

theorem withFlat_cons (c : Catalog) (id : Nat) (fields : List Field) (done : Flattened) :
    c.withFlat ((id, fields) :: done) = (c.setBody id (.record fields)).withFlat done := rfl

theorem get?_withFlat_of_not_mem : ∀ {done : Flattened} {c : Catalog} {i : Nat}, i ∉ done.ids →
    (c.withFlat done).get? i = c.get? i
  | [], _, _, _ => rfl
  | (id, fields) :: done, c, i, hi => by
    obtain ⟨hne, hi⟩ := List.ne_and_not_mem_of_not_mem_cons hi
    rw [withFlat_cons, get?_withFlat_of_not_mem hi, get?_setBody_ne (Ne.symm hne)]

theorem Extends.flatten {d : Declaration} {own : List Field} {c c' w : Catalog}
    (h : Extends d c c') (hd : d.IsBystander own) (hw : c.flatten = .ok w) :
    ∃ w', c'.flatten = .ok w' ∧ Extends d w w' := by
  have hlength : w.types.length = c.types.length := by
    rw [← heads_length, heads_flatten hw, heads_length]
  obtain ⟨done, hdone, rfl⟩ := map_eq_ok_iff.1 hw
  have hids : ∀ i ∈ c.ids, i < c.types.length := fun i hi => List.mem_range.1 hi
  obtain ⟨done', hdone', hsim⟩ := (h.similar.flattenAll hids .nil).exists_of_ok hdone
  have hkeys : done'.ids = done.ids := by
    have hall : List.Forall₂ (· = ·) (done.map Prod.fst) (done'.map Prod.fst) :=
      List.forall₂_map_left_iff.2 (List.forall₂_map_right_iff.2 (hsim.imp fun _ _ hp => hp.1))
    rw [List.forall₂_eq_eq_eq] at hall
    exact hall.symm
  have hnew : c.types.length ∉ done'.ids := fun hmem =>
    Nat.lt_irrefl _ (lt_of_flattenAll hdone (by simp [Flattened.ids]) _ (hkeys ▸ hmem))
  have hlookup : done'.lookup c.types.length = none := by
    cases hl : done'.lookup c.types.length with
    | none => rfl
    | some fs => exact absurd (Flattened.mem_ids_of_lookup hl) hnew
  have hfirst : c'.setBody c.types.length (.record own) = c' := by
    rw [← hd.body, setBody_eq_self h.last]
  refine ⟨c'.withFlat done', ?_, h.similar.foldl_setBody hsim, ?_, ?_⟩
  · rw [flatten_eq_map, h.ids_eq, flattenAll_append, hdone']
    show (c'.flattenAll done' [c.types.length]).map _ = _
    rw [flattenAll_bystander h.last hd hlookup]
    show Except.ok (c'.withFlat ((c.types.length, own) :: done')) = _
    rw [withFlat_cons, hfirst]
  · rw [hlength, ← heads_length, withFlat, heads_foldl_setBody, heads_length, h.length]
  · rw [hlength, get?_withFlat_of_not_mem hnew, h.last]

end Catalog

/-! ### Instances and blocks -/

/-- Numbers from `n` on are one larger. -/
def stepOver (n i : Nat) : Nat := if i < n then i else i + 1

theorem stepOver_of_lt {n i : Nat} (h : i < n) : stepOver n i = i := if_pos h

theorem stepOver_of_le {n i : Nat} (h : n ≤ i) : stepOver n i = i + 1 := if_neg (Nat.not_lt.2 h)

theorem stepOver_ne (n i : Nat) : stepOver n i ≠ n := by
  unfold stepOver
  split <;> omega

theorem stepOver_injective (n : Nat) : Function.Injective (stepOver n) := by
  intro i j h
  unfold stepOver at h
  split at h <;> split at h <;> omega

theorem map_stepOver {n : Nat} {l : List Nat} (h : ∀ i ∈ l, i < n) : l.map (stepOver n) = l :=
  (List.map_congr_left fun i hi => stepOver_of_lt (h i hi)).trans (List.map_id l)

namespace Catalog

theorem Similar.setBody_right {ok : String → Prop} {φ : Nat → Nat} {c c' : Catalog}
    (h : Catalog.Similar ok φ c c') {n : Nat} (hn : ∀ i, φ i ≠ n) (body : Body) :
    Catalog.Similar ok φ c (c'.setBody n body) where
  get {i e} he := by
    rw [get?_setBody_ne (hn i).symm]
    exact h.get he
  search q hq := by rw [search_eq_of_heads (heads_setBody ..), h.search q hq]

variable {d : Declaration} {own : List Field} {c c' : Catalog}

theorem Extends.stepOver_similar (h : Extends d c c') :
    Catalog.Similar (· ≠ d.name) (stepOver c.types.length) c c' where
  get {i e} he := by
    rw [stepOver_of_lt (List.getElem?_eq_some_iff.1 he).1]
    exact h.similar.get he
  search q hq := by
    rw [h.similar.search q hq]
    cases hs : c.search q with
    | none => rfl
    | some i =>
      obtain ⟨e, he, -⟩ := exists_of_search hs
      rw [Option.map_some, Option.map_some, stepOver_of_lt (List.getElem?_eq_some_iff.1 he).1, id]

end Catalog

namespace Instances

variable {s : Instances}

theorem queue_kept (queue : List Nat) : KeptByAsking fun r => ∃ new, r.queue = queue ++ new := by
  rintro r package name id generic args ⟨new, hnew⟩ -
  unfold instanceFor
  split
  · exact ⟨new, hnew⟩
  · exact ⟨new ++ [_], by rw [← List.append_assoc, ← hnew]⟩

/-- A step leaves the other declarations as they are, and puts new numbers behind the queue. -/
theorem step_other {id : Nat} {queue : List Nat} (hq : s.queue = id :: queue) {i : Nat}
    {d : Declaration} (hne : id ≠ i) (hd : s.catalog.get? i = some d) :
    s.step.catalog.get? i = some d ∧ ∃ new, s.step.queue = queue ++ new := by
  rcases step_cases hq with ⟨hs, -⟩ | ⟨e, -, -, hs⟩
  · rw [hs]
    exact ⟨hd, [], (List.append_nil queue).symm⟩
  · rw [hs]
    refine ⟨?_, concreteFields_preserves (queue_kept queue) _ ⟨[], (List.append_nil queue).symm⟩⟩
    show (Catalog.setBody _ _ _).get? i = _
    rw [Catalog.get?_setBody_ne hne]
    exact (growsTo_concreteFields { s with queue } e.body.fields).get? hd

theorem get?_run_front : ∀ (front : List Nat) {s : Instances} {back : List Nat} {i : Nat}
    {d : Declaration}, s.queue = front ++ back → i ∉ front → s.catalog.get? i = some d →
      (run front.length s).catalog.get? i = some d
  | [], _, _, _, _, _, _, hd => hd
  | id :: front, s, back, i, d, hq, hi, hd => by
    obtain ⟨hne, hi⟩ := List.ne_and_not_mem_of_not_mem_cons hi
    obtain ⟨hkeep, new, hnew⟩ := step_other hq (Ne.symm hne) hd
    rw [List.length_cons, run_succ hq]
    exact get?_run_front front (hnew.trans (List.append_assoc front back new)) hi hkeep

/-- The state when all structs of a catalog have been gone through, and no instance has. -/
def afterStructs (c : Catalog) : Instances := run (start c).queue.length (start c)

end Instances

/-- Nothing comes of a struct with this name and these fields: no instance has the name, and the
fields ask for no instances but those that the structs of the catalog ask for. -/
def Catalog.Ignores (c : Catalog) (name : String) (own : List Field) : Prop :=
  (∀ v ∈ c.withInstances.toOption, name ∉ v.names) ∧
    (Instances.concreteFields (Instances.afterStructs c) own).2.known =
      (Instances.afterStructs c).known

instance (c : Catalog) (name : String) (own : List Field) : Decidable (c.Ignores name own) :=
  inferInstanceAs (Decidable (_ ∧ _))

namespace Catalog

/-- The second catalog is like the first one with `d` under the number `n`. -/
structure Surrounds (d : Declaration) (n : Nat) (c c' : Catalog) : Prop where
  similar : Catalog.Similar (· ≠ d.name) (stepOver n) c c'
  length : c'.types.length = c.types.length + 1
  bystander : ∃ e, c'.get? n = some e ∧ e.head = d.head

namespace Extends

variable {d : Declaration} {own : List Field} {c c' : Catalog}

theorem start_similar (h : Extends d c c') : Instances.Similar (· ≠ d.name)
    (stepOver c.types.length) (Instances.start c) (Instances.start c') where
  catalog := h.stepOver_similar
  next k := by
    show stepOver c.types.length (c.types.length + k) = c'.types.length + k
    rw [stepOver_of_le (Nat.le_add_right _ k), h.length, Nat.add_right_comm]
  known := rfl
  made := rfl

theorem start_queue (h : Extends d c c') (hd : d.IsBystander own) :
    (Instances.start c').queue = (Instances.start c).queue ++ [c.types.length] := by
  have hlast : [c.types.length].filter (fun i =>
      ((c'.get? i).map fun e => e.isRecord && !e.isGeneric).getD false) = [c.types.length] := by
    simp [h.last, Declaration.isRecord, Declaration.isGeneric, hd.body, hd.plain, Body.isRecord]
  unfold Instances.start
  dsimp only
  rw [h.ids_eq, List.filter_append, hlast]
  congr 1
  refine List.filter_congr fun i hi => ?_
  obtain ⟨e, e', he, he', hs⟩ := h.similar.exists_get (List.mem_range.1 hi)
  rw [he, he', Option.map_some, Option.map_some, hs.isRecord, hs.isGeneric]

theorem mem_start_queue {i : Nat} (hi : i ∈ (Instances.start c).queue) : i < c.types.length :=
  List.mem_range.1 (List.mem_filter.1 hi).1

/-- The turn of the bystander changes nothing but its own body. -/
theorem step_bystander {s s' : Instances} {n : Nat} (h : Instances.Similar (· ≠ d.name) (stepOver n)
    s s') (hd : d.IsBystander own) (hown : ∀ f ∈ own, f.type.AllNames (· ≠ d.name))
    (hnames : ∀ name ∈ s.catalog.names, name ≠ d.name)
    (hknown : (Instances.concreteFields s own).2.known = s.known)
    (hlast : s'.catalog.get? n = some d) {queue : List Nat} (hq : s'.queue = n :: queue) :
    Instances.Similar (· ≠ d.name) (stepOver n) s s'.step ∧ s'.step.queue = queue := by
  have hno : ¬ ∀ name, name ≠ d.name := fun hall => hall d.name rfl
  have hsame : FieldsSimilar (· ≠ d.name) own own :=
    List.forall₂_same.2 fun f hf => .same (hown f hf)
  obtain ⟨asks, hasks⟩ := Instances.exists_asks_concreteFields s own
  have hstay : (Instances.concreteFields s own).2 = s := hasks.eq_of_known hknown
  obtain ⟨-, hfollows⟩ := Instances.concreteFields_similar (stepOver_injective n) hsame
    (h.withQueue s.queue queue) (by rwa [hstay]) fun hall => absurd hall hno
  obtain ⟨asks', hasks'⟩ := Instances.exists_asks_concreteFields { s' with queue } own
  have hstay' : (Instances.concreteFields { s' with queue } own).2 = { s' with queue } := by
    refine hasks'.eq_of_known (hfollows.similar.known.trans ?_)
    show (Instances.concreteFields s own).2.known.map _ = s'.known
    rw [hknown, h.known]
  unfold Instances.step
  rw [hq]
  dsimp only
  rw [hlast, Option.map_some, hd.body]
  dsimp only
  rw [hstay']
  refine ⟨⟨h.catalog.setBody_right (stepOver_ne n) _, fun k => ?_, h.known, h.made⟩, rfl⟩
  rw [setBody, modify_length]
  exact h.next k

/-- **The same instances are made behind a bystander.** The structs of the catalog have their turn
first, then the bystander, and then the instances. -/
theorem withInstances (h : Extends d c c') (hd : d.IsBystander own)
    (hown : ∀ f ∈ own, f.type.AllNames (· ≠ d.name)) (hignores : c.Ignores d.name own) {v : Catalog}
    (hv : c.withInstances = .ok v) :
    ∃ v', c'.withInstances = .ok v' ∧ Surrounds d c.types.length v v' := by
  have hno : ¬ ∀ name, name ≠ d.name := fun hall => hall d.name rfl
  have hnames : ∀ name ∈ v.names, name ≠ d.name := by
    rintro name hmem rfl
    exact hignores.1 v (by rw [hv]; rfl) hmem
  -- every struct of the catalog has had its turn when the `m` turns that are enough begin
  obtain ⟨m, hend, rfl⟩ : ∃ m, (Instances.run m (Instances.afterStructs c)).queue = [] ∧
      (Instances.run m (Instances.afterStructs c)).catalog = v := by
    obtain ⟨m, hend, hlast⟩ := Catalog.withInstances_eq_ok_iff.1 hv
    have hmore : Instances.run m (Instances.afterStructs c) =
        Instances.run m (Instances.start c) := by
      rw [Instances.afterStructs, ← Instances.run_add, Nat.add_comm, Instances.run_add,
        Instances.run_of_empty hend]
    exact ⟨m, hmore ▸ hend, hmore ▸ hlast⟩
  have hafter := fun name hname =>
    hnames name (Instances.names_subset_run m (Instances.afterStructs c) hname)
  have hmap : (Instances.start c).queue.map (stepOver c.types.length) =
      (Instances.start c).queue := map_stepOver fun i hi => mem_start_queue hi
  obtain ⟨hfront, new, hnew, hnew'⟩ := Instances.run_front_similar (stepOver_injective _) hno
    (Instances.start c).queue h.start_similar (List.append_nil _).symm
    (by rw [hmap, h.start_queue hd]) hafter
  have hlast := Instances.get?_run_front (Instances.start c).queue (h.start_queue hd)
    (fun hmem => Nat.lt_irrefl _ (mem_start_queue hmem)) h.last
  obtain ⟨hturn, hqueue⟩ := step_bystander hfront hd hown hafter hignores.2 hlast hnew'
  obtain ⟨hrest, hleft⟩ := Instances.run_similar (stepOver_injective _) m hturn
    (by rw [hqueue, hnew]; rfl) hnames fun hall => absurd hall hno
  have hrun : (Instances.start c').run ((Instances.start c).queue.length + (m + 1)) =
      Instances.run m ((Instances.start c').run (Instances.start c).queue.length).step := by
    rw [Instances.run_add, Instances.run_succ hnew']
  have hkept := Instances.framed_run c' ((Instances.start c).queue.length + (m + 1))
  rw [hrun] at hkept
  refine ⟨_, Catalog.withInstances_eq_ok_iff.2 ⟨_, ?_, congrArg Instances.catalog hrun⟩,
    hrest.catalog, (hrest.next 0).symm.trans ?_, ?_⟩
  · rw [hrun, hleft]
    exact congrArg (List.map _) hend
  · exact stepOver_of_le ((Instances.length_le_run _ (Instances.start c)).trans
      (Instances.length_le_run m (Instances.afterStructs c)))
  · exact hkept.exists_get h.last

end Extends

end Catalog

namespace BlockMaker

variable {d : Declaration} {own : List Field} {ctx ctx' : BlockMaker} {n : Nat}

theorem blocksOf_bystander (hd : d.IsBystander own) {e : Declaration} (he : e.head = d.head)
    (id : Nat) : ctx.blocksOf id e = .ok [] := by
  have hplain : e.isGeneric = false := by
    have hparams : e.typeParams = d.typeParams := congrArg (·.typeParams) he
    rw [Declaration.isGeneric, hparams, hd.plain]
    rfl
  have hrequests : e.requests = [] := (congrArg (·.requests) he).trans hd.requests
  have henum : e.enumRequest = none := (congrArg (·.enumRequest) he).trans hd.enumRequest
  unfold blocksOf
  rw [hplain, henum, hrequests]
  split
  · contradiction
  · split <;> rfl

/-- **A bystander makes no difference for the blocks.** -/
theorem blocks_eq_of_bystander (hd : d.IsBystander own)
    (h : Catalog.Surrounds d n ctx.catalog ctx'.catalog) (hconfig : ctx'.config = ctx.config)
    (henums : ctx'.enums = ctx.enums)
    (hold : ∀ i e, ctx.catalog.get? i = some e → e.enumRequest.isSome → i < n) :
    ctx'.blocks = ctx.blocks := by
  have hsim : BlockMaker.Similar (· ≠ d.name) (stepOver n) ctx ctx' :=
    ⟨h.similar, hconfig, fun i e he hsome => by rw [stepOver_of_lt (hold i e he hsome), henums]⟩
  obtain ⟨e, he, hhead⟩ := h.bystander
  have hlt : n < ctx'.catalog.types.zipIdx.length := by
    rw [List.length_zipIdx]
    exact (List.getElem?_eq_some_iff.1 he).1
  have hn : ctx'.catalog.types.zipIdx[n] = (e, n) := by
    refine Option.some.inj ((List.getElem?_eq_getElem hlt).symm.trans ?_)
    rw [List.getElem?_zipIdx, show ctx'.catalog.types[n]? = some e from he, Option.map_some,
      Nat.zero_add]
  unfold blocks
  rw [← List.take_append_drop n ctx'.catalog.types.zipIdx, List.drop_eq_getElem_cons hlt, hn,
    blocksFrom_insert (blocksOf_bystander hd hhead n), ← List.eraseIdx_eq_take_drop_succ]
  refine blocksFrom_congr (Pointwise.of_getElem? ?_ fun i p hp => ?_) []
  · rw [List.length_eraseIdx, if_pos hlt, List.length_zipIdx, List.length_zipIdx, h.length,
      Nat.add_sub_cancel]
  · rw [List.getElem?_zipIdx, Option.map_eq_some_iff] at hp
    obtain ⟨x, hx, rfl⟩ := hp
    obtain ⟨x', hx', hs⟩ := h.similar.get hx
    have hplace : (ctx'.catalog.types.zipIdx.eraseIdx n)[i]? =
        ctx'.catalog.types.zipIdx[stepOver n i]? := by
      rw [List.getElem?_eraseIdx, stepOver]
      split <;> rfl
    refine ⟨(x', stepOver n i), ?_, ?_⟩
    · rw [hplace, List.getElem?_zipIdx, show ctx'.catalog.types[stepOver n i]? = some x' from hx',
        Option.map_some, Nat.zero_add]
    · rw [Nat.zero_add]
      exact hsim.blocksOf_eq hs hx

end BlockMaker

end GoSchema
