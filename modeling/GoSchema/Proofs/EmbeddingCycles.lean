/-
# Chains of embedded structs

While a struct is flattened, the structs around it embed each other one by one: the chain is a path
of embedded structs. So what flattening reports is there: a cycle is one, a chain that is too long
has a step more than are allowed. Conversely no catalog with a cycle has flat fields for all its
structs. Where all structs have flat fields, only the bound on the steps can stop flattening, and a
bound that no chain of different structs reaches does not.

Key definitions: `Catalog.EmbeddingFault`, `Catalog.AllFlat`.
Key theorems: `Catalog.IsFlattening.embeddingFault`, `Catalog.allFlat_of_flatten`,
`Catalog.flatten_cycles`, `Catalog.IsFlattening.deep_of_error`,
`Catalog.IsFlattening.ok_of_length_le`.
-/
import GoSchema.Proofs.FlatFields
import Mathlib.Data.List.Chain
import Mathlib.Data.List.Perm.Subperm

namespace GoSchema

open Outcome

namespace Catalog

/-- What can be wrong with the embedded structs of a catalog, where chains may take `steps` steps: a
path of embedded structs that ends where it starts, one with a step too many, or two fields of one
name that a struct would get. -/
inductive EmbeddingFault (c : Catalog) (steps : Nat) : Fault → Prop
  | circular {ids : List Nat} (hpath : ids.IsChain c.Embeds) (hlong : 1 < ids.length)
      (hends : ids.head? = ids.getLast?) :
      EmbeddingFault c steps (.circularEmbedding (ids.map c.nameOf))
  | deep {first : Nat} {ids : List Nat} (hpath : (first :: ids).IsChain c.Embeds)
      (hlength : ids.length = steps) :
      EmbeddingFault c steps (.deepEmbedding (c.labelOf first) chainLimit)
  | repeated {id : Nat} {d : Declaration} (hd : c.get? id = some d) (name first second : String) :
      EmbeddingFault c steps (.repeatedField d.label name first second)

variable {c : Catalog}
  {run : Nat → List Nat → Flattened → Nat → Except Fault (List Field × Flattened)}

theorem isChain_concat {chain : List Nat} {id target : Nat}
    (h : (chain ++ [id]).IsChain c.Embeds) (he : c.Embeds id target) :
    ((chain ++ [id]) ++ [target]).IsChain c.Embeds := by
  refine h.append (.singleton _) fun x hx y hy => ?_
  rw [List.getLast?_concat] at hx
  obtain rfl := Option.mem_some.1 hx
  obtain rfl := Option.mem_some.1 hy
  exact he

/-- From where a path comes back to on, it is a cycle. -/
theorem circular_of_mem {steps : Nat} {chain : List Nat} {id : Nat}
    (hpath : (chain ++ [id]).IsChain c.Embeds) (hmem : id ∈ chain) :
    c.EmbeddingFault steps
      (.circularEmbedding ((chain.dropWhile (· ≠ id) ++ [id]).map c.nameOf)) := by
  obtain ⟨front, back, rfl, hfront⟩ := List.eq_append_cons_of_mem hmem
  have hdrop : (front ++ id :: back).dropWhile (· ≠ id) = id :: back := by
    have hne : ∀ x ∈ front, decide (x ≠ id) = true := fun x hx =>
      decide_eq_true fun heq => hfront (heq ▸ hx)
    rw [List.dropWhile_append_of_pos hne]
    simp
  rw [hdrop]
  refine .circular (hpath.suffix ⟨front, by simp⟩) (by simp) ?_
  rw [List.getLast?_concat]
  rfl

/-- **What flattening reports is there.** -/
theorem IsFlattening.embeddingFault (hrun : c.IsFlattening run) :
    ∀ {room : Nat} {chain : List Nat} {done : Flattened} {id : Nat} {e : Fault},
      (chain ++ [id]).IsChain c.Embeds → run room chain done id = .error e →
        c.EmbeddingFault (chain.length + room) e := by
  intro room
  induction room with
  | zero =>
    intro chain done id e hpath h
    rcases hrun.error h with ⟨hmem, rfl⟩ | ⟨-, rfl⟩ | ⟨left, _, _, hroom, -⟩
    · exact circular_of_mem hpath hmem
    · cases chain with
      | nil => exact .deep hpath rfl
      | cons first chain => exact .deep hpath (by simp)
    · omega
  | succ room ih =>
    intro chain done id e hpath h
    rcases hrun.error h with ⟨hmem, rfl⟩ | ⟨hroom, -⟩ | ⟨left, _, d, hroom, -, hd, -, h⟩
    · exact circular_of_mem hpath hmem
    · omega
    · obtain rfl : room = left := by omega
      obtain ⟨front, f, back, p, hfields, -, hf⟩ := foldlM_error h
      obtain ⟨target, base, hx, hinner | ⟨_, _, -, hpromote⟩⟩ := addField_error hf
      · have hmem : f ∈ d.body.fields := hfields ▸ by simp
        have hfault := ih (isChain_concat hpath (embeds_of_mem hd hmem hx)) hinner
        rw [List.length_append, List.length_singleton, Nat.add_right_comm, Nat.add_assoc] at hfault
        exact hfault
      · obtain ⟨name, first, second, rfl⟩ := Promotion.promote_error hpromote
        exact .repeated hd name first second

theorem flattenAll_error : ∀ {ids : List Nat} {done : Flattened} {e : Fault}, c.IsSound done →
    c.flattenAll done ids = .error e →
      ∃ done' id, c.IsSound done' ∧ c.flattenFrom chainLimit [] done' id = .error e
  | [], _, _, _, h => nomatch h
  | id :: ids, done, e, hdone, h => by
    unfold flattenAll at h
    split at h
    · rename_i hr
      split at h
      · rename_i hf
        exact ⟨done, id, hdone, Except.error.inj h ▸ hf⟩
      · rename_i next hf
        obtain ⟨d, hd, hd'⟩ := exists_struct hr
        exact flattenAll_error ((isFlattening_flattenFrom c).computes _ _ hd hd' hdone hf).2 h
    · exact flattenAll_error hdone h

/-- Every struct has flat fields. -/
def AllFlat (c : Catalog) : Prop :=
  ∀ id d, c.get? id = some d → d.isRecord = true → c.IsFlat id (c.flatOf id)

theorem allFlat_of_flatten {c' : Catalog} (h : c.flatten = .ok c') : c.AllFlat := by
  obtain ⟨done, hdone, -⟩ := map_eq_ok_iff.1 h
  exact fun id d hd hr => (isFlat_of_flattenAll hdone hd hr).1

theorem Embeds.isRecord {id target : Nat} (h : c.Embeds id target) :
    ∃ d, c.get? id = some d ∧ d.isRecord = true := by
  obtain ⟨d, hd, f, hf, -⟩ := h
  refine ⟨d, hd, ?_⟩
  unfold Declaration.isRecord
  cases hb : d.body with
  | record fs => rfl
  | defined t | aliased t =>
    rw [hb] at hf
    cases hf

theorem Embeds.target_isRecord {id target : Nat} (h : c.Embeds id target) :
    ∃ d, c.get? target = some d ∧ d.isRecord = true := by
  obtain ⟨_, _, f, -, d, hf⟩ := h
  exact ⟨d, embedded?_get? hf⟩

theorem lt_of_reaches {id target : Nat} (h : Relation.TransGen c.Embeds id target) :
    id < c.types.length ∧ target < c.types.length := by
  obtain ⟨i, he, -⟩ := Relation.TransGen.head'_iff.1 h
  obtain ⟨j, -, he'⟩ := Relation.TransGen.tail'_iff.1 h
  obtain ⟨d, hd, -⟩ := he.isRecord
  obtain ⟨d', hd', -⟩ := he'.target_isRecord
  exact ⟨lt_of_get? hd, lt_of_get? hd'⟩

theorem reaches_of_isChain {ids : List Nat} (h : ids.IsChain c.Embeds) :
    ids.Pairwise (Relation.TransGen c.Embeds) :=
  (h.imp fun _ _ => Relation.TransGen.single).pairwise

theorem exists_reaches_self {ids : List Nat} (h : ids.IsChain c.Embeds) (hlong : 1 < ids.length)
    (hends : ids.head? = ids.getLast?) : ∃ id, Relation.TransGen c.Embeds id id := by
  match ids, hlong with
  | id :: next :: rest, _ =>
    refine ⟨id, (List.pairwise_cons.1 (reaches_of_isChain h)).1 id ?_⟩
    rw [List.getLast?_cons_cons, List.head?_cons] at hends
    exact List.mem_of_getLast? hends.symm

namespace AllFlat

theorem acyclic (h : c.AllFlat) (id : Nat) : ¬ Relation.TransGen c.Embeds id id := by
  intro hself
  obtain ⟨i, he, -⟩ := Relation.TransGen.head'_iff.1 hself
  obtain ⟨d, hd, hr⟩ := he.isRecord
  exact (h id d hd hr).acyclic hself

/-- A path with a step or more has different structs, so it is not longer than the catalog. -/
theorem length_le (h : c.AllFlat) {first : Nat} {ids : List Nat}
    (hpath : (first :: ids).IsChain c.Embeds) (hids : ids ≠ []) :
    (first :: ids).length ≤ c.types.length := by
  have hreach := reaches_of_isChain hpath
  have hne : ∀ i j, Relation.TransGen c.Embeds i j → i ≠ j := by
    rintro i _ hij rfl
    exact h.acyclic i hij
  have hnodup : (first :: ids).Nodup := hreach.imp fun {i j} => hne i j
  have hlt : (first :: ids) ⊆ c.ids := by
    obtain ⟨hfirst, -⟩ := List.pairwise_cons.1 hreach
    intro i hi
    refine List.mem_range.2 ?_
    rcases List.mem_cons.1 hi with rfl | hi
    · obtain ⟨j, rest, rfl⟩ := List.exists_cons_of_ne_nil hids
      exact (lt_of_reaches (hfirst j List.mem_cons_self)).1
    · exact (lt_of_reaches (hfirst i hi)).2
  have hle := (List.subperm_of_subset hnodup hlt).length_le
  rwa [Catalog.ids, List.length_range] at hle

end AllFlat

namespace IsFlattening

/-- Where every struct has flat fields, no name occurs twice among those that are promoted. -/
theorem ne_repeatedField (hrun : c.IsFlattening run) (hall : c.AllFlat) :
    ∀ {room : Nat} {chain : List Nat} {done : Flattened} {id : Nat}, c.IsSound done →
      ∀ owner name first second,
        run room chain done id ≠ .error (.repeatedField owner name first second) := by
  intro room
  induction room with
  | zero =>
    intro chain done id hdone owner name first second h
    rcases hrun.error h with ⟨-, hno⟩ | ⟨-, hno⟩ | ⟨left, _, _, hroom, -⟩
    · cases hno
    · cases hno
    · omega
  | succ room ih =>
    intro chain done id hdone owner name first second h
    rcases hrun.error h with ⟨-, hno⟩ | ⟨-, hno⟩ | ⟨left, start, d, hroom, hstart, hd, hr, h⟩
    · cases hno
    · cases hno
    · obtain rfl : room = left := by omega
      obtain ⟨front, f, back, p, hfields, hfront, hf⟩ := foldlM_error h
      have hgathered : c.Gathered front p :=
        Gathered.foldlM (hrun.computes _ _) (.start (hdone.start hstart)) hfront
      obtain ⟨e, he, -, -, hnodup, -⟩ := isFlat_iff.1 (hall id d hd hr)
      obtain rfl := Option.some.inj (hd.symm.trans he)
      rw [hfields, show front ++ f :: back = (front ++ [f]) ++ back by simp,
        promotedFields_append, goNames_append] at hnodup
      obtain ⟨x, -, hinner⟩ := hgathered.addField_error (hrun.computes _ _)
        (List.nodup_append.1 hnodup).1 hf
      exact ih hgathered.done owner name first second hinner

/-- **Where every struct has flat fields, only the bound on the steps can stop flattening.** -/
theorem deep_of_error (hrun : c.IsFlattening run) (hall : c.AllFlat) {room : Nat}
    {chain : List Nat} {done : Flattened} {id : Nat} {e : Fault} (hdone : c.IsSound done)
    (hpath : (chain ++ [id]).IsChain c.Embeds) (h : run room chain done id = .error e) :
    ∃ first ids, (first :: ids).IsChain c.Embeds ∧ ids.length = chain.length + room ∧
      e = .deepEmbedding (c.labelOf first) chainLimit := by
  cases hrun.embeddingFault hpath h with
  | circular hcycle hlong hends =>
    obtain ⟨i, hself⟩ := exists_reaches_self hcycle hlong hends
    exact absurd hself (hall.acyclic i)
  | deep hlong hlength => exact ⟨_, _, hlong, hlength, rfl⟩
  | repeated hd name first second =>
    exact absurd h (hrun.ne_repeatedField hall hdone _ name first second)

/-- With one step for each declaration, there are steps enough. -/
theorem ok_of_length_le (hrun : c.IsFlattening run) (hall : c.AllFlat) {room : Nat}
    {done : Flattened} (hdone : c.IsSound done) (hroom : c.types.length ≤ room) {id : Nat}
    {d : Declaration} (hd : c.get? id = some d) (hr : d.isRecord = true) :
    ∃ done', run room [] done id = .ok (c.flatOf id, done') := by
  cases h : run room [] done id with
  | error e =>
    obtain ⟨first, ids, hpath, hlength, -⟩ := hrun.deep_of_error hall hdone (.singleton id) h
    rw [List.length_nil, Nat.zero_add] at hlength
    have hlt := lt_of_get? hd
    have hids : ids ≠ [] := List.ne_nil_of_length_pos (by omega)
    have hle := hall.length_le hpath hids
    rw [List.length_cons] at hle
    omega
  | ok x =>
    obtain ⟨fs, done'⟩ := x
    exact ⟨done', by rw [(hrun.computes _ _ hd hr hdone h).1.flatOf_eq]⟩

end IsFlattening

/-! ### The whole catalog -/

/-- Where every struct has flat fields, flattening fails only for a chain that is too long. -/
theorem AllFlat.flatten_error (hall : c.AllFlat) {e : Fault} (h : c.flatten = .error e) :
    ∃ first ids, (first :: ids).IsChain c.Embeds ∧ ids.length = chainLimit ∧
      e = .deepEmbedding (c.labelOf first) chainLimit := by
  obtain ⟨done, id, hdone, hid⟩ := flattenAll_error isSound_nil (map_eq_error_iff.1 h)
  obtain ⟨first, ids, hpath, hlength, rfl⟩ :=
    (isFlattening_flattenFrom c).deep_of_error hall hdone (.singleton id) hid
  exact ⟨first, ids, hpath, by simpa using hlength, rfl⟩

/-- **Cycles of embedded structs.** Flattening ends, with a catalog or with a fault about embedded
structs. A cycle that it reports is a path of embedded structs that ends where it starts; if it
reports a chain that is too long, there is a path with 32 steps; and if some struct reaches itself,
it fails. -/
theorem flatten_cycles (c : Catalog) :
    ((∃ c', c.flatten = .ok c') ∨ ∃ e, c.flatten = .error e ∧ c.EmbeddingFault chainLimit e) ∧
      (∀ names, c.flatten = .error (.circularEmbedding names) →
        ∃ ids : List Nat, ids.map c.nameOf = names ∧ 1 < ids.length ∧ ids.head? = ids.getLast? ∧
          ids.IsChain c.Embeds) ∧
      (∀ owner limit, c.flatten = .error (.deepEmbedding owner limit) →
        limit = 32 ∧ ∃ first ids, owner = c.labelOf first ∧ ids.length = 32 ∧
          (first :: ids).IsChain c.Embeds) ∧
      ∀ id, Relation.TransGen c.Embeds id id → ∃ e, c.flatten = .error e := by
  have hfault : ∀ e, c.flatten = .error e → c.EmbeddingFault chainLimit e := by
    intro e h
    obtain ⟨done, id, -, hid⟩ := flattenAll_error isSound_nil (map_eq_error_iff.1 h)
    have hpath : ([] ++ [id]).IsChain c.Embeds := .singleton id
    have hone := (isFlattening_flattenFrom c).embeddingFault hpath hid
    rwa [List.length_nil, Nat.zero_add] at hone
  refine ⟨?_, fun names h => ?_, fun owner limit h => ?_, fun id hself => ?_⟩
  · cases h : c.flatten with
    | ok c' => exact .inl ⟨c', rfl⟩
    | error e => exact .inr ⟨e, rfl, hfault e h⟩
  · cases hfault _ h with
    | circular hpath hlong hends => exact ⟨_, rfl, hlong, hends, hpath⟩
  · cases hfault _ h with
    | deep hpath hlength => exact ⟨rfl, _, _, rfl, hlength, hpath⟩
  · cases h : c.flatten with
    | ok c' => exact absurd hself ((allFlat_of_flatten h).acyclic id)
    | error e => exact ⟨e, rfl⟩

/-- An embedded field of a type of the package `m`. -/
def embedding (name : String) (args : List GoType) : Field :=
  { goName := none, type := .named (some "m") none name args }

/-- Two structs that embed each other, one of them generic and embedded through a pointer. -/
def knot : Catalog :=
  { types :=
      [{ plainBase with
           name := "A"
           body := .record [{ embedding "B" [] with
             type := .pointer (.named (some "m") none "B" [.ofName "int"]) }] },
        { plainBase with name := "B", typeParams := ["T"], body := .record [embedding "A" []] }] }

/-- The struct `Tn`, which embeds the struct of the next number. -/
def storey (n : Nat) : Declaration :=
  { plainBase with
    name := "T" ++ toString n
    body := .record [embedding ("T" ++ toString (n + 1)) []] }

/-- A chain of 33 structs; the last one embeds a type that is not declared. -/
def tower : Catalog := { types := (List.range 33).map storey }

theorem knot_and_tower_cycles :
    knot.flatten = .error (.circularEmbedding ["A", "B", "A"]) ∧
      (∃ ids : List Nat, ids.map knot.nameOf = ["A", "B", "A"] ∧ 1 < ids.length ∧
        ids.head? = ids.getLast? ∧ ids.IsChain knot.Embeds) ∧
      Relation.TransGen knot.Embeds 1 1 ∧ (∃ e, knot.flatten = .error e) ∧
      tower.flatten = .error (.deepEmbedding "m.T0" 32) ∧
      ∃ first ids, "m.T0" = tower.labelOf first ∧ ids.length = 32 ∧
        (first :: ids).IsChain tower.Embeds := by
  have hknot : knot.flatten = .error (.circularEmbedding ["A", "B", "A"]) := by decide +kernel
  have htower : tower.flatten = .error (.deepEmbedding "m.T0" 32) := by decide +kernel
  have hself : Relation.TransGen knot.Embeds 1 1 :=
    .tail (.single ⟨_, rfl, _, List.mem_cons_self, _, rfl⟩) ⟨_, rfl, _, List.mem_cons_self, _, rfl⟩
  exact ⟨hknot, (flatten_cycles knot).2.1 _ hknot, hself, (flatten_cycles knot).2.2.2 1 hself,
    htower, ((flatten_cycles tower).2.2.1 _ _ htower).2⟩

end Catalog

end GoSchema
