/-
# The requests that discovery adds

Discovery works through a queue of requested blocks and asks for blocks of the structs that their
visible fields refer to. Without a limit on the distance, the requests that come out are exactly
those that the declarations ask for, and those that a chain of such references leads to: no more
(`Frontier.sound`), and no fewer, because the queue is always worked off. Every step takes one block
from the queue and every block that is added was missing before, so the number of blocks in the
queue and of blocks that are missing falls.

Key definitions: `Declaration.AskedMore`, `Catalog.AskedMore`, `Catalog.Wanted`, `Catalog.HasAll`,
`Catalog.missing`, `Frontier`.
Key theorems: `addRequests_preserves`, `Frontier.visit`, `Frontier.reachFrom`,
`mem_requests_reach_iff`, `hasAll_reach`, `addDiscovered_keeps`.
-/
import Mathlib.Algebra.GroupWithZero.Nat
import GoSchema.Catalog.Reach
import GoSchema.Proofs.Lookup
import GoSchema.Proofs.Outcome
import GoSchema.Proofs.Pointwise

namespace GoSchema

/-- The request that discovery adds for a kind of block. -/
def BlockRequest.found (kind : BlockKind) : BlockRequest := { kind, discovered := true }

namespace Declaration

/-- The declaration with requests that discovery added. -/
def AskedMore (d d' : Declaration) : Prop :=
  ∃ kinds : List BlockKind, d' = { d with requests := d.requests ++ kinds.map .found }

theorem AskedMore.refl (d : Declaration) : AskedMore d d := ⟨[], by simp⟩

/-- The declaration with a discovered request for a kind. -/
def ask (kind : BlockKind) (d : Declaration) : Declaration :=
  { d with requests := d.requests ++ [.found kind] }

theorem AskedMore.ask {d d' : Declaration} (h : AskedMore d d') (kind : BlockKind) :
    AskedMore d (d'.ask kind) := by
  obtain ⟨kinds, rfl⟩ := h
  exact ⟨kinds ++ [kind], by simp [Declaration.ask]⟩

theorem requests?_ask (d : Declaration) (kind kind' : BlockKind) :
    (d.ask kind).requests? kind' = (d.requests? kind' || kind = kind') := by
  simp [requests?, Declaration.ask, BlockRequest.found]

theorem AskedMore.requests? {d d' : Declaration} (h : AskedMore d d') {kind : BlockKind}
    (hk : d.requests? kind = true) : d'.requests? kind = true := by
  obtain ⟨kinds, rfl⟩ := h
  simp only [Declaration.requests?, List.any_append, Bool.or_eq_true]
  exact .inl hk

/-- The number of kinds of blocks that nothing asks for. -/
def missing (d : Declaration) : Nat :=
  ([BlockKind.type, .input, .enum].filter fun kind => !d.requests? kind).length

theorem missing_le (d : Declaration) : d.missing ≤ 3 := List.length_filter_le _ _

theorem missing_ask {d : Declaration} {kind : BlockKind} (h : d.requests? kind = false) :
    (d.ask kind).missing + 1 = d.missing := by
  unfold missing
  simp only [requests?_ask]
  cases kind <;>
    · cases ht : d.requests? .type <;> cases hi : d.requests? .input <;>
        cases he : d.requests? .enum <;> simp_all

end Declaration

namespace Catalog

variable {c c₀ : Catalog}

/-! ### Catalogs with more requests -/

/-- The catalog with requests that discovery added. -/
structure AskedMore (c₀ c : Catalog) : Prop where
  types : List.Forall₂ Declaration.AskedMore c₀.types c.types
  consts : c.consts = c₀.consts

theorem AskedMore.refl (c : Catalog) : AskedMore c c where
  types := List.forall₂_same.2 fun d _ => .refl d
  consts := rfl

/-- The catalog with a discovered request for a block of a declaration. -/
def ask (c : Catalog) (kind : BlockKind) (id : Nat) : Catalog := c.modify id (Declaration.ask kind)

theorem get?_ask_self {id : Nat} {d : Declaration} (h : c.get? id = some d) (kind : BlockKind) :
    (c.ask kind id).get? id = some (d.ask kind) := by
  unfold get? at h
  simp [ask, modify, get?, h]

theorem get?_ask_ne {id i : Nat} (h : id ≠ i) (kind : BlockKind) :
    (c.ask kind id).get? i = c.get? i := by
  simp [ask, modify, get?, h]

/-- A request that is there after asking for a block was there before, or is the new one. -/
theorem request_ask_cases {kind : BlockKind} {target id i : Nat} {e d : Declaration}
    {r : BlockRequest} (he : c.get? target = some e) (hd : (c.ask kind target).get? id = some d)
    (hr : d.requests[i]? = some r) :
    (∃ old, c.get? id = some old ∧ old.requests[i]? = some r ∧ (d = old ∨ d = old.ask kind)) ∨
      (id = target ∧ i = e.requests.length) := by
  by_cases hne : target = id
  · subst hne
    obtain rfl := Option.some.inj (hd.symm.trans (get?_ask_self he kind))
    rcases Nat.lt_or_ge i e.requests.length with hlt | hge
    · refine .inl ⟨e, he, ?_, .inr rfl⟩
      rw [← hr]
      exact (List.getElem?_append_left hlt).symm
    · have hi : i < (e.ask kind).requests.length := (List.getElem?_eq_some_iff.1 hr).1
      simp only [Declaration.ask, List.length_append, List.length_singleton] at hi
      exact .inr ⟨rfl, by omega⟩
  · exact .inl ⟨d, (get?_ask_ne hne kind).symm.trans hd, hr, .inl rfl⟩

theorem AskedMore.ask (h : AskedMore c₀ c) (kind : BlockKind) (id : Nat) :
    AskedMore c₀ (c.ask kind id) where
  types := by
    have := Pointwise.modify_both h.types (f := fun d => d) (g := Declaration.ask kind)
      (fun _ _ hd => hd.ask kind) id
    rwa [show c₀.types.modify id (fun d => d) = c₀.types from List.modify_id _ _] at this
  consts := h.consts

section Same

variable (h : AskedMore c₀ c)
include h

theorem AskedMore.get?_cases (id : Nat) :
    (c₀.get? id = none ∧ c.get? id = none) ∨
      ∃ d d', c₀.get? id = some d ∧ c.get? id = some d' ∧ d.AskedMore d' :=
  Pointwise.getElem?_cases h.types id

theorem AskedMore.lookup_eq (package name : String) :
    c.lookup package name = c₀.lookup package name := by
  have hkey : c.idOf? (package, name) = c₀.idOf? (package, name) := by
    refine (Pointwise.findIdx?_eq h.types fun d d' hd => ?_).symm
    obtain ⟨kinds, rfl⟩ := hd
    rfl
  have hloose : c.types.findIdx? (matchesLoosely package name) =
      c₀.types.findIdx? (matchesLoosely package name) := by
    refine (Pointwise.findIdx?_eq h.types fun d d' hd => ?_).symm
    obtain ⟨kinds, rfl⟩ := hd
    rfl
  rw [lookup, lookup, hkey, hloose]

theorem AskedMore.idOfType?_eq (t : GoType) : c.idOfType? t = c₀.idOfType? t := by
  unfold idOfType?
  split
  · exact h.lookup_eq _ _
  · rfl

theorem AskedMore.isPlainStruct_eq (id : Nat) : c.isPlainStruct id = c₀.isPlainStruct id := by
  unfold isPlainStruct
  rcases h.get?_cases id with ⟨hno, hno'⟩ | ⟨d, d', hd, hd', kinds, rfl⟩
  · rw [hno, hno']
  · rw [hd, hd']
    rfl

theorem AskedMore.referenced_eq {d d' : Declaration} (hd : d.AskedMore d') (rules : NamingRules)
    (r : BlockRequest) : c.referenced rules d' r = c₀.referenced rules d r := by
  obtain ⟨kinds, rfl⟩ := hd
  unfold referenced
  rw [show c.isPlainStruct = c₀.isPlainStruct from funext h.isPlainStruct_eq]
  rw [show c.idOfType? = c₀.idOfType? from funext h.idOfType?_eq]
  rfl

end Same

/-! ### What is wanted -/

theorem isPlainStruct_of_mem_referenced {rules : NamingRules} {d : Declaration} {r : BlockRequest}
    {target : Nat} (h : target ∈ c.referenced rules d r) : c.isPlainStruct target = true := by
  obtain ⟨f, -, hf⟩ := List.mem_filterMap.1 h
  exact (Option.filter_eq_some_iff.1 hf).2

theorem exists_of_isPlainStruct {id : Nat} (h : c.isPlainStruct id = true) :
    ∃ d, c.get? id = some d := by
  unfold isPlainStruct at h
  cases hd : c.get? id with
  | none => simp [hd] at h
  | some d => exact ⟨d, rfl⟩

/-- The requests that there should be: those of the structs that are not generic, and those for the
structs that the visible fields of a wanted block refer to. -/
inductive Wanted (c : Catalog) (rules : NamingRules) : Nat → BlockRequest → Prop
  | asked {id : Nat} {d : Declaration} {r : BlockRequest} : c.isPlainStruct id = true →
      c.get? id = some d → r ∈ d.requests → Wanted c rules id r
  | found {id target : Nat} {d e : Declaration} {r : BlockRequest} : Wanted c rules id r →
      c.get? id = some d → target ∈ c.referenced rules d r → c.get? target = some e →
      e.requests? r.kind = false → Wanted c rules target (.found r.kind)

theorem Wanted.isPlainStruct {rules : NamingRules} {id : Nat} {r : BlockRequest}
    (h : c.Wanted rules id r) : c.isPlainStruct id = true := by
  cases h with
  | asked hp => exact hp
  | found _ _ ht => exact isPlainStruct_of_mem_referenced ht

/-- Whether blocks of a kind are asked for all declarations of a list. -/
def HasAll (c : Catalog) (kind : BlockKind) (ids : List Nat) : Prop :=
  ∀ id ∈ ids, ∃ d, c.get? id = some d ∧ d.requests? kind = true

theorem HasAll.ask {kind : BlockKind} {ids : List Nat} (h : c.HasAll kind ids)
    (kind' : BlockKind) (id : Nat) : (c.ask kind' id).HasAll kind ids := by
  intro i hi
  obtain ⟨d, hd, hk⟩ := h i hi
  by_cases hne : id = i
  · subst hne
    refine ⟨d.ask kind', get?_ask_self hd kind', ?_⟩
    rw [Declaration.requests?_ask, hk, Bool.true_or]
  · exact ⟨d, (get?_ask_ne hne kind').trans hd, hk⟩

/-- The number of kinds that are not asked for, over all declarations. -/
def missing (c : Catalog) : Nat := (c.types.map Declaration.missing).sum

theorem sum_missing_modify {kind : BlockKind} {ds : List Declaration} {id : Nat} {d : Declaration}
    (hd : ds[id]? = some d) (hk : d.requests? kind = false) :
    ((ds.modify id (Declaration.ask kind)).map Declaration.missing).sum + 1 =
      (ds.map Declaration.missing).sum := by
  induction ds generalizing id with
  | nil => exact nomatch hd
  | cons e ds ih =>
    cases id with
    | zero =>
      obtain rfl := Option.some.inj hd
      have := Declaration.missing_ask hk
      rw [List.modify_zero_cons, List.map_cons, List.map_cons, List.sum_cons, List.sum_cons]
      omega
    | succ id =>
      have hd' : ds[id]? = some d := hd
      have := ih hd'
      rw [List.modify_succ_cons, List.map_cons, List.map_cons, List.sum_cons, List.sum_cons]
      omega

theorem missing_ask {kind : BlockKind} {id : Nat} {d : Declaration} (hd : c.get? id = some d)
    (hk : d.requests? kind = false) : (c.ask kind id).missing + 1 = c.missing :=
  sum_missing_modify hd hk

theorem sum_missing_le : ∀ ds : List Declaration,
    (ds.map Declaration.missing).sum ≤ 3 * ds.length
  | [] => Nat.le_refl 0
  | d :: ds => by
    have hd := d.missing_le
    have hds := sum_missing_le ds
    rw [List.map_cons, List.sum_cons, List.length_cons]
    omega

theorem missing_le (c : Catalog) : c.missing ≤ 3 * c.types.length := sum_missing_le c.types

/-! ### Asking for blocks -/

theorem addRequest_cases (c : Catalog) (kind : BlockKind) (id : Nat) :
    (c.addRequest kind id = (c, none) ∧ ∀ d, c.get? id = some d → d.requests? kind = true) ∨
      ∃ d, c.get? id = some d ∧ d.requests? kind = false ∧
        c.addRequest kind id = (c.ask kind id, some d.requests.length) := by
  unfold addRequest
  cases hd : c.get? id with
  | none => exact .inl ⟨rfl, fun _ h => nomatch h⟩
  | some d =>
    by_cases hk : d.requests? kind = true
    · left
      refine ⟨by simp [hk], fun e he => ?_⟩
      obtain rfl := Option.some.inj he
      exact hk
    · right
      exact ⟨d, rfl, by simpa using hk, by simp [hk]; rfl⟩

/-- What asking for one of the blocks keeps, asking for all of them keeps. The property may speak of
the queue that the new requests are put at the end of. -/
theorem addRequests_preserves {P : Catalog → List Visit → Prop} {kind : BlockKind} {depth : Nat} :
    ∀ {ids : List Nat} {c : Catalog} (queue : List Visit),
      (∀ {c : Catalog} {queue : List Visit} {id : Nat} {d : Declaration}, id ∈ ids → P c queue →
        c.get? id = some d → d.requests? kind = false →
        P (c.ask kind id) (queue ++ [⟨id, d.requests.length, depth⟩])) →
      P c queue → P (c.addRequests kind depth ids).1 (queue ++ (c.addRequests kind depth ids).2)
  | [], c, queue, _, h => by simpa [addRequests] using h
  | id :: ids, c, queue, hP, h => by
    unfold addRequests
    have hrest : ∀ {c : Catalog} {queue : List Visit} {i : Nat} {d : Declaration}, i ∈ ids →
        P c queue → c.get? i = some d → d.requests? kind = false →
        P (c.ask kind i) (queue ++ [⟨i, d.requests.length, depth⟩]) :=
      fun hi => hP (List.mem_cons_of_mem _ hi)
    rcases addRequest_cases c kind id with ⟨heq, -⟩ | ⟨d, hd, hk, heq⟩
    · rw [heq]
      simpa using addRequests_preserves _ hrest h
    · rw [heq]
      have hnext := hP List.mem_cons_self h hd hk
      simpa using addRequests_preserves _ hrest hnext

/-- After asking for blocks of a kind they are all asked for. -/
theorem hasAll_addRequests {kind : BlockKind} {depth : Nat} : ∀ {ids : List Nat} {c : Catalog},
    (∀ id ∈ ids, ∃ d, c.get? id = some d) → (c.addRequests kind depth ids).1.HasAll kind ids
  | [], c, _ => fun _ h => absurd h List.not_mem_nil
  | id :: ids, c, h => by
    obtain ⟨d, hd⟩ := h id List.mem_cons_self
    unfold addRequests
    dsimp only
    -- the first block is asked for at once, and stays so
    have hfirst : (c.addRequest kind id).1.HasAll kind [id] := by
      intro i hi
      obtain rfl := List.mem_singleton.1 hi
      rcases addRequest_cases c kind i with ⟨heq, hall⟩ | ⟨e, he, -, heq⟩
      · rw [heq]
        exact ⟨d, hd, hall d hd⟩
      · rw [heq]
        exact ⟨e.ask kind, get?_ask_self he kind, by simp [Declaration.requests?_ask]⟩
    have hstill : ((c.addRequest kind id).1.addRequests kind depth ids).1.HasAll kind [id] :=
      addRequests_preserves (P := fun c _ => c.HasAll kind [id]) []
        (fun _ hall _ _ => hall.ask kind _) hfirst
    have hthere : ∀ i ∈ ids, ∃ d, (c.addRequest kind id).1.get? i = some d := by
      intro i hi
      obtain ⟨e, he⟩ := h i (List.mem_cons_of_mem _ hi)
      rcases addRequest_cases c kind id with ⟨heq, -⟩ | ⟨_, _, -, heq⟩
      · exact ⟨e, by rw [heq]; exact he⟩
      · rw [heq]
        by_cases hne : id = i
        · exact ⟨e.ask kind, by subst hne; exact get?_ask_self he kind⟩
        · exact ⟨e, (get?_ask_ne hne kind).trans he⟩
    intro i hi
    rcases List.mem_cons.1 hi with rfl | hi
    · exact hstill i (List.mem_singleton.2 rfl)
    · exact hasAll_addRequests hthere i hi

/-- What holds while discovery works through its queue, from the catalog `c₀` on. Only structs that
are not generic have got requests, all of these are wanted, and a request that is not in the queue
has all that it refers to. -/
structure Frontier (c₀ : Catalog) (rules : NamingRules) (c : Catalog) (queue : List Visit) :
    Prop where
  asked : c₀.AskedMore c
  queued : ∀ v ∈ queue, c₀.isPlainStruct v.id = true
  others : ∀ id, c₀.isPlainStruct id = false → c.get? id = c₀.get? id
  sound : ∀ id d, c₀.isPlainStruct id = true → c.get? id = some d →
    ∀ r ∈ d.requests, c₀.Wanted rules id r
  closed : ∀ id d i r, c₀.isPlainStruct id = true → c.get? id = some d →
    d.requests[i]? = some r →
    (∃ v ∈ queue, v.id = id ∧ v.request = i) ∨ c.HasAll r.kind (c₀.referenced rules d r)

namespace Frontier

variable {rules : NamingRules} {queue : List Visit}

theorem start (c : Catalog) (rules : NamingRules) : Frontier c rules c c.seeds where
  asked := .refl c
  queued v hv := by
    obtain ⟨id, hid, hv⟩ := List.mem_flatMap.1 hv
    obtain ⟨i, -, rfl⟩ := List.mem_map.1 hv
    exact (List.mem_filter.1 hid).2
  others _ _ := rfl
  sound _ _ hp hd _ hr := .asked hp hd hr
  closed id d i r hp hd hr := by
    left
    have hlt : id < c.types.length := (List.getElem?_eq_some_iff.1 hd).1
    have hi : i < d.requests.length := (List.getElem?_eq_some_iff.1 hr).1
    refine ⟨⟨id, i, 0⟩, ?_, rfl, rfl⟩
    refine List.mem_flatMap.2 ⟨id, List.mem_filter.2 ⟨List.mem_range.2 hlt, hp⟩, ?_⟩
    exact List.mem_map.2 ⟨i, by simp [hd, hi], rfl⟩

/-- A block that a wanted one refers to may be asked for. -/
theorem ask (h : Frontier c₀ rules c queue) {source target : Nat} {d₀ e : Declaration}
    {r : BlockRequest} (hw : c₀.Wanted rules source r) (hd₀ : c₀.get? source = some d₀)
    (ht : target ∈ c₀.referenced rules d₀ r) (he : c.get? target = some e)
    (hk : e.requests? r.kind = false) (depth : Nat) :
    Frontier c₀ rules (c.ask r.kind target) (queue ++ [⟨target, e.requests.length, depth⟩]) := by
  have hplain : c₀.isPlainStruct target = true := isPlainStruct_of_mem_referenced ht
  have hwanted : c₀.Wanted rules target (.found r.kind) := by
    rcases h.asked.get?_cases target with ⟨-, hno⟩ | ⟨e₀, e', he₀, he', hmore⟩
    · rw [hno] at he
      cases he
    · obtain rfl := Option.some.inj (he.symm.trans he')
      refine .found hw hd₀ ht he₀ ?_
      by_contra hk₀
      rw [hmore.requests? (by simpa using hk₀)] at hk
      cases hk
  refine ⟨h.asked.ask _ _, ?_, ?_, ?_, ?_⟩
  · intro v hv
    rcases List.mem_append.1 hv with hv | hv
    · exact h.queued v hv
    · obtain rfl := List.mem_singleton.1 hv
      exact hplain
  · intro id hno
    have hne : target ≠ id := by
      rintro rfl
      rw [hplain] at hno
      cases hno
    rw [get?_ask_ne hne, h.others id hno]
  · intro id d hp hd q hq
    by_cases hne : target = id
    · subst hne
      rw [get?_ask_self he] at hd
      obtain rfl := Option.some.inj hd
      rcases List.mem_append.1 hq with hq | hq
      · exact h.sound target e hp he q hq
      · obtain rfl := List.mem_singleton.1 hq
        exact hwanted
    · rw [get?_ask_ne hne] at hd
      exact h.sound id d hp hd q hq
  · intro id d i q hp hd hq
    rcases request_ask_cases he hd hq with ⟨old, hold, hq', hsame⟩ | ⟨rfl, rfl⟩
    · have hrefers : c₀.referenced rules d q = c₀.referenced rules old q := by
        rcases hsame with rfl | rfl <;> rfl
      rw [hrefers]
      rcases h.closed id old i q hp hold hq' with ⟨v, hv, hid⟩ | hall
      · exact .inl ⟨v, List.mem_append_left _ hv, hid⟩
      · exact .inr (hall.ask _ _)
    · -- the new request is in the queue
      exact .inl ⟨_, List.mem_append_right _ (List.mem_singleton.2 rfl), rfl, rfl⟩

theorem drop {v : Visit} (h : Frontier c₀ rules c (v :: queue))
    (hdone : ∀ d r, c.get? v.id = some d → d.requests[v.request]? = some r →
      c.HasAll r.kind (c₀.referenced rules d r)) : Frontier c₀ rules c queue where
  asked := h.asked
  queued w hw := h.queued w (List.mem_cons_of_mem _ hw)
  others := h.others
  sound := h.sound
  closed id d i r hp hd hr := by
    rcases h.closed id d i r hp hd hr with ⟨w, hw, rfl, rfl⟩ | hall
    · rcases List.mem_cons.1 hw with rfl | hw
      · exact .inr (hdone d r hd hr)
      · exact .inl ⟨w, hw, rfl, rfl⟩
    · exact .inr hall

/-- Blocks that a wanted one refers to may all be asked for, and a request that is there stays in
its place. -/
theorem askAll (h : Frontier c₀ rules c queue) {source : Nat} {d₀ d : Declaration} {i : Nat}
    {r : BlockRequest} (hw : c₀.Wanted rules source r) (hd₀ : c₀.get? source = some d₀)
    (hd : c.get? source = some d) (hr : d.requests[i]? = some r) (ids : List Nat)
    (hids : ∀ id ∈ ids, id ∈ c₀.referenced rules d₀ r) (depth : Nat) :
    Frontier c₀ rules (c.addRequests r.kind depth ids).1
        (queue ++ (c.addRequests r.kind depth ids).2) ∧
      (∃ e, (c.addRequests r.kind depth ids).1.get? source = some e ∧ e.requests[i]? = some r) ∧
      (queue ++ (c.addRequests r.kind depth ids).2).length +
          (c.addRequests r.kind depth ids).1.missing = queue.length + c.missing := by
  refine addRequests_preserves
    (P := fun c' queue' => Frontier c₀ rules c' queue' ∧
      (∃ e, c'.get? source = some e ∧ e.requests[i]? = some r) ∧
      queue'.length + c'.missing = queue.length + c.missing)
    queue ?_ ⟨h, ⟨d, hd, hr⟩, rfl⟩
  rintro c' queue' id e hid ⟨hf, ⟨x, hx, hxr⟩, hcount⟩ he hk
  refine ⟨hf.ask hw hd₀ (hids id hid) he hk depth, ?_, ?_⟩
  · by_cases hne : id = source
    · subst hne
      obtain rfl := Option.some.inj (he.symm.trans hx)
      refine ⟨_, get?_ask_self he r.kind, ?_⟩
      have hlt : i < e.requests.length := (List.getElem?_eq_some_iff.1 hxr).1
      rw [← hxr]
      exact List.getElem?_append_left hlt
    · exact ⟨x, (get?_ask_ne hne r.kind).trans hx, hxr⟩
  · have hmissing := missing_ask he hk
    simp only [List.length_append, List.length_singleton]
    omega

/-- **A step** takes a block from the queue, and puts in as many as were missing and now are not. -/
theorem visit {config : Config} (hdepth : config.discovery.maxDepth = 0) {v : Visit}
    (h : Frontier c₀ config.naming c (v :: queue)) :
    Frontier c₀ config.naming (c.visit config v).1 (queue ++ (c.visit config v).2) ∧
      (queue ++ (c.visit config v).2).length + (c.visit config v).1.missing =
        queue.length + c.missing := by
  unfold Catalog.visit
  cases hd : c.get? v.id with
  | none =>
    refine ⟨?_, by simp⟩
    rw [List.append_nil]
    refine h.drop fun d r hd' _ => ?_
    rw [hd] at hd'
    cases hd'
  | some d =>
    dsimp only
    cases hr : d.requests[v.request]? with
    | none =>
      refine ⟨?_, by simp⟩
      rw [List.append_nil]
      refine h.drop fun d' r hd' hr' => ?_
      obtain rfl := Option.some.inj (hd.symm.trans hd')
      rw [hr] at hr'
      cases hr'
    | some r =>
      dsimp only
      have hin : withinDepth config.discovery (v.depth + 1) = true := by
        simp [withinDepth, hdepth]
      rw [if_pos hin]
      have hplain := h.queued v List.mem_cons_self
      have hwanted := h.sound v.id d hplain hd r (List.mem_of_getElem? hr)
      rcases h.asked.get?_cases v.id with ⟨-, hno⟩ | ⟨d₀, d', hd₀, hd', hmore⟩
      · rw [hno] at hd
        cases hd
      obtain rfl := Option.some.inj (hd.symm.trans hd')
      rw [h.asked.referenced_eq hmore config.naming r]
      obtain ⟨hnext, ⟨e, he, her⟩, hcount⟩ :=
        h.askAll hwanted hd₀ hd hr (c₀.referenced config.naming d₀ r) (fun _ hi => hi) (v.depth + 1)
      have hthere : ∀ id ∈ c₀.referenced config.naming d₀ r, ∃ d, c.get? id = some d := by
        intro id hid
        have hp : c.isPlainStruct id = true := by
          rw [h.asked.isPlainStruct_eq]
          exact isPlainStruct_of_mem_referenced hid
        exact exists_of_isPlainStruct hp
      have hall : (c.addRequests r.kind (v.depth + 1) (c₀.referenced config.naming d₀ r)).1.HasAll
          r.kind (c₀.referenced config.naming d₀ r) := hasAll_addRequests hthere
      refine ⟨hnext.drop fun d' r' hd' hr' => ?_, ?_⟩
      · obtain rfl := Option.some.inj (he.symm.trans hd')
        obtain rfl := Option.some.inj (her.symm.trans hr')
        rcases hnext.asked.get?_cases v.id with ⟨hno, -⟩ | ⟨x, x', hx, hx', hmore'⟩
        · rw [hno] at hd₀
          cases hd₀
        obtain rfl := Option.some.inj (hx.symm.trans hd₀)
        obtain rfl := Option.some.inj (hx'.symm.trans he)
        rwa [(AskedMore.refl c₀).referenced_eq hmore' config.naming]
      · simp only [List.cons_append, List.length_cons] at hcount
        omega

/-- **A run of the queue** ends with an empty one when the limit is at least the number of blocks in
the queue and of blocks that are missing. -/
theorem reachFrom {config : Config} (hdepth : config.discovery.maxDepth = 0) :
    ∀ {limit : Nat} {c : Catalog} {queue : List Visit}, Frontier c₀ config.naming c queue →
      queue.length + c.missing ≤ limit →
      Frontier c₀ config.naming (Catalog.reachFrom config limit c queue) []
  | limit, c, [], h, _ => by
    cases limit <;> exact h
  | 0, c, v :: queue, _, hle => by simp at hle
  | limit + 1, c, v :: queue, h, hle => by
    obtain ⟨hnext, hcount⟩ := h.visit hdepth
    rw [List.length_cons] at hle
    have hle' : (queue ++ (c.visit config v).2).length + (c.visit config v).1.missing ≤ limit := by
      omega
    show Frontier c₀ config.naming
      (Catalog.reachFrom config limit (c.visit config v).1 (queue ++ (c.visit config v).2)) []
    exact reachFrom hdepth hnext hle'

end Frontier

/-! ### Any discovery -/

section Reach

variable {config : Config} (hdepth : config.discovery.maxDepth = 0)
include hdepth

theorem frontier_reach (c : Catalog) : Frontier c config.naming (c.reach config) [] :=
  (Frontier.start c config.naming).reachFrom hdepth
    (Nat.add_le_add_left (missing_le c) c.seeds.length)

/-- **A block has all that it refers to.** -/
theorem hasAll_reach {id : Nat} {d : Declaration} (hp : c.isPlainStruct id = true)
    (hd : (c.reach config).get? id = some d) {r : BlockRequest} (hr : r ∈ d.requests) :
    (c.reach config).HasAll r.kind (c.referenced config.naming d r) := by
  obtain ⟨i, hi⟩ := List.mem_iff_getElem?.1 hr
  rcases (frontier_reach hdepth c).closed id d i r hp hd hi with ⟨v, hv, -⟩ | hall
  · exact absurd hv List.not_mem_nil
  · exact hall

theorem mem_requests_of_wanted {id : Nat} {r : BlockRequest} (hw : c.Wanted config.naming id r) :
    ∀ {d : Declaration}, (c.reach config).get? id = some d → r ∈ d.requests := by
  have hend := frontier_reach hdepth c
  induction hw with
  | @asked id d₀ r hp hd₀ hr =>
    intro d hd
    rcases hend.asked.get?_cases id with ⟨-, hno⟩ | ⟨e₀, e, he₀, he, kinds, rfl⟩
    · rw [hno] at hd
      cases hd
    · obtain rfl := Option.some.inj (he.symm.trans hd)
      obtain rfl := Option.some.inj (he₀.symm.trans hd₀)
      exact List.mem_append_left _ hr
  | @found id target d₀ e₀ r hw hd₀ ht he₀ hk ih =>
    intro e he
    rcases hend.asked.get?_cases id with ⟨hno, -⟩ | ⟨x₀, x, hx₀, hx, hmore⟩
    · rw [hno] at hd₀
      cases hd₀
    obtain rfl := Option.some.inj (hx₀.symm.trans hd₀)
    -- the block that refers to the target is asked for, so the target is asked for its kind
    have hall := hasAll_reach hdepth hw.isPlainStruct hx (ih hx)
    rw [(AskedMore.refl c).referenced_eq hmore config.naming] at hall
    obtain ⟨y, hy, hyk⟩ := hall target ht
    obtain rfl := Option.some.inj (hy.symm.trans he)
    rcases hend.asked.get?_cases target with ⟨hno, -⟩ | ⟨z₀, z, hz₀, hz, kinds, rfl⟩
    · rw [hno] at he₀
      cases he₀
    obtain rfl := Option.some.inj (hz₀.symm.trans he₀)
    obtain rfl := Option.some.inj (hz.symm.trans hy)
    -- it was not asked for at the start, so the request is a new one
    simp only [Declaration.requests?, List.any_append, Bool.or_eq_true] at hyk hk
    rw [hk] at hyk
    obtain ⟨q, hq, hqk⟩ := List.any_eq_true.1 (hyk.resolve_left Bool.false_ne_true)
    obtain ⟨kind, hkind, rfl⟩ := List.mem_map.1 hq
    have hsame : kind = r.kind := of_decide_eq_true hqk
    exact List.mem_append_right _ (List.mem_map.2 ⟨kind, hkind, by rw [hsame]⟩)

/-- **The requests that come out are those that are wanted.** -/
theorem mem_requests_reach_iff {id : Nat} {d : Declaration} (hp : c.isPlainStruct id = true)
    (hd : (c.reach config).get? id = some d) (r : BlockRequest) :
    r ∈ d.requests ↔ c.Wanted config.naming id r :=
  ⟨fun hr => (frontier_reach hdepth c).sound id d hp hd r hr,
    fun hw => mem_requests_of_wanted hdepth hw hd⟩

end Reach

section Preserves

variable {P : Catalog → Prop} {K : BlockKind → Prop} (htype : K .type)
  (hkinds : ∀ {c : Catalog}, P c → ∀ d ∈ c.types, ∀ r ∈ d.requests, K r.kind)
  (hask : ∀ {c : Catalog} {kind : BlockKind} (id : Nat), P c → K kind → P (c.ask kind id))

include hask in
theorem addRequests_keeps {kind : BlockKind} (hk : K kind) (depth : Nat) (ids : List Nat)
    (h : P c) : P (c.addRequests kind depth ids).1 :=
  addRequests_preserves (P := fun c _ => P c) []
    (fun {_ _ id _} _ hc _ _ => hask id hc hk) h

include hkinds hask

theorem visit_keeps (config : Config) (v : Visit) (h : P c) : P (c.visit config v).1 := by
  unfold visit
  cases hd : c.get? v.id with
  | none => exact h
  | some d =>
    dsimp only
    cases hr : d.requests[v.request]? with
    | none => exact h
    | some r =>
      dsimp only
      split
      · have hk : K r.kind :=
          hkinds h d (List.mem_of_getElem? hd) r (List.mem_of_getElem? hr)
        exact addRequests_keeps hask hk _ _ h
      · exact h

theorem reachFrom_keeps (config : Config) : ∀ (limit : Nat) {c : Catalog} (queue : List Visit),
    P c → P (reachFrom config limit c queue)
  | limit, c, [], h => by
    cases limit <;> exact h
  | 0, c, _ :: _, h => h
  | limit + 1, c, v :: queue, h => by
    have hnext : P (c.visit config v).1 := visit_keeps hkinds hask config v h
    show P (reachFrom config limit (c.visit config v).1 (queue ++ (c.visit config v).2))
    exact reachFrom_keeps config limit _ hnext

include htype in
/-- **What asking for a block keeps, discovery keeps**, whatever its strategy. -/
theorem addDiscovered_keeps {config : Config} {c' : Catalog} (h : P c)
    (hc : c.addDiscovered config = .ok c') : P c' := by
  unfold addDiscovered at hc
  split at hc
  · obtain rfl := Except.ok.inj hc
    exact h
  · obtain rfl := Except.ok.inj hc
    exact reachFrom_keeps hkinds hask config _ _ h
  · obtain rfl := Except.ok.inj hc
    exact reachFrom_keeps hkinds hask config _ _ (addRequests_keeps hask htype _ _ h)
  · obtain ⟨patterns, -, rfl⟩ := Outcome.map_eq_ok_iff.1 hc
    exact addRequests_keeps hask htype _ _ h

end Preserves

end Catalog

end GoSchema
