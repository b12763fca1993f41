/-
# Discovery without inputs

A block leads to blocks of its own kind only, so discovery works through the inputs and the other
blocks side by side in one queue. Where the inputs are taken away, the queue is what it was without
the visits to inputs, and a visit to any other block has the number that the request has among those
that remain. Both queues are worked off, so the limits on their steps are of no account.

Key definitions: `Catalog.IsVisit`, `Catalog.keptVisit`.
Key theorems: `AskedMore.keptVisit_eq`, `ask_withoutInputs`, `visit_withoutInputs`,
`visit_of_keptVisit_eq_none`, `reachFrom_withoutInputs`, `seeds_withoutInputs`,
`addDiscovered_withoutInputs`.
-/
import Mathlib.Data.List.Induction
import GoSchema.Proofs.DiscoveredRequests
import GoSchema.Proofs.WithoutInputs

namespace GoSchema

/-- Another request stands behind those that remain, unless it is for an input. -/
theorem Declaration.ask_withoutInputs (d : Declaration) (kind : BlockKind) :
    (d.ask kind).withoutInputs =
      if kind = .input then d.withoutInputs else d.withoutInputs.ask kind := by
  by_cases h : kind = .input
  · simp [Declaration.ask, Declaration.withoutInputs, BlockRequest.isKept, BlockRequest.found, h]
  · simp [Declaration.ask, Declaration.withoutInputs, BlockRequest.isKept, BlockRequest.found, h]

namespace Catalog

variable {c c' : Catalog} {kind : BlockKind} {v : Visit}

/-! ### Visits -/

/-- Whether the request of a visit is there. -/
def IsVisit (c : Catalog) (v : Visit) : Prop :=
  ∃ d r, c.get? v.id = some d ∧ d.requests[v.request]? = some r

/-- The visit to the same request after the inputs are taken away, unless it is one of them. -/
def keptVisit (c : Catalog) (v : Visit) : Option Visit :=
  (c.get? v.id).bind fun d => (d.requests[v.request]?.filter BlockRequest.isKept).map fun _ =>
    { v with request := (d.requests.take v.request).countP BlockRequest.isKept }

theorem getElem?_filter_countP {p : BlockRequest → Bool} : ∀ {rs : List BlockRequest} {i : Nat}
    {r : BlockRequest}, rs[i]? = some r → p r = true →
      (rs.filter p)[(rs.take i).countP p]? = some r
  | a :: rs, 0, r, h, hp => by
    obtain rfl : a = r := by simpa using h
    simp [hp]
  | a :: rs, i + 1, r, h, hp => by
    have hrest : rs[i]? = some r := by simpa using h
    have ih := getElem?_filter_countP hrest hp
    rw [List.take_succ_cons, List.filter_cons, List.countP_cons]
    split <;> simp_all

theorem keptVisit_cases (hv : c.IsVisit v) : ∃ d r, c.get? v.id = some d ∧
    d.requests[v.request]? = some r ∧
      ((r.kind = .input ∧ c.keptVisit v = none) ∨
        ∃ i, r.kind ≠ .input ∧ c.keptVisit v = some { v with request := i } ∧
          d.withoutInputs.requests[i]? = some r) := by
  obtain ⟨d, r, hd, hr⟩ := hv
  refine ⟨d, r, hd, hr, ?_⟩
  by_cases hk : r.kind = .input
  · exact .inl ⟨hk, by simp [keptVisit, hd, hr, Option.filter, BlockRequest.isKept, hk]⟩
  · have hkept : r.isKept = true := by simpa [BlockRequest.isKept] using hk
    refine .inr ⟨(d.requests.take v.request).countP BlockRequest.isKept, hk, ?_, ?_⟩
    · simp [keptVisit, hd, hr, Option.filter, hkept]
    · exact getElem?_filter_countP hr hkept

theorem AskedMore.isVisit (h : c.AskedMore c') (hv : c.IsVisit v) : c'.IsVisit v := by
  obtain ⟨d, r, hd, hr⟩ := hv
  rcases h.get?_cases v.id with ⟨hno, -⟩ | ⟨e, e', he, he', kinds, rfl⟩
  · rw [hno] at hd
    cases hd
  · obtain rfl := Option.some.inj (he.symm.trans hd)
    exact ⟨_, r, he', List.getElem?_append_left (List.getElem?_eq_some_iff.1 hr).1 ▸ hr⟩

/-- **The number of a visit stays** when more is asked for. -/
theorem AskedMore.keptVisit_eq (h : c.AskedMore c') (hv : c.IsVisit v) :
    c'.keptVisit v = c.keptVisit v := by
  obtain ⟨d, r, hd, hr⟩ := hv
  rcases h.get?_cases v.id with ⟨hno, -⟩ | ⟨e, e', he, he', kinds, rfl⟩
  · rw [hno] at hd
    cases hd
  · obtain rfl := Option.some.inj (he.symm.trans hd)
    have hlt : v.request < e.requests.length := (List.getElem?_eq_some_iff.1 hr).1
    have hle : v.request ≤ e.requests.length := Nat.le_of_lt hlt
    simp only [keptVisit, he, he', Option.bind_some, List.getElem?_append_left hlt,
      List.take_append_of_le_length hle]

theorem filterMap_keptVisit (h : c.AskedMore c') {queue : List Visit}
    (hqueue : ∀ v ∈ queue, c.IsVisit v) :
    queue.filterMap c'.keptVisit = queue.filterMap c.keptVisit :=
  List.filterMap_congr fun v hv => h.keptVisit_eq (hqueue v hv)

/-! ### Asking for blocks -/

theorem ask_withoutInputs (hk : kind ≠ .input) (id : Nat) :
    (c.ask kind id).withoutInputs = c.withoutInputs.ask kind id :=
  c.modify_withoutInputs (fun d => by rw [Declaration.ask_withoutInputs, if_neg hk]) id

theorem ask_input_withoutInputs (id : Nat) :
    (c.ask .input id).withoutInputs = c.withoutInputs := by
  have hsame : ∀ d : Declaration, (d.ask .input).withoutInputs = d.withoutInputs :=
    fun d => by rw [Declaration.ask_withoutInputs, if_pos rfl]
  have hmodify := c.modify_withoutInputs (f := Declaration.ask .input) (g := fun d => d) hsame id
  rw [ask, hmodify, modify, show c.withoutInputs.types.modify id (fun d => d) =
    c.withoutInputs.types from List.modify_id _ _]

theorem visit_ask {id : Nat} {d : Declaration} (hd : c.get? id = some d) (kind : BlockKind)
    (depth : Nat) : (c.ask kind id).IsVisit ⟨id, d.requests.length, depth⟩ ∧
      (c.ask kind id).keptVisit ⟨id, d.requests.length, depth⟩ =
        if kind = .input then none else some ⟨id, d.withoutInputs.requests.length, depth⟩ := by
  have hasked := get?_ask_self hd kind
  have hlast : (d.ask kind).requests[d.requests.length]? = some (.found kind) := by
    simp [Declaration.ask]
  refine ⟨⟨_, _, hasked, hlast⟩, ?_⟩
  have htake : (d.ask kind).requests.take d.requests.length = d.requests := by
    simp [Declaration.ask]
  simp only [keptVisit, hasked, hlast, htake, Option.bind_some, List.countP_eq_length_filter,
    Declaration.requests_withoutInputs]
  by_cases h : kind = .input
  · simp [Option.filter, BlockRequest.isKept, BlockRequest.found, h]
  · simp [Option.filter, BlockRequest.isKept, BlockRequest.found, h]

theorem askedMore_addRequests (c : Catalog) (kind : BlockKind) (depth : Nat) (ids : List Nat) :
    c.AskedMore (c.addRequests kind depth ids).1 :=
  addRequests_preserves (P := fun c' _ => c.AskedMore c') [] (fun _ h _ _ => h.ask _ _) (.refl c)

/-- **Inputs that are asked for** leave the rest as it is. -/
theorem addRequests_input (c : Catalog) (depth : Nat) (ids : List Nat) :
    (c.addRequests .input depth ids).1.withoutInputs = c.withoutInputs ∧
      (c.addRequests .input depth ids).2.filterMap (c.addRequests .input depth ids).1.keptVisit =
        [] := by
  let P (c' : Catalog) (queue : List Visit) : Prop := c'.withoutInputs = c.withoutInputs ∧
    ∀ v ∈ queue, c'.IsVisit v ∧ c'.keptVisit v = none
  have hall : P (c.addRequests .input depth ids).1 ([] ++ (c.addRequests .input depth ids).2) := by
    refine addRequests_preserves (P := P) [] ?_ ⟨rfl, nofun⟩
    rintro c' queue id d - ⟨hsame, hqueue⟩ hd -
    refine ⟨(ask_input_withoutInputs id).trans hsame, fun v hv => ?_⟩
    rcases List.mem_append.1 hv with hv | hv
    · have hmore := (AskedMore.refl c').ask .input id
      obtain ⟨hvisit, hnone⟩ := hqueue v hv
      exact ⟨hmore.isVisit hvisit, (hmore.keptVisit_eq hvisit).trans hnone⟩
    · obtain rfl := List.mem_singleton.1 hv
      simpa using visit_ask hd .input depth
  exact ⟨hall.1, List.filterMap_eq_nil_iff.2 fun v hv => (hall.2 v hv).2⟩

theorem addRequests_of_none {id : Nat} (h : c.addRequest kind id = (c, none)) (depth : Nat)
    (ids : List Nat) : c.addRequests kind depth (id :: ids) = c.addRequests kind depth ids := by
  rw [addRequests, h]
  simp

theorem addRequests_of_some {id n : Nat} (h : c.addRequest kind id = (c', some n)) (depth : Nat)
    (ids : List Nat) : c.addRequests kind depth (id :: ids) =
      ((c'.addRequests kind depth ids).1,
        ⟨id, n, depth⟩ :: (c'.addRequests kind depth ids).2) := by
  rw [addRequests, h]
  simp

/-- **Other blocks that are asked for** are asked for without the inputs too. -/
theorem addRequests_withoutInputs (hk : kind ≠ .input) (depth : Nat) : ∀ (ids : List Nat)
    (c : Catalog), c.withoutInputs.addRequests kind depth ids =
      ((c.addRequests kind depth ids).1.withoutInputs,
        (c.addRequests kind depth ids).2.filterMap (c.addRequests kind depth ids).1.keptVisit)
  | [], _ => rfl
  | id :: ids, c => by
    rcases addRequest_cases c kind id with ⟨heq, hall⟩ | ⟨d, hd, hno, heq⟩
    · have hsame : c.withoutInputs.addRequest kind id = (c.withoutInputs, none) := by
        unfold addRequest
        rw [get?_withoutInputs]
        cases hd : c.get? id with
        | none => rfl
        | some d => simp [d.requests?_withoutInputs hk, hall d hd]
      rw [addRequests_of_none heq, addRequests_of_none hsame]
      exact addRequests_withoutInputs hk depth ids c
    · have hsame : c.withoutInputs.addRequest kind id =
          ((c.ask kind id).withoutInputs, some d.withoutInputs.requests.length) := by
        have hno' : d.withoutInputs.requests? kind = false := by
          rw [d.requests?_withoutInputs hk, hno]
        rw [ask_withoutInputs hk]
        unfold addRequest
        rw [get?_withoutInputs, hd]
        simp only [Option.map_some, hno', Bool.false_eq_true, if_false]
        rfl
      obtain ⟨hvisit, hkept⟩ := visit_ask hd kind depth
      rw [if_neg hk] at hkept
      have hmore := askedMore_addRequests (c.ask kind id) kind depth ids
      have hlast := (hmore.keptVisit_eq hvisit).trans hkept
      rw [addRequests_of_some heq, addRequests_of_some hsame,
        addRequests_withoutInputs hk depth ids (c.ask kind id), List.filterMap_cons, hlast]

/-! ### Steps -/

theorem isPlainStruct_withoutInputs : c.withoutInputs.isPlainStruct = c.isPlainStruct := by
  funext id
  cases h : c.get? id <;> simp [isPlainStruct, h]

theorem plainStructs_withoutInputs : c.withoutInputs.plainStructs = c.plainStructs := by
  rw [plainStructs, plainStructs, ids_withoutInputs, isPlainStruct_withoutInputs]

theorem referenced_withoutInputs (rules : NamingRules) (d : Declaration) (r : BlockRequest) :
    c.withoutInputs.referenced rules d.withoutInputs r = c.referenced rules d r := by
  unfold referenced
  simp only [idOfType?_withoutInputs, isPlainStruct_withoutInputs]
  rfl

/-- What asking for one of the blocks keeps, a step keeps. -/
theorem visit_preserves {P : Catalog → List Visit → Prop} (config : Config) (queue : List Visit)
    (hP : ∀ {c : Catalog} {queue : List Visit} {id : Nat} {d : Declaration} {kind : BlockKind}
      {depth : Nat}, P c queue → c.get? id = some d → d.requests? kind = false →
      P (c.ask kind id) (queue ++ [⟨id, d.requests.length, depth⟩]))
    (h : P c queue) : P (c.visit config v).1 (queue ++ (c.visit config v).2) := by
  have hsame : P c (queue ++ []) := by rwa [List.append_nil]
  unfold visit
  cases c.get? v.id with
  | none => exact hsame
  | some d =>
    dsimp only
    cases d.requests[v.request]? with
    | none => exact hsame
    | some r =>
      dsimp only
      split
      · exact addRequests_preserves queue (fun _ => hP) h
      · exact hsame

/-- A step asks for more, puts its visits into the queue, and there is as much less to be asked
for. -/
theorem visit_frame (config : Config) (v : Visit) {queue : List Visit}
    (hqueue : ∀ w ∈ queue, c.IsVisit w) : c.AskedMore (c.visit config v).1 ∧
      (∀ w ∈ queue ++ (c.visit config v).2, (c.visit config v).1.IsVisit w) ∧
      (queue ++ (c.visit config v).2).length + (c.visit config v).1.missing =
        queue.length + c.missing := by
  let P (c' : Catalog) (queue' : List Visit) : Prop := c.AskedMore c' ∧
    (∀ w ∈ queue', c'.IsVisit w) ∧ queue'.length + c'.missing = queue.length + c.missing
  refine visit_preserves (P := P) config queue ?_ ⟨.refl c, hqueue, rfl⟩
  rintro c' queue' id d kind depth ⟨hmore, hvisits, hcount⟩ hd hno
  refine ⟨hmore.ask kind id, fun w hw => ?_, ?_⟩
  · rcases List.mem_append.1 hw with hw | hw
    · exact ((AskedMore.refl c').ask kind id).isVisit (hvisits w hw)
    · obtain rfl := List.mem_singleton.1 hw
      exact (visit_ask hd kind depth).1
  · have hless := missing_ask hd hno
    rw [List.length_append, List.length_singleton]
    omega

/-- A visit to an input does nothing to the rest. -/
theorem visit_of_keptVisit_eq_none (config : Config) (hv : c.IsVisit v)
    (hnone : c.keptVisit v = none) : (c.visit config v).1.withoutInputs = c.withoutInputs ∧
      (c.visit config v).2.filterMap (c.visit config v).1.keptVisit = [] := by
  obtain ⟨d, r, hd, hr, ⟨hk, -⟩ | ⟨i, -, hsome, -⟩⟩ := keptVisit_cases hv
  · unfold visit
    simp only [hd, hr, hk]
    split
    · exact addRequests_input c _ _
    · exact ⟨rfl, rfl⟩
  · rw [hnone] at hsome
    cases hsome

/-- **A visit to any other block** is made without the inputs too. -/
theorem visit_withoutInputs (config : Config) (hv : c.IsVisit v) {v' : Visit}
    (hsome : c.keptVisit v = some v') : c.withoutInputs.visit config v' =
      ((c.visit config v).1.withoutInputs,
        (c.visit config v).2.filterMap (c.visit config v).1.keptVisit) := by
  obtain ⟨d, r, hd, hr, ⟨-, hnone⟩ | ⟨i, hk, hkept, hr'⟩⟩ := keptVisit_cases hv
  · rw [hnone] at hsome
    cases hsome
  · obtain rfl := Option.some.inj (hkept.symm.trans hsome)
    unfold visit
    simp only [get?_withoutInputs, hd, hr, hr', Option.map_some]
    split
    · rw [referenced_withoutInputs, addRequests_withoutInputs hk]
    · rfl

/-- **The queue is worked through alike**, as both limits are large enough. -/
theorem reachFrom_withoutInputs (config : Config) : ∀ {limit limit' : Nat} {c : Catalog}
    {queue : List Visit}, (∀ v ∈ queue, c.IsVisit v) → queue.length + c.missing ≤ limit →
      (queue.filterMap c.keptVisit).length + c.withoutInputs.missing ≤ limit' →
      reachFrom config limit' c.withoutInputs (queue.filterMap c.keptVisit) =
        (reachFrom config limit c queue).withoutInputs
  | limit, limit', c, [], _, _, _ => by
    cases limit <;> cases limit' <;> rfl
  | 0, _, _, _ :: _, _, hle, _ => by simp at hle
  | limit + 1, limit', c, v :: queue, hvisits, hle, hle' => by
    obtain ⟨hv, hqueue⟩ := List.forall_mem_cons.1 hvisits
    obtain ⟨hmore, hnext, hcount⟩ := visit_frame config v hqueue
    have hle : (queue ++ (c.visit config v).2).length + (c.visit config v).1.missing ≤ limit := by
      rw [List.length_cons] at hle
      omega
    have hold : queue.filterMap (c.visit config v).1.keptVisit = queue.filterMap c.keptVisit :=
      filterMap_keptVisit hmore hqueue
    show _ = (reachFrom config limit (c.visit config v).1
      (queue ++ (c.visit config v).2)).withoutInputs
    cases hkept : c.keptVisit v with
    | none =>
      obtain ⟨hsame, hnone⟩ := visit_of_keptVisit_eq_none config hv hkept
      have hrest : (queue ++ (c.visit config v).2).filterMap (c.visit config v).1.keptVisit =
          (v :: queue).filterMap c.keptVisit := by
        rw [List.filterMap_append, hold, hnone, List.append_nil, List.filterMap_cons, hkept]
      rw [← hsame, ← hrest] at hle' ⊢
      exact reachFrom_withoutInputs config hnext hle hle'
    | some v' =>
      have hstep := visit_withoutInputs config hv hkept
      have hrest : (v :: queue).filterMap c.keptVisit = v' :: queue.filterMap c.keptVisit := by
        rw [List.filterMap_cons, hkept]
      have hnone : ∀ w ∈ ([] : List Visit), c.withoutInputs.IsVisit w := nofun
      obtain ⟨-, -, hcount'⟩ := visit_frame config v' hnone
      rw [hstep] at hcount'
      rw [hrest] at hle' ⊢
      cases limit' with
      | zero => simp at hle'
      | succ limit' =>
        show reachFrom config limit' (c.withoutInputs.visit config v').1
          (queue.filterMap c.keptVisit ++ (c.withoutInputs.visit config v').2) = _
        rw [hstep, ← hold, ← List.filterMap_append]
        refine reachFrom_withoutInputs config hnext hle ?_
        rw [List.filterMap_append, hold]
        simp only [List.length_append, List.length_cons, List.length_nil] at hcount' hle' ⊢
        omega

/-- The numbers of requests that remain count up from zero. -/
theorem filterMap_range (rs : List BlockRequest) {β : Type} (f : Nat → β) :
    (List.range rs.length).filterMap (fun i => (rs[i]?.filter BlockRequest.isKept).map fun _ =>
        f ((rs.take i).countP BlockRequest.isKept)) =
      (List.range (rs.filter BlockRequest.isKept).length).map f := by
  induction rs using List.reverseRecOn with
  | nil => rfl
  | append_singleton rs r ih =>
    have hfirst : ∀ i ∈ List.range rs.length,
        (((rs ++ [r])[i]?.filter BlockRequest.isKept).map fun _ =>
          f (((rs ++ [r]).take i).countP BlockRequest.isKept)) =
        (rs[i]?.filter BlockRequest.isKept).map fun _ =>
          f ((rs.take i).countP BlockRequest.isKept) := by
      intro i hi
      have hlt := List.mem_range.1 hi
      rw [List.getElem?_append_left hlt, List.take_append_of_le_length (Nat.le_of_lt hlt)]
    rw [List.length_append, List.length_singleton, List.range_succ, List.filterMap_append,
      List.filterMap_congr hfirst, ih]
    cases hr : r.isKept with
    | true =>
      simp [Option.filter, hr, List.countP_eq_length_filter, List.range_succ]
    | false => simp [Option.filter, hr]

theorem isVisit_seeds (c : Catalog) : ∀ v ∈ c.seeds, c.IsVisit v := by
  intro v hv
  obtain ⟨id, -, hv⟩ := List.mem_flatMap.1 hv
  obtain ⟨i, hi, rfl⟩ := List.mem_map.1 hv
  cases hd : c.get? id with
  | none => simp [hd] at hi
  | some d =>
    have hlt : i < d.requests.length := by simpa [hd] using hi
    exact ⟨d, _, hd, List.getElem?_eq_getElem hlt⟩

theorem seeds_withoutInputs (c : Catalog) :
    c.withoutInputs.seeds = c.seeds.filterMap c.keptVisit := by
  unfold seeds
  rw [plainStructs_withoutInputs, List.filterMap_flatMap]
  congr 1
  funext id
  rw [get?_withoutInputs, List.filterMap_map]
  cases hd : c.get? id with
  | none => rfl
  | some d =>
    have hnumbers := filterMap_range d.requests fun i => (⟨id, i, 0⟩ : Visit)
    simp only [Option.map_some, Option.getD_some, Declaration.requests_withoutInputs]
    rw [← hnumbers]
    congr 1
    funext i
    simp [keptVisit, hd]

theorem reach_withoutInputs (c : Catalog) (config : Config) :
    c.withoutInputs.reach config = (c.reach config).withoutInputs := by
  unfold reach
  rw [seeds_withoutInputs]
  refine reachFrom_withoutInputs config (isVisit_seeds c) ?_ ?_
  · exact Nat.add_le_add_left (missing_le c) _
  · exact Nat.add_le_add_left (missing_le c.withoutInputs) _

/-- **Discovery does the same** to a catalog without its inputs, whatever its strategy. -/
theorem addDiscovered_withoutInputs (c : Catalog) (config : Config) :
    c.withoutInputs.addDiscovered config =
      (c.addDiscovered config).map Catalog.withoutInputs := by
  have hadd : ∀ ids, (c.withoutInputs.addRequests .type 0 ids).1 =
      (c.addRequests .type 0 ids).1.withoutInputs :=
    fun ids => congrArg Prod.fst (addRequests_withoutInputs (by decide) 0 ids c)
  unfold addDiscovered
  rw [plainStructs_withoutInputs]
  split
  · rfl
  · rw [reach_withoutInputs]
    rfl
  · rw [hadd, reach_withoutInputs]
    rfl
  · simp only [nameOf_withoutInputs, hadd]
    cases readPatterns config.discovery.patterns <;> rfl

end Catalog

end GoSchema
