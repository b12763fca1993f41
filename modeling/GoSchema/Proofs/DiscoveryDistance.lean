/-
# The distance of discovery

Discovery with a limit on the distance asks for exactly the blocks that a path of at most so many
steps leads to. A step goes from a requested block through a field that the block shows, and ends in
a struct that nothing asked for; the block that is asked for there is a plain one. The queue is
worked off level by level: the blocks at the front are at one distance, the ones behind them at the
next, and a block is put in only if no shorter path leads to it. So no block is first met on a path
that is longer than need be, which the limit might cut off.

Key definitions: `Catalog.RefersTo`, `Catalog.WantedAt`, `Declaration.AskedOnce`, `Catalog.Holds`,
`Level`, `VisitStep`.
Key theorems: `Catalog.mem_referenced_iff`, `Level.ask`, `Level.advance`, `Level.visit`,
`Level.run`, `Catalog.addDiscovered_within`.
-/
import GoSchema.Proofs.DiscoveredRequests
import Mathlib.Logic.Relation

namespace GoSchema

namespace Declaration

/-- The declaration with requests that discovery added, at most one for a kind of block, and none
for a kind that was asked for. -/
def AskedOnce (d d' : Declaration) : Prop :=
  ∃ kinds : List BlockKind, d' = { d with requests := d.requests ++ kinds.map .found } ∧
    kinds.Nodup ∧ ∀ kind ∈ kinds, d.requests? kind = false

theorem AskedOnce.refl (d : Declaration) : AskedOnce d d :=
  ⟨[], by simp, List.nodup_nil, fun _ h => absurd h List.not_mem_nil⟩

theorem requests?_append_found (d : Declaration) (kinds : List BlockKind) (kind : BlockKind) :
    ({ d with requests := d.requests ++ kinds.map .found } : Declaration).requests? kind = true ↔
      d.requests? kind = true ∨ kind ∈ kinds := by
  have hfound : ∀ k : BlockKind, decide ((BlockRequest.found k).kind = kind) = decide (k = kind) :=
    fun _ => rfl
  simp only [Declaration.requests?, List.any_append, Bool.or_eq_true, List.any_map,
    Function.comp_def, hfound]
  simp

/-- One more request, for a kind that nothing asked for so far. -/
theorem AskedOnce.ask {d d' : Declaration} (h : AskedOnce d d') {kind : BlockKind}
    (hk : d'.requests? kind = false) : AskedOnce d (d'.ask kind) := by
  obtain ⟨kinds, rfl, hnodup, hnew⟩ := h
  obtain ⟨hd, hmem⟩ : d.requests? kind = false ∧ kind ∉ kinds := by
    have hno := (requests?_append_found d kinds kind).not.1 (by simp [hk])
    simpa using hno
  refine ⟨kinds ++ [kind], by simp [Declaration.ask], ?_, ?_⟩
  · rw [List.nodup_append]
    refine ⟨hnodup, List.nodup_singleton _, ?_⟩
    rintro x hx y hy rfl
    exact hmem (List.mem_singleton.1 hy ▸ hx)
  · intro x hx
    rcases List.mem_append.1 hx with hx | hx
    · exact hnew x hx
    · rwa [List.mem_singleton.1 hx]

/-- A kind that is asked for now and was not before has a discovered request. -/
theorem AskedOnce.found_mem {d d' : Declaration} (h : AskedOnce d d') {kind : BlockKind}
    (hd : d.requests? kind = false) (hd' : d'.requests? kind = true) :
    BlockRequest.found kind ∈ d'.requests := by
  obtain ⟨kinds, rfl, -, -⟩ := h
  rcases (requests?_append_found d kinds kind).1 hd' with hno | hmem
  · exact nomatch hd.symm.trans hno
  · exact List.mem_append_right _ (List.mem_map_of_mem hmem)

theorem requests?_of_mem {d : Declaration} {r : BlockRequest} (h : r ∈ d.requests) :
    d.requests? r.kind = true := List.any_eq_true.2 ⟨r, h, by simp⟩

end Declaration

namespace Catalog

variable {c c₀ : Catalog}

/-! ### Paths -/

/-- A field that a block shows, and that has no type text, leads to a struct that is not generic,
behind any pointers, slices and arrays. -/
def RefersTo (c : Catalog) (rules : NamingRules) (d : Declaration) (r : BlockRequest)
    (target : Nat) : Prop :=
  ∃ f ∈ d.body.fields, f.options.typeText = none ∧ d.shows rules r f = true ∧
    ∃ e, c.find f.type.innermost = some (target, e) ∧ e.isRecord = true ∧ e.isGeneric = false

theorem mem_referenced_iff {rules : NamingRules} {d : Declaration} {r : BlockRequest}
    {target : Nat} : target ∈ c.referenced rules d r ↔ c.RefersTo rules d r target := by
  have hplain : ∀ id, c.isPlainStruct id = true ↔
      ∃ e, c.get? id = some e ∧ e.isRecord = true ∧ e.isGeneric = false := by
    intro id
    unfold isPlainStruct
    cases c.get? id <;> simp
  unfold referenced RefersTo
  constructor
  · intro h
    obtain ⟨f, hf, hid⟩ := List.mem_filterMap.1 h
    obtain ⟨hid, hp⟩ := Option.filter_eq_some_iff.1 hid
    obtain ⟨e, he, hr, hg⟩ := (hplain target).1 hp
    obtain ⟨hf, hshown⟩ := List.mem_filter.1 hf
    rw [Bool.and_eq_true, Option.isNone_iff_eq_none] at hshown
    exact ⟨f, hf, hshown.1, hshown.2, e, find_eq_some_iff.2 ⟨hid, he⟩, hr, hg⟩
  · rintro ⟨f, hf, htext, hshown, e, hfind, hr, hg⟩
    obtain ⟨hid, he⟩ := find_eq_some_iff.1 hfind
    refine List.mem_filterMap.2 ⟨f, List.mem_filter.2 ⟨hf, by simp [htext, hshown]⟩, ?_⟩
    exact Option.filter_eq_some_iff.2 ⟨hid, (hplain target).2 ⟨e, he, hr, hg⟩⟩

/-- A block is so many steps away from one that a declaration asks for, where every step ends in a
struct that asked for no block of the kind. -/
inductive WantedAt (c : Catalog) (rules : NamingRules) : Nat → Nat → BlockRequest → Prop
  | asked {id : Nat} {d : Declaration} {r : BlockRequest} (hp : c.isPlainStruct id = true)
      (hd : c.get? id = some d) (hr : r ∈ d.requests) : WantedAt c rules 0 id r
  | found {n id target : Nat} {d e : Declaration} {r : BlockRequest}
      (h : WantedAt c rules n id r) (hd : c.get? id = some d) (ht : c.RefersTo rules d r target)
      (he : c.get? target = some e) (hk : e.requests? r.kind = false) :
      WantedAt c rules (n + 1) target (.found r.kind)

theorem isPlainStruct_of_refersTo {rules : NamingRules} {d : Declaration} {r : BlockRequest}
    {target : Nat} (h : c.RefersTo rules d r target) : c.isPlainStruct target = true :=
  isPlainStruct_of_mem_referenced (mem_referenced_iff.2 h)

theorem WantedAt.isPlainStruct {rules : NamingRules} {n id : Nat} {r : BlockRequest}
    (h : c.WantedAt rules n id r) : c.isPlainStruct id = true := by
  cases h with
  | asked hp => exact hp
  | found _ _ ht => exact isPlainStruct_of_refersTo ht

theorem withinDepth_mono {rules : DiscoveryRules} {m n : Nat} (h : withinDepth rules n = true)
    (hle : m ≤ n) : withinDepth rules m = true := by
  simp only [withinDepth, Bool.or_eq_true, decide_eq_true_eq] at h ⊢
  omega

/-! ### Blocks in the queue -/

/-- The request that a visit is about. -/
def Holds (c : Catalog) (v : Visit) (r : BlockRequest) : Prop :=
  ∃ d, c.get? v.id = some d ∧ d.requests[v.request]? = some r

theorem Holds.ask {v : Visit} {r : BlockRequest} (h : c.Holds v r) (kind : BlockKind) (id : Nat) :
    (c.ask kind id).Holds v r := by
  obtain ⟨d, hd, hr⟩ := h
  by_cases hne : id = v.id
  · subst hne
    refine ⟨d.ask kind, get?_ask_self hd kind, ?_⟩
    rw [← hr]
    exact List.getElem?_append_left (List.getElem?_eq_some_iff.1 hr).1
  · exact ⟨d, (get?_ask_ne hne kind).trans hd, hr⟩

theorem exists_mem_ask {id : Nat} {r : BlockRequest}
    (h : ∃ d, c.get? id = some d ∧ r ∈ d.requests) (kind : BlockKind) (target : Nat) :
    ∃ d, (c.ask kind target).get? id = some d ∧ r ∈ d.requests := by
  obtain ⟨d, hd, hr⟩ := h
  by_cases hne : target = id
  · subst hne
    exact ⟨d.ask kind, get?_ask_self hd kind, List.mem_append_left _ hr⟩
  · exact ⟨d, (get?_ask_ne hne kind).trans hd, hr⟩

end Catalog

open Catalog

/-- What holds while discovery works through its queue, from the catalog `c₀` on. The blocks of
`now` are `m` steps away, those of `next` one step more, and no path of `m` steps or fewer leads to
them. All blocks that are up to `m` steps away are asked for, and a block that is not in the queue
has asked for all that it refers to, if the limit allows it. -/
structure Level (c₀ : Catalog) (config : Config) (m : Nat) (now next : List Visit) (c : Catalog) :
    Prop where
  asked : c₀.AskedMore c
  once : ∀ id d d', c₀.get? id = some d → c.get? id = some d' → d.AskedOnce d'
  sound : ∀ id d d' r, c₀.get? id = some d → c.get? id = some d' → r ∈ d'.requests →
    r ∈ d.requests ∨
      ∃ n, withinDepth config.discovery n = true ∧ c₀.WantedAt config.naming n id r
  complete : ∀ n ≤ m, withinDepth config.discovery n = true → ∀ id r,
    c₀.WantedAt config.naming n id r → ∃ d, c.get? id = some d ∧ r ∈ d.requests
  front : ∀ v ∈ now, v.depth = m ∧ ∃ r, c.Holds v r ∧ c₀.WantedAt config.naming m v.id r
  back : ∀ v ∈ next, v.depth = m + 1 ∧ ∃ r, c.Holds v r ∧
    c₀.WantedAt config.naming (m + 1) v.id r ∧
    ∀ n ≤ m, withinDepth config.discovery n = true → ¬ c₀.WantedAt config.naming n v.id r
  closed : ∀ id d i r, c₀.isPlainStruct id = true → c.get? id = some d →
    d.requests[i]? = some r → (∃ v ∈ now ++ next, v.id = id ∧ v.request = i) ∨
      (withinDepth config.discovery (m + 1) = true →
        c.HasAll r.kind (c₀.referenced config.naming d r))

namespace Level

variable {c c₀ : Catalog} {config : Config} {m : Nat} {now next : List Visit}

theorem start (c : Catalog) (config : Config) : Level c config 0 c.seeds [] c where
  asked := .refl c
  once id d d' hd hd' := by
    obtain rfl := Option.some.inj (hd.symm.trans hd')
    exact .refl d
  sound id d d' r hd hd' hr := by
    obtain rfl := Option.some.inj (hd.symm.trans hd')
    exact .inl hr
  complete n hn _ id r hw := by
    obtain rfl := Nat.le_zero.1 hn
    cases hw with
    | asked _ hd hr => exact ⟨_, hd, hr⟩
  front v hv := by
    obtain ⟨id, hid, hv⟩ := List.mem_flatMap.1 hv
    obtain ⟨i, hi, rfl⟩ := List.mem_map.1 hv
    have hp := (List.mem_filter.1 hid).2
    obtain ⟨d, hd⟩ := exists_of_isPlainStruct hp
    rw [hd] at hi
    have hlt : i < d.requests.length := List.mem_range.1 hi
    exact ⟨rfl, _, ⟨d, hd, List.getElem?_eq_getElem hlt⟩, .asked hp hd (List.getElem_mem hlt)⟩
  back v hv := absurd hv List.not_mem_nil
  closed id d i r hp hd hr := by
    rw [List.append_nil]
    exact ((Frontier.start c config.naming).closed id d i r hp hd hr).imp_right fun hall _ => hall

/-- A block that one at the present distance refers to may be asked for. -/
theorem ask (h : Level c₀ config m now next c)
    (hin : withinDepth config.discovery (m + 1) = true) {source target : Nat}
    {d e : Declaration} {r : BlockRequest} (hw : c₀.WantedAt config.naming m source r)
    (hd : c₀.get? source = some d) (ht : c₀.RefersTo config.naming d r target)
    (he : c.get? target = some e) (hk : e.requests? r.kind = false) :
    Level c₀ config m now (next ++ [⟨target, e.requests.length, m + 1⟩]) (c.ask r.kind target) := by
  obtain ⟨e₀, he₀⟩ := exists_of_isPlainStruct (isPlainStruct_of_refersTo ht)
  have honce := h.once target e₀ e he₀ he
  have hk₀ : e₀.requests? r.kind = false := by
    obtain ⟨kinds, rfl, -, -⟩ := honce
    by_contra hno
    rw [Bool.not_eq_false] at hno
    exact nomatch hk.symm.trans ((Declaration.requests?_append_found e₀ kinds r.kind).2 (.inl hno))
  have hwanted : c₀.WantedAt config.naming (m + 1) target (.found r.kind) :=
    .found hw hd ht he₀ hk₀
  refine ⟨h.asked.ask _ _, ?_, ?_, ?_, ?_, ?_, ?_⟩
  · intro id x x' hx hx'
    by_cases hne : target = id
    · subst hne
      obtain rfl := Option.some.inj (hx.symm.trans he₀)
      obtain rfl := Option.some.inj (hx'.symm.trans (get?_ask_self he r.kind))
      exact honce.ask hk
    · rw [get?_ask_ne hne] at hx'
      exact h.once id x x' hx hx'
  · intro id x x' q hx hx' hq
    by_cases hne : target = id
    · subst hne
      obtain rfl := Option.some.inj (hx.symm.trans he₀)
      obtain rfl := Option.some.inj (hx'.symm.trans (get?_ask_self he r.kind))
      rcases List.mem_append.1 hq with hq | hq
      · exact h.sound target x e q he₀ he hq
      · rw [List.mem_singleton.1 hq]
        exact .inr ⟨m + 1, hin, hwanted⟩
    · rw [get?_ask_ne hne] at hx'
      exact h.sound id x x' q hx hx' hq
  · exact fun n hn hn' id q hq => exists_mem_ask (h.complete n hn hn' id q hq) r.kind target
  · intro v hv
    obtain ⟨hdepth, q, hq, hwq⟩ := h.front v hv
    exact ⟨hdepth, q, hq.ask r.kind target, hwq⟩
  · intro v hv
    rcases List.mem_append.1 hv with hv | hv
    · obtain ⟨hdepth, q, hq, hrest⟩ := h.back v hv
      exact ⟨hdepth, q, hq.ask r.kind target, hrest⟩
    · obtain rfl := List.mem_singleton.1 hv
      refine ⟨rfl, .found r.kind, ⟨_, get?_ask_self he r.kind, ?_⟩, hwanted, fun n hn hn' hno => ?_⟩
      · simp [Declaration.ask]
      · -- nearer, the block would be asked for already
        obtain ⟨x, hx, hmem⟩ := h.complete n hn hn' target _ hno
        obtain rfl := Option.some.inj (hx.symm.trans he)
        have hthere := Declaration.requests?_of_mem hmem
        exact nomatch hk.symm.trans hthere
  · intro id x i q hp hx hq
    rw [← List.append_assoc]
    rcases request_ask_cases he hx hq with ⟨old, hold, hq', hsame⟩ | ⟨rfl, rfl⟩
    · have hrefers : c₀.referenced config.naming x q = c₀.referenced config.naming old q := by
        rcases hsame with rfl | rfl <;> rfl
      rw [hrefers]
      rcases h.closed id old i q hp hold hq' with ⟨v, hv, hid⟩ | hall
      · exact .inl ⟨v, List.mem_append_left _ hv, hid⟩
      · exact .inr fun hin => (hall hin).ask _ _
    · -- the new request is in the queue
      exact .inl ⟨_, List.mem_append_right _ (List.mem_singleton.2 rfl), rfl, rfl⟩

/-- A block leaves the queue when all that it refers to is asked for, or is too far away. -/
theorem drop {v : Visit} (h : Level c₀ config m (v :: now) next c)
    (hdone : withinDepth config.discovery (m + 1) = true → ∀ d r, c.get? v.id = some d →
      d.requests[v.request]? = some r → c.HasAll r.kind (c₀.referenced config.naming d r)) :
    Level c₀ config m now next c :=
  { h with
    front := fun w hw => h.front w (List.mem_cons_of_mem _ hw)
    closed := by
      intro id d i r hp hd hr
      rcases h.closed id d i r hp hd hr with ⟨w, hw, rfl, rfl⟩ | hall
      · rcases List.mem_cons.1 hw with rfl | hw
        · exact .inr fun hin => hdone hin d r hd hr
        · exact .inl ⟨w, hw, rfl, rfl⟩
      · exact .inr hall }

/-- **The next level.** When all blocks at one distance are done, all blocks one step farther away
are asked for: one that is not in the queue has asked for what it refers to, and one that is in the
queue is not that near. -/
theorem advance (h : Level c₀ config m [] next c) : Level c₀ config (m + 1) next [] c :=
  { h with
    complete := by
      intro n hn hin id r hw
      rcases Nat.lt_or_ge m n with hlt | hge
      · obtain rfl : n = m + 1 := by omega
        cases hw with
        | @found _ source _ d e r hw hd ht he hk =>
          obtain ⟨d', hd', hr⟩ := h.complete m (Nat.le_refl m)
            (withinDepth_mono hin (Nat.le_succ m)) source r hw
          obtain ⟨i, hi⟩ := List.mem_iff_getElem?.1 hr
          rcases h.closed source d' i r hw.isPlainStruct hd' hi with ⟨v, hv, rfl, rfl⟩ | hall
          · obtain ⟨-, q, ⟨x, hx, hq⟩, -, hfar⟩ := h.back v hv
            obtain rfl := Option.some.inj (hx.symm.trans hd')
            obtain rfl := Option.some.inj (hq.symm.trans hi)
            exact absurd hw (hfar m (Nat.le_refl m) (withinDepth_mono hin (Nat.le_succ m)))
          · obtain ⟨kinds, hmore, -⟩ := h.once source d d' hd hd'
            rw [(AskedMore.refl c₀).referenced_eq ⟨kinds, hmore⟩] at hall
            obtain ⟨e', he', hk'⟩ := hall hin id (mem_referenced_iff.2 ht)
            exact ⟨e', he', (h.once id e e' he he').found_mem hk hk'⟩
      · exact h.complete n hge hin id r hw
    front := by
      intro v hv
      obtain ⟨hdepth, r, hr, hw, -⟩ := h.back v hv
      exact ⟨hdepth, r, hr, hw⟩
    back := fun v hv => absurd hv List.not_mem_nil
    closed := by
      intro id d i r hp hd hr
      rw [List.append_nil]
      rcases h.closed id d i r hp hd hr with hqueued | hall
      · exact .inl hqueued
      · exact .inr fun hin => hall (withinDepth_mono hin (Nat.le_succ _)) }

/-- **A step** takes a block from the front of the queue, and puts in as many at its end as were
missing and now are not. -/
theorem visit {v : Visit} (h : Level c₀ config m (v :: now) next c) :
    Level c₀ config m now (next ++ (c.visit config v).2) (c.visit config v).1 ∧
      (next ++ (c.visit config v).2).length + (c.visit config v).1.missing =
        next.length + c.missing := by
  obtain ⟨hdepth, r, ⟨d', hd', hr⟩, hw⟩ := h.front v List.mem_cons_self
  unfold Catalog.visit
  rw [hd']
  dsimp only
  rw [hr]
  dsimp only
  rw [hdepth]
  by_cases hin : withinDepth config.discovery (m + 1) = true
  · rw [if_pos hin]
    obtain ⟨d, hd⟩ := exists_of_isPlainStruct hw.isPlainStruct
    obtain ⟨kinds, hmore, -⟩ := h.once v.id d d' hd hd'
    have hsame : c.referenced config.naming d' r = c₀.referenced config.naming d r :=
      h.asked.referenced_eq ⟨kinds, hmore⟩ config.naming r
    rw [hsame]
    let ids := c₀.referenced config.naming d r
    obtain ⟨hlevel, hholds, hcount⟩ :
        Level c₀ config m (v :: now) (next ++ (c.addRequests r.kind (m + 1) ids).2)
            (c.addRequests r.kind (m + 1) ids).1 ∧
          (c.addRequests r.kind (m + 1) ids).1.Holds v r ∧
          (next ++ (c.addRequests r.kind (m + 1) ids).2).length +
            (c.addRequests r.kind (m + 1) ids).1.missing = next.length + c.missing := by
      refine addRequests_preserves (P := fun c' next' => Level c₀ config m (v :: now) next' c' ∧
        c'.Holds v r ∧ next'.length + c'.missing = next.length + c.missing) next ?_
        ⟨h, ⟨d', hd', hr⟩, rfl⟩
      rintro c' next' id e hid ⟨hlevel, hholds, hcount⟩ he hk
      refine ⟨hlevel.ask hin hw hd (mem_referenced_iff.1 hid) he hk, hholds.ask r.kind id, ?_⟩
      have hmissing := missing_ask he hk
      simp only [List.length_append, List.length_singleton]
      omega
    refine ⟨hlevel.drop fun _ x q hx hq => ?_, hcount⟩
    obtain ⟨y, hy, hyr⟩ := hholds
    obtain rfl := Option.some.inj (hx.symm.trans hy)
    obtain rfl := Option.some.inj (hq.symm.trans hyr)
    obtain ⟨kinds', hmore', -⟩ := hlevel.once v.id d x hd hx
    rw [(AskedMore.refl c₀).referenced_eq ⟨kinds', hmore'⟩]
    refine hasAll_addRequests fun id hid => ?_
    have hp : c.isPlainStruct id = true := by
      rw [h.asked.isPlainStruct_eq]
      exact isPlainStruct_of_mem_referenced hid
    exact exists_of_isPlainStruct hp
  · rw [if_neg hin, List.append_nil]
    exact ⟨h.drop fun hno => absurd hno hin, rfl⟩

end Level

/-- One step of discovery, on the catalog and the queue. -/
def VisitStep (config : Config) (s s' : Catalog × List Visit) : Prop :=
  ∃ v queue, s.2 = v :: queue ∧
    s' = ((s.1.visit config v).1, queue ++ (s.1.visit config v).2)

namespace Level

variable {c c₀ : Catalog} {config : Config} {m : Nat} {now next : List Visit}

/-- **A run of the queue** goes through the levels and ends with an empty queue, when the limit on
the steps is at least the number of blocks in the queue and of blocks that are missing. -/
theorem run : ∀ {limit m : Nat} {now next : List Visit} {c : Catalog},
    Level c₀ config m now next c → (now ++ next).length + c.missing ≤ limit →
      (∃ m', Level c₀ config m' [] [] (reachFrom config limit c (now ++ next))) ∧
        Relation.ReflTransGen (VisitStep config) (c, now ++ next)
          (reachFrom config limit c (now ++ next), []) := by
  intro limit
  induction limit with
  | zero =>
    intro m now next c h hle
    obtain ⟨hqueue, -⟩ := Nat.add_eq_zero_iff.1 (Nat.le_zero.1 hle)
    obtain ⟨rfl, rfl⟩ := List.append_eq_nil_iff.1 (List.length_eq_zero_iff.1 hqueue)
    exact ⟨⟨m, h⟩, .refl⟩
  | succ limit ih =>
    -- a step, where the front of the queue is not empty
    have step : ∀ {m : Nat} {v : Visit} {now next : List Visit} {c : Catalog},
        Level c₀ config m (v :: now) next c → (v :: now ++ next).length + c.missing ≤ limit + 1 →
          (∃ m', Level c₀ config m' [] [] (reachFrom config (limit + 1) c (v :: now ++ next))) ∧
            Relation.ReflTransGen (VisitStep config) (c, v :: now ++ next)
              (reachFrom config (limit + 1) c (v :: now ++ next), []) := by
      intro m v now next c h hle
      obtain ⟨hnext, hcount⟩ := h.visit
      have hle' : (now ++ (next ++ (c.visit config v).2)).length + (c.visit config v).1.missing ≤
          limit := by
        rw [List.length_append] at hcount
        simp only [List.length_append, List.length_cons] at hle ⊢
        omega
      obtain ⟨hend, hsteps⟩ := ih hnext hle'
      have hreach : reachFrom config (limit + 1) c (v :: now ++ next) =
          reachFrom config limit (c.visit config v).1 (now ++ (next ++ (c.visit config v).2)) := by
        rw [← List.append_assoc]
        rfl
      rw [hreach]
      refine ⟨hend, .head ⟨v, now ++ next, rfl, ?_⟩ hsteps⟩
      rw [List.append_assoc]
    intro m now next c h hle
    cases now with
    | cons v now => exact step h hle
    | nil =>
      cases next with
      | nil => exact ⟨⟨m, h⟩, .refl⟩
      | cons v next =>
        have hfront := step h.advance (by rwa [List.append_nil])
        rwa [List.append_nil] at hfront

theorem reaches (h : Level c₀ config m [] [] c) : ∀ n, Level c₀ config (m + n) [] [] c
  | 0 => h
  | n + 1 => (h.reaches n).advance

end Level

namespace Catalog

variable {config : Config}

theorem level_reach (c : Catalog) (config : Config) :
    (∃ m, Level c config m [] [] (c.reach config)) ∧
      Relation.ReflTransGen (VisitStep config) (c, c.seeds) (c.reach config, []) := by
  have hlimit : (c.seeds ++ []).length + c.missing ≤ c.seeds.length + 3 * c.types.length := by
    rw [List.append_nil]
    exact Nat.add_le_add_left (missing_le c) _
  have hrun := (Level.start c config).run hlimit
  rwa [List.append_nil] at hrun

/-- **Discovery finds exactly what is in reach.** It works off its queue, step by step. A struct is
asked for a kind of block exactly if it was before, or a path within the limit leads to it from a
block of this kind that some declaration asks for; its new requests are behind the others, one for
a kind at most; and nothing else changes. -/
theorem addDiscovered_within (hstrategy : config.discovery.strategy = .referenced) (c : Catalog) :
    ∃ c', c.addDiscovered config = .ok c' ∧
      Relation.ReflTransGen (VisitStep config) (c, c.seeds) (c', []) ∧
      c'.consts = c.consts ∧ c'.types.length = c.types.length ∧
      ∀ id d, c.get? id = some d → ∃ d', c'.get? id = some d' ∧ d.AskedOnce d' ∧
        ∀ kind, d'.requests? kind = true ↔
          d.requests? kind = true ∨ ∃ n, withinDepth config.discovery n = true ∧
            c.WantedAt config.naming n id (.found kind) := by
  obtain ⟨⟨m, hlevel⟩, hsteps⟩ := level_reach c config
  refine ⟨c.reach config, by rw [addDiscovered, hstrategy], hsteps, hlevel.asked.consts,
    hlevel.asked.types.length_eq.symm, fun id d hd => ?_⟩
  rcases hlevel.asked.get?_cases id with ⟨hno, -⟩ | ⟨_, d', -, hd', -⟩
  · exact nomatch hno.symm.trans hd
  have honce := hlevel.once id d d' hd hd'
  refine ⟨d', hd', honce, fun kind => ⟨fun hasked => ?_, ?_⟩⟩
  · refine or_iff_not_imp_left.2 fun hnew => ?_
    rw [Bool.not_eq_true] at hnew
    rcases hlevel.sound id d d' _ hd hd' (honce.found_mem hnew hasked) with hold | hwanted
    · have hno := Declaration.requests?_of_mem hold
      exact nomatch hnew.symm.trans hno
    · exact hwanted
  · rintro (hasked | ⟨n, hin, hwanted⟩)
    · obtain ⟨kinds, rfl, -⟩ := honce
      exact (Declaration.requests?_append_found d kinds kind).2 (.inl hasked)
    · obtain ⟨x, hx, hmem⟩ := (hlevel.reaches n).complete n (Nat.le_add_left n m) hin id _ hwanted
      obtain rfl := Option.some.inj (hx.symm.trans hd')
      exact Declaration.requests?_of_mem hmem

/-- A struct with pointers to others. -/
def waypoint (name : String) (others : List String) : Declaration :=
  { name
    package := ⟨"m", none⟩
    path := ⟨"m.go"⟩
    line := 1
    place := ⟨0, 0, 0⟩
    body := .record (others.map fun other =>
      { goName := some other, type := .pointer (.named (some "m") none other []) }) }

/-- A path of four structs, whose first one asks for a type, and a struct beside it that asks for an
input and leads to the third one. -/
def trail : Catalog :=
  { types :=
      [{ waypoint "Start" ["Near"] with requests := [{ kind := .type }] },
        waypoint "Near" ["Far"], waypoint "Far" ["End"], waypoint "End" [],
        { waypoint "Other" ["Far"] with requests := [{ kind := .input }] }] }

/-- Discovery by reference, two steps far. -/
def twoSteps : Config := { discovery := { strategy := .referenced, maxDepth := 2 } }

/-- The last struct is two steps away from the input, and three from the type. -/
theorem trail_within : ∃ c' far last, trail.addDiscovered twoSteps = .ok c' ∧
    c'.get? 2 = some far ∧ far.requests = [.found .input, .found .type] ∧
    c'.get? 3 = some last ∧ last.requests = [.found .input] ∧
    (∃ n ≤ 2, trail.WantedAt {} n 2 (.found .type)) ∧
    (∃ n ≤ 2, trail.WantedAt {} n 3 (.found .input)) ∧
    ¬ ∃ n ≤ 2, trail.WantedAt {} n 3 (.found .type) := by
  obtain ⟨c', hc', -, -, -, hall⟩ := @addDiscovered_within twoSteps rfl trail
  have hrun : (trail.addDiscovered twoSteps).map (fun c => ((c.get? 2).map Declaration.requests,
      (c.get? 3).map Declaration.requests)) =
        .ok (some [.found .input, .found .type], some [.found .input]) :=
    Outcome.eq_ok_of_toOption (by decide +kernel)
  rw [hc'] at hrun
  obtain ⟨hfar, hlast⟩ := Prod.mk.inj (Except.ok.inj hrun)
  obtain ⟨far, hd, -, hkinds⟩ := hall 2 _ rfl
  obtain ⟨last, hd', -, hkinds'⟩ := hall 3 _ rfl
  rw [hd] at hfar
  rw [hd'] at hlast
  have hfar : far.requests = [.found .input, .found .type] := Option.some.inj hfar
  have hlast : last.requests = [.found .input] := Option.some.inj hlast
  have hnear : ∀ n, withinDepth twoSteps.discovery n = true ↔ n ≤ 2 := fun n =>
    show decide (n ≤ 2) = true ↔ n ≤ 2 from decide_eq_true_iff
  simp only [hnear] at hkinds hkinds'
  refine ⟨c', far, last, hc', hd, hfar, hd', hlast, ?_, ?_, fun hno => ?_⟩
  · have hasked : far.requests? .type = true := by rw [Declaration.requests?, hfar]; rfl
    exact ((hkinds .type).1 hasked).resolve_left (by decide)
  · have hasked : last.requests? .input = true := by rw [Declaration.requests?, hlast]; rfl
    exact ((hkinds' .input).1 hasked).resolve_left (by decide)
  · have hasked := (hkinds' .type).2 (.inr hno)
    rw [Declaration.requests?, hlast] at hasked
    cases hasked

end Catalog

end GoSchema
