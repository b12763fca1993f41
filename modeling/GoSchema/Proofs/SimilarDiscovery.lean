/-
# Discovery on similar catalogs

Discovery reads the requests of declarations and the types of fields that are seen in a block. Where
two catalogs have similar declarations under the same numbers, both are the same, so it finds the
same structs and asks for the same blocks. A hidden field is not seen, whatever its type is.

Key definitions: `Catalog.Twins`.
Key theorems: `Catalog.Similar.twins`, `Catalog.Twins.referenced_eq`, `Catalog.Twins.addRequests`,
`Catalog.Twins.reachFrom`, `Catalog.Twins.addDiscovered`.
-/
import GoSchema.Proofs.SimilarBlocks

namespace GoSchema

open Outcome

variable {ok : String → Prop}

theorem Declaration.Similar.concatRequest {d d' : Declaration} (h : d.Similar ok d')
    (r : BlockRequest) : Declaration.Similar ok { d with requests := d.requests ++ [r] }
      { d' with requests := d'.requests ++ [r] } where
  head := by
    rw [Declaration.eq_of_head h.head]
    rfl
  body := h.body

namespace Catalog

variable {c c' : Catalog}

/-- Catalogs with similar declarations under the same numbers, and no others. -/
def Twins (ok : String → Prop) (c c' : Catalog) : Prop :=
  List.Forall₂ (Declaration.Similar ok) c.types c'.types

theorem Twins.similar (h : Twins ok c c') : Catalog.Similar ok id c c' where
  get {i d} hd := by
    rcases Pointwise.getElem?_cases h i with ⟨hno, -⟩ | ⟨e, e', he, he', hs⟩
    · rw [get?, hno] at hd
      cases hd
    · obtain rfl := Option.some.inj (he.symm.trans hd)
      exact ⟨e', he', hs⟩
  search q _ := by
    rw [Option.map_id, id]
    exact (Pointwise.findIdx?_eq h fun d d' hs => by rw [hs.name, hs.package]).symm

theorem Similar.twins (h : Catalog.Similar ok id c c')
    (hlength : c'.types.length = c.types.length) : Twins ok c c' :=
  Pointwise.of_getElem? hlength.symm fun _ _ hd => h.get hd

namespace Twins

variable (h : Twins ok c c')
include h

theorem get?_cases (i : Nat) : (c.get? i = none ∧ c'.get? i = none) ∨
    ∃ d d', c.get? i = some d ∧ c'.get? i = some d' ∧ d.Similar ok d' :=
  Pointwise.getElem?_cases h i

theorem ids_eq : c'.ids = c.ids := by rw [ids, ids, h.length_eq]

theorem isPlainStruct_eq : c'.isPlainStruct = c.isPlainStruct := by
  funext i
  unfold isPlainStruct
  rcases h.get?_cases i with ⟨hno, hno'⟩ | ⟨d, d', hd, hd', hs⟩
  · rw [hno, hno']
  · rw [hd, hd', Option.map_some, Option.map_some, hs.isRecord, hs.isGeneric]

theorem plainStructs_eq : c'.plainStructs = c.plainStructs := by
  rw [plainStructs, plainStructs, h.ids_eq, h.isPlainStruct_eq]

theorem nameOf_eq : c'.nameOf = c.nameOf := by
  funext i
  unfold nameOf
  rcases h.get?_cases i with ⟨hno, hno'⟩ | ⟨d, d', hd, hd', hs⟩
  · rw [hno, hno']
  · rw [hd, hd', Option.map_some, Option.map_some, hs.name]

/-! ### Asking for blocks -/

/-- **The same structs are referred to.** -/
theorem referenced_eq (rules : NamingRules) {d d' : Declaration} (hs : d.Similar ok d')
    (r : BlockRequest) : c'.referenced rules d' r = c.referenced rules d r := by
  have hfields := hs.body.fields
  unfold referenced
  generalize d.body.fields = fs at hfields
  generalize d'.body.fields = fs' at hfields
  induction hfields with
  | nil => rfl
  | @cons f f' fs fs' hf _ ih =>
    have hkept : (f'.options.typeText.isNone && d'.shows rules r f') =
        (f.options.typeText.isNone && d.shows rules r f) := by
      rw [hf.options, hs.shows_eq rules r hf]
    rw [List.filter_cons, List.filter_cons, hkept]
    split
    · rename_i hshow
      rw [Bool.and_eq_true] at hshow
      obtain ⟨hsame, hnames⟩ := hf.eq_of_not_hidden (Declaration.not_hidden_of_shows hshow.2)
      have hid : c'.idOfType? f'.type.innermost = c.idOfType? f.type.innermost := by
        rw [hsame, h.similar.idOfType?_eq hnames.innermost, Option.map_id, id]
      rw [List.filterMap_cons, List.filterMap_cons, hid, ih, h.isPlainStruct_eq]
    · exact ih

omit h in
theorem modify (h : Twins ok c c') {f : Declaration → Declaration}
    (hf : ∀ d d', Declaration.Similar ok d d' → Declaration.Similar ok (f d) (f d')) (i : Nat) :
    Twins ok (c.modify i f) (c'.modify i f) :=
  Pointwise.modify_both h hf i

theorem addRequest (kind : BlockKind) (i : Nat) :
    Twins ok (c.addRequest kind i).1 (c'.addRequest kind i).1 ∧
      (c'.addRequest kind i).2 = (c.addRequest kind i).2 := by
  unfold Catalog.addRequest
  rcases h.get?_cases i with ⟨hno, hno'⟩ | ⟨d, d', hd, hd', hs⟩
  · rw [hno, hno']
    exact ⟨h, rfl⟩
  · rw [hd, hd']
    have hasked : d'.requests? kind = d.requests? kind := by
      rw [Declaration.requests?, Declaration.requests?, hs.requests]
    dsimp only
    rw [hasked, hs.requests]
    split
    · exact ⟨h, rfl⟩
    · exact ⟨h.modify (fun e e' he => he.concatRequest _) i, rfl⟩

end Twins

namespace Twins

theorem addRequests (kind : BlockKind) (depth : Nat) : ∀ (ids : List Nat) {c c' : Catalog},
    Twins ok c c' → Twins ok (c.addRequests kind depth ids).1 (c'.addRequests kind depth ids).1 ∧
      (c'.addRequests kind depth ids).2 = (c.addRequests kind depth ids).2
  | [], _, _, h => ⟨h, rfl⟩
  | i :: ids, c, c', h => by
    obtain ⟨hnext, hadded⟩ := h.addRequest kind i
    obtain ⟨hlast, hmore⟩ := addRequests kind depth ids hnext
    simp only [Catalog.addRequests]
    exact ⟨hlast, by rw [hadded, hmore]⟩

theorem visit (h : Twins ok c c') (config : Config) (v : Visit) :
    Twins ok (c.visit config v).1 (c'.visit config v).1 ∧
      (c'.visit config v).2 = (c.visit config v).2 := by
  unfold Catalog.visit
  rcases h.get?_cases v.id with ⟨hno, hno'⟩ | ⟨d, d', hd, hd', hs⟩
  · rw [hno, hno']
    exact ⟨h, rfl⟩
  · rw [hd, hd']
    dsimp only
    rw [hs.requests]
    split
    · exact ⟨h, rfl⟩
    · rw [h.referenced_eq config.naming hs]
      split
      · exact h.addRequests _ _ _
      · exact ⟨h, rfl⟩

/-- **The same queue is worked through.** -/
theorem reachFrom (config : Config) : ∀ (limit : Nat) {c c' : Catalog} (queue : List Visit),
    Twins ok c c' →
      Twins ok (Catalog.reachFrom config limit c queue) (Catalog.reachFrom config limit c' queue)
  | 0, _, _, [], h => by simpa only [Catalog.reachFrom] using h
  | 0, _, _, _ :: _, h => by simpa only [Catalog.reachFrom] using h
  | _ + 1, _, _, [], h => by simpa only [Catalog.reachFrom] using h
  | limit + 1, c, c', v :: queue, h => by
    obtain ⟨hnext, hadded⟩ := h.visit config v
    simp only [Catalog.reachFrom]
    rw [hadded]
    exact reachFrom config limit _ hnext

theorem seeds_eq (h : Twins ok c c') : c'.seeds = c.seeds := by
  unfold seeds
  rw [h.plainStructs_eq]
  congr 1
  funext i
  rcases h.get?_cases i with ⟨hno, hno'⟩ | ⟨d, d', hd, hd', hs⟩
  · rw [hno, hno']
  · rw [hd, hd', Option.map_some, Option.map_some, hs.requests]

theorem reach (h : Twins ok c c') (config : Config) :
    Twins ok (c.reach config) (c'.reach config) := by
  unfold Catalog.reach
  rw [h.seeds_eq, ← h.length_eq]
  exact reachFrom config _ _ h

/-- **Discovery keeps twins**, and fails on both with the same fault. -/
theorem addDiscovered (h : Twins ok c c') (config : Config) :
    Outcome.Alike (Twins ok) (c.addDiscovered config) (c'.addDiscovered config) := by
  unfold Catalog.addDiscovered
  split
  · exact .ok h
  · exact .ok (h.reach config)
  · rw [h.plainStructs_eq]
    exact .ok ((h.addRequests .type 0 _).1.reach config)
  · rw [h.plainStructs_eq, h.nameOf_eq]
    cases readPatterns config.discovery.patterns with
    | error e => exact .error e
    | ok patterns => exact .ok (h.addRequests .type 0 _).1

end Twins

end Catalog

end GoSchema
