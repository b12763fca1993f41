/-
# Where blocks come from

The blocks of a run are those of the declarations in the catalog, one declaration after the other.
This says for each stage of making blocks what a result without a fault is: the fields of a block
are the shown fields of its struct and the added ones, the blocks of a declaration are its enum and
one block for each request, and all blocks are those of all declarations.

Key definitions: `BlockMaker.ComesFrom`, `BlockMaker.AddedBy`.
Key theorems: `naturalFields_ok`, `blockOf_ok`, `blocksOf_ok`, `blocks_ok`, `blockOf_of_mem`,
`declared_of_mem_fields`, `origin_of_mem_fields`.
-/
import GoSchema.Catalog.BlockMaker
import GoSchema.Proofs.Outcome
import GoSchema.Proofs.Pointwise

namespace GoSchema

open Outcome

theorem Declarations.toBlocks_eq_ok_iff {config : Config} {ds : Declarations} {bs : List Block} :
    ds.toBlocks config = .ok bs ↔ ∃ ctx, ds.maker config = .ok ctx ∧ ctx.blocks = .ok bs :=
  bind_eq_ok_iff

theorem Declarations.maker_config {config : Config} {ds : Declarations} {ctx : BlockMaker}
    (h : ds.maker config = .ok ctx) : ctx.config = config := by
  simp only [Declarations.maker, bind_eq_ok_iff] at h
  obtain ⟨_, -, _, -, _, -, _, -, _, -, h⟩ := h
  obtain rfl := Except.ok.inj h
  rfl

theorem Declarations.maker_eq_ok {ds : Declarations} (ctx : BlockMaker)
    (h : (ds.maker ctx.config).toOption.map (fun made => (made.catalog, made.enums)) =
      some (ctx.catalog, ctx.enums)) : ds.maker ctx.config = .ok ctx := by
  obtain ⟨⟨catalog, enums, config⟩, hmade, heq⟩ := Option.map_eq_some_iff.1 h
  have hmaker := eq_ok_of_toOption hmade
  obtain rfl : config = ctx.config := Declarations.maker_config hmaker
  obtain ⟨rfl, rfl⟩ := Prod.mk.inj heq
  exact hmaker

namespace BlockMaker

variable {ctx : BlockMaker} {d : Declaration} {r : BlockRequest}

/-! ### The blocks of one declaration -/

/-- The natural fields are the shown fields of the struct, in order, and none of the fields is
embedded. -/
theorem naturalFields_ok : ∀ {fs : List Field} {natural : List Sourced},
    ctx.naturalFields d r fs = .ok natural →
    (∀ f ∈ fs, f.isEmbedded = false) ∧
      List.Forall₂
        (fun f s => ctx.blockField ⟨f, d.requestName ctx.config.naming r, r.kind⟩ = .ok s)
        (fs.filter (d.shows ctx.config.naming r)) natural
  | [], natural, h => by
    obtain rfl := Except.ok.inj h
    exact ⟨by simp, .nil⟩
  | f :: fs, natural, h => by
    unfold naturalFields at h
    by_cases he : f.isEmbedded
    · simp [he] at h
    · rw [if_neg he] at h
      by_cases hs : d.shows ctx.config.naming r f
      · rw [if_pos hs] at h
        split at h
        · exact nomatch h
        · rename_i s hf
          obtain ⟨more, hm, rfl⟩ := map_eq_ok_iff.1 h
          obtain ⟨hn, hall⟩ := naturalFields_ok hm
          refine ⟨?_, ?_⟩
          · rintro g (_ | ⟨_, hg⟩)
            · simpa using he
            · exact hn g hg
          · rw [List.filter_cons_of_pos hs]
            exact .cons hf hall
      · rw [if_neg hs] at h
        obtain ⟨hn, hall⟩ := naturalFields_ok h
        refine ⟨?_, ?_⟩
        · rintro g (_ | ⟨_, hg⟩)
          · simpa using he
          · exact hn g hg
        · rwa [List.filter_cons_of_neg hs]

/-- A block on request has the name and the kind of the request, and the natural fields and then
the added ones. It is left out only if it would have no fields and such blocks are not wanted. -/
theorem blockOf_ok {index : Nat} {made : Option Block} (h : ctx.blockOf d r index = .ok made) :
    ∃ natural, ctx.naturalFields d r d.body.fields = .ok natural ∧
      repeated? [] (natural ++ ctx.addedFields d r) = none ∧
      ((natural ++ ctx.addedFields d r = [] ∧ ctx.config.includeEmptyTypes = false ∧ made = none) ∨
        ∃ b, made = some b ∧ b.name = d.requestName ctx.config.naming r ∧ b.kind = r.kind ∧
          b.place = d.place ∧ b.slot = index + 1 ∧
          b.fields = (natural ++ ctx.addedFields d r).map Prod.fst) := by
  unfold blockOf at h
  split at h
  · exact nomatch h
  · rename_i natural hn
    refine ⟨natural, hn, ?_⟩
    dsimp only at h
    split at h
    · exact nomatch h
    · rename_i hr
      refine ⟨hr, ?_⟩
      split at h
      · rename_i he
        simp only [Bool.and_eq_true, List.isEmpty_iff, Bool.not_eq_true'] at he
        exact .inl ⟨he.1, he.2, (Except.ok.inj h).symm⟩
      · obtain rfl := Except.ok.inj h
        exact .inr ⟨_, rfl, rfl, rfl, rfl, rfl, rfl⟩

theorem values_of_blockOf {index : Nat} {b : Block} (h : ctx.blockOf d r index = .ok (some b)) :
    b.values = [] := by
  unfold blockOf at h
  split at h
  · exact nomatch h
  · dsimp only at h
    split at h
    · exact nomatch h
    · split at h
      · exact nomatch h
      · rw [← Option.some.inj (Except.ok.inj h)]

theorem requestedBlocks_ok : ∀ {l : List (BlockRequest × Nat)} {bs : List Block},
    ctx.requestedBlocks d l = .ok bs →
    ∃ made : List (Option Block),
      List.Forall₂ (fun p m => ctx.blockOf d p.1 p.2 = .ok m) l made ∧
        bs = made.flatMap Option.toList
  | [], bs, h => by
    obtain rfl := Except.ok.inj h
    exact ⟨[], .nil, rfl⟩
  | (r, index) :: more, bs, h => by
    unfold requestedBlocks at h
    split at h
    · exact nomatch h
    · rename_i block hb
      obtain ⟨rest, hr, rfl⟩ := map_eq_ok_iff.1 h
      obtain ⟨made, hall, rfl⟩ := requestedBlocks_ok hr
      exact ⟨block :: made, .cons hb hall, by simp⟩

/-- The blocks of a declaration that is not generic: that of its enum, then those of its
requests. -/
theorem blocksOf_ok {id : Nat} {own : List Block} (hg : d.isGeneric = false)
    (h : ctx.blocksOf id d = .ok own) :
    ∃ made : List (Option Block),
      own = (d.enumRequest.map (ctx.blockOfEnum id d)).toList ++ made.flatMap Option.toList ∧
        List.Forall₂ (fun p m => ctx.blockOf d p.1 p.2 = .ok m)
          (if d.isRecord then d.requests.zipIdx else []) made := by
  unfold blocksOf at h
  rw [if_neg (by simp [hg])] at h
  dsimp only at h
  by_cases hd : d.isRecord
  · rw [if_pos hd] at h
    obtain ⟨rest, hr, rfl⟩ := map_eq_ok_iff.1 h
    obtain ⟨made, hall, rfl⟩ := requestedBlocks_ok hr
    exact ⟨made, rfl, by rwa [if_pos hd]⟩
  · rw [if_neg hd] at h
    obtain rfl := Except.ok.inj h
    exact ⟨[], by simp, by rw [if_neg hd]; exact .nil⟩

theorem blocksOf_generic {id : Nat} (hg : d.isGeneric = true) : ctx.blocksOf id d = .ok [] := by
  simp [blocksOf, hg]

/-! ### All blocks -/

theorem addBlocks_ok : ∀ {before bs all : List Block}, addBlocks before bs = .ok all →
    all = before ++ bs
  | before, [], all, h => by
    rw [← Except.ok.inj h, List.append_nil]
  | before, b :: bs, all, h => by
    unfold addBlocks at h
    split at h
    · exact nomatch h
    · rw [addBlocks_ok h, List.append_assoc]
      rfl

theorem blocksFrom_ok : ∀ {l : List (Declaration × Nat)} {before all : List Block},
    ctx.blocksFrom before l = .ok all →
    ∃ owns : List (List Block),
      List.Forall₂ (fun p own => ctx.blocksOf p.2 p.1 = .ok own) l owns ∧
        all = before ++ owns.flatten
  | [], before, all, h => by
    obtain rfl := Except.ok.inj h
    exact ⟨[], .nil, by simp⟩
  | (d, id) :: more, before, all, h => by
    unfold blocksFrom at h
    split at h
    · exact nomatch h
    · rename_i own ho
      split at h
      · exact nomatch h
      · rename_i next hn
        obtain ⟨owns, hall, rfl⟩ := blocksFrom_ok h
        rw [addBlocks_ok hn]
        exact ⟨own :: owns, .cons ho hall, by simp⟩

/-- **All blocks are those of the declarations**, in the order of the catalog. -/
theorem blocks_ok {bs : List Block} (h : ctx.blocks = .ok bs) :
    ∃ owns : List (List Block),
      List.Forall₂ (fun p own => ctx.blocksOf p.2 p.1 = .ok own) ctx.catalog.types.zipIdx owns ∧
        bs = owns.flatten := by
  simpa [blocks] using blocksFrom_ok h

/-- A block of the result is one of a declaration that is not generic. -/
theorem mem_blocks {bs : List Block} (h : ctx.blocks = .ok bs) {b : Block} (hb : b ∈ bs) :
    ∃ d id own, (d, id) ∈ ctx.catalog.types.zipIdx ∧ d.isGeneric = false ∧
      ctx.blocksOf id d = .ok own ∧ b ∈ own := by
  obtain ⟨owns, hall, rfl⟩ := blocks_ok h
  obtain ⟨own, ho, hbo⟩ := List.mem_flatten.1 hb
  obtain ⟨⟨d, id⟩, hd, hown⟩ := Pointwise.exists_left hall ho
  refine ⟨d, id, own, hd, ?_, hown, hbo⟩
  by_contra hg
  rw [blocksOf_generic (by simpa using hg)] at hown
  obtain rfl := Except.ok.inj hown
  exact absurd hbo List.not_mem_nil

theorem blocksOf_subset {bs : List Block} (h : ctx.blocks = .ok bs) {id : Nat}
    (hd : (d, id) ∈ ctx.catalog.types.zipIdx) : ∃ own, ctx.blocksOf id d = .ok own ∧ own ⊆ bs := by
  obtain ⟨owns, hall, rfl⟩ := blocks_ok h
  obtain ⟨own, ho, hown⟩ := Pointwise.exists_right hall hd
  exact ⟨own, hown, fun b hb => List.mem_flatten.2 ⟨own, ho, hb⟩⟩

/-! ### Where a field comes from -/

/-- The field `s` of the block `b` is what the field `f` of a struct becomes, where it is shown. -/
def ComesFrom (ctx : BlockMaker) (b : Block) (s : SchemaField) (f : Field) : Prop :=
  ∃ d ∈ ctx.catalog.types, ∃ r ∈ d.requests, f ∈ d.body.fields ∧
    d.shows ctx.config.naming r f = true ∧ b.name = d.requestName ctx.config.naming r ∧
    b.kind = r.kind ∧ ctx.blockField ⟨f, b.name, b.kind⟩ = .ok (s, f.origin)

/-- The field `s` of the block `b` is one that a directive adds. -/
def AddedBy (ctx : BlockMaker) (b : Block) (s : SchemaField) (e : AddedField) : Prop :=
  ∃ d ∈ ctx.catalog.types, ∃ r ∈ d.requests, e ∈ d.additions ∧
    e.on.covers (d.target ctx.config.naming r) = true ∧
    b.name = d.requestName ctx.config.naming r ∧ b.kind = r.kind ∧
    s = ⟨e.name, e.typeText, e.description, e.deprecated, true⟩

theorem blockField_origin {spot : Spot} {s : Sourced} (h : ctx.blockField spot = .ok s) :
    s.2 = spot.field.origin := by
  obtain ⟨text, -, rfl⟩ := map_eq_ok_iff.1 h
  rfl

/-- A block comes from the enum of its declaration or from a request. -/
theorem blockOf_of_mem {bs : List Block} (h : ctx.blocks = .ok bs) {b : Block} (hb : b ∈ bs) :
    ∃ id d, ctx.catalog.get? id = some d ∧
      ((∃ request, d.enumRequest = some request ∧ b = ctx.blockOfEnum id d request) ∨
        ∃ r ∈ d.requests, ∃ index, ctx.blockOf d r index = .ok (some b)) := by
  obtain ⟨d, id, own, hd, hg, hown, hbo⟩ := mem_blocks h hb
  refine ⟨id, d, List.mem_zipIdx_iff_getElem?.1 hd, ?_⟩
  obtain ⟨made, rfl, hall⟩ := blocksOf_ok hg hown
  rcases List.mem_append.1 hbo with hbo | hbo
  · obtain ⟨request, hrequest, rfl⟩ := Option.map_eq_some_iff.1 (Option.mem_toList.1 hbo)
    exact .inl ⟨request, hrequest, rfl⟩
  · obtain ⟨m, hm, hbm⟩ := List.mem_flatMap.1 hbo
    obtain rfl := Option.mem_toList.1 hbm
    obtain ⟨⟨r, index⟩, hp, hblock⟩ := Pointwise.exists_left hall hm
    split at hp
    · exact .inr ⟨r, List.mem_of_getElem? (List.mem_zipIdx_iff_getElem?.1 hp), index, hblock⟩
    · exact absurd hp List.not_mem_nil

/-- A field of a requested block comes from a field of the struct that is not embedded, or it is an
added one. -/
theorem origin_of_blockOf {index : Nat} {b : Block} (hd : d ∈ ctx.catalog.types)
    (hr : r ∈ d.requests) (h : ctx.blockOf d r index = .ok (some b)) {s : SchemaField}
    (hs : s ∈ b.fields) :
    (∃ f, ctx.ComesFrom b s f ∧ f.isEmbedded = false) ∨ ∃ e, ctx.AddedBy b s e := by
  obtain ⟨natural, hn, -, ⟨-, -, hb⟩ | ⟨_, hb, hname, hkind, -, -, hfields⟩⟩ := blockOf_ok h
  · exact nomatch hb
  · obtain rfl := Option.some.inj hb
    rw [hfields, List.mem_map] at hs
    obtain ⟨⟨s, origin⟩, hmem, rfl⟩ := hs
    rcases List.mem_append.1 hmem with hmem | hmem
    · left
      obtain ⟨hnone, hall⟩ := naturalFields_ok hn
      obtain ⟨f, hf, hfield⟩ := Pointwise.exists_left hall hmem
      obtain ⟨hf, hshow⟩ := List.mem_filter.1 hf
      obtain rfl : origin = f.origin := blockField_origin hfield
      exact ⟨f, ⟨d, hd, r, hr, hf, hshow, hname, hkind, by rwa [hname, hkind]⟩, hnone f hf⟩
    · right
      obtain ⟨e, he, heq⟩ := List.mem_map.1 hmem
      obtain ⟨he, hcover⟩ := List.mem_filter.1 he
      exact ⟨e, d, hd, r, hr, he, hcover, hname, hkind, (Prod.mk.inj heq).1.symm⟩

/-- A field of a block that no directive adds comes from one that is not embedded. -/
theorem declared_of_mem_fields {bs : List Block} (h : ctx.blocks = .ok bs) {b : Block}
    (hb : b ∈ bs) {s : SchemaField} (hs : s ∈ b.fields) :
    (∃ f, ctx.ComesFrom b s f ∧ f.isEmbedded = false) ∨ ∃ e, ctx.AddedBy b s e := by
  obtain ⟨id, d, hd, ⟨request, -, rfl⟩ | ⟨r, hr, index, hmade⟩⟩ := blockOf_of_mem h hb
  · -- the block of an enum has no fields
    exact absurd hs List.not_mem_nil
  · exact origin_of_blockOf (List.mem_of_getElem? hd) hr hmade hs

/-- **Every field of a block has an origin**: a shown field of a struct, or a directive that adds
it. -/
theorem origin_of_mem_fields {bs : List Block} (h : ctx.blocks = .ok bs) {b : Block} (hb : b ∈ bs)
    {s : SchemaField} (hs : s ∈ b.fields) :
    (∃ f, ctx.ComesFrom b s f) ∨ ∃ e, ctx.AddedBy b s e :=
  (declared_of_mem_fields h hb hs).imp_left fun ⟨f, hf, _⟩ => ⟨f, hf⟩

end BlockMaker

end GoSchema
