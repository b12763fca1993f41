/-
# Schemas are well-formed

Each part of a schema being well-formed is seen to in another stage: no name is given twice because
blocks are added one by one to those before them, no field because the fields of a block are
compared, no value because the constants are gone through one by one, and no block stands in the
place of another one because the places of declarations differ and the blocks of one declaration are
numbered. So it holds of every schema of source files that is made without a fault.

Key definitions: `WellFormed`.
Key theorems: `BlockMaker.names_nodup`, `BlockMaker.orders_nodup`, `blocksOfFiles_wellFormed`.
-/
import GoSchema.Output.Layout
import GoSchema.Proofs.Blocks
import GoSchema.Proofs.EnumLinks
import GoSchema.Proofs.Places

namespace GoSchema

open Outcome

/-- A schema without repeated names, values or places, and without empty enums. -/
structure WellFormed (config : Config) (bs : List Block) : Prop where
  names : (bs.map Block.name).Nodup
  fields : ∀ b ∈ bs, b.kind ≠ .enum → (b.fields.map SchemaField.name).Nodup
  values : ∀ b ∈ bs, b.kind = .enum → b.values ≠ [] ∧ (b.values.map EnumValue.name).Nodup
  filled : ∀ b ∈ bs, b.kind ≠ .enum → b.fields = [] → config.includeEmptyTypes = true
  orders : (bs.map Block.order).Nodup

namespace BlockMaker

variable {ctx : BlockMaker} {d : Declaration} {r : BlockRequest}

theorem addBlocks_names : ∀ {bs before all : List Block}, (before.map Block.name).Nodup →
    addBlocks before bs = .ok all → (all.map Block.name).Nodup
  | [], before, all, h, hall => by
    obtain rfl := Except.ok.inj hall
    exact h
  | b :: bs, before, all, h, hall => by
    unfold addBlocks at hall
    split at hall
    · exact nomatch hall
    · rename_i hnew
      exact addBlocks_names (Pointwise.nodup_map_concat h hnew) hall

theorem blocksFrom_names : ∀ {l : List (Declaration × Nat)} {before all : List Block},
    (before.map Block.name).Nodup → ctx.blocksFrom before l = .ok all →
    (all.map Block.name).Nodup
  | [], before, all, h, hall => by
    obtain rfl := Except.ok.inj hall
    exact h
  | (d, id) :: more, before, all, h, hall => by
    unfold blocksFrom at hall
    split at hall
    · exact nomatch hall
    · split at hall
      · exact nomatch hall
      · rename_i next hnext
        exact blocksFrom_names (addBlocks_names h hnext) hall

/-- **No two blocks have the same name.** -/
theorem names_nodup {bs : List Block} (h : ctx.blocks = .ok bs) : (bs.map Block.name).Nodup :=
  have hnil : (([] : List Block).map Block.name).Nodup := List.nodup_nil
  blocksFrom_names hnil h

theorem nodup_of_repeated? : ∀ {fs earlier : List Sourced},
    (earlier.map (·.1.name)).Nodup → repeated? earlier fs = none →
    ((earlier ++ fs).map (·.1.name)).Nodup
  | [], earlier, h, _ => by rwa [List.append_nil]
  | f :: fs, earlier, h, hno => by
    unfold repeated? at hno
    split at hno
    · exact nomatch hno
    · rename_i hnew
      rw [List.append_cons]
      exact nodup_of_repeated? (Pointwise.nodup_map_concat h hnew) hno

/-! ### Numbers of blocks -/

theorem place_of_order {b b' : Block} (h : b.order = b'.order) :
    b.place = b'.place ∧ b.slot = b'.slot := by
  simp only [Block.order, List.cons.injEq, and_true] at h
  obtain ⟨hfile, hindex, hcopy, hslot⟩ := h
  refine ⟨?_, hslot⟩
  calc b.place = ⟨b.place.file, b.place.index, b.place.copy⟩ := rfl
    _ = ⟨b'.place.file, b'.place.index, b'.place.copy⟩ := by rw [hfile, hindex, hcopy]

/-- The blocks of the requests of a declaration are numbered in order, from the number of the first
request on. -/
theorem slots_of_requests : ∀ {l : List BlockRequest} {n : Nat} {made : List (Option Block)},
    List.Forall₂ (fun p m => ctx.blockOf d p.1 p.2 = .ok m) (l.zipIdx n) made →
    ((made.flatMap Option.toList).map Block.slot).Pairwise (· < ·) ∧
      ∀ b ∈ made.flatMap Option.toList, n < b.slot
  | [], n, made, h => by
    cases h
    exact ⟨.nil, fun _ hb => absurd hb List.not_mem_nil⟩
  | r :: l, n, made, h => by
    rw [List.zipIdx_cons] at h
    cases h with
    | @cons _ m _ made hm hall =>
      obtain ⟨hpair, hlt⟩ := slots_of_requests hall
      rw [List.flatMap_cons]
      obtain ⟨natural, -, -, ⟨-, -, rfl⟩ | ⟨b, rfl, -, -, -, hslot, -⟩⟩ := blockOf_ok hm
      · exact ⟨hpair, fun b hb => Nat.lt_of_succ_lt (hlt b hb)⟩
      · show ((b :: made.flatMap Option.toList).map Block.slot).Pairwise (· < ·) ∧
          ∀ b' ∈ b :: made.flatMap Option.toList, n < b'.slot
        refine ⟨?_, fun b' hb' => ?_⟩
        · rw [List.map_cons, List.pairwise_cons]
          refine ⟨fun slot hs => ?_, hpair⟩
          obtain ⟨b', hb', rfl⟩ := List.mem_map.1 hs
          have := hlt b' hb'
          omega
        · rcases List.mem_cons.1 hb' with rfl | hb'
          · omega
          · exact Nat.lt_of_succ_lt (hlt b' hb')

/-- The blocks of a declaration stand at its place and have different numbers. -/
theorem orders_of_blocksOf {id : Nat} {own : List Block} (h : ctx.blocksOf id d = .ok own) :
    (own.map Block.order).Nodup ∧ ∀ b ∈ own, b.place = d.place := by
  by_cases hg : d.isGeneric = true
  · rw [blocksOf_generic hg] at h
    obtain rfl := Except.ok.inj h
    exact ⟨List.nodup_nil, fun _ hb => absurd hb List.not_mem_nil⟩
  · obtain ⟨made, rfl, hall⟩ := blocksOf_ok (Bool.eq_false_iff.2 hg) h
    have hslots : ((made.flatMap Option.toList).map Block.slot).Pairwise (· < ·) ∧
        ∀ b ∈ made.flatMap Option.toList, 0 < b.slot := by
      split at hall
      · exact slots_of_requests hall
      · cases hall
        exact ⟨.nil, fun _ hb => absurd hb List.not_mem_nil⟩
    refine ⟨?_, fun b hb => ?_⟩
    · have hnumbers : (((d.enumRequest.map (ctx.blockOfEnum id d)).toList ++
          made.flatMap Option.toList).map Block.slot).Pairwise (· < ·) := by
        rw [List.map_append, List.pairwise_append]
        refine ⟨?_, hslots.1, ?_⟩
        · cases d.enumRequest <;> simp
        · -- the block of the enum has the number zero
          intro x hx y hy
          obtain ⟨b, hb, rfl⟩ := List.mem_map.1 hy
          obtain ⟨e, he, rfl⟩ := List.mem_map.1 hx
          obtain ⟨request, -, rfl⟩ := Option.map_eq_some_iff.1 (Option.mem_toList.1 he)
          exact hslots.2 b hb
      refine List.pairwise_map.2 ((List.pairwise_map.1 hnumbers).imp ?_)
      intro a b hlt heq
      exact Nat.ne_of_lt hlt (place_of_order heq).2
    · rcases List.mem_append.1 hb with hb | hb
      · obtain ⟨request, -, rfl⟩ := Option.map_eq_some_iff.1 (Option.mem_toList.1 hb)
        rfl
      · obtain ⟨m, hm, hbm⟩ := List.mem_flatMap.1 hb
        obtain ⟨p, -, hp⟩ := Pointwise.exists_left hall hm
        obtain rfl := Option.mem_toList.1 hbm
        obtain ⟨natural, -, -, ⟨-, -, hno⟩ | ⟨b', hb', -, -, hplace, -⟩⟩ := blockOf_ok hp
        · exact nomatch hno
        · obtain rfl := Option.some.inj hb'
          exact hplace

/-- **No two blocks have the same order.** -/
theorem orders_nodup (hs : Spread ctx.catalog.types) {bs : List Block} (h : ctx.blocks = .ok bs) :
    (bs.map Block.order).Nodup := by
  obtain ⟨owns, hall, rfl⟩ := blocks_ok h
  rw [List.map_flatten, List.nodup_flatten]
  refine ⟨fun l hl => ?_, ?_⟩
  · obtain ⟨own, hown, rfl⟩ := List.mem_map.1 hl
    obtain ⟨p, -, hp⟩ := Pointwise.exists_left hall hown
    exact (orders_of_blocksOf hp).1
  · -- the blocks of two declarations stand at two places
    have hplaces : ctx.catalog.types.zipIdx.Pairwise fun p q => p.1.place ≠ q.1.place := by
      have := hs.places
      rw [← List.zipIdx_map_fst 0 ctx.catalog.types, List.map_map] at this
      exact List.pairwise_map.1 this
    rw [List.pairwise_map]
    refine Pointwise.pairwise hall hplaces ?_
    intro p q own own' hp hq hne order ho ho'
    obtain ⟨b, hb, rfl⟩ := List.mem_map.1 ho
    obtain ⟨b', hb', heq⟩ := List.mem_map.1 ho'
    apply hne
    rw [← (orders_of_blocksOf hp).2 b hb, ← (orders_of_blocksOf hq).2 b' hb']
    exact (place_of_order heq).1.symm

/-- A block on request is of the kind of the request, has no two fields of one name, and is empty
only where empty blocks are wanted. -/
theorem fields_of_blockOf {index : Nat} {b : Block} (h : ctx.blockOf d r index = .ok (some b)) :
    b.kind = r.kind ∧ (b.fields.map SchemaField.name).Nodup ∧
      (b.fields = [] → ctx.config.includeEmptyTypes = true) := by
  unfold blockOf at h
  split at h
  · exact nomatch h
  · rename_i natural _
    dsimp only at h
    split at h
    · exact nomatch h
    · rename_i hrepeated
      split at h
      · exact nomatch h
      · rename_i hfilled
        obtain rfl := Option.some.inj (Except.ok.inj h)
        refine ⟨rfl, ?_, fun hempty => ?_⟩
        · have hnames := @nodup_of_repeated? _ [] List.nodup_nil hrepeated
          rw [List.nil_append] at hnames
          rw [List.map_map]
          exact hnames
        · have hnone : natural ++ ctx.addedFields d r = [] := List.map_eq_nil_iff.1 hempty
          simpa [hnone] using hfilled

end BlockMaker

/-! ### The schema -/

/-- **Schemas are well-formed.** Source files whose blocks are made without a fault have no two
blocks of one name, no two fields of one name in a block, no enum without values or with two values
of one name, no block without fields unless such blocks are wanted, and no two blocks of one
order. -/
theorem blocksOfFiles_wellFormed {config : Config} {files : List SourceFile} {bs : List Block}
    (h : blocksOfFiles config files = .ok bs) : WellFormed config bs := by
  unfold blocksOfFiles at h
  split at h
  · exact nomatch h
  rename_i ds hds
  obtain ⟨ctx, hctx, hblocks⟩ := Declarations.toBlocks_eq_ok_iff.1 h
  obtain rfl := Declarations.maker_config hctx
  obtain ⟨hspread, settled, -, henums, hdeclared⟩ :=
    Declarations.spread_maker (Declarations.written_ofFiles hds) hctx
  -- a block on request is never that of an enum
  have hrequest : ∀ {d : Declaration} {r : BlockRequest} {id index : Nat} {b : Block},
      ctx.catalog.get? id = some d → r ∈ d.requests → ctx.blockOf d r index = .ok (some b) →
      b.kind ≠ .enum := by
    intro d r id index b hd hr hblock
    rw [(BlockMaker.fields_of_blockOf hblock).1]
    exact hspread.kinds d (List.mem_of_getElem? hd) r hr
  refine ⟨BlockMaker.names_nodup hblocks, ?_, ?_, ?_, BlockMaker.orders_nodup hspread hblocks⟩
  · intro b hb hkind
    obtain ⟨id, d, -, ⟨request, -, rfl⟩ | ⟨r, -, index, hblock⟩⟩ :=
      BlockMaker.blockOf_of_mem hblocks hb
    · exact absurd rfl hkind
    · exact (BlockMaker.fields_of_blockOf hblock).2.1
  · intro b hb hkind
    obtain ⟨id, d, hd, ⟨request, henum, rfl⟩ | ⟨r, hr, index, hblock⟩⟩ :=
      BlockMaker.blockOf_of_mem hblocks hb
    · have hid : id ∈ settled.enumIds := hdeclared id d hd (by rw [henum]; rfl)
      obtain ⟨vs, hlookup, hne, hnames⟩ := Catalog.values_of_enumMembers henums hid
      have hvalues : (ctx.blockOfEnum id d request).values = vs := by
        show (ctx.enums.lookup id).getD [] = vs
        rw [hlookup]
        rfl
      rw [hvalues]
      exact ⟨hne, hnames⟩
    · exact absurd hkind (hrequest hd hr hblock)
  · intro b hb hkind
    obtain ⟨id, d, -, ⟨request, -, rfl⟩ | ⟨r, -, index, hblock⟩⟩ :=
      BlockMaker.blockOf_of_mem hblocks hb
    · exact absurd rfl hkind
    · exact (BlockMaker.fields_of_blockOf hblock).2.2

/-- An enum, a generic struct, and a struct with fields of two instances of it. Types and inputs are
asked for both structs. -/
def stock : SourceFile :=
  { path := ⟨"m.go"⟩
    package := "m"
    types :=
      [⟨"Color", some "@gqlEnum", 1, [], .defined (.ofName "int")⟩,
        ⟨"Box", some "@gqlType\n@gqlInput", 2, ["T"],
          .record [⟨some "Item", .ofName "T", none, none, 2⟩]⟩,
        ⟨"Shelf", some "@gqlType\n@gqlInput", 3, [],
          .record [⟨some "Paint", .ofName "Color", none, none, 3⟩,
            ⟨some "Left", .named none none "Box" [.ofName "int"], none, none, 4⟩,
            ⟨some "Right", .named none none "Box" [.ofName "string"], none, none, 5⟩]⟩]
    consts :=
      [⟨"ColorRed", some (.ofName "Color"), none, 6⟩,
        ⟨"ColorBlue", some (.ofName "Color"), none, 7⟩] }

theorem stock_wellFormed : ∃ bs, blocksOfFiles {} [stock] = .ok bs ∧
    bs.map (fun b => (b.name, b.order)) =
      [("Color", [0, 0, 0, 0]), ("Shelf", [0, 2, 0, 1]), ("ShelfInput", [0, 2, 0, 2]),
        ("BoxInt", [0, 1, 1, 1]), ("BoxIntInput", [0, 1, 1, 2]), ("BoxString", [0, 1, 2, 1]),
        ("BoxStringInput", [0, 1, 2, 2])] ∧
    WellFormed {} bs := by
  have h : (blocksOfFiles {} [stock]).toOption.map (fun bs => bs.map fun b => (b.name, b.order)) =
      some [("Color", [0, 0, 0, 0]), ("Shelf", [0, 2, 0, 1]), ("ShelfInput", [0, 2, 0, 2]),
        ("BoxInt", [0, 1, 1, 1]), ("BoxIntInput", [0, 1, 1, 2]), ("BoxString", [0, 1, 2, 1]),
        ("BoxStringInput", [0, 1, 2, 2])] := by decide +kernel
  obtain ⟨bs, hbs, horders⟩ := Option.map_eq_some_iff.1 h
  have hok : blocksOfFiles {} [stock] = .ok bs := eq_ok_of_toOption hbs
  exact ⟨bs, hok, horders, blocksOfFiles_wellFormed hok⟩

end GoSchema
