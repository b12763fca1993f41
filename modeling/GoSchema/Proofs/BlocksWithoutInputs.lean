/-
# Blocks without inputs

A field of a type leads to types and enums, and what it leads to is chosen among the requests for
its own kind. So blocks that are no inputs are made of a catalog without inputs as they were made
before: with the same names, descriptions, fields and values. They have other numbers among the
blocks of their declaration, and no more names can be taken.

Key definitions: `Block.EqButSlot`, `BlockMaker.withoutInputs`.
Key theorems: `refer_withoutInputs`, `naturalFields_withoutInputs`, `blockOf_withoutInputs`,
`requestedBlocks_withoutInputs`, `addBlocks_kept`, `blocksFrom_withoutInputs`,
`Declarations.toBlocks_withoutInputs`.
-/
import GoSchema.Proofs.Blocks
import GoSchema.Proofs.DiscoveryWithoutInputs

namespace GoSchema

open Outcome

namespace Block

/-- The same block, but perhaps with another number among those of its declaration. -/
def EqButSlot (b b' : Block) : Prop := b' = { b with slot := b'.slot }

theorem EqButSlot.refl (b : Block) : EqButSlot b b := rfl

theorem EqButSlot.name {b b' : Block} (h : EqButSlot b b') : b'.name = b.name := by
  unfold EqButSlot at h
  rw [h]

/-- The blocks that are no inputs. -/
def kept (bs : List Block) : List Block := bs.filter fun b => b.kind ≠ .input

@[simp]
theorem kept_append (bs bs' : List Block) : kept (bs ++ bs') = kept bs ++ kept bs' :=
  List.filter_append ..

theorem kept_cons_of_ne {b : Block} (h : b.kind ≠ .input) (bs : List Block) :
    kept (b :: bs) = b :: kept bs :=
  List.filter_cons_of_pos (by simpa using h)

theorem kept_cons_of_eq {b : Block} (h : b.kind = .input) (bs : List Block) :
    kept (b :: bs) = kept bs :=
  List.filter_cons_of_neg (by simpa using h)

end Block

namespace BlockMaker

open Block

/-- What blocks are made with when the inputs are taken away. -/
def withoutInputs (ctx : BlockMaker) : BlockMaker :=
  { ctx with catalog := ctx.catalog.withoutInputs }

@[simp]
theorem catalog_withoutInputs (ctx : BlockMaker) :
    ctx.withoutInputs.catalog = ctx.catalog.withoutInputs := rfl

@[simp]
theorem config_withoutInputs (ctx : BlockMaker) : ctx.withoutInputs.config = ctx.config := rfl

variable {ctx : BlockMaker} {spot : Spot} {d : Declaration} {r : BlockRequest}

/-! ### Type texts -/

/-- **A struct is referred to by the block of the same kind.** -/
theorem declarationRef_withoutInputs (hk : spot.kind ≠ .input)
    (behind : GoType → GoType → Except Fault TypeRef) (d : Declaration) (t : GoType) :
    ctx.withoutInputs.declarationRef spot behind d.withoutInputs t =
      ctx.declarationRef spot behind d t := by
  have hfind : d.withoutInputs.requests.find? (·.kind = spot.kind) =
      d.requests.find? (·.kind = spot.kind) := by
    rw [Declaration.requests_withoutInputs, List.find?_filter]
    congr 1
    funext r
    by_cases hr : r.kind = spot.kind
    · simp [BlockRequest.isKept, hr, hk]
    · simp [hr]
  unfold declarationRef
  rw [hfind]
  rfl

theorem referWith_withoutInputs (hk : spot.kind ≠ .input)
    (behind : GoType → GoType → Except Fault TypeRef) :
    ∀ t : GoType, ctx.withoutInputs.referWith spot behind t = ctx.referWith spot behind t
  | .pointer t | .slice t | .array t => by
    unfold referWith
    rw [referWith_withoutInputs hk behind t]
  | .named (some package) qualifier name args => by
    unfold referWith
    dsimp only
    rw [catalog_withoutInputs, Catalog.find_withoutInputs]
    cases ctx.catalog.find (.named (some package) qualifier name args) with
    | none => rfl
    | some x =>
      simp only [Option.map_some, declarationRef_withoutInputs hk]
      rfl
  | .named none _ _ _ | .map _ _ | .any | .other _ => rfl

theorem refer_withoutInputs (hk : spot.kind ≠ .input) : ∀ (room : Nat) (t : GoType),
    ctx.withoutInputs.refer spot room t = ctx.refer spot room t
  | 0, t => referWith_withoutInputs hk _ t
  | room + 1, t => by
    unfold refer
    simp only [refer_withoutInputs hk room]
    exact referWith_withoutInputs hk _ t

theorem isIdField_withoutInputs (f : Field) :
    ctx.withoutInputs.isIdField f = ctx.isIdField f := by
  have hserves : ∀ t, ctx.withoutInputs.servesAsId t = ctx.servesAsId t := by
    intro t
    unfold servesAsId
    rw [catalog_withoutInputs, Catalog.find_withoutInputs]
    cases ctx.catalog.find t <;> rfl
  unfold isIdField
  rw [hserves]
  rfl

/-! ### Blocks -/

theorem blockField_withoutInputs (hk : spot.kind ≠ .input) :
    ctx.withoutInputs.blockField spot = ctx.blockField spot := by
  unfold blockField fieldTypeText plainRef
  rw [isIdField_withoutInputs, refer_withoutInputs hk]
  rfl

theorem naturalFields_withoutInputs (hk : r.kind ≠ .input) : ∀ fs : List Field,
    ctx.withoutInputs.naturalFields d.withoutInputs r fs = ctx.naturalFields d r fs
  | [] => rfl
  | f :: fs => by
    unfold naturalFields
    rw [naturalFields_withoutInputs hk fs, blockField_withoutInputs hk]
    rfl

/-- **A block that is no input** is the same one but for its number. -/
theorem blockOf_withoutInputs (hk : r.kind ≠ .input) (index index' : Nat) :
    ctx.withoutInputs.blockOf d.withoutInputs r index' =
      (ctx.blockOf d r index).map (Option.map fun b => { b with slot := index' + 1 }) := by
  have hname : d.withoutInputs.requestName ctx.withoutInputs.config.naming r =
      d.requestName ctx.config.naming r := rfl
  have hadded : ctx.withoutInputs.addedFields d.withoutInputs r = ctx.addedFields d r := rfl
  unfold blockOf
  rw [Declaration.body_withoutInputs, naturalFields_withoutInputs hk, hadded, hname]
  cases ctx.naturalFields d r d.body.fields with
  | error e => rfl
  | ok natural =>
    dsimp only
    cases repeated? [] (natural ++ ctx.addedFields d r) with
    | some pair => rfl
    | none =>
      dsimp only
      rw [config_withoutInputs]
      split <;> rfl

theorem requestedBlocks_withoutInputs {rs : List BlockRequest} (n n' : Nat) {bs : List Block}
    (h : ctx.requestedBlocks d (rs.zipIdx n) = .ok bs) : ∃ bs',
      ctx.withoutInputs.requestedBlocks d.withoutInputs
        ((rs.filter BlockRequest.isKept).zipIdx n') = .ok bs' ∧
      List.Forall₂ EqButSlot (kept bs) bs' := by
  induction rs generalizing n n' bs with
  | nil =>
    obtain rfl := Except.ok.inj h
    exact ⟨[], rfl, .nil⟩
  | cons r rs ih =>
    rw [List.zipIdx_cons, requestedBlocks] at h
    split at h
    · cases h
    · rename_i block hblock
      obtain ⟨rest, hrest, rfl⟩ := map_eq_ok_iff.1 h
      have hkind : ∀ b ∈ block.toList, b.kind = r.kind := by
        intro b hb
        obtain ⟨_, -, -, ⟨-, -, hno⟩ | ⟨b', hsome, -, hkind, -⟩⟩ := blockOf_ok hblock
        · simp [hno] at hb
        · obtain rfl : b = b' := by simpa [hsome] using hb
          exact hkind
      by_cases hk : r.kind = .input
      · obtain ⟨rest', hrest', hall⟩ := ih (n + 1) n' hrest
        have hno : kept block.toList = [] :=
          List.filter_eq_nil_iff.2 fun b hb => by simp [hkind b hb, hk]
        rw [List.filter_cons_of_neg (by simpa [BlockRequest.isKept] using hk), kept_append, hno]
        exact ⟨rest', hrest', hall⟩
      · obtain ⟨rest', hrest', hall⟩ := ih (n + 1) (n' + 1) hrest
        have hyes : kept block.toList = block.toList :=
          List.filter_eq_self.2 fun b hb => by simp [hkind b hb, hk]
        rw [List.filter_cons_of_pos (by simpa [BlockRequest.isKept] using hk), List.zipIdx_cons,
          requestedBlocks, blockOf_withoutInputs hk n n', hblock, kept_append, hyes]
        refine ⟨_, congrArg (Except.map _) hrest', List.rel_append ?_ hall⟩
        cases block with
        | none => exact .nil
        | some b => exact .cons rfl .nil

theorem blocksOf_withoutInputs {id : Nat} {own : List Block} (h : ctx.blocksOf id d = .ok own) :
    ∃ own', ctx.withoutInputs.blocksOf id d.withoutInputs = .ok own' ∧
      List.Forall₂ EqButSlot (kept own) own' := by
  unfold blocksOf at h ⊢
  rw [Declaration.isGeneric_withoutInputs, Declaration.isRecord_withoutInputs]
  split at h
  · obtain rfl := Except.ok.inj h
    exact ⟨[], by simp_all, .nil⟩
  · rename_i hgeneric
    have henums : kept (d.enumRequest.map (ctx.blockOfEnum id d)).toList =
        (d.enumRequest.map (ctx.blockOfEnum id d)).toList := by
      cases d.enumRequest <;> rfl
    rw [if_neg hgeneric]
    dsimp only at h ⊢
    split at h
    · rename_i hrecord
      obtain ⟨rest, hrest, rfl⟩ := map_eq_ok_iff.1 h
      obtain ⟨rest', hrest', hall⟩ := requestedBlocks_withoutInputs 0 0 hrest
      rw [if_pos hrecord, kept_append, henums]
      refine ⟨_, congrArg (Except.map _) hrest', List.rel_append ?_ hall⟩
      exact List.forall₂_same.2 fun b _ => .refl b
    · rename_i hrecord
      obtain rfl := Except.ok.inj h
      rw [if_neg hrecord, henums]
      exact ⟨_, rfl, List.forall₂_same.2 fun b _ => .refl b⟩

/-- Where inputs are left out, no more names are taken. -/
theorem addBlocks_kept : ∀ {bs bs' before before' all : List Block},
    List.Forall₂ EqButSlot (kept before) before' → List.Forall₂ EqButSlot (kept bs) bs' →
    addBlocks before bs = .ok all →
    ∃ all', addBlocks before' bs' = .ok all' ∧ List.Forall₂ EqButSlot (kept all) all'
  | [], bs', before, before', all, hbefore, hbs, h => by
    obtain rfl := Except.ok.inj h
    cases hbs
    exact ⟨before', rfl, hbefore⟩
  | b :: bs, bs', before, before', all, hbefore, hbs, h => by
    unfold addBlocks at h
    split at h
    · cases h
    · rename_i hnew
      by_cases hk : b.kind = .input
      · have hsame : kept (before ++ [b]) = kept before := by
          rw [kept_append, kept_cons_of_eq hk]
          exact List.append_nil _
        rw [kept_cons_of_eq hk] at hbs
        exact addBlocks_kept (hsame ▸ hbefore) hbs h
      · rw [kept_cons_of_ne hk] at hbs
        obtain _ | ⟨hb, hbs⟩ := hbs
        rename_i b' bs'
        have hnew' : before'.find? (·.name = b'.name) = none := by
          refine List.find?_eq_none.2 fun a' ha' => ?_
          obtain ⟨a, ha, haa'⟩ := Pointwise.exists_left hbefore ha'
          have hno := List.find?_eq_none.1 hnew a (List.mem_filter.1 ha).1
          rwa [haa'.name, hb.name]
        have hbefore' : List.Forall₂ EqButSlot (kept (before ++ [b])) (before' ++ [b']) := by
          rw [kept_append, kept_cons_of_ne hk]
          exact List.rel_append hbefore (.cons hb .nil)
        unfold addBlocks
        rw [hnew']
        exact addBlocks_kept hbefore' hbs h

theorem blocksFrom_withoutInputs {ds : List Declaration} (n : Nat)
    {before before' all : List Block} (hbefore : List.Forall₂ EqButSlot (kept before) before')
    (h : ctx.blocksFrom before (ds.zipIdx n) = .ok all) :
    ∃ all', ctx.withoutInputs.blocksFrom before'
        ((ds.map Declaration.withoutInputs).zipIdx n) = .ok all' ∧
      List.Forall₂ EqButSlot (kept all) all' := by
  induction ds generalizing n before before' with
  | nil =>
    obtain rfl := Except.ok.inj h
    exact ⟨before', rfl, hbefore⟩
  | cons d ds ih =>
    rw [List.zipIdx_cons, blocksFrom] at h
    split at h
    · cases h
    · rename_i own hown
      split at h
      · cases h
      · rename_i next hnext
        obtain ⟨own', hown', hown⟩ := blocksOf_withoutInputs hown
        obtain ⟨next', hnext', hnext⟩ := addBlocks_kept hbefore hown hnext
        rw [List.map_cons, List.zipIdx_cons, blocksFrom, hown']
        dsimp only
        rw [hnext']
        exact ih (n + 1) hnext h

end BlockMaker

/-! ### From declarations to blocks -/

namespace Declarations

variable {config : Config} {ds : Declarations}

theorem maker_withoutInputs {ctx : BlockMaker} (h : ds.maker config = .ok ctx) :
    ds.withoutInputs.maker config = .ok ctx.withoutInputs := by
  simp only [maker, bind_eq_ok_iff] at h ⊢
  obtain ⟨settled, hsettled, enums, henums, flat, hflat, made, hmade, found, hfound, h⟩ := h
  obtain rfl := Except.ok.inj h
  refine ⟨settled.withoutInputs, ?_, enums, ?_, flat.withoutInputs, ?_, made.withoutInputs, ?_,
    found.withoutInputs, ?_, rfl⟩
  · rw [Catalog.ofDeclarations_withoutInputs]
    exact Catalog.settle_withoutInputs hsettled
  · rw [Catalog.enumMembers_withoutInputs, henums]
  · rw [Catalog.flatten_withoutInputs, hflat]
    rfl
  · exact Catalog.withInstances_withoutInputs hmade
  · rw [Catalog.addDiscovered_withoutInputs, hfound]
    rfl

/-- **Inputs do not affect types.** Without the inputs that are asked for, there are blocks again,
and they are the types and enums that there were, in the same order. -/
theorem toBlocks_withoutInputs {blocks : List Block} (h : ds.toBlocks config = .ok blocks) :
    ∃ blocks', ds.withoutInputs.toBlocks config = .ok blocks' ∧
      List.Forall₂ Block.EqButSlot (blocks.filter fun b => b.kind ≠ .input) blocks' := by
  obtain ⟨ctx, hctx, hblocks⟩ := toBlocks_eq_ok_iff.1 h
  obtain ⟨blocks', hblocks', hall⟩ := BlockMaker.blocksFrom_withoutInputs 0 .nil hblocks
  exact ⟨blocks', toBlocks_eq_ok_iff.2 ⟨_, maker_withoutInputs hctx, hblocks'⟩, hall⟩

/-- A struct that shall be an input and a type, and one that it refers to. -/
def orderDeclarations : Declarations :=
  { types :=
      [{ name := "Order", package := ⟨"m", none⟩, path := ⟨"m.go"⟩, line := 4, place := ⟨0, 0, 0⟩
         body := .record [{ goName := some "Line"
                            type := .pointer (.named (some "m") none "Line" []) }]
         requests := [{ kind := .input }, { kind := .type }] },
        { name := "Line", package := ⟨"m", none⟩, path := ⟨"m.go"⟩, line := 8, place := ⟨0, 1, 0⟩
          body := .record [{ goName := some "Count", type := .named none none "int" [] }] }] }

/-- A configuration in which blocks are found by reference. -/
def orderConfig : Config := { discovery := { strategy := .referenced } }

/-- Both structs give an input and a type, and the two types remain. -/
theorem orderDeclarations_withoutInputs : ∃ blocks blocks',
    orderDeclarations.toBlocks orderConfig = .ok blocks ∧
    blocks.map Block.name = ["OrderInput", "Order", "LineInput", "Line"] ∧
    orderDeclarations.withoutInputs.toBlocks orderConfig = .ok blocks' ∧
    List.Forall₂ Block.EqButSlot (blocks.filter fun b => b.kind ≠ .input) blocks' := by
  have hnames : (orderDeclarations.toBlocks orderConfig).map (List.map Block.name) =
      .ok ["OrderInput", "Order", "LineInput", "Line"] := eq_ok_of_toOption (by decide +kernel)
  obtain ⟨blocks, h, hnames⟩ := map_eq_ok_iff.1 hnames
  obtain ⟨blocks', h', hall⟩ := toBlocks_withoutInputs h
  exact ⟨blocks, blocks', h, hnames, h', hall⟩

end Declarations

end GoSchema
