/-
# Blocks of similar catalogs

Similar catalogs give the same blocks. What a block says of a field depends on the declarations that
the type of the field refers to, and these are similar; hidden fields are not seen in any block. So
the blocks of similar declarations are the same, and a declaration without blocks may stand anywhere
among them.

Key definitions: `BlockMaker.Similar`.
Key theorems: `BlockMaker.Similar.refer_eq`, `BlockMaker.Similar.naturalFields_eq`,
`BlockMaker.Similar.blocksOf_eq`, `BlockMaker.blocksFrom_congr`, `BlockMaker.blocksFrom_insert`.
-/
import GoSchema.Catalog.BlockMaker
import GoSchema.Proofs.SimilarCatalogs

namespace GoSchema

namespace Declaration.Similar

variable {ok : String → Prop} {d d' : Declaration} (h : d.Similar ok d')
include h

theorem requestName_eq (rules : NamingRules) (r : BlockRequest) :
    d'.requestName rules r = d.requestName rules r := by
  rw [requestName, requestName, h.name]

theorem target_eq (rules : NamingRules) (r : BlockRequest) :
    d'.target rules r = d.target rules r := by
  rw [target, target, h.requestName_eq, h.name]

theorem shows_eq (rules : NamingRules) (r : BlockRequest) {f f' : Field}
    (hf : Field.Similar ok f f') : d'.shows rules r f' = d.shows rules r f := by
  have hall : d'.hidesAll = d.hidesAll := congrArg (·.hidesAll) h.head
  rw [shows, shows, h.target_eq, hall, hf.isShownIn]

end Declaration.Similar

theorem Declaration.not_hidden_of_shows {d : Declaration} {rules : NamingRules} {r : BlockRequest}
    {f : Field} (h : d.shows rules r f = true) : f.options.hidden = false := by
  cases hh : f.options.hidden with
  | false => rfl
  | true =>
    rw [shows, Field.isShownIn_of_hidden hh] at h
    cases h

namespace BlockMaker

variable {ok : String → Prop} {φ : Nat → Nat} {ctx ctx' : BlockMaker}

/-- What similar blocks are made with: similar catalogs, the same values of enums, and the same
configuration. -/
structure Similar (ok : String → Prop) (φ : Nat → Nat) (ctx ctx' : BlockMaker) : Prop where
  catalog : Catalog.Similar ok φ ctx.catalog ctx'.catalog
  config : ctx'.config = ctx.config
  enums : ∀ id d, ctx.catalog.get? id = some d → d.enumRequest.isSome →
    ctx'.enums.lookup (φ id) = ctx.enums.lookup id

namespace Similar

variable (h : BlockMaker.Similar ok φ ctx ctx')
include h

/-! ### Type texts -/

theorem scalarOfName?_eq : ctx'.scalarOfName? = ctx.scalarOfName? := by
  funext package qualifier name
  unfold scalarOfName? scalar?
  rw [h.config]

theorem scalar?_eq : ctx'.scalar? = ctx.scalar? := by
  funext key
  unfold scalar?
  rw [h.config]

theorem withoutBlock_eq : ctx'.withoutBlock = ctx.withoutBlock := by
  funext spot t
  unfold withoutBlock
  rw [h.config]

/-- The reference to similar declarations is the same, if what stands behind a name is. -/
theorem declarationRef_eq {spot : Spot} {behind behind' : GoType → GoType → Except Fault TypeRef}
    (hb : ∀ t u, u.AllNames ok → behind' t u = behind t u) {d d' : Declaration}
    (hs : d.Similar ok d') (t : GoType) :
    ctx'.declarationRef spot behind' d' t = ctx.declarationRef spot behind d t := by
  unfold declarationRef
  rw [hs.enumRequest, hs.name, h.config, hs.requests, h.withoutBlock_eq]
  simp only [hs.requestName_eq]
  have hbody := hs.body
  generalize d.body = b at hbody
  generalize d'.body = b' at hbody
  cases hbody with
  | record => rfl
  | defined hu | aliased hu =>
    dsimp only
    rw [hb t _ hu]

theorem referWith_eq {spot : Spot} {behind behind' : GoType → GoType → Except Fault TypeRef}
    (hb : ∀ t u, u.AllNames ok → behind' t u = behind t u) {t : GoType} (ht : t.AllNames ok) :
    ctx'.referWith spot behind' t = ctx.referWith spot behind t := by
  induction t using GoType.rec (motive_2 := fun _ => True) with
  | pointer t ih | slice t ih | array t ih => simp only [referWith, ih ht]
  | map k v _ _ | any => simp only [referWith, h.scalar?_eq]
  | other text => simp only [referWith, h.withoutBlock_eq]
  | named package qualifier name args _ =>
    cases package with
    | none => simp only [referWith, h.withoutBlock_eq]
    | some package =>
      simp only [referWith, h.scalarOfName?_eq, h.withoutBlock_eq]
      cases ctx.scalarOfName? package qualifier name with
      | some scalar => rfl
      | none =>
        rcases h.catalog.find_cases ht with ⟨hno, hno'⟩ | ⟨id, d, d', hd, hd', hs⟩
        · rw [hno, hno']
        · rw [hd, hd']
          exact h.declarationRef_eq hb hs _
  | nil => trivial
  | cons => trivial

/-- **References are the same.** The induction is on the number of names that may be looked
through. -/
theorem refer_eq {spot : Spot} : ∀ (room : Nat) {t : GoType}, t.AllNames ok →
    ctx'.refer spot room t = ctx.refer spot room t
  | 0, _, ht => h.referWith_eq (fun t _ _ => by rw [h.withoutBlock_eq]) ht
  | room + 1, _, ht => h.referWith_eq (fun _ _ hu => refer_eq room hu) ht

theorem servesAsId_eq {t : GoType} (ht : t.AllNames ok) : ctx'.servesAsId t = ctx.servesAsId t := by
  unfold servesAsId
  split
  · rfl
  · rcases h.catalog.find_cases ht with ⟨hno, hno'⟩ | ⟨id, d, d', hd, hd', hs⟩
    · rw [hno, hno']
    · rw [hd, hd']
      dsimp only
      rw [hs.enumRequest]
      have hbody := hs.body
      generalize d.body = b at hbody
      generalize d'.body = b' at hbody
      cases hbody <;> rfl
  · rfl

theorem blockField_eq {spot : Spot} (ht : spot.field.type.AllNames ok) :
    ctx'.blockField spot = ctx.blockField spot := by
  have hid : ctx'.isIdField spot.field = ctx.isIdField spot.field := by
    rw [isIdField, isIdField, h.config, h.servesAsId_eq ht.stripPointers]
  have hplain : ctx'.plainRef spot = ctx.plainRef spot := by
    rw [plainRef, plainRef, hid, h.refer_eq chainLimit ht]
  have htext : ctx'.fieldTypeText spot = ctx.fieldTypeText spot := by
    rw [fieldTypeText, fieldTypeText, hplain]
  rw [blockField, blockField, htext, h.config]

/-! ### Blocks -/

section Declarations

variable {d d' : Declaration} (hs : d.Similar ok d')
include hs

/-- **Similar fields give the same fields of a block.** -/
theorem naturalFields_eq (r : BlockRequest) {fs fs' : List Field} (hfs : FieldsSimilar ok fs fs') :
    ctx'.naturalFields d' r fs' = ctx.naturalFields d r fs := by
  induction hfs with
  | nil => rfl
  | @cons f f' fs fs' hf _ ih =>
    unfold naturalFields
    rw [hf.isEmbedded, h.config, hs.shows_eq ctx.config.naming r hf, ih, hs.label,
      hs.requestName_eq]
    by_cases he : f.isEmbedded = true
    · rw [if_pos he, if_pos he, (hf.eq_of_embedded he).1]
    · rw [if_neg he, if_neg he]
      by_cases hshow : d.shows ctx.config.naming r f = true
      · obtain ⟨rfl, hnames⟩ := hf.eq_of_not_hidden (Declaration.not_hidden_of_shows hshow)
        have hfield : ctx'.blockField ⟨f', d.requestName ctx.config.naming r, r.kind⟩ =
            ctx.blockField ⟨f', d.requestName ctx.config.naming r, r.kind⟩ :=
          h.blockField_eq hnames
        rw [hfield]
      · rw [if_neg hshow, if_neg hshow]

theorem addedFields_eq (r : BlockRequest) : ctx'.addedFields d' r = ctx.addedFields d r := by
  have hadded : d'.additions = d.additions := congrArg (·.additions) hs.head
  rw [addedFields, addedFields, hadded, h.config, hs.target_eq, hs.name]

theorem modelName_eq : ctx'.modelName d' = ctx.modelName d := by
  have hsynthetic : d'.synthetic = d.synthetic := congrArg (·.synthetic) hs.head
  rw [modelName, modelName, h.config, hsynthetic, hs.package, hs.name]

theorem blockOf_eq (r : BlockRequest) (index : Nat) :
    ctx'.blockOf d' r index = ctx.blockOf d r index := by
  have hdoc : d'.doc = d.doc := congrArg (·.doc) hs.head
  have hspace : d'.space = d.space := congrArg (·.space) hs.head
  have hplace : d'.place = d.place := congrArg (·.place) hs.head
  unfold blockOf
  rw [h.naturalFields_eq hs r hs.body.fields, h.addedFields_eq hs, h.config, hs.requestName_eq,
    h.modelName_eq hs, hdoc, hspace, hplace, hs.package, hs.label]

theorem requestedBlocks_eq : ∀ l : List (BlockRequest × Nat),
    ctx'.requestedBlocks d' l = ctx.requestedBlocks d l
  | [] => rfl
  | (r, index) :: l => by
    unfold requestedBlocks
    rw [h.blockOf_eq hs, requestedBlocks_eq l]

/-- **Similar declarations give the same blocks.** -/
theorem blocksOf_eq {id : Nat} (hd : ctx.catalog.get? id = some d) :
    ctx'.blocksOf (φ id) d' = ctx.blocksOf id d := by
  have henum : d'.enumRequest.map (ctx'.blockOfEnum (φ id) d') =
      d.enumRequest.map (ctx.blockOfEnum id d) := by
    have hdoc : d'.doc = d.doc := congrArg (·.doc) hs.head
    have hspace : d'.space = d.space := congrArg (·.space) hs.head
    have hplace : d'.place = d.place := congrArg (·.place) hs.head
    rw [hs.enumRequest]
    cases he : d.enumRequest with
    | none => rfl
    | some request =>
      rw [Option.map_some, Option.map_some, blockOfEnum, blockOfEnum, h.config, hs.name,
        h.modelName_eq hs, hdoc, hspace, hplace, hs.package, hs.label,
        h.enums id d hd (by rw [he]; rfl)]
  unfold blocksOf
  rw [hs.isGeneric, hs.isRecord, hs.requests, henum, h.requestedBlocks_eq hs]

end Declarations

end Similar

/-- Declarations that give the same blocks one by one give the same blocks. -/
theorem blocksFrom_congr {l l' : List (Declaration × Nat)}
    (h : List.Forall₂ (fun p p' => ctx'.blocksOf p'.2 p'.1 = ctx.blocksOf p.2 p.1) l l')
    (before : List Block) : ctx'.blocksFrom before l' = ctx.blocksFrom before l := by
  induction h generalizing before with
  | nil => rfl
  | @cons p p' l l' hp _ ih =>
    unfold blocksFrom
    rw [hp]
    simp only [ih]

/-- A declaration without blocks may stand anywhere. -/
theorem blocksFrom_insert {d : Declaration} {id : Nat} (hd : ctx.blocksOf id d = .ok []) :
    ∀ (front back : List (Declaration × Nat)) (before : List Block),
      ctx.blocksFrom before (front ++ (d, id) :: back) = ctx.blocksFrom before (front ++ back)
  | [], back, before => by
    rw [List.nil_append, List.nil_append, blocksFrom, hd]
    rfl
  | (e, i) :: front, back, before => by
    rw [List.cons_append, List.cons_append]
    unfold blocksFrom
    simp only [blocksFrom_insert hd front back]

end BlockMaker

end GoSchema
