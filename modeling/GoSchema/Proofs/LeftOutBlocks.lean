/-
# Blocks that are left out

Unless empty blocks are wanted, a request whose block would have no fields gives none. Whether that
is so is found out when the block is made, but a reference to a struct looks only at the requests of
the struct. So a field may be typed by a block that is not there. This says when: where the Go type
of the field leads to the struct, and the request is the first one of the kind of the block.

Key definitions: `BlockMaker.IsLeftOut`, `BlockMaker.RefersTo`, `BlockMaker.Namesake`.
Key theorems: `BlockMaker.fieldTypeText_of_leadsTo`, `BlockMaker.blockOf_of_isLeftOut`,
`blocksOfFiles_refersTo_leftOut`.
-/
import GoSchema.Proofs.DiscoveredReferences

namespace GoSchema

open Outcome

namespace BlockMaker

variable {ctx : BlockMaker}

theorem not_leadsTo_of_none {qualifier : Option String} {name : String} {args : List GoType}
    {d : Declaration} : ¬ ctx.LeadsTo (.named none qualifier name args) d := nofun

theorem not_leadsTo_of_isByteType {t : GoType} {d : Declaration} (ht : isByteType t = true) :
    ¬ ctx.LeadsTo t d := by
  unfold isByteType at ht
  split at ht
  · exact not_leadsTo_of_none
  · cases ht

theorem leadsTo_stripPointers {t : GoType} {d : Declaration} (h : ctx.LeadsTo t d) :
    ctx.LeadsTo t.stripPointers d := by
  induction t using GoType.stripPointers.induct with
  | case1 t ih =>
    cases h with
    | pointer h => exact ih h
  | case2 t hne =>
    rwa [show t.stripPointers = t by cases t <;> simp_all [GoType.stripPointers]]

/-- What serves as an identifier leads nowhere: it is predeclared, or stands for a predeclared
type. -/
theorem not_leadsTo_of_servesAsId {t : GoType} {d : Declaration} (ht : ctx.servesAsId t = true) :
    ¬ ctx.LeadsTo t d := by
  intro h
  unfold servesAsId at ht
  split at ht
  · exact not_leadsTo_of_none h
  · split at ht
    · rename_i id e he
      rw [Bool.and_eq_true] at ht
      obtain ⟨hno, hid⟩ := ht
      split at hid
      · rename_i name _ hbody
        cases h with
        | here _ hf hrecord =>
          obtain ⟨-, rfl⟩ := Prod.mk.inj (Option.some.inj (he.symm.trans hf))
          rcases hrecord with henum | hrecord
          · rw [Option.isNone_iff_eq_none] at hno
            rw [hno] at henum
            cases henum
          · rw [Declaration.isRecord] at hrecord
            cases hb : e.body with
            | record fields => rw [hb] at hbody; cases hbody
            | defined u | aliased u => rw [hb] at hrecord; cases hrecord
        | behind _ hf _ hnamed hlead =>
          obtain ⟨-, rfl⟩ := Prod.mk.inj (Option.some.inj (he.symm.trans hf))
          obtain rfl := Option.some.inj (hbody.symm.trans hnamed)
          exact not_leadsTo_of_none hlead
      · cases hid
    · cases ht
  · cases ht

theorem declarationRef_of_behind {spot : Spot} {behind : GoType → GoType → Except Fault TypeRef}
    {d : Declaration} (hno : d.enumRequest = none) {u : GoType} (hu : d.body.named? = some u)
    (t : GoType) : ctx.declarationRef spot behind d t = behind t u := by
  unfold declarationRef
  rw [hno]
  cases hb : d.body with
  | record fields => rw [hb] at hu; cases hu
  | defined v | aliased v =>
    rw [hb] at hu
    obtain rfl := Option.some.inj hu
    rfl

theorem declarationRef_of_here {spot : Spot} (hf : spot.field.options.forceResolver = false)
    {behind : GoType → GoType → Except Fault TypeRef} {d : Declaration}
    (hd : d.enumRequest.isSome ∨ d.isRecord) {t : GoType} {ref : TypeRef}
    (h : ctx.declarationRef spot behind d t = .ok ref) :
    d.nameIn? ctx.config.naming spot.kind = some ref.text := by
  unfold declarationRef at h
  split at h
  · rename_i request he
    obtain rfl := Except.ok.inj h
    simp [Declaration.nameIn?, he]
  · rename_i he
    split at h
    · rename_i fields hbody
      have hrecord : d.isRecord = true := by simp [Declaration.isRecord, hbody, Body.isRecord]
      split at h
      · rename_i request hq
        obtain rfl := Except.ok.inj h
        simp [Declaration.nameIn?, he, hrecord, hq]
      · exact absurd h (withoutBlock_of_not_forced hf)
    all_goals
      rename_i u hbody
      rcases hd with hd | hd
      · rw [he] at hd
        cases hd
      · simp [Declaration.isRecord, hbody, Body.isRecord] at hd

/-- Whatever reference is made of a type, it has the name of a declaration. -/
def AlwaysNames (ctx : BlockMaker) (spot : Spot) (t : GoType) (d : Declaration) : Prop :=
  ∀ room ref, ctx.refer spot room t = .ok ref →
    ∃ name, d.nameIn? ctx.config.naming spot.kind = some name ∧ Wraps name ref.text

theorem AlwaysNames.list {spot : Spot} {t u : GoType} {d : Declaration}
    (h : ctx.AlwaysNames spot t d) (hl : ctx.LeadsTo t d) (hu : u = .slice t ∨ u = .array t) :
    ctx.AlwaysNames spot u d := by
  intro room ref href
  rw [refer_list hu, if_neg fun ht => not_leadsTo_of_isByteType ht hl] at href
  obtain ⟨r, hr, rfl⟩ := map_eq_ok_iff.1 href
  obtain ⟨name, hn, hw⟩ := h room r hr
  exact ⟨name, hn, hw.item r.nullable⟩

/-- **A reference that leads to a declaration has its name.** The induction is on the way to the
declaration; each name on it takes one of the names that may be looked through. -/
theorem alwaysNames_of_leadsTo {spot : Spot} (hf : spot.field.options.forceResolver = false)
    {t : GoType} {d : Declaration} (hl : ctx.LeadsTo t d) : ctx.AlwaysNames spot t d := by
  induction hl with
  | pointer _ ih =>
    intro room ref h
    rw [refer_pointer] at h
    obtain ⟨r, hr, rfl⟩ := map_eq_ok_iff.1 h
    exact ih room r hr
  | slice hl ih => exact ih.list hl (.inl rfl)
  | array hl ih => exact ih.list hl (.inr rfl)
  | here hs hfind hd =>
    intro room ref h
    cases room with
    | zero | succ =>
      simp only [refer, referWith, hs, hfind] at h
      exact ⟨_, declarationRef_of_here hf hd h, .bare⟩
  | behind hs hfind hno hnamed _ ih =>
    intro room ref h
    cases room with
    | zero =>
      simp only [refer, referWith, hs, hfind, declarationRef_of_behind hno hnamed] at h
      exact absurd h (withoutBlock_of_not_forced hf)
    | succ room =>
      simp only [refer, referWith, hs, hfind, declarationRef_of_behind hno hnamed] at h
      exact ih room ref h

/-- The type text of a field whose Go type leads to a declaration has the name of the
declaration. -/
theorem fieldTypeText_of_leadsTo {spot : Spot} (ht : spot.field.options.typeText = none)
    (hf : spot.field.options.forceResolver = false) {d : Declaration}
    (hl : ctx.LeadsTo spot.field.type d) {text : String} (h : ctx.fieldTypeText spot = .ok text) :
    ∃ name, d.nameIn? ctx.config.naming spot.kind = some name ∧ Wraps name text := by
  rw [fieldTypeText_of_derived _ ht] at h
  obtain ⟨ref, hr, rfl⟩ := map_eq_ok_iff.1 h
  unfold plainRef at hr
  split at hr
  · rename_i hid
    rw [isIdField, Bool.and_eq_true] at hid
    exact absurd (leadsTo_stripPointers hl) (not_leadsTo_of_servesAsId hid.2)
  · obtain ⟨name, hn, hw⟩ := alwaysNames_of_leadsTo hf hl chainLimit ref hr
    refine ⟨name, hn, ?_⟩
    split
    · exact hw
    · exact hw.required

/-! ### What is left out -/

/-- A request of a struct whose block would have no fields: none of the struct is seen in it, and no
directive adds one. -/
structure IsLeftOut (ctx : BlockMaker) (d : Declaration) (r : BlockRequest) : Prop where
  declared : d ∈ ctx.catalog.types
  plain : d.isGeneric = false
  record : d.isRecord = true
  asked : r ∈ d.requests
  unseen : ∀ f ∈ d.body.fields, d.shows ctx.config.naming r f = false
  unadded : ∀ e ∈ d.additions, e.on.covers (d.target ctx.config.naming r) = false

variable {d : Declaration} {r : BlockRequest}

/-- Fields of which none is seen give no natural fields, unless one of them is still embedded. -/
theorem naturalFields_of_unseen : ∀ {fs : List Field}, (∀ f ∈ fs, f.isEmbedded = false) →
    (∀ f ∈ fs, d.shows ctx.config.naming r f = false) → ctx.naturalFields d r fs = .ok []
  | [], _, _ => rfl
  | f :: fs, he, hs => by
    obtain ⟨hef, hefs⟩ := List.forall_mem_cons.1 he
    obtain ⟨hsf, hsfs⟩ := List.forall_mem_cons.1 hs
    rw [naturalFields, if_neg (by simp [hef]), if_neg (by simp [hsf])]
    exact naturalFields_of_unseen hefs hsfs

/-- **What is left out gives no block.** -/
theorem blockOf_of_isLeftOut (hempty : ctx.config.includeEmptyTypes = false) {bs : List Block}
    (h : ctx.blocks = .ok bs) (hout : ctx.IsLeftOut d r) (index : Nat) :
    ctx.blockOf d r index = .ok none := by
  obtain ⟨id, hid⟩ := List.mem_iff_getElem?.1 hout.declared
  obtain ⟨own, hown, -⟩ := blocksOf_subset h (List.mk_mem_zipIdx_iff_getElem?.2 hid)
  obtain ⟨made, -, hall⟩ := blocksOf_ok hout.plain hown
  rw [if_pos hout.record] at hall
  obtain ⟨i, hi⟩ := List.mem_iff_getElem?.1 hout.asked
  obtain ⟨m, -, hm⟩ := Pointwise.exists_right hall (List.mk_mem_zipIdx_iff_getElem?.2 hi)
  -- the block at the place of the request was made without a fault, so no field is embedded
  obtain ⟨natural, hn, -⟩ := blockOf_ok hm
  have hnatural := naturalFields_of_unseen (naturalFields_ok hn).1 hout.unseen
  have hadded : ctx.addedFields d r = [] := by
    rw [addedFields, List.map_eq_nil_iff, List.filter_eq_nil_iff]
    exact fun e he => by simp [hout.unadded e he]
  unfold blockOf
  rw [hnatural]
  simp [hadded, repeated?, hempty]

/-- A type in a block of a kind refers to a request: it leads to the struct, which is no enum, and
of the requests of this kind this is the first. -/
def RefersTo (ctx : BlockMaker) (kind : BlockKind) (t : GoType) (d : Declaration)
    (r : BlockRequest) : Prop :=
  ctx.LeadsTo t d ∧ d.enumRequest = none ∧ d.requests.find? (·.kind = kind) = some r

/-- The type text for a type in a block of a kind has the name of a request, but means something
else: a scalar, an enum, or another request. -/
def Namesake (ctx : BlockMaker) (kind : BlockKind) (t : GoType) (text : String) (d : Declaration)
    (r : BlockRequest) : Prop :=
  ∃ name, Wraps name text ∧ bareName name = bareName (d.requestName ctx.config.naming r) ∧
    (IsScalar ctx.config name ∨ ∃ e ∈ ctx.catalog.types, ctx.LeadsTo t e ∧
      e.nameIn? ctx.config.naming kind = some name ∧
      (e.enumRequest.isSome ∨
        ∃ q, e.requests.find? (·.kind = kind) = some q ∧ (e, q) ≠ (d, r)))

/-- **When a type text has the name of a request of a struct**: when the type refers to the request,
or to something else of that name. Whether the request gives a block plays no part. -/
theorem bareName_eq_iff {spot : Spot} (hrecord : d.isRecord = true)
    (ht : spot.field.options.typeText = none)
    (hf : spot.field.options.forceResolver = false) {text : String}
    (h : ctx.fieldTypeText spot = .ok text) :
    bareName text = bareName (d.requestName ctx.config.naming r) ↔
      ctx.RefersTo spot.kind spot.field.type d r ∨
        ctx.Namesake spot.kind spot.field.type text d r := by
  constructor
  · intro hname
    obtain ⟨name, hw, hmeans⟩ := fieldTypeText_ok ht hf h
    have hbare : bareName name = bareName (d.requestName ctx.config.naming r) :=
      (bareName_of_wraps hw).symm.trans hname
    rcases hmeans with hscalar | ⟨e, he, hl, hn⟩
    · exact .inr ⟨name, hw, hbare, .inl hscalar⟩
    cases henum : e.enumRequest with
    | some request =>
      exact .inr ⟨name, hw, hbare, .inr ⟨e, he, hl, hn, .inl (by rw [henum]; rfl)⟩⟩
    | none =>
      have hfind : ∃ q, e.requests.find? (·.kind = spot.kind) = some q := by
        have hn' := hn
        rw [Declaration.nameIn?, henum] at hn'
        dsimp only at hn'
        split at hn'
        · obtain ⟨q, hq, -⟩ := Option.map_eq_some_iff.1 hn'
          exact ⟨q, hq⟩
        · cases hn'
      obtain ⟨q, hq⟩ := hfind
      by_cases hsame : (e, q) = (d, r)
      · obtain ⟨rfl, rfl⟩ := Prod.mk.inj hsame
        exact .inl ⟨hl, henum, hq⟩
      · exact .inr ⟨name, hw, hbare, .inr ⟨e, he, hl, hn, .inr ⟨q, hq, hsame⟩⟩⟩
  · rintro (⟨hl, hno, hfirst⟩ | ⟨name, hw, hbare, -⟩)
    · obtain ⟨name, hn, hw⟩ := fieldTypeText_of_leadsTo ht hf hl h
      rw [Declaration.nameIn?, hno] at hn
      dsimp only at hn
      rw [if_pos hrecord, hfirst] at hn
      obtain rfl := Option.some.inj hn
      exact bareName_of_wraps hw
    · exact (bareName_of_wraps hw).trans hbare

end BlockMaker

/-! ### The schema of files -/

/-- **A left-out block is referred to exactly where a type leads to its struct.** Where empty blocks
are not wanted, a request whose block would have no fields gives none; and a field of a block whose
type text is derived has the name of the request exactly if the Go type of the field leads to the
struct and the request is its first one of the kind of the block, or if the type text means
something else of that name. -/
theorem blocksOfFiles_refersTo_leftOut {config : Config} (hempty : config.includeEmptyTypes = false)
    {files : List SourceFile} {bs : List Block} (h : blocksOfFiles config files = .ok bs) :
    ∃ ds ctx, Declarations.ofFiles config files = .ok ds ∧ ds.maker config = .ok ctx ∧
      ctx.config = config ∧ ctx.blocks = .ok bs ∧
      ∀ d r, ctx.IsLeftOut d r →
        (∀ index, ctx.blockOf d r index = .ok none) ∧
        ∀ b ∈ bs, ∀ s f, ctx.ComesFrom b s f → f.options.typeText = none →
          f.options.forceResolver = false →
          (bareName s.typeText = bareName (d.requestName config.naming r) ↔
            ctx.RefersTo b.kind f.type d r ∨ ctx.Namesake b.kind f.type s.typeText d r) := by
  unfold blocksOfFiles at h
  split at h
  · exact nomatch h
  · rename_i ds hds
    obtain ⟨ctx, hctx, hblocks⟩ := Declarations.toBlocks_eq_ok_iff.1 h
    have hconfig := Declarations.maker_config hctx
    subst hconfig
    refine ⟨ds, ctx, hds, hctx, rfl, hblocks, fun d r hout => ⟨?_, ?_⟩⟩
    · exact BlockMaker.blockOf_of_isLeftOut hempty hblocks hout
    · rintro b - s f ⟨-, -, -, -, -, -, -, -, hfield⟩ ht hf
      obtain ⟨text, htext, heq⟩ := map_eq_ok_iff.1 hfield
      obtain rfl : text = s.typeText := congrArg SchemaField.typeText (Prod.mk.inj heq).1
      exact BlockMaker.bareName_eq_iff hout.record ht hf htext

/-- A struct without a visible field, and a struct with a field of that type. -/
def ledger : SourceFile :=
  { path := ⟨"m.go"⟩
    package := "m"
    types :=
      [⟨"Empty", some "@gqlType", 1, [],
          .record [⟨some "hidden", .ofName "string", none, none, 1⟩]⟩,
        ⟨"User", some "@gqlType", 2, [],
          .record [⟨some "Name", .ofName "string", none, none, 3⟩,
            ⟨some "Extra", .ofName "Empty", none, none, 4⟩]⟩] }

/-- The schema of `ledger`. -/
def ledgerBlocks : List Block :=
  [{ kind := .type
     name := "User"
     package := "m"
     place := ⟨0, 1, 0⟩
     slot := 1
     fields := [{ name := "name", typeText := "String!" },
       { name := "extra", typeText := "Empty!" }]
     source := "m.User (type)" }]

theorem blocksOfFiles_ledger : blocksOfFiles {} [ledger] = .ok ledgerBlocks :=
  eq_ok_of_toOption (by decide +kernel)

theorem ledger_refersTo_leftOut :
    blocksOfFiles {} [ledger] = .ok ledgerBlocks ∧
      ∃ ds ctx, Declarations.ofFiles {} [ledger] = .ok ds ∧ ds.maker {} = .ok ctx ∧
        ctx.config = {} ∧ ctx.blocks = .ok ledgerBlocks ∧
        ∀ d r, ctx.IsLeftOut d r →
          (∀ index, ctx.blockOf d r index = .ok none) ∧
          ∀ b ∈ ledgerBlocks, ∀ s f, ctx.ComesFrom b s f → f.options.typeText = none →
            f.options.forceResolver = false →
            (bareName s.typeText = bareName (d.requestName {} r) ↔
              ctx.RefersTo b.kind f.type d r ∨ ctx.Namesake b.kind f.type s.typeText d r) :=
  ⟨blocksOfFiles_ledger, blocksOfFiles_refersTo_leftOut rfl blocksOfFiles_ledger⟩

/-- A declaration of `ledger`, which asks for a type. -/
def ledgerDeclaration (name : String) (number : Nat) (fields : List Field) : Declaration :=
  { name
    package := ⟨"m", none⟩
    path := ⟨"m.go"⟩
    line := number + 1
    place := ⟨0, number, 0⟩
    body := .record fields
    requests := [{ kind := .type }] }

/-- A field of `ledger`. -/
def ledgerField (owner name : String) (line : Nat) (type : GoType) : Field :=
  { goName := some name, type, origin := owner ++ "." ++ name, line }

def ledgerEmpty : Declaration :=
  ledgerDeclaration "Empty" 0 [ledgerField "Empty" "hidden" 1 (.ofName "string")]

def ledgerExtra : Field := ledgerField "User" "Extra" 4 (.named (some "m") none "Empty" [])

def ledgerUser : Declaration :=
  ledgerDeclaration "User" 1 [ledgerField "User" "Name" 3 (.ofName "string"), ledgerExtra]

/-- What the blocks of `ledger` are made with. -/
def ledgerMaker : BlockMaker := ⟨⟨[ledgerEmpty, ledgerUser], []⟩, [], {}⟩

theorem maker_ledger : Declarations.maker {} ⟨[ledgerEmpty, ledgerUser], []⟩ = .ok ledgerMaker :=
  Declarations.maker_eq_ok ledgerMaker (by decide +kernel)

theorem ledgerEmpty_isLeftOut : ledgerMaker.IsLeftOut ledgerEmpty { kind := .type } where
  declared := List.mem_cons_self
  plain := rfl
  record := rfl
  asked := List.mem_cons_self
  unseen := by decide +kernel
  unadded := by decide

/-- **A field may be typed by a block that is left out.** The block of the first struct is left out,
and the field of the second one has its name. -/
theorem ledger_names_leftOut :
    blocksOfFiles {} [ledger] = .ok ledgerBlocks ∧
      Declarations.ofFiles {} [ledger] = .ok ⟨[ledgerEmpty, ledgerUser], []⟩ ∧
      Declarations.maker {} ⟨[ledgerEmpty, ledgerUser], []⟩ = .ok ledgerMaker ∧
      ∃ d r, ledgerMaker.IsLeftOut d r ∧ (∀ b ∈ ledgerBlocks, b.place ≠ d.place) ∧
        ∃ b ∈ ledgerBlocks, ∃ s ∈ b.fields, ∃ f, ledgerMaker.ComesFrom b s f ∧
          f.options.typeText = none ∧ f.options.forceResolver = false ∧
          bareName s.typeText = d.requestName {} r := by
  refine ⟨eq_ok_of_toOption (by decide +kernel), by decide +kernel, maker_ledger, ledgerEmpty,
    { kind := .type }, ledgerEmpty_isLeftOut, by decide, ?_⟩
  refine ⟨_, List.mem_cons_self, _, List.mem_cons_of_mem _ List.mem_cons_self, ledgerExtra, ?_, rfl,
    rfl, by decide +kernel⟩
  exact ⟨ledgerUser, List.mem_cons_of_mem _ List.mem_cons_self, { kind := .type },
    List.mem_cons_self, List.mem_cons_of_mem _ List.mem_cons_self, by decide +kernel,
    by decide +kernel, rfl, by decide +kernel⟩

end GoSchema
