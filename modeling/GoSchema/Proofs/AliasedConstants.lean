/-
# Constants typed by an alias

A further name for an enum is the enum itself to a field: references look through aliases, so the
type text of the field has the name of the enum. Constants are joined to enums by one lookup of
their declared type, which stops at the alias. So a constant that is declared with an alias of an
enum is no value of the enum, however the alias leads there: it is a value of the alias, if that is
an enum of its own, and of no enum otherwise. Lookups are made in the catalog of the sources for
constants and in the last one for fields; a type that refers to anything but a struct in the last
one refers to the same in both.

Key definitions: `Catalog.IsAliasFor`, `Catalog.Outgrows`.
Key theorems: `Catalog.Outgrows.find`, `Declarations.outgrows_maker`,
`blocksOfFiles_aliasedConstants`.
-/
import GoSchema.Proofs.EnumLinks
import GoSchema.Proofs.LeftOutBlocks
import GoSchema.Proofs.SourceDeclarations
import GoSchema.Proofs.TypeTexts
import Mathlib.Logic.Relation

namespace GoSchema

open Outcome

namespace Catalog

variable {c c' : Catalog}

/-- A type is a name that is declared as a further name for another type. -/
def IsAliasFor (c : Catalog) (t u : GoType) : Prop :=
  t.isPointer = false ∧ ∃ id d, c.find t = some (id, d) ∧ d.body = .aliased u

/-! ### Catalogs that grew -/

/-- A catalog that came out of another one: the old declarations have kept their heads, up to
further requests, names that find one of them found it before, and the new declarations are
structs. -/
structure Outgrows (c c' : Catalog) : Prop where
  old : ∀ id e, c.get? id = some e → ∃ d, c'.get? id = some d ∧ e.head.AskedMore d.head
  lookup : ∀ package name id, c'.lookup package name = some id → id < c.types.length →
    c.lookup package name = some id
  fresh : ∀ id d, c'.get? id = some d → c.types.length ≤ id → d.isRecord = true

namespace Outgrows

variable (h : Outgrows c c')
include h

/-- **A type that refers to no struct** refers to the same declaration in the old catalog. -/
theorem find {t : GoType} {id : Nat} {d : Declaration} (hfind : c'.find t = some (id, d))
    (hr : d.isRecord = false) :
    ∃ e, c.find t = some (id, e) ∧ e.enumRequest = d.enumRequest := by
  obtain ⟨hid, hd⟩ := find_eq_some_iff.1 hfind
  have hlt : id < c.types.length := by
    by_contra hlt
    exact nomatch hr.symm.trans (h.fresh id d hd (Nat.not_lt.1 hlt))
  obtain ⟨e, he⟩ : ∃ e, c.get? id = some e := ⟨_, List.getElem?_eq_getElem hlt⟩
  obtain ⟨d', hd', kinds, hhead⟩ := h.old id e he
  obtain rfl := Option.some.inj (hd'.symm.trans hd)
  refine ⟨e, find_eq_some_iff.2 ⟨?_, he⟩, (congrArg (·.enumRequest) hhead).symm⟩
  unfold idOfType? at hid ⊢
  split at hid
  · exact h.lookup _ _ _ hid hlt
  · cases hid

end Outgrows

end Catalog

theorem Instances.record_of_run (c : Catalog) (limit : Nat) :
    ∀ id d, ((start c).run limit).catalog.get? id = some d → c.types.length ≤ id →
      d.isRecord = true := by
  refine run_preserves (P := fun s => ∀ id d, s.catalog.get? id = some d → c.types.length ≤ id →
    d.isRecord = true) ?_ (fun _ h => h) ?_ limit ?_
  · intro s package name id generic args h _ i d hd hle
    unfold instanceFor at hd
    split at hd
    · exact h i d hd hle
    · rcases Catalog.get?_push hd with hold | rfl
      · exact h i d hold hle
      · rfl
  · intro s id fields h i d hd hle
    by_cases hi : id = i
    · subst hi
      cases hold : s.catalog.get? id with
      | none =>
        rw [Catalog.get?_setBody_of_none hold] at hd
        cases hd
      | some e =>
        rw [Catalog.get?_setBody_self hold] at hd
        obtain rfl := Option.some.inj hd
        rfl
    · rw [Catalog.get?_setBody_ne hi] at hd
      exact h i d hd hle
  · intro id d hd hle
    exact absurd (Catalog.lt_of_get? hd) (Nat.not_lt.2 hle)

/-- **The last catalog came out of that of the sources**, for which the values of the enums were
collected. -/
theorem Declarations.outgrows_maker {config : Config} {ds : Declarations} {ctx : BlockMaker}
    (h : ds.maker config = .ok ctx) :
    ∃ c, (Catalog.ofDeclarations ds).settle = .ok c ∧ c.enumMembers = .ok ctx.enums ∧
      c.Outgrows ctx.catalog := by
  simp only [maker, bind_eq_ok_iff] at h
  obtain ⟨c, hc, enums, henums, flat, hflat, full, hfull, last, hlast, h⟩ := h
  obtain rfl := Except.ok.inj h
  obtain ⟨n, -, rfl⟩ := Catalog.withInstances_eq_ok_iff.1 hfull
  have hheads := Catalog.heads_flatten hflat
  have hlength : flat.types.length = c.types.length := by
    rw [← Catalog.heads_length, hheads, Catalog.heads_length]
  obtain ⟨ext, hext, -⟩ := (Instances.framed_run flat n).heads
  have hrecords := Instances.record_of_run flat n
  rw [hheads] at hext
  generalize (Instances.start flat).run n = s at *
  have hmore : s.catalog.AskedMore last :=
    Catalog.addDiscovered_keeps (K := fun _ => True) (P := s.catalog.AskedMore) trivial
      (fun _ _ _ _ _ => trivial) (fun id h _ => h.ask _ id) (.refl _) hlast
  refine ⟨c, hc, henums, ⟨fun id e he => ?_, fun package name id hl hlt => ?_, ?_⟩⟩
  · obtain ⟨x, hx, hsame⟩ := Catalog.exists_get?_of_heads_append hext he
    rcases hmore.get?_cases id with ⟨hno, -⟩ | ⟨y, d, hy, hd, kinds, rfl⟩
    · rw [hno] at hx
      cases hx
    · obtain rfl := Option.some.inj (hy.symm.trans hx)
      refine ⟨_, hd, kinds, ?_⟩
      rw [← hsame]
      rfl
  · rw [hmore.lookup_eq] at hl
    exact Catalog.lookup_of_append hext hl hlt
  · intro id d hd hle
    rcases hmore.get?_cases id with ⟨-, hno⟩ | ⟨e, d', he, hd', kinds, rfl⟩
    · rw [hno] at hd
      cases hd
    · obtain rfl := Option.some.inj (hd'.symm.trans hd)
      exact hrecords id e he (hlength ▸ hle)

namespace BlockMaker

variable {ctx : BlockMaker} {c : Catalog}

theorem leadsTo_of_innermost {t : GoType} {d : Declaration} (h : ctx.LeadsTo t.innermost d) :
    ctx.LeadsTo t d := by
  induction t using GoType.innermost.induct with
  | case1 t ih => exact .pointer (ih h)
  | case2 t ih => exact .slice (ih h)
  | case3 t ih => exact .array (ih h)
  | case4 t h1 h2 h3 => cases t <;> simp_all [GoType.innermost]

/-- An enum that is not generic gives a block with the values of the constants whose declared type
refers to it. -/
theorem exists_block_of_enum {bs : List Block} (hbs : ctx.blocks = .ok bs)
    (henums : c.enumMembers = .ok ctx.enums) (hgrown : c.Outgrows ctx.catalog) {id : Nat}
    {enum : Declaration} {request : EnumRequest} (henum : c.get? id = some enum)
    (he : enum.enumRequest = some request) (hg : enum.isGeneric = false) :
    ∃ b ∈ bs, b.kind = .enum ∧ b.place = enum.place ∧
      b.name = Name.typeName ctx.config.naming enum.name request.customName .enum ∧
      b.values = (c.constantsOf id).map (Catalog.enumValueOf enum) := by
  obtain ⟨d, hd, kinds, hhead⟩ := hgrown.old id enum henum
  have hrequest : d.enumRequest = some request := (congrArg (·.enumRequest) hhead).trans he
  have hname : d.name = enum.name := congrArg (·.name) hhead
  have hplain : d.isGeneric = false := by
    have hparams : d.typeParams = enum.typeParams := congrArg (·.typeParams) hhead
    rw [Declaration.isGeneric, hparams]
    exact hg
  obtain ⟨own, hown, hsub⟩ := blocksOf_subset hbs (List.mk_mem_zipIdx_iff_getElem?.2 hd)
  obtain ⟨made, rfl, -⟩ := blocksOf_ok hplain hown
  refine ⟨ctx.blockOfEnum id d request, hsub (List.mem_append_left _ (by simp [hrequest])), rfl,
    congrArg (·.place) hhead, by rw [← hname]; rfl, ?_⟩
  have hid : id ∈ c.enumIds := Catalog.mem_enumIds_iff.2 ⟨enum, henum, by simp [he]⟩
  obtain ⟨-, htable⟩ := Catalog.enumMembers_eq_ok_iff.1 henums
  show (ctx.enums.lookup id).getD [] = _
  rw [htable, Catalog.lookup_table hid, Option.getD_some, ← Catalog.valuesOf_eq henum]
  rfl

end BlockMaker

theorem Catalog.mem_constantsOf_iff {c : Catalog} {k : Constant} (hk : k ∈ c.consts) {t : GoType}
    (ht : k.type = some t) {own : Nat} (hown : c.idOfType? t = some own) (id : Nat) :
    k ∈ c.constantsOf id ↔ id = own := by
  rw [constantsOf, List.mem_filter, isTypedBy, ht, Option.bind_some, hown, decide_eq_true_eq,
    Option.some.injEq, and_iff_right hk, eq_comm]

/-- **A constant is a value of the enum that its declared type refers to, and an alias is looked
through for fields only.** In every run without a fault the values of an enum are those of the
constants whose declared type refers to it. Where this type is an alias, the constant belongs to
the declaration of the alias, wherever the alias leads to: unless that is an enum of its own, the
constant has no directive and is no value. A field of this type has the name of the enum that the
alias leads to. -/
theorem blocksOfFiles_aliasedConstants {config : Config} {files : List SourceFile} {bs : List Block}
    (h : blocksOfFiles config files = .ok bs) :
    ∃ ds c ctx, Declarations.ofFiles config files = .ok ds ∧
      (Catalog.ofDeclarations ds).settle = .ok c ∧ ds.maker config = .ok ctx ∧
      ctx.config = config ∧ ctx.blocks = .ok bs ∧
      (∀ id enum request, c.get? id = some enum → enum.enumRequest = some request →
        enum.isGeneric = false → ∃ b ∈ bs, b.kind = .enum ∧ b.place = enum.place ∧
          b.name = Name.typeName config.naming enum.name request.customName .enum ∧
          b.values = (c.constantsOf id).map (Catalog.enumValueOf enum)) ∧
      ∀ t u, Relation.TransGen ctx.catalog.IsAliasFor t u →
        (∃ own d, c.find t = some (own, d) ∧ ∀ k ∈ ds.consts, k.type = some t →
          (∀ id, k ∈ c.constantsOf id ↔ id = own) ∧
          (d.enumRequest = none → k.request = none ∧ ∀ id ∈ c.enumIds, k ∉ c.constantsOf id)) ∧
        ∀ id enum request, ctx.catalog.find u = some (id, enum) →
          enum.enumRequest = some request → ctx.LeadsTo t enum →
          ∀ b ∈ bs, ∀ s f, ctx.ComesFrom b s f → f.type.innermost = t →
            f.options.typeText = none → f.options.forceResolver = false →
            Wraps (Name.typeName config.naming enum.name request.customName .enum)
              s.typeText := by
  unfold blocksOfFiles at h
  split at h
  · exact nomatch h
  rename_i ds hds
  obtain ⟨ctx, hctx, hblocks⟩ := Declarations.toBlocks_eq_ok_iff.1 h
  obtain rfl := Declarations.maker_config hctx
  obtain ⟨c, hc, henums, hgrown⟩ := Declarations.outgrows_maker hctx
  have hconsts : c.consts = ds.consts := by
    rw [Catalog.consts_settleAll hc, Catalog.consts_ofDeclarations]
  obtain ⟨hlinked, -⟩ := Catalog.enumMembers_eq_ok_iff.1 henums
  refine ⟨ds, c, ctx, hds, hc, hctx, rfl, hblocks, fun id enum request => ?_,
    fun t u halias => ⟨?_, ?_⟩⟩
  · exact BlockMaker.exists_block_of_enum hblocks henums hgrown
  · -- only the first alias counts
    obtain ⟨v, ⟨-, own, d, hfind, hbody⟩, -⟩ := Relation.TransGen.head'_iff.1 halias
    have hrecord : d.isRecord = false := by rw [Declaration.isRecord, hbody]; rfl
    obtain ⟨e, hown, he⟩ := hgrown.find hfind hrecord
    obtain ⟨hid, hget⟩ := Catalog.find_eq_some_iff.1 hown
    refine ⟨own, e, hown, fun k hk htype => ?_⟩
    rw [← hconsts] at hk
    have hmem := Catalog.mem_constantsOf_iff hk htype hid
    refine ⟨hmem, fun hno => ?_⟩
    have hvalue : ∀ id ∈ c.enumIds, k ∉ c.constantsOf id := by
      intro id henum hkid
      obtain rfl := (hmem id).1 hkid
      obtain ⟨x, hx, hsome⟩ := Catalog.mem_enumIds_iff.1 henum
      obtain rfl := Option.some.inj (hx.symm.trans hget)
      rw [hno] at hsome
      cases hsome
    refine ⟨?_, hvalue⟩
    by_contra hasked
    obtain ⟨id, henum, htyped⟩ := hlinked.asked k hk (Option.isSome_iff_ne_none.2 hasked)
    exact hvalue id henum (List.mem_filter.2 ⟨hk, htyped⟩)
  · rintro id enum request - he hlead b - s f ⟨-, -, -, -, -, -, -, -, hfield⟩ rfl ht hf
    obtain ⟨text, htext, heq⟩ := map_eq_ok_iff.1 hfield
    obtain rfl : text = s.typeText := congrArg SchemaField.typeText (Prod.mk.inj heq).1
    obtain ⟨name, hname, hw⟩ :=
      BlockMaker.fieldTypeText_of_leadsTo ht hf (BlockMaker.leadsTo_of_innermost hlead) htext
    rw [Declaration.nameIn?, he] at hname
    obtain rfl := Option.some.inj hname
    exact hw

open BlockMaker (localDeclaration localType)

/-- An enum, an alias of it, an alias of the alias, and a struct with a field of the last type.
There is one constant of the enum and one of the last type. -/
def tickets : SourceFile :=
  { path := ⟨"m.go"⟩
    package := "m"
    types :=
      [⟨"Status", some "@gqlEnum", 1, [], .defined (.ofName "string")⟩,
        ⟨"State", none, 2, [], .aliased (.ofName "Status")⟩,
        ⟨"Phase", none, 3, [], .aliased (.ofName "State")⟩,
        ⟨"Ticket", some "@gqlType", 4, [],
          .record [⟨some "Phase", .ofName "Phase", none, none, 5⟩]⟩]
    consts :=
      [⟨"StatusOpen", some (.ofName "Status"), none, 6⟩,
        ⟨"StatusDone", some (.ofName "Phase"), none, 7⟩] }

/-- The schema of `tickets`. -/
def ticketBlocks : List Block :=
  [{ kind := .enum
     name := "Status"
     package := "m"
     place := ⟨0, 0, 0⟩
     slot := 0
     values := [⟨"StatusOpen", "OPEN", none, none⟩]
     source := "m.Status" },
    { kind := .type
      name := "Ticket"
      package := "m"
      place := ⟨0, 3, 0⟩
      slot := 1
      fields := [{ name := "phase", typeText := "Status!" }]
      source := "m.Ticket (type)" }]

def ticketStatus : Declaration :=
  { localDeclaration "Status" 0 (.defined (.ofName "string")) with enumRequest := some {} }

def ticketPhase : Field :=
  { goName := some "Phase", type := localType "Phase", origin := "Ticket.Phase", line := 5 }

def ticketConstant (name type : String) (number : Nat) : Constant :=
  { name
    type := some (localType type)
    path := ⟨"m.go"⟩
    line := number + 6
    place := ⟨0, number, 0⟩ }

/-- The declarations of `tickets`. -/
def ticketDeclarations : Declarations :=
  { types :=
      [ticketStatus, localDeclaration "State" 1 (.aliased (localType "Status")),
        localDeclaration "Phase" 2 (.aliased (localType "State")),
        { localDeclaration "Ticket" 3 (.record [ticketPhase]) with
          requests := [{ kind := .type }] }]
    consts := [ticketConstant "StatusOpen" "Status" 0, ticketConstant "StatusDone" "Phase" 1] }

/-- What the blocks of `tickets` are made with. -/
def ticketMaker : BlockMaker :=
  { catalog := ⟨ticketDeclarations.types, ticketDeclarations.consts⟩
    enums := [(0, [⟨"StatusOpen", "OPEN", none, none⟩])]
    config := {} }

theorem run_tickets :
    Declarations.ofFiles {} [tickets] = .ok ticketDeclarations ∧
      (Catalog.ofDeclarations ticketDeclarations).settle = .ok ticketMaker.catalog ∧
      ticketDeclarations.maker {} = .ok ticketMaker ∧
      blocksOfFiles {} [tickets] = .ok ticketBlocks :=
  ⟨by decide +kernel, eq_ok_of_toOption (by decide +kernel),
    Declarations.maker_eq_ok ticketMaker (by decide +kernel), eq_ok_of_toOption (by decide +kernel)⟩

theorem ticketPhase_isAliasFor :
    Relation.TransGen ticketMaker.catalog.IsAliasFor (localType "Phase") (localType "Status") :=
  .tail (.single ⟨rfl, 2, _, rfl, rfl⟩) ⟨rfl, 1, _, rfl, rfl⟩

theorem tickets_aliasedConstants :
    blocksOfFiles {} [tickets] = .ok ticketBlocks ∧
      Relation.TransGen ticketMaker.catalog.IsAliasFor (localType "Phase") (localType "Status") ∧
      ∃ c, (Catalog.ofDeclarations ticketDeclarations).settle = .ok c ∧
        (∃ b ∈ ticketBlocks, b.kind = .enum ∧ b.name = "Status" ∧
          b.values = (c.constantsOf 0).map (Catalog.enumValueOf ticketStatus)) ∧
        ∃ k ∈ ticketDeclarations.consts, k.type = some (localType "Phase") ∧
          ∀ id, k ∈ c.constantsOf id ↔ id = 2 := by
  obtain ⟨hfiles, hsettled, hmaker, hblocks⟩ := run_tickets
  refine ⟨hblocks, ticketPhase_isAliasFor, ?_⟩
  obtain ⟨ds, c, ctx, hds, hc, hctx, -, -, hvalues, halias⟩ :=
    blocksOfFiles_aliasedConstants hblocks
  obtain rfl := Except.ok.inj (hds.symm.trans hfiles)
  obtain rfl := Except.ok.inj (hctx.symm.trans hmaker)
  obtain rfl := Except.ok.inj (hc.symm.trans hsettled)
  obtain ⟨⟨own, d, hown, hconsts⟩, -⟩ := halias _ _ ticketPhase_isAliasFor
  obtain ⟨b, hb, hkind, -, hname, hb'⟩ := hvalues 0 ticketStatus {} rfl rfl rfl
  refine ⟨_, hc, ⟨b, hb, hkind, hname.trans rfl, hb'⟩,
    ticketConstant "StatusDone" "Phase" 1, by simp [ticketDeclarations], rfl, ?_⟩
  obtain ⟨rfl, -⟩ : 2 = own ∧ _ = d := Prod.mk.inj (Option.some.inj (Eq.trans (by rfl) hown))
  exact (hconsts _ (by simp [ticketDeclarations]) rfl).1

/-- **An enum does not get the constants of its aliases.** The second constant is declared with an
alias of an alias of the enum. The field of this type has the name of the enum, but the constant is
no value of it, or of any other enum. -/
theorem tickets_lose_value :
    blocksOfFiles {} [tickets] = .ok ticketBlocks ∧
      Declarations.ofFiles {} [tickets] = .ok ticketDeclarations ∧
      ticketDeclarations.maker {} = .ok ticketMaker ∧
      ∃ k ∈ ticketDeclarations.consts, ∃ t u, k.type = some t ∧
        Relation.TransGen ticketMaker.catalog.IsAliasFor t u ∧
        ticketMaker.catalog.find u = some (0, ticketStatus) ∧
        ticketStatus.enumRequest.isSome ∧
        (∃ b ∈ ticketBlocks, ∃ s ∈ b.fields, ticketMaker.ComesFrom b s ticketPhase ∧
          ticketPhase.type = t ∧ s.typeText = "Status!") ∧
        (∃ b ∈ ticketBlocks, b.kind = .enum ∧ b.place = ticketStatus.place) ∧
        ∀ b ∈ ticketBlocks, k.name ∉ b.values.map EnumValue.constName := by
  obtain ⟨hfiles, -, hmaker, hblocks⟩ := run_tickets
  refine ⟨hblocks, hfiles, hmaker,
    ticketConstant "StatusDone" "Phase" 1, by simp [ticketDeclarations], localType "Phase",
    localType "Status", rfl, ticketPhase_isAliasFor, rfl, rfl, ?_, ?_, by decide⟩
  · refine ⟨_, List.mem_cons_of_mem _ List.mem_cons_self, _, List.mem_cons_self, ?_, rfl, rfl⟩
    exact ⟨_, List.mem_of_getElem? (i := 3) rfl, { kind := .type }, List.mem_cons_self,
      List.mem_cons_self, rfl, rfl, rfl, rfl⟩
  · exact ⟨_, List.mem_cons_self, rfl, rfl⟩

end GoSchema
