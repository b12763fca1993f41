/-
# Blocks and the directives that ask for them

Without discovery, blocks are there because directives ask for them. A type of the sources gives the
block of its enum, or one block for each of its requests that would have fields, in order; a generic
one gives none. An instance gives blocks for the requests of its generic struct. No stage adds a
request, drops one, or changes its kind: the first two and flattening change bodies only, and only
into structs, and an instance takes over the requests of its generic struct.

Key definitions: `Declaration.IsFit`, `Catalog.Reshapes`, `Declaration.IsInstanceOf`,
`Instances.Instantiates`, `Declaration.Gives`, `AreDirected`.
Key theorems: `Catalog.fitAt_settle`, `Instances.Instantiates.run`, `Declarations.maker_off`,
`BlockMaker.gives_of_blocksOf`, `blocksOfFiles_directed`.
-/
import GoSchema.Proofs.InstanceQueue
import GoSchema.Proofs.SourceDeclarations

namespace GoSchema

open Outcome

/-- What a declaration asks for, its body can give. -/
structure Declaration.IsFit (d : Declaration) : Prop where
  record : d.requests ≠ [] → d.isRecord = true
  noEnum : d.enumRequest.isSome → d.requests = []

theorem Declaration.IsFit.of_head {d d' : Declaration} (h : d.IsFit) (hh : d'.head = d.head)
    (hr : d.isRecord = true → d'.isRecord = true) : d'.IsFit := by
  have hrequests : d'.requests = d.requests := congrArg (·.requests) hh
  have henum : d'.enumRequest = d.enumRequest := congrArg (·.enumRequest) hh
  refine ⟨fun hne => hr (h.record (hrequests ▸ hne)), fun he => ?_⟩
  rw [hrequests]
  exact h.noEnum (henum ▸ he)

namespace Catalog

variable {c c' : Catalog}

/-- The declaration of a number, if there is one, is fit. -/
def FitAt (c : Catalog) (id : Nat) : Prop := ∀ d, c.get? id = some d → d.IsFit

theorem isFit_of_unfit? {d : Declaration} (h : unfit? d = none) : d.IsFit := by
  unfold unfit? at h
  split at h
  · cases h
  · rename_i hno
    split_ifs at h with hboth
    rw [Bool.and_eq_true, not_and] at hboth
    have hrecord : d.requests ≠ [] → d.isRecord = true := by
      intro hne
      cases hq : d.requests with
      | nil => exact absurd hq hne
      | cons q qs =>
        cases hr : d.isRecord with
        | true => rfl
        | false => exact absurd hr (hno q qs hq)
    refine ⟨hrecord, fun he => ?_⟩
    by_contra hne
    exact hboth he (hrecord hne)

/-- Every declaration that was settled is fit; what was fit before is so after. -/
theorem fitAt_settleAll : ∀ {ids : List Nat} {c w : Catalog}, c.settleAll ids = .ok w →
    ∀ i, i ∈ ids ∨ c.FitAt i → w.FitAt i
  | [], c, w, h, i, hi => by
    obtain rfl := Except.ok.inj h
    exact hi.resolve_left List.not_mem_nil
  | id :: ids, c, w, h, i, hi => by
    unfold settleAll at h
    dsimp only at h
    split at h
    · exact nomatch h
    · rename_i hfit
      refine fitAt_settleAll h i ?_
      by_cases hid : id = i
      · right
        intro d hd
        subst hid
        rw [hd] at hfit
        exact isFit_of_unfit? hfit
      · rcases hi with hi | hi
        · exact .inl ((List.mem_cons.1 hi).resolve_left fun heq => hid heq.symm)
        · right
          intro d hd
          rw [get?_settleBody_ne hid] at hd
          exact hi d hd

theorem fitAt_settle (h : c.settle = .ok c') (id : Nat) : c'.FitAt id := by
  intro d hd
  have hlt : id < c.types.length := by
    have hlength : c'.types.length = c.types.length := by
      rw [← heads_length, heads_settleAll h, heads_length]
    rw [← hlength]
    exact (List.getElem?_eq_some_iff.1 hd).1
  exact fitAt_settleAll h id (.inl (List.mem_range.2 hlt)) d hd

/-- Declarations keep their heads, and structs stay structs. -/
structure Reshapes (c c' : Catalog) : Prop where
  heads : c'.heads = c.heads
  records : ∀ id d, c.get? id = some d → d.isRecord = true →
    ∃ d', c'.get? id = some d' ∧ d'.isRecord = true

theorem record_setBody {id i : Nat} {d : Declaration} (hd : c.get? i = some d)
    (hr : d.isRecord = true) (fields : List Field) :
    ∃ d', (c.setBody id (.record fields)).get? i = some d' ∧ d'.isRecord = true := by
  by_cases hi : id = i
  · subst hi
    exact ⟨_, get?_setBody_self hd _, rfl⟩
  · exact ⟨d, (get?_setBody_ne hi _).trans hd, hr⟩

theorem record_foldl_setBody : ∀ (done : Flattened) {c : Catalog} {i : Nat} {d : Declaration},
    c.get? i = some d → d.isRecord = true →
    ∃ d', (done.foldl (fun c (id, fields) => c.setBody id (.record fields)) c).get? i = some d' ∧
      d'.isRecord = true
  | [], c, i, d, hd, hr => ⟨d, hd, hr⟩
  | (id, fields) :: done, c, i, d, hd, hr => by
    obtain ⟨d', hd', hr'⟩ :
        ∃ d', (c.setBody id (.record fields)).get? i = some d' ∧ d'.isRecord = true :=
      record_setBody hd hr fields
    exact record_foldl_setBody done hd' hr'

theorem reshapes_flatten (h : c.flatten = .ok c') : c.Reshapes c' where
  heads := heads_flatten h
  records id d hd hr := by
    obtain ⟨done, -, rfl⟩ := map_eq_ok_iff.1 h
    exact record_foldl_setBody done hd hr

theorem Reshapes.fitAt (h : c.Reshapes c') (hfit : ∀ id, c.FitAt id) (id : Nat) : c'.FitAt id := by
  intro d' hd'
  obtain ⟨d, hd, hhead⟩ := exists_get?_of_heads h.heads hd'
  refine (hfit id d hd).of_head hhead.symm fun hr => ?_
  obtain ⟨e, he, hre⟩ := h.records id d hd hr
  obtain rfl := Option.some.inj (he.symm.trans hd')
  exact hre

end Catalog

/-! ### Instances -/

/-- A declaration is an instance of a generic one, and asks for what that one asks for. -/
structure Declaration.IsInstanceOf (base d : Declaration) : Prop where
  generic : base.isGeneric = true
  plain : d.isGeneric = false
  synthetic : d.synthetic = true
  name : ∃ args, d.name = base.name ++ namesOfArgs args
  requests : d.requests = base.requests.map fun q => { q with customName := none }
  noEnum : d.enumRequest = none
  doc : d.doc = base.doc

theorem Declaration.IsInstanceOf.of_heads {base base' d d' : Declaration} (h : base.IsInstanceOf d)
    (hb : base'.head = base.head) (hd : d'.head = d.head) : base'.IsInstanceOf d' := by
  rw [eq_of_head hb, eq_of_head hd]
  exact ⟨h.generic, h.plain, h.synthetic, h.name, h.requests, h.noEnum, h.doc⟩

namespace Instances

variable {c : Catalog} {s : Instances}

theorem isInstanceOf_instanceOf {base : Declaration} (hg : base.isGeneric = true) (copy : Nat)
    (args : List GoType) : base.IsInstanceOf (instanceOf base copy args) :=
  ⟨hg, rfl, rfl, ⟨args, rfl⟩, rfl, rfl, rfl⟩

/-- What a run makes of the catalog `c`: structs stay structs, and what is new is an instance of a
generic declaration of `c`. -/
structure Instantiates (c : Catalog) (s : Instances) : Prop extends Framed c s where
  instances : ∃ ext, s.catalog.heads = c.heads ++ ext ∧
    ∀ d ∈ ext, ∃ base ∈ c.types, base.IsInstanceOf d
  records : ∀ id d, c.get? id = some d → d.isRecord = true →
    ∃ d', s.catalog.get? id = some d' ∧ d'.isRecord = true

namespace Instantiates

theorem start (c : Catalog) : Instantiates c (start c) where
  toFramed := Framed.start c
  instances := ⟨[], by simp [Instances.start], by simp⟩
  records _ d hd hr := ⟨d, hd, hr⟩

theorem instanceFor (h : Instantiates c s) {id : Nat} {generic : Declaration}
    (hd : s.catalog.get? id = some generic) (hg : generic.isGeneric = true) (args : List GoType) :
    Instantiates c (s.instanceFor id generic args).2 := by
  have hgrow : s.catalog.GrowsTo (s.instanceFor id generic args).2.catalog :=
    growsTo_instanceFor s id generic args (.refl _)
  refine ⟨h.toFramed.instanceFor hd hg args, ?_, fun i d hi hr => ?_⟩
  · obtain ⟨ext, hext, hall⟩ := h.instances
    obtain ⟨base, hbase, hhead⟩ := h.exists_generic hd hg
    unfold Instances.instanceFor
    split
    · exact ⟨ext, hext, hall⟩
    · dsimp only
      rcases Catalog.heads_push s.catalog (instanceOf generic (s.made.count id + 1) args) with
        hp | hp
      · exact ⟨ext, hp.trans hext, hall⟩
      · refine ⟨ext ++ [(instanceOf generic (s.made.count id + 1) args).head], ?_, fun d hd => ?_⟩
        · rw [hp, hext, List.append_assoc]
        · rcases List.mem_append.1 hd with hd | hd
          · exact hall d hd
          · obtain rfl := List.mem_singleton.1 hd
            exact ⟨base, List.mem_of_getElem? hbase,
              (isInstanceOf_instanceOf hg _ args).of_heads hhead rfl⟩
  · obtain ⟨d', hd', hr'⟩ := h.records i d hi hr
    exact ⟨d', hgrow.get? hd', hr'⟩

/-- **What every run makes.** -/
theorem run (c : Catalog) (limit : Nat) : Instantiates c (run limit (Instances.start c)) := by
  refine run_preserves (P := Instantiates c) ?_ ?_ ?_ limit (start c)
  · intro s package name id generic args h hg
    obtain ⟨-, hd, hgen, -⟩ := genericOf?_eq_some_iff.1 hg
    exact h.instanceFor hd hgen args
  · exact fun queue h => ⟨⟨h.heads, h.entries⟩, h.instances, h.records⟩
  · intro s id fields h
    refine ⟨h.toFramed.setBody id _, ?_, fun i d hi hr => ?_⟩
    · obtain ⟨ext, hext, hall⟩ := h.instances
      exact ⟨ext, by rw [Catalog.heads_setBody, hext], hall⟩
    · obtain ⟨d', hd', hr'⟩ := h.records i d hi hr
      exact Catalog.record_setBody hd' hr' fields

end Instantiates

end Instances

/-- **The catalog without discovery.** First come the declarations of the sources, whose bodies fit
what they ask for, and then instances of them. -/
theorem Declarations.maker_off {config : Config} (hoff : config.discovery.strategy = .off)
    {ds : Declarations} {ctx : BlockMaker} (h : ds.maker config = .ok ctx) :
    ∃ declared copies, ctx.catalog.types = declared ++ copies ∧
      declared.map .head = (Catalog.ofDeclarations ds).heads ∧ (∀ d ∈ declared, d.IsFit) ∧
      ∀ d ∈ copies, ∃ base ∈ declared, base.IsInstanceOf d := by
  obtain ⟨settled, enums, flat, last, hsettled, -, hflat, hlast, rfl⟩ :=
    (maker_eq_ok_iff_of_off hoff).1 h
  have hreshape := Catalog.reshapes_flatten hflat
  have hfit := hreshape.fitAt (Catalog.fitAt_settle hsettled)
  have hheads : flat.heads = (Catalog.ofDeclarations ds).heads :=
    hreshape.heads.trans (Catalog.heads_settleAll hsettled)
  obtain ⟨n, -, rfl⟩ := Catalog.withInstances_eq_ok_iff.1 hlast
  have hrun := Instances.Instantiates.run flat n
  generalize (Instances.start flat).run n = s at hrun
  obtain ⟨ext, hext, hall⟩ := hrun.instances
  obtain ⟨declared, copies, htypes, hdeclared, hcopies⟩ := List.map_eq_append_iff.1 hext
  refine ⟨declared, copies, htypes, hdeclared.trans hheads, fun d hd => ?_, fun d hd => ?_⟩
  · obtain ⟨id, hid⟩ := List.mem_iff_getElem?.1 hd
    have hlast : s.catalog.get? id = some d := by
      rw [Catalog.get?, htypes, List.getElem?_append_left (List.getElem?_eq_some_iff.1 hid).1]
      exact hid
    have hhead : flat.heads[id]? = some d.head := by
      rw [← hdeclared, List.getElem?_map, hid]
      rfl
    rw [Catalog.heads_getElem?, Option.map_eq_some_iff] at hhead
    obtain ⟨e, he, hsame⟩ := hhead
    refine (hfit id e he).of_head hsame.symm fun hr => ?_
    obtain ⟨d', hd', hr'⟩ := hrun.records id e he hr
    obtain rfl := Option.some.inj (hd'.symm.trans hlast)
    exact hr'
  · obtain ⟨base, hbase, hcopy⟩ := hall d.head (hcopies ▸ List.mem_map_of_mem hd)
    have hmem : base.head ∈ declared.map .head := hdeclared ▸ List.mem_map_of_mem hbase
    obtain ⟨base', hbase', hsame⟩ := List.mem_map.1 hmem
    exact ⟨base', hbase', hcopy.of_heads hsame rfl⟩

/-! ### Blocks -/

/-- A block is the one that a request of a declaration asks for. -/
structure Declaration.IsAskedBy (rules : NamingRules) (d : Declaration) (r : BlockRequest)
    (b : Block) : Prop where
  kind : b.kind = r.kind
  name : b.name = d.requestName rules r
  description : b.description = r.description.or d.doc
  place : b.place = d.place

/-- A block is that of the enum of a declaration. -/
structure Declaration.IsEnumOf (rules : NamingRules) (d : Declaration) (r : EnumRequest)
    (b : Block) : Prop where
  kind : b.kind = .enum
  name : b.name = Name.typeName rules d.name r.customName .enum
  description : b.description = r.description.or d.doc
  place : b.place = d.place

/-- Whether a field of the struct is seen in a requested block, or a directive adds one to it. -/
def Declaration.hasContent (rules : NamingRules) (d : Declaration) (r : BlockRequest) : Bool :=
  d.body.fields.any (d.shows rules r) || d.additions.any fun e => e.on.covers (d.target rules r)

/-- Whether a request gives a block: it has content, or empty blocks are wanted. -/
def Declaration.isGranted (config : Config) (d : Declaration) (r : BlockRequest) : Bool :=
  config.includeEmptyTypes || d.hasContent config.naming r

/-- The blocks that a declaration gives: none if it is generic, that of its enum if it has one, and
else one for each of its requests that is granted, in order. -/
inductive Declaration.Gives (config : Config) (d : Declaration) : List Block → Prop
  | generic : d.isGeneric = true → Gives config d []
  | enum {r : EnumRequest} {b : Block} : d.isGeneric = false → d.enumRequest = some r →
      d.IsEnumOf config.naming r b → Gives config d [b]
  | requests {own : List Block} : d.isGeneric = false → d.enumRequest = none →
      List.Forall₂ (d.IsAskedBy config.naming) (d.requests.filter (d.isGranted config)) own →
      Gives config d own

namespace BlockMaker

variable {ctx : BlockMaker} {d : Declaration} {r : BlockRequest}

/-- What is known of a block beside what is said by `blockOf_ok`. -/
theorem of_blockOf_some {natural : List Sourced}
    (hn : ctx.naturalFields d r d.body.fields = .ok natural) {index : Nat} {b : Block}
    (h : ctx.blockOf d r index = .ok (some b)) :
    b.description = r.description.or d.doc ∧
      (natural ++ ctx.addedFields d r = [] → ctx.config.includeEmptyTypes = true) := by
  unfold blockOf at h
  rw [hn] at h
  dsimp only at h
  split at h
  · exact nomatch h
  · split at h
    · cases h
    · rename_i hkept
      obtain rfl := Option.some.inj (Except.ok.inj h)
      refine ⟨rfl, fun hnil => ?_⟩
      by_contra hno
      exact hkept (by simp [hnil, hno])

theorem isAskedBy_of_blockOf {index : Nat} {b : Block} (h : ctx.blockOf d r index = .ok (some b)) :
    d.IsAskedBy ctx.config.naming r b := by
  obtain ⟨_, hn, -, ⟨-, -, hno⟩ | ⟨_, hb, hname, hkind, hplace, -, -⟩⟩ := blockOf_ok h
  · cases hno
  · obtain rfl := Option.some.inj hb
    exact ⟨hkind, hname, (of_blockOf_some hn h).1, hplace⟩

/-- **A request has content exactly if its block would have a field.** -/
theorem hasContent_eq_false_iff {natural : List Sourced}
    (h : ctx.naturalFields d r d.body.fields = .ok natural) :
    d.hasContent ctx.config.naming r = false ↔ natural ++ ctx.addedFields d r = [] := by
  have hnatural : natural = [] ↔ d.body.fields.filter (d.shows ctx.config.naming r) = [] := by
    have hall := (naturalFields_ok h).2
    rw [← List.length_eq_zero_iff, ← hall.length_eq, List.length_eq_zero_iff]
  rw [List.append_eq_nil_iff, hnatural, addedFields, List.map_eq_nil_iff, List.filter_eq_nil_iff,
    List.filter_eq_nil_iff]
  simp [Declaration.hasContent]

/-- **A block is left out exactly if it would be empty** and empty blocks are not wanted. -/
theorem blockOf_cases {index : Nat} {made : Option Block} (h : ctx.blockOf d r index = .ok made) :
    (made = none ∧ d.isGranted ctx.config r = false) ∨
      ∃ b, made = some b ∧ d.IsAskedBy ctx.config.naming r b ∧ d.isGranted ctx.config r = true := by
  obtain ⟨natural, hn, -, hcases⟩ := blockOf_ok h
  unfold Declaration.isGranted
  rcases hcases with ⟨hnil, hempty, rfl⟩ | ⟨b, rfl, -⟩
  · refine .inl ⟨rfl, ?_⟩
    rw [hempty, (hasContent_eq_false_iff hn).2 hnil]
    rfl
  · refine .inr ⟨b, rfl, isAskedBy_of_blockOf h, ?_⟩
    cases hcontent : d.hasContent ctx.config.naming r with
    | true => exact Bool.or_true _
    | false =>
      rw [(of_blockOf_some hn h).2 ((hasContent_eq_false_iff hn).1 hcontent)]
      rfl

theorem forall₂_of_requestedBlocks : ∀ {l : List (BlockRequest × Nat)} {made : List (Option Block)},
    List.Forall₂ (fun p m => ctx.blockOf d p.1 p.2 = .ok m) l made →
    List.Forall₂ (d.IsAskedBy ctx.config.naming)
      ((l.map Prod.fst).filter (d.isGranted ctx.config)) (made.flatMap Option.toList)
  | [], _, .nil => .nil
  | (r, index) :: l, _, .cons hm hall => by
    have ih := forall₂_of_requestedBlocks hall
    rw [List.map_cons, List.flatMap_cons]
    rcases blockOf_cases hm with ⟨rfl, hno⟩ | ⟨b, rfl, hb, hyes⟩
    · rwa [List.filter_cons_of_neg (by simpa using hno)]
    · rw [List.filter_cons_of_pos hyes]
      exact .cons hb ih

/-- **The blocks of a declaration are those that its directives ask for.** -/
theorem gives_of_blocksOf (hfit : d.IsFit) {id : Nat} {own : List Block}
    (h : ctx.blocksOf id d = .ok own) : d.Gives ctx.config own := by
  cases hg : d.isGeneric with
  | true =>
    rw [blocksOf_generic hg] at h
    obtain rfl := Except.ok.inj h
    exact .generic hg
  | false =>
    obtain ⟨made, rfl, hall⟩ := blocksOf_ok hg h
    cases he : d.enumRequest with
    | some request =>
      rw [hfit.noEnum (by rw [he]; rfl)] at hall
      have hnil : made = [] := by
        split at hall <;> exact List.forall₂_nil_left_iff.1 hall
      rw [hnil]
      exact .enum hg he ⟨rfl, rfl, rfl, rfl⟩
    | none =>
      refine .requests hg he ?_
      have hrequests : (if d.isRecord then d.requests.zipIdx else []) = d.requests.zipIdx := by
        split
        · rfl
        · rename_i hr
          cases hq : d.requests with
          | nil => rfl
          | cons q qs => exact absurd (hfit.record (by rw [hq]; exact List.cons_ne_nil _ _)) hr
      rw [hrequests] at hall
      have := forall₂_of_requestedBlocks hall
      rwa [List.zipIdx_map_fst] at this

/-- The blocks of an instance are asked for by the directives of its generic struct. -/
theorem exists_request_of_copy {base : Declaration} (hcopy : base.IsInstanceOf d) {id : Nat}
    {own : List Block} (h : ctx.blocksOf id d = .ok own) {b : Block} (hb : b ∈ own) :
    ∃ q ∈ base.requests, b.kind = q.kind ∧ b.description = q.description.or base.doc := by
  obtain ⟨made, rfl, hall⟩ := blocksOf_ok hcopy.plain h
  rw [hcopy.noEnum] at hb
  obtain ⟨m, hm, hbm⟩ := List.mem_flatMap.1 hb
  obtain rfl := Option.mem_toList.1 hbm
  obtain ⟨⟨r, index⟩, hp, hblock⟩ := Pointwise.exists_left hall hm
  split at hp
  · have hr : r ∈ d.requests := List.mem_of_getElem? (List.mem_zipIdx_iff_getElem?.1 hp)
    rw [hcopy.requests] at hr
    obtain ⟨q, hq, rfl⟩ := List.mem_map.1 hr
    have hasked := isAskedBy_of_blockOf hblock
    exact ⟨q, hq, hasked.kind, hcopy.doc ▸ hasked.description⟩
  · exact absurd hp List.not_mem_nil

end BlockMaker

/-! ### The schema of files -/

/-- Blocks are what the directives in files ask for. The types of the sources, one of every key, are
the first declarations of the catalog, in order; what follows are instances of the generic ones
among them. The blocks are those that these declarations give, in order, and then blocks of the
instances, each of which has its kind and its description from a directive of the generic type. -/
def AreDirected (files : List SourceFile) (ctx : BlockMaker) (bs : List Block) : Prop :=
  ∃ sources declared copies owns copied,
    ctx.catalog.types = declared ++ copies ∧
    Registers files sources ∧ List.Forall₂ (Declaration.IsOf ctx.config) sources declared ∧
    (∀ d ∈ copies, ∃ base ∈ declared, base.IsInstanceOf d) ∧
    bs = owns.flatten ++ copied.flatten ∧
    List.Forall₂ (Declaration.Gives ctx.config) declared owns ∧
    List.Forall₂ (fun d own => ∀ b ∈ own, ∃ base ∈ declared, base.IsInstanceOf d ∧
      ∃ q ∈ base.requests, b.kind = q.kind ∧ b.description = q.description.or base.doc)
      copies copied

/-- **Without discovery, blocks are what directives ask for.** No stage adds a block, drops one,
moves one, or changes its kind. -/
theorem blocksOfFiles_directed {config : Config} (hoff : config.discovery.strategy = .off)
    {files : List SourceFile} {bs : List Block} (h : blocksOfFiles config files = .ok bs) :
    ∃ ds ctx, Declarations.ofFiles config files = .ok ds ∧ ds.maker config = .ok ctx ∧
      ctx.config = config ∧ AreDirected files ctx bs := by
  unfold blocksOfFiles at h
  split at h
  · exact nomatch h
  · rename_i ds hds
    obtain ⟨ctx, hctx, hblocks⟩ := Declarations.toBlocks_eq_ok_iff.1 h
    have hconfig := Declarations.maker_config hctx
    subst hconfig
    obtain ⟨sources, hsources, hof⟩ := Catalog.exists_registers hds
    obtain ⟨declared, copies, htypes, hheads, hfit, hcopies⟩ := Declarations.maker_off hoff hctx
    obtain ⟨all, hall, rfl⟩ := BlockMaker.blocks_ok hblocks
    rw [htypes, List.zipIdx_append] at hall
    obtain ⟨owns, copied, rfl, hown, hcopied⟩ := Pointwise.append_left hall
    have hdeclared : List.Forall₂ (Declaration.IsOf ctx.config) sources declared := by
      have hheadsOf : List.Forall₂ (Declaration.IsOf ctx.config) sources (declared.map .head) := by
        rw [hheads]
        exact List.forall₂_map_right_iff.2 (hof.imp fun _ _ his => his.of_head rfl)
      exact (List.forall₂_map_right_iff.1 hheadsOf).imp fun _ _ his => his.of_head rfl
    refine ⟨ds, ctx, hds, hctx, rfl, sources, declared, copies, owns, copied, htypes, hsources,
      hdeclared, hcopies, List.flatten_append, ?_, ?_⟩
    · have hmem : ∀ p ∈ declared.zipIdx, p.1.IsFit := fun p hp =>
        hfit p.1 (List.fst_mem_of_mem_zipIdx hp)
      have hboth := (List.forall₂_and_left _ _).2 ⟨hmem, hown⟩
      refine Pointwise.of_zipIdx (hboth.imp ?_)
      rintro p own ⟨hp, howned⟩
      exact BlockMaker.gives_of_blocksOf hp howned
    · have hmem : ∀ p ∈ copies.zipIdx (0 + declared.length),
          ∃ base ∈ declared, base.IsInstanceOf p.1 :=
        fun p hp => hcopies p.1 (List.fst_mem_of_mem_zipIdx hp)
      have hboth := (List.forall₂_and_left _ _).2 ⟨hmem, hcopied⟩
      refine Pointwise.of_zipIdx (hboth.imp ?_)
      rintro p own ⟨⟨base, hbase, hcopy⟩, howned⟩ b hb
      exact ⟨base, hbase, hcopy, BlockMaker.exists_request_of_copy hcopy howned hb⟩

/-- An enum, a generic struct, a struct that gives a type and an input and uses the generic one, and
a struct without a visible field. -/
def warehouse : SourceFile :=
  { path := ⟨"m.go"⟩
    package := "m"
    types :=
      [⟨"Size", some "@gqlEnum", 1, [], .defined (.ofName "int")⟩,
        ⟨"Box", some "@gqlType(name: \"Crate\", description: \"packed\")", 3, ["T"],
          .record [⟨some "Item", .ofName "T", none, none, 4⟩]⟩,
        ⟨"Shelf", some "@gqlType\n@gqlInput", 6, [],
          .record [⟨some "Size", .ofName "Size", none, none, 7⟩,
            ⟨some "Box", .named none none "Box" [.ofName "int"], some "gql:\"ro\"", none, 8⟩]⟩,
        ⟨"Empty", some "@gqlType", 10, [],
          .record [⟨some "hidden", .ofName "string", none, none, 11⟩]⟩]
    consts := [⟨"Large", some (.ofName "Size"), none, 2⟩] }

theorem warehouse_directed : ∃ bs, blocksOfFiles {} [warehouse] = .ok bs ∧
    bs.map (fun b => (b.kind, b.name, b.description)) =
      [(.enum, "Size", none), (.type, "Shelf", none), (.input, "ShelfInput", none),
        (.type, "BoxInt", some "packed")] ∧
    ∃ ds ctx, Declarations.ofFiles {} [warehouse] = .ok ds ∧ ds.maker {} = .ok ctx ∧
      ctx.config = {} ∧ AreDirected [warehouse] ctx bs := by
  have h : (blocksOfFiles {} [warehouse]).toOption.map
      (·.map fun b => (b.kind, b.name, b.description)) =
        some [(.enum, "Size", none), (.type, "Shelf", none), (.input, "ShelfInput", none),
          (.type, "BoxInt", some "packed")] := by decide +kernel
  obtain ⟨bs, hbs, hshape⟩ := Option.map_eq_some_iff.1 h
  have hblocks := eq_ok_of_toOption hbs
  exact ⟨bs, hblocks, hshape, blocksOfFiles_directed rfl hblocks⟩

end GoSchema
