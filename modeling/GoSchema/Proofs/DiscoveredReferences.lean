/-
# References that discovery follows

Discovery and the making of type texts both walk over the types of fields. Discovery looks through
pointers and lists and then looks one name up. A type text looks through names as well, as long as
they stand for other types. So discovery asks for a block of every struct that a field refers to
directly (`reach_covers`), and a type text can fail for want of such a block only where the field
refers to the struct behind a name that stands for another type (`maker_covers`), as a field of a
named list does (`roster_lacks_block`).

Key definitions: `BlockMaker.NoBlock`, `BlockMaker.Unresolved`, `BlockMaker.Derives`,
`BlockMaker.ThroughName`.
Key theorems: `refer_error_iff`, `blocks_error_unknownType`, `blocks_error_of_unresolved`,
`find_innermost_of_leadsTo`, `Declarations.maker_covers`.
-/
import GoSchema.Generation
import GoSchema.Proofs.Blocks
import GoSchema.Proofs.DiscoveredRequests
import GoSchema.Proofs.References

namespace GoSchema

open Outcome

namespace BlockMaker

variable {ctx : BlockMaker}

/-- A type that has no block of a kind and no scalar: a predeclared type without a scalar, a name
without a declaration, a struct without a request of the kind, or a type that cannot be named. -/
inductive NoBlock (ctx : BlockMaker) (kind : BlockKind) : GoType → Prop
  | predeclared {qualifier : Option String} {name : String} {args : List GoType} :
      predeclaredScalar? name = none → NoBlock ctx kind (.named none qualifier name args)
  | undeclared {package name : String} {qualifier : Option String} {args : List GoType} :
      ctx.scalarOfName? package qualifier name = none →
      ctx.catalog.find (.named (some package) qualifier name args) = none →
      NoBlock ctx kind (.named (some package) qualifier name args)
  | lacking {package name : String} {qualifier : Option String} {args : List GoType} {id : Nat}
      {d : Declaration} : ctx.scalarOfName? package qualifier name = none →
      ctx.catalog.find (.named (some package) qualifier name args) = some (id, d) →
      d.enumRequest = none → d.isRecord = true → d.requests? kind = false →
      NoBlock ctx kind (.named (some package) qualifier name args)
  | other {text : String} : NoBlock ctx kind (.other text)

/-- The walk of a type text over a type ends at `u` without a result. At most `room` names may be
looked through. -/
inductive Unresolved (ctx : BlockMaker) (kind : BlockKind) : Nat → GoType → GoType → Prop
  | here {room : Nat} {t : GoType} : NoBlock ctx kind t → Unresolved ctx kind room t t
  | pointer {room : Nat} {t u : GoType} : Unresolved ctx kind room t u →
      Unresolved ctx kind room (.pointer t) u
  | slice {room : Nat} {t u : GoType} : isByteType t = false → Unresolved ctx kind room t u →
      Unresolved ctx kind room (.slice t) u
  | array {room : Nat} {t u : GoType} : isByteType t = false → Unresolved ctx kind room t u →
      Unresolved ctx kind room (.array t) u
  | tooFar {package name : String} {qualifier : Option String} {args : List GoType} {id : Nat}
      {d : Declaration} {t : GoType} : ctx.scalarOfName? package qualifier name = none →
      ctx.catalog.find (.named (some package) qualifier name args) = some (id, d) →
      d.enumRequest = none → d.body.named? = some t →
      Unresolved ctx kind 0 (.named (some package) qualifier name args)
        (.named (some package) qualifier name args)
  | behind {room : Nat} {package name : String} {qualifier : Option String} {args : List GoType}
      {id : Nat} {d : Declaration} {t u : GoType} :
      ctx.scalarOfName? package qualifier name = none →
      ctx.catalog.find (.named (some package) qualifier name args) = some (id, d) →
      d.enumRequest = none → d.body.named? = some t → Unresolved ctx kind room t u →
      Unresolved ctx kind (room + 1) (.named (some package) qualifier name args) u

/-- The fault of a field whose type text stops at a type. -/
def faultAt (spot : Spot) (u : GoType) : Fault :=
  .unknownType spot.owner (spot.field.goName.getD "") u.display

theorem withoutBlock_error_iff {spot : Spot} {t : GoType} {e : Fault} :
    ctx.withoutBlock spot t = .error e ↔
      spot.field.options.forceResolver = false ∧ e = faultAt spot t := by
  unfold withoutBlock faultAt
  cases spot.field.options.forceResolver with
  | false => simp [eq_comm]
  | true => simp

theorem isRecord_of_named? {d : Declaration} {u : GoType} (h : d.body.named? = some u) :
    d.isRecord = false := by
  unfold Declaration.isRecord
  cases hb : d.body with
  | record fields => simp [hb, Body.named?] at h
  | defined t | aliased t => rfl

theorem find?_requests_eq_none_iff {d : Declaration} {kind : BlockKind} :
    d.requests.find? (·.kind = kind) = none ↔ d.requests? kind = false := by
  rw [Declaration.requests?, List.find?_eq_none, List.any_eq_false]

theorem listRef_error_iff {t : GoType} {item : Except Fault TypeRef} {e : Fault} :
    (if isByteType t then Except.ok (TypeRef.mk "String" false)
      else item.map fun r =>
        TypeRef.mk ("[" ++ r.text ++ (if r.nullable then "" else "!") ++ "]") false) = .error e ↔
      isByteType t = false ∧ item = .error e := by
  cases isByteType t with
  | true => simp
  | false => cases item <;> simp [Except.map]

section Forward

variable {spot : Spot} {behind : GoType → GoType → Except Fault TypeRef} {room : Nat}

/-- What it means that a walk that fails has stopped at a type. -/
def StopsWith (ctx : BlockMaker) (spot : Spot) (room : Nat) (t : GoType) (e : Fault) : Prop :=
  spot.field.options.forceResolver = false ∧
    ∃ u, ctx.Unresolved spot.kind room t u ∧ e = faultAt spot u

theorem StopsWith.mono {t t' : GoType} {e : Fault} (h : ctx.StopsWith spot room t e)
    (hl : ∀ u, ctx.Unresolved spot.kind room t u → ctx.Unresolved spot.kind room t' u) :
    ctx.StopsWith spot room t' e := by
  obtain ⟨hf, u, hu, he⟩ := h
  exact ⟨hf, u, hl u hu, he⟩

theorem stopsWith_of_noBlock {t : GoType} {e : Fault} (hn : ctx.NoBlock spot.kind t)
    (h : ctx.withoutBlock spot t = .error e) : ctx.StopsWith spot room t e := by
  obtain ⟨hf, he⟩ := withoutBlock_error_iff.1 h
  exact ⟨hf, t, .here hn, he⟩

/-- The step of a walk: where it stops behind a name is where it stops. -/
theorem referWith_stopsWith
    (hb : ∀ {package name : String} {qualifier : Option String} {args : List GoType} {id : Nat}
      {d : Declaration} {u : GoType} {e : Fault},
      ctx.scalarOfName? package qualifier name = none →
      ctx.catalog.find (.named (some package) qualifier name args) = some (id, d) →
      d.enumRequest = none → d.body.named? = some u →
      behind (.named (some package) qualifier name args) u = .error e →
      ctx.StopsWith spot room (.named (some package) qualifier name args) e)
    (t : GoType) {e : Fault} (h : ctx.referWith spot behind t = .error e) :
    ctx.StopsWith spot room t e := by
  induction t using GoType.rec (motive_2 := fun _ => True) generalizing e with
  | pointer t ih =>
    exact (ih (map_eq_error_iff.1 h)).mono fun _ => .pointer
  | slice t ih =>
    obtain ⟨hbyte, hitem⟩ := listRef_error_iff.1 h
    exact (ih hitem).mono fun _ => .slice hbyte
  | array t ih =>
    obtain ⟨hbyte, hitem⟩ := listRef_error_iff.1 h
    exact (ih hitem).mono fun _ => .array hbyte
  | map k v _ _ | any => cases h
  | other text => exact stopsWith_of_noBlock .other h
  | named package qualifier name args _ =>
    cases package with
    | none =>
      simp only [referWith] at h
      split at h
      · cases h
      · rename_i hs
        exact stopsWith_of_noBlock (.predeclared hs) h
    | some package =>
      simp only [referWith] at h
      split at h
      · cases h
      rename_i hs
      split at h
      · rename_i id d hd
        unfold declarationRef at h
        split at h
        · cases h
        rename_i he
        split at h
        · rename_i fields hbody
          have hr : d.isRecord = true := by simp [Declaration.isRecord, hbody, Body.isRecord]
          split at h
          · cases h
          · rename_i hq
            have hk : d.requests? spot.kind = false := find?_requests_eq_none_iff.1 hq
            exact stopsWith_of_noBlock (.lacking hs hd he hr hk) h
        all_goals
          rename_i u hbody
          exact hb hs hd he (by rw [hbody]; rfl) h
      · rename_i hd
        exact stopsWith_of_noBlock (.undeclared hs hd) h
  | nil => trivial
  | cons => trivial

/-- A walk that fails has stopped somewhere. The induction is on the number of names that may be
looked through. -/
theorem refer_stopsWith : ∀ (room : Nat) {t : GoType} {e : Fault},
    ctx.refer spot room t = .error e → ctx.StopsWith spot room t e
  | 0, t, e, h => by
    refine referWith_stopsWith (fun {_ _ _ _ _ d _ _} hs hd he hn h => ?_) t h
    obtain ⟨hf, rfl⟩ := withoutBlock_error_iff.1 h
    exact ⟨hf, _, .tooFar hs hd he hn, rfl⟩
  | room + 1, t, e, h => by
    refine referWith_stopsWith (fun hs hd he hn h => ?_) t h
    obtain ⟨hf, v, hv, rfl⟩ := refer_stopsWith room h
    exact ⟨hf, v, .behind hs hd he hn hv, rfl⟩

end Forward

theorem refer_pointer (spot : Spot) (room : Nat) (t : GoType) :
    ctx.refer spot room (.pointer t) = (ctx.refer spot room t).map fun r => ⟨r.text, true⟩ := by
  cases room <;> rfl

theorem refer_list {spot : Spot} {room : Nat} {t u : GoType} (hu : u = .slice t ∨ u = .array t) :
    ctx.refer spot room u =
      if isByteType t then Except.ok (TypeRef.mk "String" false)
      else (ctx.refer spot room t).map fun r =>
        TypeRef.mk ("[" ++ r.text ++ (if r.nullable then "" else "!") ++ "]") false := by
  rcases hu with rfl | rfl <;> cases room <;> rfl

theorem refer_noBlock {spot : Spot} {room : Nat} {t : GoType} (h : ctx.NoBlock spot.kind t) :
    ctx.refer spot room t = ctx.withoutBlock spot t := by
  have hw : ∀ behind, ctx.referWith spot behind t = ctx.withoutBlock spot t := by
    intro behind
    cases h with
    | predeclared hs => simp only [referWith, hs]
    | undeclared hs hd => simp only [referWith, hs, hd]
    | @lacking package name qualifier args id d hs hd he hr hk =>
      simp only [referWith, hs, hd, declarationRef, he]
      cases hb : d.body with
      | record fields =>
        simp only [find?_requests_eq_none_iff.2 hk]
      | defined t | aliased t => simp [Declaration.isRecord, hb, Body.isRecord] at hr
    | other => simp only [referWith]
  cases room <;> exact hw _

/-- **The type text of a field fails where the walk over its type stops**, unless a resolver is
asked for. -/
theorem refer_error_iff {spot : Spot} {room : Nat} {t : GoType} {e : Fault} :
    ctx.refer spot room t = .error e ↔
      spot.field.options.forceResolver = false ∧
        ∃ u, ctx.Unresolved spot.kind room t u ∧ e = faultAt spot u := by
  refine ⟨refer_stopsWith room, ?_⟩
  rintro ⟨hf, u, hu, rfl⟩
  induction hu with
  | here hn => rw [refer_noBlock hn, withoutBlock_error_iff]; exact ⟨hf, rfl⟩
  | pointer _ ih => rw [refer_pointer, ih]; rfl
  | slice hb _ ih => rw [refer_list (.inl rfl), ih, hb]; rfl
  | array hb _ ih => rw [refer_list (.inr rfl), ih, hb]; rfl
  | @tooFar package name qualifier args id d t hs hd he hn =>
    simp only [refer, referWith, hs, hd, declarationRef, he]
    cases hb : d.body with
    | record fields => simp [hb, Body.named?] at hn
    | defined t | aliased t => exact withoutBlock_error_iff.2 ⟨hf, rfl⟩
  | @behind room package name qualifier args id d t u hs hd he hn _ ih =>
    simp only [refer, referWith, hs, hd, declarationRef, he]
    cases hb : d.body with
    | record fields => simp [hb, Body.named?] at hn
    | defined t' | aliased t' =>
      rw [hb] at hn
      obtain rfl := Option.some.inj hn
      exact ih

/-! ### Faults of blocks -/

variable {d : Declaration} {r : BlockRequest}

/-- A requested block of a struct shows the field, and its type text is derived from its Go type. -/
def Derives (ctx : BlockMaker) (d : Declaration) (r : BlockRequest) (f : Field) : Prop :=
  d ∈ ctx.catalog.types ∧ d.isRecord = true ∧ d.isGeneric = false ∧ r ∈ d.requests ∧
    f ∈ d.body.fields ∧ d.shows ctx.config.naming r f = true ∧ f.options.typeText = none

/-- The place of a field in a requested block. -/
def spotOf (ctx : BlockMaker) (d : Declaration) (r : BlockRequest) (f : Field) : Spot :=
  ⟨f, d.requestName ctx.config.naming r, r.kind⟩

theorem blockField_error_iff {spot : Spot} {e : Fault} :
    ctx.blockField spot = .error e ↔
      spot.field.options.typeText = none ∧ ctx.isIdField spot.field = false ∧
        ctx.refer spot chainLimit spot.field.type = .error e := by
  unfold blockField
  rw [map_eq_error_iff, fieldTypeText]
  cases ht : spot.field.options.typeText with
  | some text => simp
  | none =>
    dsimp only
    rw [map_eq_error_iff, plainRef]
    cases hid : ctx.isIdField spot.field with
    | true => simp
    | false => simp

/-- The natural fields fail at a field that is still embedded, or at the type text of a field. -/
theorem naturalFields_error : ∀ {fs : List Field} {e : Fault},
    ctx.naturalFields d r fs = .error e →
    (∃ f ∈ fs, f.isEmbedded = true ∧ e = .unknownType d.label f.type.display f.type.display) ∨
      ∃ f ∈ fs, d.shows ctx.config.naming r f = true ∧ ctx.blockField (ctx.spotOf d r f) = .error e
  | [], e, h => nomatch h
  | f :: fs, e, h => by
    have later : ctx.naturalFields d r fs = .error e →
        (∃ g ∈ f :: fs, g.isEmbedded = true ∧
          e = .unknownType d.label g.type.display g.type.display) ∨
        ∃ g ∈ f :: fs, d.shows ctx.config.naming r g = true ∧
          ctx.blockField (ctx.spotOf d r g) = .error e := by
      intro hfs
      rcases naturalFields_error hfs with ⟨g, hg, h⟩ | ⟨g, hg, h⟩
      · exact .inl ⟨g, List.mem_cons_of_mem _ hg, h⟩
      · exact .inr ⟨g, List.mem_cons_of_mem _ hg, h⟩
    unfold naturalFields at h
    by_cases he : f.isEmbedded = true
    · rw [if_pos he] at h
      exact .inl ⟨f, List.mem_cons_self, he, (Except.error.inj h).symm⟩
    · rw [if_neg he] at h
      by_cases hshow : d.shows ctx.config.naming r f = true
      · rw [if_pos hshow] at h
        split at h
        · rename_i e' hf
          obtain rfl := Except.error.inj h
          exact .inr ⟨f, List.mem_cons_self, hshow, hf⟩
        · exact later (map_eq_error_iff.1 h)
      · rw [if_neg hshow] at h
        exact later h

theorem blockOf_error_unknownType {index : Nat} {owner name text : String}
    (h : ctx.blockOf d r index = .error (.unknownType owner name text)) :
    ctx.naturalFields d r d.body.fields = .error (.unknownType owner name text) := by
  unfold blockOf at h
  split at h
  · rename_i e hn
    rw [hn, Except.error.inj h]
  · dsimp only at h
    split at h
    · exact nomatch h
    · split at h <;> exact nomatch h

theorem requestedBlocks_error : ∀ {l : List (BlockRequest × Nat)} {e : Fault},
    ctx.requestedBlocks d l = .error e → ∃ p ∈ l, ctx.blockOf d p.1 p.2 = .error e
  | [], e, h => nomatch h
  | (r, index) :: more, e, h => by
    unfold requestedBlocks at h
    split at h
    · rename_i e' hb
      obtain rfl := Except.error.inj h
      exact ⟨(r, index), List.mem_cons_self, hb⟩
    · obtain ⟨p, hp, he⟩ := requestedBlocks_error (map_eq_error_iff.1 h)
      exact ⟨p, List.mem_cons_of_mem _ hp, he⟩

theorem blocksOf_error {id : Nat} {e : Fault} (h : ctx.blocksOf id d = .error e) :
    d.isGeneric = false ∧ d.isRecord = true ∧
      ∃ r ∈ d.requests, ∃ index, ctx.blockOf d r index = .error e := by
  unfold blocksOf at h
  split at h
  · exact nomatch h
  · rename_i hg
    dsimp only at h
    split at h
    · rename_i hr
      obtain ⟨⟨r, index⟩, hp, he⟩ := requestedBlocks_error (map_eq_error_iff.1 h)
      have hmem : r ∈ d.requests := List.mem_of_getElem? (List.mem_zipIdx_iff_getElem?.1 hp)
      exact ⟨Bool.eq_false_iff.2 hg, hr, r, hmem, index, he⟩
    · exact nomatch h

theorem addBlocks_error : ∀ {bs before : List Block} {e : Fault},
    addBlocks before bs = .error e → ∃ name first second, e = .repeatedBlock name first second
  | [], before, e, h => nomatch h
  | b :: bs, before, e, h => by
    unfold addBlocks at h
    split at h
    · exact ⟨_, _, _, (Except.error.inj h).symm⟩
    · exact addBlocks_error h

theorem blocksFrom_error : ∀ {l : List (Declaration × Nat)} {before : List Block} {e : Fault},
    ctx.blocksFrom before l = .error e →
    (∃ name first second, e = .repeatedBlock name first second) ∨
      ∃ p ∈ l, ctx.blocksOf p.2 p.1 = .error e
  | [], before, e, h => nomatch h
  | (d, id) :: more, before, e, h => by
    unfold blocksFrom at h
    split at h
    · rename_i e' hd
      obtain rfl := Except.error.inj h
      exact .inr ⟨(d, id), List.mem_cons_self, hd⟩
    · split at h
      · rename_i e' ha
        obtain rfl := Except.error.inj h
        exact .inl (addBlocks_error ha)
      · rcases blocksFrom_error h with hrep | ⟨p, hp, he⟩
        · exact .inl hrep
        · exact .inr ⟨p, List.mem_cons_of_mem _ hp, he⟩

/-- **A type without a block** is that of a field that is still embedded, or one where the walk over
the type of a shown field stops. -/
theorem blocks_error_unknownType {owner name text : String}
    (h : ctx.blocks = .error (.unknownType owner name text)) :
    (∃ d ∈ ctx.catalog.types, ∃ f ∈ d.body.fields, f.isEmbedded = true ∧ owner = d.label ∧
        text = f.type.display) ∨
      ∃ d r f u, ctx.Derives d r f ∧ ctx.Unresolved r.kind chainLimit f.type u ∧
        faultAt (ctx.spotOf d r f) u = .unknownType owner name text := by
  rcases blocksFrom_error h with ⟨_, _, _, hrep⟩ | ⟨⟨d, id⟩, hd, hown⟩
  · exact nomatch hrep
  have hmem : d ∈ ctx.catalog.types := List.mem_of_getElem? (List.mem_zipIdx_iff_getElem?.1 hd)
  obtain ⟨hg, hrec, r, hr, index, hblock⟩ := blocksOf_error hown
  rcases naturalFields_error (blockOf_error_unknownType hblock) with
    ⟨f, hf, hemb, he⟩ | ⟨f, hf, hshow, he⟩
  · obtain ⟨rfl, -, rfl⟩ := Fault.unknownType.inj he
    exact .inl ⟨d, hmem, f, hf, hemb, rfl, rfl⟩
  · obtain ⟨ht, -, href⟩ := blockField_error_iff.1 he
    obtain ⟨-, u, hu, he⟩ := refer_error_iff.1 href
    exact .inr ⟨d, r, f, u, ⟨hmem, hrec, hg, hr, hf, hshow, ht⟩, hu, he.symm⟩

/-- A field whose type text stops at a type without a result leaves no blocks at all. -/
theorem blocks_error_of_unresolved {f : Field} {u : GoType} (hd : ctx.Derives d r f)
    (hforce : f.options.forceResolver = false) (hid : ctx.isIdField f = false)
    (hu : ctx.Unresolved r.kind chainLimit f.type u) : ∃ e, ctx.blocks = .error e := by
  obtain ⟨hmem, hrec, hg, hr, hf, hshow, ht⟩ := hd
  cases h : ctx.blocks with
  | error e => exact ⟨e, rfl⟩
  | ok bs =>
    exfalso
    obtain ⟨id, hid'⟩ := List.mem_iff_getElem?.1 hmem
    obtain ⟨own, hown, -⟩ := blocksOf_subset h (List.mk_mem_zipIdx_iff_getElem?.2 hid')
    obtain ⟨made, -, hall⟩ := blocksOf_ok hg hown
    rw [if_pos hrec] at hall
    obtain ⟨i, hi⟩ := List.mem_iff_getElem?.1 hr
    obtain ⟨m, -, hm⟩ := Pointwise.exists_right hall (List.mk_mem_zipIdx_iff_getElem?.2 hi)
    obtain ⟨natural, hn, -, -⟩ := blockOf_ok hm
    obtain ⟨s, -, hs⟩ :=
      Pointwise.exists_right (naturalFields_ok hn).2 (List.mem_filter.2 ⟨hf, hshow⟩)
    have hfail : ctx.blockField (ctx.spotOf d r f) = .error (faultAt (ctx.spotOf d r f) u) :=
      blockField_error_iff.2 ⟨ht, hid, refer_error_iff.2 ⟨hforce, u, hu, rfl⟩⟩
    exact nomatch hs.symm.trans hfail

/-! ### Discovery without a limit -/

/-- The one name that discovery looks up for a type is that of a declaration that is no struct. -/
def ThroughName (ctx : BlockMaker) (t : GoType) : Prop :=
  ∃ id m, ctx.catalog.find t.innermost = some (id, m) ∧ m.isRecord = false

/-- What a type leads to is what its innermost name refers to, or that name stands for another
type. -/
theorem find_innermost_of_leadsTo {t : GoType} {e : Declaration} (h : ctx.LeadsTo t e) :
    (∃ id, ctx.catalog.find t.innermost = some (id, e)) ∨ ctx.ThroughName t := by
  induction h with
  | pointer _ ih | slice _ ih | array _ ih => exact ih
  | here _ hd _ => exact .inl ⟨_, hd⟩
  | behind _ hd _ hn _ _ => exact .inr ⟨_, _, hd, isRecord_of_named? hn⟩

theorem leadsTo_of_unresolved {kind : BlockKind} {room : Nat} {t u : GoType}
    (hu : ctx.Unresolved kind room t u) {id : Nat} {e : Declaration}
    (he : ctx.catalog.find u = some (id, e)) (hr : e.isRecord = true) :
    ctx.LeadsTo t e ∧ e.requests? kind = false := by
  induction hu with
  | here hn =>
    cases hn with
    | predeclared | other => exact nomatch he
    | undeclared _ hd =>
      rw [hd] at he
      cases he
    | lacking hs hd _ _ hk =>
      obtain ⟨rfl, rfl⟩ := Prod.mk.inj (Option.some.inj (hd.symm.trans he))
      exact ⟨.here hs hd (.inr hr), hk⟩
  | pointer _ ih => exact ⟨.pointer (ih he).1, (ih he).2⟩
  | slice _ _ ih => exact ⟨.slice (ih he).1, (ih he).2⟩
  | array _ _ ih => exact ⟨.array (ih he).1, (ih he).2⟩
  | tooFar _ hd _ hn =>
    obtain ⟨rfl, rfl⟩ := Prod.mk.inj (Option.some.inj (hd.symm.trans he))
    rw [isRecord_of_named? hn] at hr
    cases hr
  | behind hs hd hno hn _ ih => exact ⟨.behind hs hd hno hn (ih he).1, (ih he).2⟩

end BlockMaker

/-- The configuration without discovery. -/
def Config.undiscovered (config : Config) : Config :=
  { config with discovery := { config.discovery with strategy := .off } }

theorem Declarations.maker_of_referenced {config : Config} {ds : Declarations} {ctx : BlockMaker}
    (hs : config.discovery.strategy = .referenced) (h : ds.maker config = .ok ctx) :
    ∃ before, ds.maker config.undiscovered = .ok before ∧ before.enums = ctx.enums ∧
      ctx.catalog = before.catalog.reach config := by
  simp only [maker, bind_eq_ok_iff] at h
  obtain ⟨c₁, h₁, enums, h₂, c₃, h₃, c₄, h₄, c₅, h₅, h⟩ := h
  obtain rfl := Except.ok.inj h
  have hreach : c₅ = c₄.reach config := by
    unfold Catalog.addDiscovered at h₅
    rw [hs] at h₅
    exact (Except.ok.inj h₅).symm
  refine ⟨⟨c₄, enums, config.undiscovered⟩, ?_, rfl, hreach⟩
  simp only [maker, bind_eq_ok_iff]
  exact ⟨c₁, h₁, enums, h₂, c₃, h₃, c₄, h₄, c₄, rfl, rfl⟩

namespace BlockMaker

variable {ctx : BlockMaker} {c : Catalog}

/-- **Discovery covers what a field refers to directly.** -/
theorem reach_covers (hdepth : ctx.config.discovery.maxDepth = 0)
    (hc : ctx.catalog = c.reach ctx.config) {d : Declaration} {r : BlockRequest} {f : Field}
    (hd : ctx.Derives d r f) {e : Declaration} (hl : ctx.LeadsTo f.type e)
    (hr : e.isRecord = true) (hg : e.isGeneric = false) :
    e.requests? r.kind = true ∨ ctx.ThroughName f.type := by
  rcases find_innermost_of_leadsTo hl with ⟨target, hfind⟩ | hname
  · left
    have hmore : c.AskedMore ctx.catalog := hc ▸ (Catalog.frontier_reach hdepth c).asked
    obtain ⟨hmem, hrec, hgen, hreq, hf, hshow, ht⟩ := hd
    obtain ⟨id, hid⟩ := List.mem_iff_getElem?.1 hmem
    have hplain : c.isPlainStruct id = true := by
      rw [← hmore.isPlainStruct_eq, Catalog.isPlainStruct, Catalog.get?, hid]
      simp [hrec, hgen]
    obtain ⟨hof, htarget⟩ := Catalog.find_eq_some_iff.1 hfind
    have hplainTarget : c.isPlainStruct target = true := by
      rw [← hmore.isPlainStruct_eq, Catalog.isPlainStruct, htarget]
      simp [hr, hg]
    -- the field is one of those that discovery follows
    have href : target ∈ c.referenced ctx.config.naming d r := by
      refine List.mem_filterMap.2 ⟨f, List.mem_filter.2 ⟨hf, by simp [ht, hshow]⟩, ?_⟩
      rw [← hmore.idOfType?_eq, hof]
      exact Option.filter_eq_some_iff.2 ⟨rfl, hplainTarget⟩
    have hid' : (c.reach ctx.config).get? id = some d := hc ▸ hid
    obtain ⟨x, hx, hxk⟩ := Catalog.hasAll_reach hdepth hplain hid' hreq target href
    rw [← hc] at hx
    obtain rfl := Option.some.inj (hx.symm.trans htarget)
    exact hxk
  · exact .inr hname

end BlockMaker

/-- How discovery and type texts agree, and where they do not. The structs that are not generic have
just the requests that are wanted. A struct that a shown field leads to is asked for the kind of the
block, or the field refers to it behind a name that stands for another type. So blocks fail for want
of the block of such a struct only behind a name, and there they do fail. -/
structure BlockMaker.Covers (ctx : BlockMaker) (ds : Declarations) : Prop where
  wanted : ∃ before, ds.maker ctx.config.undiscovered = .ok before ∧
    ∀ id d, before.catalog.isPlainStruct id = true → ctx.catalog.get? id = some d →
      ∀ r, r ∈ d.requests ↔ before.catalog.Wanted ctx.config.naming id r
  covered : ∀ d r f e, ctx.Derives d r f → ctx.LeadsTo f.type e → e.isRecord = true →
    e.isGeneric = false → e.requests? r.kind = true ∨ ctx.ThroughName f.type
  lacking : ∀ owner name text, ctx.blocks = .error (.unknownType owner name text) →
    (∃ d ∈ ctx.catalog.types, ∃ f ∈ d.body.fields, f.isEmbedded = true ∧ owner = d.label ∧
      text = f.type.display) ∨
    ∃ d r f u, ctx.Derives d r f ∧ ctx.Unresolved r.kind chainLimit f.type u ∧
      BlockMaker.faultAt (ctx.spotOf d r f) u = .unknownType owner name text ∧
      ∀ id e, ctx.catalog.find u = some (id, e) → e.isRecord = true → e.isGeneric = false →
        ctx.ThroughName f.type
  failing : ∀ d r f u, ctx.Derives d r f → f.options.forceResolver = false →
    ctx.isIdField f = false → ctx.Unresolved r.kind chainLimit f.type u → ∃ e, ctx.blocks = .error e

/-- **Discovery and type texts agree, except behind names**, when discovery goes by reference and
the distance has no limit. -/
theorem Declarations.maker_covers {config : Config} {ds : Declarations} {ctx : BlockMaker}
    (hs : config.discovery.strategy = .referenced) (hdepth : config.discovery.maxDepth = 0)
    (h : ds.maker config = .ok ctx) : ctx.Covers ds := by
  obtain ⟨before, hbefore, -, hreach⟩ := maker_of_referenced hs h
  obtain rfl : ctx.config = config := maker_config h
  have hcovers : ∀ d r f e, ctx.Derives d r f → ctx.LeadsTo f.type e → e.isRecord = true →
      e.isGeneric = false → e.requests? r.kind = true ∨ ctx.ThroughName f.type :=
    fun d r f e hd hl hr hg => BlockMaker.reach_covers hdepth hreach hd hl hr hg
  refine ⟨⟨before, hbefore, ?_⟩, hcovers, ?_, ?_⟩
  · intro id d hp hd r
    rw [hreach] at hd
    exact Catalog.mem_requests_reach_iff hdepth hp hd r
  · intro owner name text herror
    rcases BlockMaker.blocks_error_unknownType herror with hemb | ⟨d, r, f, u, hd, hu, hfault⟩
    · exact .inl hemb
    · refine .inr ⟨d, r, f, u, hd, hu, hfault, fun id e he hr hg => ?_⟩
      obtain ⟨hl, hk⟩ := BlockMaker.leadsTo_of_unresolved hu he hr
      have hnot : ¬ e.requests? r.kind = true := by simp [hk]
      exact (hcovers d r f e hd hl hr hg).resolve_left hnot
  · intro d r f u hd hforce hid hu
    exact BlockMaker.blocks_error_of_unresolved hd hforce hid hu

/-- A struct, a named list of it, and a struct with a field of that list. Only the last one is asked
for. -/
def roster : SourceFile :=
  { path := ⟨"m.go"⟩
    package := "m"
    types :=
      [⟨"User", none, 1, [], .record [⟨some "Name", .ofName "string", none, none, 1⟩]⟩,
        ⟨"Users", none, 2, [], .defined (.slice (.ofName "User"))⟩,
        ⟨"Group", some "@gqlType", 3, [],
          .record [⟨some "Members", .ofName "Users", none, none, 3⟩]⟩] }

/-- Discovery by reference, without a limit on the distance. -/
def followAll : Config := { discovery := { strategy := .referenced, maxDepth := 0 } }

/-- A declaration of `roster`. -/
def rosterDeclaration (name : String) (number : Nat) (body : Body) : Declaration :=
  { name
    package := ⟨"m", none⟩
    path := ⟨"m.go"⟩
    line := number + 1
    place := ⟨0, number, 0⟩
    body }

/-- A field of `roster`. -/
def rosterField (owner name : String) (line : Nat) (type : GoType) : Field :=
  { goName := some name, type, origin := owner ++ "." ++ name, line }

def rosterUser : Declaration :=
  rosterDeclaration "User" 0 (.record [rosterField "User" "Name" 1 (.ofName "string")])

def rosterUsers : Declaration :=
  rosterDeclaration "Users" 1 (.defined (.slice (.named (some "m") none "User" [])))

def rosterMembers : Field := rosterField "Group" "Members" 3 (.named (some "m") none "Users" [])

def rosterGroup : Declaration :=
  { rosterDeclaration "Group" 2 (.record [rosterMembers]) with requests := [{ kind := .type }] }

/-- The declarations of `roster`, which discovery leaves as they are. -/
def rosterTypes : List Declaration := [rosterUser, rosterUsers, rosterGroup]

/-- What the blocks of `roster` are made with. -/
def rosterMaker : BlockMaker := ⟨⟨rosterTypes, []⟩, [], followAll⟩

theorem maker_rosterTypes : Declarations.maker followAll ⟨rosterTypes, []⟩ = .ok rosterMaker :=
  Declarations.maker_eq_ok rosterMaker (by decide +kernel)

theorem roster_covers : Declarations.ofFiles followAll [roster] = .ok ⟨rosterTypes, []⟩ ∧
    Declarations.maker followAll ⟨rosterTypes, []⟩ = .ok rosterMaker ∧
    rosterMaker.Covers ⟨rosterTypes, []⟩ :=
  ⟨by decide +kernel, maker_rosterTypes, Declarations.maker_covers rfl rfl maker_rosterTypes⟩

/-- **A named list hides a struct from discovery.** The field of the group leads to the user, for
which no block is asked, and the blocks fail. -/
theorem roster_lacks_block : Declarations.ofFiles followAll [roster] = .ok ⟨rosterTypes, []⟩ ∧
    Declarations.maker followAll ⟨rosterTypes, []⟩ = .ok rosterMaker ∧
    (∃ d r f e, rosterMaker.Derives d r f ∧ rosterMaker.LeadsTo f.type e ∧ e.isRecord = true ∧
      e.isGeneric = false ∧ e.requests? r.kind = false) ∧
    blocksOfFiles followAll [roster] = .error (.unknownType "Group" "Members" "User") := by
  refine ⟨by decide +kernel, maker_rosterTypes, ?_, by decide +kernel⟩
  refine ⟨rosterGroup, { kind := .type }, rosterMembers, rosterUser,
    ⟨by decide, rfl, rfl, List.mem_cons_self, List.mem_cons_self, by decide +kernel, rfl⟩, ?_,
    rfl, rfl, rfl⟩
  have huser : rosterMaker.LeadsTo (.slice (.named (some "m") none "User" [])) rosterUser :=
    .slice
      (@BlockMaker.LeadsTo.here _ _ _ _ _ 0 _ (by decide +kernel) (by decide +kernel) (.inr rfl))
  exact @BlockMaker.LeadsTo.behind _ _ _ _ _ 1 rosterUsers _ _ (by decide +kernel)
    (by decide +kernel) rfl rfl huser

end GoSchema
