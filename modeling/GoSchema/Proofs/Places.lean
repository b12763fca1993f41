/-
# Where declarations stand

Every declaration of the sources has a place of its own, which is the number of its file and its
number in the file. The stages that make the catalog keep the places: the first two and flattening
change bodies only, an instance stands at the place of its generic struct with a number that no
earlier instance of that struct has, and discovery adds requests only. Along the same way the
requests stay those for types and inputs, and the enums stay those of the sources.

Key definitions: `Spread`, `Written`, `Instances.Copies`.
Key theorems: `written_ofFiles`, `written_ofDeclarations`, `written_of_heads`, `Copies.instanceFor`,
`Copies.run`, `Copies.spread`, `Copies.enum_declared`, `Declarations.spread_maker`.
-/
import GoSchema.Generation
import GoSchema.Proofs.Blocks
import GoSchema.Proofs.DiscoveredRequests
import GoSchema.Proofs.InstanceTable
import Mathlib.Data.List.Sigma

namespace GoSchema

open Outcome

/-- Declarations that stand at different places and ask for types and inputs only. -/
structure Spread (ds : List Declaration) : Prop where
  places : (ds.map Declaration.place).Nodup
  kinds : ∀ d ∈ ds, ∀ r ∈ d.requests, r.kind ≠ .enum

/-- Declarations as sources have them: none is a copy of another one. -/
structure Written (ds : List Declaration) : Prop extends Spread ds where
  copies : ∀ d ∈ ds, d.place.copy = 0

theorem Declaration.withDirective_place {isLiteral : Bool} {d d' : Declaration} {x : Directive}
    (h : d.withDirective isLiteral x = .ok d') :
    d'.place = d.place ∧ ∀ r ∈ d'.requests, r ∈ d.requests ∨ r.kind ≠ .enum := by
  unfold withDirective at h
  split at h
  · obtain rfl := Except.ok.inj h
    refine ⟨rfl, fun r hr => ?_⟩
    rcases List.mem_append.1 hr with hr | hr
    · exact .inl hr
    · obtain rfl := List.mem_singleton.1 hr
      exact .inr (by simp [BlockRequest.ofDirective])
  · obtain rfl := Except.ok.inj h
    refine ⟨rfl, fun r hr => ?_⟩
    rcases List.mem_append.1 hr with hr | hr
    · exact .inl hr
    · obtain rfl := List.mem_singleton.1 hr
      exact .inr (by simp [BlockRequest.ofDirective])
  · obtain rfl := Except.ok.inj h
    exact ⟨rfl, fun r hr => .inl hr⟩
  · obtain ⟨extra, -, rfl⟩ := map_eq_ok_iff.1 h
    exact ⟨rfl, fun r hr => .inl hr⟩
  · split_ifs at h
    obtain rfl := Except.ok.inj h
    exact ⟨rfl, fun r hr => .inl hr⟩
  · split_ifs at h
    obtain rfl := Except.ok.inj h
    exact ⟨rfl, fun r hr => .inl hr⟩
  · exact nomatch h

theorem Declaration.withDirectives_place {file : SourceFile} {isLiteral : Bool} :
    ∀ {xs : List Directive} {d d' : Declaration}, withDirectives file isLiteral d xs = .ok d' →
      (∀ r ∈ d.requests, r.kind ≠ .enum) → d'.place = d.place ∧ ∀ r ∈ d'.requests, r.kind ≠ .enum
  | [], d, d', h, hd => by
    obtain rfl := Except.ok.inj h
    exact ⟨rfl, hd⟩
  | x :: xs, d, d', h, hd => by
    unfold withDirectives at h
    split at h
    · exact nomatch h
    · rename_i next hnext
      obtain ⟨hplace, hkinds⟩ := withDirective_place hnext
      have hnextKinds : ∀ r ∈ next.requests, r.kind ≠ .enum := fun r hr =>
        (hkinds r hr).elim (hd r) id
      obtain ⟨hplace', hkinds'⟩ := withDirectives_place h hnextKinds
      exact ⟨hplace'.trans hplace, hkinds'⟩

theorem Declaration.ofDecl_place {config : Config} {file : SourceFile} {space : Option String}
    {place : Place} {decl : Source.TypeDecl} {d : Declaration}
    (h : Declaration.ofDecl config file space place decl = .ok d) :
    d.place = place ∧ ∀ r ∈ d.requests, r.kind ≠ .enum := by
  unfold ofDecl at h
  split at h
  · exact nomatch h
  · split at h
    · exact nomatch h
    · obtain ⟨r, hr, rfl⟩ := map_eq_ok_iff.1 h
      exact withDirectives_place hr (fun _ hno => absurd hno List.not_mem_nil)

theorem pairwise_zipIdx {α : Type} (l : List α) : l.zipIdx.Pairwise fun p q => p.2 ≠ q.2 :=
  List.pairwise_map.1 (List.nodup_zipIdx_map_snd l)

/-- The declarations of a file are written, and stand in it. -/
theorem Declarations.written_ofFile {config : Config} {spaces : List (String × String)}
    {number : Nat} {file : SourceFile} {ds : Declarations}
    (h : ofFile config spaces number file = .ok ds) :
    Written ds.types ∧ ∀ d ∈ ds.types, d.place.file = number := by
  unfold ofFile at h
  dsimp only at h
  split at h
  · exact nomatch h
  · rename_i types htypes
    obtain ⟨consts, -, rfl⟩ := map_eq_ok_iff.1 h
    have hall := forall₂_of_mapM htypes
    have hone : ∀ d ∈ types, ∃ i, d.place = ⟨number, i, 0⟩ ∧ ∀ r ∈ d.requests, r.kind ≠ .enum := by
      intro d hd
      obtain ⟨⟨decl, i⟩, -, hdecl⟩ := Pointwise.exists_left hall hd
      exact ⟨i, Declaration.ofDecl_place hdecl⟩
    refine ⟨⟨⟨?_, ?_⟩, ?_⟩, ?_⟩
    · refine List.pairwise_map.2 (Pointwise.pairwise hall (pairwise_zipIdx file.types) ?_)
      intro p q d e hd he hne heq
      rw [(Declaration.ofDecl_place hd).1, (Declaration.ofDecl_place he).1] at heq
      exact hne (Place.mk.inj heq).2.1
    · intro d hd
      obtain ⟨i, -, hkinds⟩ := hone d hd
      exact hkinds
    all_goals
      intro d hd
      obtain ⟨i, hplace, -⟩ := hone d hd
      rw [hplace]

/-- **The declarations of files are written.** -/
theorem Declarations.written_ofFiles {config : Config} {files : List SourceFile}
    {ds : Declarations} (h : ofFiles config files = .ok ds) : Written ds.types := by
  unfold ofFiles at h
  split at h
  · exact nomatch h
  · rename_i spaces hspaces
    obtain ⟨all, hall, rfl⟩ := map_eq_ok_iff.1 h
    have hparts := forall₂_of_mapM hall
    have hpart : ∀ x ∈ all, Written x.types := by
      intro x hx
      obtain ⟨⟨file, i⟩, -, hfile⟩ := Pointwise.exists_left hparts hx
      exact (written_ofFile hfile).1
    refine ⟨⟨?_, ?_⟩, ?_⟩
    · rw [List.map_flatMap, List.nodup_flatMap]
      refine ⟨fun x hx => (hpart x hx).places, ?_⟩
      refine Pointwise.pairwise hparts (pairwise_zipIdx files) ?_
      intro p q x y hx hy hne place hp hq
      obtain ⟨d, hd, rfl⟩ := List.mem_map.1 hp
      obtain ⟨e, he, heq⟩ := List.mem_map.1 hq
      apply hne
      rw [← (written_ofFile hx).2 d hd, ← (written_ofFile hy).2 e he, heq]
    · intro d hd
      obtain ⟨x, hx, hdx⟩ := List.mem_flatMap.1 hd
      exact (hpart x hx).kinds d hdx
    · intro d hd
      obtain ⟨x, hx, hdx⟩ := List.mem_flatMap.1 hd
      exact (hpart x hx).copies d hdx

/-! ### The first stages -/

theorem Written.sublist {ds ds' : List Declaration} (h : Written ds) (hs : ds'.Sublist ds) :
    Written ds' where
  places := h.places.sublist (hs.map _)
  kinds d hd := h.kinds d (hs.subset hd)
  copies d hd := h.copies d (hs.subset hd)

theorem spread_heads {ds : List Declaration} : Spread (ds.map .head) ↔ Spread ds := by
  have hplaces : (ds.map Declaration.head).map Declaration.place = ds.map Declaration.place := by
    rw [List.map_map]
    rfl
  refine ⟨fun h => ⟨hplaces ▸ h.places, fun d hd => ?_⟩, fun h => ⟨hplaces.symm ▸ h.places, ?_⟩⟩
  · exact h.kinds d.head (List.mem_map_of_mem hd)
  · intro d hd
    obtain ⟨e, he, rfl⟩ := List.mem_map.1 hd
    exact h.kinds e he

theorem written_heads {ds : List Declaration} : Written (ds.map .head) ↔ Written ds := by
  refine ⟨fun h => ⟨spread_heads.1 h.toSpread, fun d hd => ?_⟩,
    fun h => ⟨spread_heads.2 h.toSpread, ?_⟩⟩
  · exact h.copies d.head (List.mem_map_of_mem hd)
  · intro d hd
    obtain ⟨e, he, rfl⟩ := List.mem_map.1 hd
    exact h.copies e he

namespace Catalog

theorem types_foldl_push_sublist : ∀ (ds : List Declaration) (c : Catalog),
    (ds.foldl (fun c d => (c.push d).1) c).types.Sublist (c.types ++ ds)
  | [], c => by simp
  | d :: ds, c => by
    rw [List.foldl_cons]
    refine (types_foldl_push_sublist ds _).trans ?_
    cases h : c.idOf? d.key with
    | some id =>
      rw [push_of_some h]
      exact (List.Sublist.refl _).append (List.sublist_cons_self d ds)
    | none =>
      rw [push_of_none h]
      simp

theorem types_ofDeclarations_sublist (ds : Declarations) :
    (ofDeclarations ds).types.Sublist ds.types := by
  have hsub := types_foldl_push_sublist ds.types { consts := ds.consts }
  rwa [List.nil_append] at hsub

theorem written_ofDeclarations {ds : Declarations} (h : Written ds.types) :
    Written (ofDeclarations ds).types := h.sublist (types_ofDeclarations_sublist ds)

theorem written_of_heads {c c' : Catalog} (hh : c'.heads = c.heads) (h : Written c.types) :
    Written c'.types := by
  have hheads : Written c'.heads := hh ▸ written_heads.2 h
  exact written_heads.1 hheads

end Catalog

/-! ### Instances and later stages -/

namespace Instances

/-- A declaration that is one of the first `made.count id` copies of a declaration of `c`. -/
def IsCopy (c : Catalog) (made : List Nat) (d : Declaration) : Prop :=
  d.enumRequest = none ∧ ∃ id generic k, c.get? id = some generic ∧
    d.place = { generic.place with copy := k } ∧ 1 ≤ k ∧ k ≤ made.count id ∧
    ∀ r ∈ d.requests, ∃ q ∈ generic.requests, r.kind = q.kind

theorem IsCopy.cons {c : Catalog} {made : List Nat} {d : Declaration} (h : IsCopy c made d)
    (id : Nat) : IsCopy c (id :: made) d := by
  obtain ⟨henum, i, generic, k, hi, hplace, hpos, hle, hkinds⟩ := h
  exact ⟨henum, i, generic, k, hi, hplace, hpos,
    Nat.le_trans hle ((List.sublist_cons_self id made).count_le i), hkinds⟩

/-- What a run adds to the catalog `c`: copies of its declarations at places of their own. -/
structure Copies (c : Catalog) (s : Instances) : Prop extends Framed c s where
  copies : ∃ ext, s.catalog.heads = c.heads ++ ext ∧ (ext.map Declaration.place).Nodup ∧
    ∀ d ∈ ext, IsCopy c s.made d

namespace Copies

variable {c : Catalog} {s : Instances}

theorem start (c : Catalog) : Copies c (start c) where
  toFramed := Framed.start c
  copies := ⟨[], by simp [Instances.start], by simp, by simp⟩

/-- Declarations of the sources with one file and one number are the same. -/
theorem id_eq_of_place (hc : Written c.types) {i j : Nat} {d e : Declaration}
    (hi : c.get? i = some d) (hj : c.get? j = some e) (hplace : d.place = e.place) : i = j := by
  have hi' : (c.types.map Declaration.place)[i]? = some d.place := by
    rw [List.getElem?_map, show c.types[i]? = some d from hi]
    rfl
  have hj' : (c.types.map Declaration.place)[j]? = some d.place := by
    rw [List.getElem?_map, show c.types[j]? = some e from hj, hplace]
    rfl
  have hlt : i < (c.types.map Declaration.place).length := (List.getElem?_eq_some_iff.1 hi').1
  exact (List.getElem?_inj hlt hc.places).1 (hi'.trans hj'.symm)

/-- A new copy stands where no declaration stood. -/
theorem instanceFor (h : Copies c s) (hc : Written c.types) {id : Nat} {generic : Declaration}
    (hd : s.catalog.get? id = some generic) (hg : generic.isGeneric = true) (args : List GoType) :
    Copies c (s.instanceFor id generic args).2 := by
  refine ⟨h.toFramed.instanceFor hd hg args, ?_⟩
  obtain ⟨ext, hext, hplaces, hcopies⟩ := h.copies
  obtain ⟨origin, horigin, hhead⟩ := h.exists_generic hd hg
  unfold Instances.instanceFor
  split
  · exact ⟨ext, hext, hplaces, hcopies⟩
  · dsimp only
    have hplace : (instanceOf generic (s.made.count id + 1) args).place =
        { origin.place with copy := s.made.count id + 1 } := by
      have hsame : generic.place = origin.place := congrArg (·.place) hhead.symm
      show { generic.place with copy := s.made.count id + 1 } = _
      rw [hsame]
    have hcopy : IsCopy c (id :: s.made) (instanceOf generic (s.made.count id + 1) args).head := by
      refine ⟨rfl, id, origin, s.made.count id + 1, horigin, hplace, Nat.le_add_left 1 _, ?_, ?_⟩
      · rw [List.count_cons_self]
      · intro r hr
        obtain ⟨q, hq, rfl⟩ := List.mem_map.1 hr
        have hsame : generic.requests = origin.requests := congrArg (·.requests) hhead.symm
        exact ⟨q, hsame ▸ hq, rfl⟩
    rcases Catalog.heads_push s.catalog (instanceOf generic (s.made.count id + 1) args) with hp | hp
    · exact ⟨ext, hp.trans hext, hplaces, fun d hd => (hcopies d hd).cons id⟩
    · refine ⟨ext ++ [(instanceOf generic (s.made.count id + 1) args).head], ?_, ?_, ?_⟩
      · rw [hp, hext, List.append_assoc]
      · rw [List.map_append, List.nodup_append]
        refine ⟨hplaces, List.nodup_singleton _, ?_⟩
        -- an earlier copy of the same declaration has a smaller number
        rintro _ hx _ hy heq
        obtain ⟨d, hd, rfl⟩ := List.mem_map.1 hx
        obtain rfl := List.mem_singleton.1 hy
        obtain ⟨-, i, g, k, hi, hk, -, hle, -⟩ := hcopies d hd
        have heq : ({ g.place with copy := k } : Place) =
            { origin.place with copy := s.made.count id + 1 } := hk.symm.trans (heq.trans hplace)
        obtain ⟨hfile, hindex, hnumber⟩ := Place.mk.inj heq
        have hzero : g.place.copy = origin.place.copy := by
          rw [hc.copies g (List.mem_of_getElem? hi),
            hc.copies origin (List.mem_of_getElem? horigin)]
        have hgo : g.place = origin.place := by
          calc g.place = ⟨g.place.file, g.place.index, g.place.copy⟩ := rfl
            _ = ⟨origin.place.file, origin.place.index, origin.place.copy⟩ := by
              rw [hfile, hindex, hzero]
        obtain rfl := id_eq_of_place hc hi horigin hgo
        omega
      · intro d hd
        rcases List.mem_append.1 hd with hd | hd
        · exact (hcopies d hd).cons id
        · obtain rfl := List.mem_singleton.1 hd
          exact hcopy

/-- **The copies of every run.** -/
theorem run (hc : Written c.types) (limit : Nat) : Copies c (run limit (Instances.start c)) := by
  refine run_preserves (P := Copies c) ?_ ?_ ?_ limit (start c)
  · intro s package name id generic args h hg
    obtain ⟨-, hd, hgen, -⟩ := genericOf?_eq_some_iff.1 hg
    exact h.instanceFor hc hd hgen args
  · exact fun queue h => ⟨⟨h.heads, h.entries⟩, h.copies⟩
  · intro s id fields h
    refine ⟨h.toFramed.setBody id _, ?_⟩
    obtain ⟨ext, hext, hrest⟩ := h.copies
    exact ⟨ext, by rw [Catalog.heads_setBody, hext], hrest⟩

/-- Declarations of the sources and their copies stand at different places. -/
theorem spread (h : Copies c s) (hc : Written c.types) : Spread s.catalog.types := by
  obtain ⟨ext, hext, hplaces, hcopies⟩ := h.copies
  rw [← spread_heads]
  show Spread s.catalog.heads
  rw [hext]
  have hheads : Written c.heads := written_heads.2 hc
  refine ⟨?_, ?_⟩
  · rw [List.map_append, List.nodup_append]
    refine ⟨hheads.places, hplaces, ?_⟩
    rintro _ hx _ hy heq
    obtain ⟨d, hd, rfl⟩ := List.mem_map.1 hx
    obtain ⟨e, he, rfl⟩ := List.mem_map.1 hy
    obtain ⟨-, i, g, k, -, hk, hpos, -, -⟩ := hcopies e he
    have hcopy : d.place.copy = k := by rw [heq, hk]
    rw [hheads.copies d hd] at hcopy
    omega
  · intro d hd
    rcases List.mem_append.1 hd with hd | hd
    · exact hheads.kinds d hd
    · obtain ⟨-, i, g, k, hi, -, -, -, hkinds⟩ := hcopies d hd
      intro r hr
      obtain ⟨q, hq, hkind⟩ := hkinds r hr
      rw [hkind]
      exact hc.kinds g (List.mem_of_getElem? hi) q hq

/-- An enum is a declaration of the sources. -/
theorem enum_declared (h : Copies c s) {id : Nat} {d : Declaration}
    (hd : s.catalog.get? id = some d) (he : d.enumRequest.isSome) :
    ∃ e, c.get? id = some e ∧ e.enumRequest = d.enumRequest := by
  obtain ⟨ext, hext, -, hcopies⟩ := h.copies
  rcases Catalog.get?_cases_of_heads hext hd with ⟨e, he', heq⟩ | hnew
  · exact ⟨e, he', congrArg (·.enumRequest) heq⟩
  · have hno : d.enumRequest = none := (hcopies _ hnew).1
    rw [hno] at he
    cases he

end Copies

end Instances

namespace Catalog

/-- Discovery adds requests of the kinds that are there, or for types. -/
theorem askedMore_of_addDiscovered {config : Config} {c c' : Catalog} (h : Spread c.types)
    (hc : c.addDiscovered config = .ok c') : c.AskedMore c' ∧ Spread c'.types := by
  have hkeep : c.AskedMore c' ∧ ∀ d ∈ c'.types, ∀ r ∈ d.requests, r.kind ≠ .enum := by
    refine addDiscovered_keeps (K := fun kind => kind ≠ .enum)
      (P := fun x => c.AskedMore x ∧ ∀ d ∈ x.types, ∀ r ∈ d.requests, r.kind ≠ .enum)
      (by decide) (fun h => h.2) ?_ ⟨.refl c, h.kinds⟩ hc
    rintro x kind id ⟨hmore, hkinds⟩ hk
    refine ⟨hmore.ask kind id, fun d hd r hr => ?_⟩
    obtain ⟨i, hi⟩ := List.mem_iff_getElem?.1 hd
    by_cases hne : id = i
    · subst hne
      cases hx : x.get? id with
      | none =>
        have hno : (x.ask kind id).get? id = none := by
          unfold get? at hx
          simp [ask, modify, get?, hx]
        rw [show (x.ask kind id).get? id = some d from hi] at hno
        cases hno
      | some e =>
        rw [show (x.ask kind id).types[id]? = _ from get?_ask_self hx kind] at hi
        obtain rfl := Option.some.inj hi
        rcases List.mem_append.1 hr with hr | hr
        · exact hkinds e (List.mem_of_getElem? hx) r hr
        · obtain rfl := List.mem_singleton.1 hr
          exact hk
    · rw [show (x.ask kind id).types[i]? = _ from get?_ask_ne hne kind] at hi
      exact hkinds d (List.mem_of_getElem? hi) r hr
  refine ⟨hkeep.1, ?_, hkeep.2⟩
  have hsame : List.Forall₂ (fun d d' => d.place = d'.place) c.types c'.types := by
    refine hkeep.1.types.imp fun d d' hmore => ?_
    obtain ⟨kinds, hd⟩ := hmore
    rw [hd]
  refine List.pairwise_map.2 (Pointwise.pairwise hsame (List.pairwise_map.1 h.places) ?_)
  intro d e d' e' hd he hne
  rwa [← hd, ← he]

end Catalog

/-- **The catalog after all stages.** Its declarations stand at different places and ask for types
and inputs only, and its enums are those whose values were collected. -/
theorem Declarations.spread_maker {config : Config} {ds : Declarations} {ctx : BlockMaker}
    (hds : Written ds.types) (h : ds.maker config = .ok ctx) :
    Spread ctx.catalog.types ∧ ∃ settled, (Catalog.ofDeclarations ds).settle = .ok settled ∧
      settled.enumMembers = .ok ctx.enums ∧
      ∀ id d, ctx.catalog.get? id = some d → d.enumRequest.isSome → id ∈ settled.enumIds := by
  simp only [maker, bind_eq_ok_iff] at h
  obtain ⟨settled, hsettled, enums, henums, flat, hflat, full, hfull, last, hlast, h⟩ := h
  obtain rfl := Except.ok.inj h
  have hw : Written settled.types :=
    Catalog.written_of_heads (Catalog.heads_settleAll hsettled)
      (Catalog.written_ofDeclarations hds)
  have hheads := Catalog.heads_flatten hflat
  have hwflat : Written flat.types := Catalog.written_of_heads hheads hw
  obtain ⟨n, -, rfl⟩ := Catalog.withInstances_eq_ok_iff.1 hfull
  have hcopies : Instances.Copies flat ((Instances.start flat).run n) := .run hwflat n
  obtain ⟨hmore, hspread⟩ := Catalog.askedMore_of_addDiscovered (hcopies.spread hwflat) hlast
  refine ⟨hspread, settled, hsettled, henums, fun id d hd he => ?_⟩
  rcases hmore.get?_cases id with ⟨-, hno⟩ | ⟨e, e', he', he'', kinds, rfl⟩
  · rw [hno] at hd
    cases hd
  obtain rfl := Option.some.inj (he''.symm.trans hd)
  obtain ⟨x, hx, hxe⟩ := hcopies.enum_declared he' he
  obtain ⟨y, hy, hyx⟩ := Catalog.exists_get?_of_heads hheads hx
  have hye : y.enumRequest = x.enumRequest := congrArg (·.enumRequest) hyx
  have hyes : y.enumRequest.isSome = true := by rw [hye, hxe]; exact he
  refine List.mem_filter.2 ⟨List.mem_range.2 (List.getElem?_eq_some_iff.1 hy).1, ?_⟩
  rw [hy]
  exact hyes

end GoSchema
