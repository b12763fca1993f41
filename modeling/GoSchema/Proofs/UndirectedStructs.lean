/-
# Structs without directives

A struct without type parameters, directives and embedded types that nothing speaks of can be put
behind all others without a change to the blocks, when nothing but directives asks for blocks. It is
gone through all the same: its tags and comments must be readable, and an instance of a generic
struct that only its fields refer to is made, and gives blocks. So it must ask for no further
instances, and its name must not be the one of an instance.

Key definitions: `TypeDecl.IsUndirected`, `SourceFile.Avoids`, `SourceFile.withStruct`.
Key theorems: `Declarations.exists_ofFiles_withStruct`, `Catalog.extends_push`,
`Declarations.toBlocks_bystander`, `blocksOfFiles_undirected`.
-/
import GoSchema.Proofs.Blocks
import GoSchema.Proofs.ExtendedCatalogs
import GoSchema.Proofs.SourceDeclarations

namespace GoSchema

open Outcome Source

variable {ok : String → Prop}

/-- Whether every name in the types of a body has a property. -/
def Source.TypeBody.AllNames (ok : String → Prop) : TypeBody → Prop
  | .record fs => ∀ f ∈ fs, f.type.AllNames ok
  | .defined t | .aliased t => t.AllNames ok

/-- No type of the file has the name, and no type expression in it speaks of it. -/
structure SourceFile.Avoids (file : SourceFile) (name : String) : Prop where
  declared : ∀ decl ∈ file.types, decl.name ≠ name
  types : ∀ decl ∈ file.types, decl.body.AllNames (· ≠ name)
  consts : ∀ decl ∈ file.consts, ∀ t, decl.type = some t → t.AllNames (· ≠ name)

theorem SourceFile.allNames_qualify (file : SourceFile) (params : List String) {t : GoType}
    (h : t.AllNames ok) : (file.qualify params t).AllNames ok := by
  induction t using GoType.rec (motive_2 := fun ts =>
    GoType.AllNamesIn ok ts → GoType.AllNamesIn ok (file.qualifyAll params ts)) with
  | pointer t ih | slice t ih | array t ih => exact ih h
  | map k v ihk ihv => exact ⟨ihk h.1, ihv h.2⟩
  | any | other => trivial
  | named package qualifier name args ih => exact ⟨h.1, ih h.2⟩
  | nil => trivial
  | cons t ts ih ihs h => exact ⟨ih h.1, ihs h.2⟩

theorem Declaration.similar_of_bodyOf {config : Config} {file : SourceFile} {decl : TypeDecl}
    {b : Body} (h : bodyOf config file decl = .ok b) (hnames : decl.body.AllNames ok) :
    b.Similar ok b := by
  unfold bodyOf at h
  split at h
  · rename_i fs hb
    rw [hb] at hnames
    obtain ⟨own, hown, rfl⟩ := map_eq_ok_iff.1 h
    refine .record (List.forall₂_same.2 fun f hf => .same ?_)
    obtain ⟨source, hsource, hread⟩ := Pointwise.exists_left (forall₂_of_mapM hown) hf
    rw [(Field.ofDecl_ok hread).1]
    exact file.allNames_qualify _ (hnames source hsource)
  · rename_i t hb
    rw [hb] at hnames
    obtain rfl := Except.ok.inj h
    exact .defined (file.allNames_qualify _ hnames)
  · rename_i t hb
    rw [hb] at hnames
    obtain rfl := Except.ok.inj h
    exact .aliased (file.allNames_qualify _ hnames)

theorem Declaration.similar_of_ofDecl {config : Config} {file : SourceFile} {space : Option String}
    {place : Place} {decl : TypeDecl} {d : Declaration}
    (h : ofDecl config file space place decl = .ok d) (hnames : decl.body.AllNames ok) :
    d.Similar ok d :=
  ⟨rfl, similar_of_bodyOf (bodyOf_of_ofDecl h) hnames⟩

namespace Declarations

/-- No declaration has the name, and none speaks of it. -/
structure Avoid (ds : Declarations) (name : String) : Prop where
  declared : ∀ d ∈ ds.types, d.name ≠ name
  types : ∀ d ∈ ds.types, d.Similar (· ≠ name) d
  consts : ∀ k ∈ ds.consts, ∀ t, k.type = some t → t.AllNames (· ≠ name)

theorem avoid_ofFiles {config : Config} {files : List SourceFile} {ds : Declarations}
    (h : ofFiles config files = .ok ds) {name : String}
    (hfresh : ∀ file ∈ files, file.Avoids name) : ds.Avoid name := by
  obtain ⟨htypes, hconsts⟩ := ofFiles_ok h
  have htype : ∀ d ∈ ds.types, ∃ file ∈ files, ∃ decl ∈ file.types, ∃ space place,
      Declaration.ofDecl config file space place decl = .ok d := by
    intro d hd
    obtain ⟨s, hs, space, place, hmade⟩ := Pointwise.exists_left htypes hd
    obtain ⟨file, hfile, hs⟩ := List.mem_flatMap.1 hs
    obtain ⟨decl, hdecl, rfl⟩ := List.mem_map.1 hs
    exact ⟨file, hfile, decl, hdecl, space, place, hmade⟩
  refine ⟨fun d hd => ?_, fun d hd => ?_, fun k hk t ht => ?_⟩
  · obtain ⟨file, hfile, decl, hdecl, _, _, hmade⟩ := htype d hd
    rw [(Declaration.isOf_ofDecl hmade).name]
    exact (hfresh file hfile).declared decl hdecl
  · obtain ⟨file, hfile, decl, hdecl, _, _, hmade⟩ := htype d hd
    exact Declaration.similar_of_ofDecl hmade ((hfresh file hfile).types decl hdecl)
  · obtain ⟨s, hs, place, hmade⟩ := Pointwise.exists_left hconsts hk
    obtain ⟨file, hfile, hs⟩ := List.mem_flatMap.1 hs
    obtain ⟨decl, hdecl, rfl⟩ := List.mem_map.1 hs
    rw [Constant.type_of_ofDecl hmade, Option.map_eq_some_iff] at ht
    obtain ⟨written, hwritten, rfl⟩ := ht
    exact file.allNames_qualify _ ((hfresh file hfile).consts decl hdecl written hwritten)

end Declarations

/-! ### One more struct -/

/-- The file with one more type behind the others. -/
def SourceFile.withStruct (file : SourceFile) (decl : TypeDecl) : SourceFile :=
  file.withTypes (file.types ++ [decl])

/-- A struct that is not generic, whose comments hold no directives and whose fields are named; in a
file it is read with the fields `own`. -/
structure Source.TypeDecl.IsUndirected (config : Config) (file : SourceFile) (decl : TypeDecl)
    (own : List Field) : Prop where
  plain : decl.typeParams = []
  doc : ∃ doc, file.readDoc decl.name decl.doc = .ok doc ∧ doc.directives = []
  fields : ∃ fs, decl.body = .record fs ∧ (∀ f ∈ fs, f.name.isSome = true) ∧
    fs.mapM (Field.ofDecl config file decl) = .ok own

variable {config : Config} {decl : TypeDecl} {own : List Field}

/-- A struct without directives becomes a bystander. -/
theorem Declaration.exists_ofDecl_undirected {file : SourceFile}
    (h : decl.IsUndirected config file own) (space : Option String) (place : Place) :
    ∃ d, ofDecl config file space place decl = .ok d ∧ d.IsBystander own ∧ d.name = decl.name := by
  obtain ⟨doc, hdoc, hnone⟩ := h.doc
  obtain ⟨fs, hbody, hnamed, hown⟩ := h.fields
  have hread : bodyOf config file decl = .ok (.record own) := by
    unfold bodyOf
    rw [hbody]
    dsimp only
    rw [hown]
    rfl
  have hfields : ∀ f ∈ own, f.isEmbedded = false := by
    intro f hf
    obtain ⟨source, hsource, hmade⟩ := Pointwise.exists_left (forall₂_of_mapM hown) hf
    exact (Field.ofDecl_ok hmade).2 (hnamed source hsource)
  unfold ofDecl
  rw [hdoc, hread]
  dsimp only
  rw [hnone]
  exact ⟨_, rfl, ⟨h.plain, rfl, rfl, rfl, hfields⟩, rfl⟩

namespace Declarations

theorem exists_ofFile_withStruct {file : SourceFile} {spaces : List (String × String)}
    {number : Nat} {part : Declarations} (h : ofFile config spaces number file = .ok part)
    (hdecl : decl.IsUndirected config file own) :
    ∃ d, d.IsBystander own ∧ d.name = decl.name ∧
      ofFile config spaces number (file.withStruct decl) =
        .ok { part with types := part.types ++ [d] } := by
  rw [ofFile_eq_bind] at h
  obtain ⟨types, htypes, h⟩ := bind_eq_ok_iff.1 h
  obtain ⟨consts, hconsts, rfl⟩ := map_eq_ok_iff.1 h
  obtain ⟨d, hd, hbystander, hname⟩ := Declaration.exists_ofDecl_undirected hdecl
    (spaces.lookup file.ownPackage.identity) ⟨number, 0 + file.types.length, 0⟩
  refine ⟨d, hbystander, hname, ?_⟩
  rw [SourceFile.withStruct, ofFile_eq_bind, Declaration.ofDecl_withTypes,
    Constant.ofDecl_withTypes]
  show ((file.types ++ [decl]).zipIdx.mapM fun p => Declaration.ofDecl config file
    (spaces.lookup file.ownPackage.identity) ⟨number, p.2, 0⟩ p.1) >>= _ = _
  rw [List.zipIdx_append, List.mapM_append, htypes]
  simp only [List.zipIdx_cons, List.zipIdx_nil, List.mapM_cons, List.mapM_nil, hd]
  show (file.consts.zipIdx.mapM fun p => Constant.ofDecl config file ⟨number, p.2, 0⟩ p.1).map _ = _
  rw [hconsts]
  rfl

/-- **The declarations with one more struct** are those without it and a bystander. -/
theorem exists_ofFiles_withStruct {before : List SourceFile} {last : SourceFile} {ds : Declarations}
    (h : ofFiles config (before ++ [last]) = .ok ds) (hdecl : decl.IsUndirected config last own) :
    ∃ d, d.IsBystander own ∧ d.name = decl.name ∧
      ofFiles config (before ++ [last.withStruct decl]) =
        .ok { ds with types := ds.types ++ [d] } := by
  have hspaces : packageSpaces (before ++ [last.withStruct decl]) =
      packageSpaces (before ++ [last]) :=
    packageSpaces_eq (List.rel_append (List.forall₂_same.2 fun file _ => ⟨file.types, rfl⟩)
      (.cons ⟨_, rfl⟩ .nil))
  unfold ofFiles at h ⊢
  rw [hspaces]
  split at h
  · exact nomatch h
  · rename_i spaces _
    obtain ⟨all, hall, rfl⟩ := map_eq_ok_iff.1 h
    rw [List.zipIdx_append, List.mapM_append] at hall
    obtain ⟨parts, hparts, hall⟩ := bind_eq_ok_iff.1 hall
    obtain ⟨ends, hends, hall⟩ := bind_eq_ok_iff.1 hall
    obtain rfl := Except.ok.inj hall
    simp only [List.zipIdx_cons, List.zipIdx_nil, List.mapM_cons, List.mapM_nil] at hends
    obtain ⟨part, hpart, hends⟩ := bind_eq_ok_iff.1 hends
    obtain rfl := Except.ok.inj hends
    obtain ⟨d, hbystander, hname, hlast⟩ := exists_ofFile_withStruct hpart hdecl
    refine ⟨d, hbystander, hname, ?_⟩
    dsimp only
    rw [List.zipIdx_append, List.mapM_append, hparts]
    simp only [List.zipIdx_cons, List.zipIdx_nil, List.mapM_cons, List.mapM_nil, hlast]
    refine congrArg Except.ok ?_
    simp

end Declarations

/-! ### The catalog with one more struct -/

namespace Catalog

variable {d : Declaration} {c : Catalog}

/-- A declaration whose name nothing speaks of can be put at the end of a catalog. -/
theorem extends_push (hnames : ∀ e ∈ c.types, e.name ≠ d.name)
    (hsame : ∀ e ∈ c.types, e.Similar (· ≠ d.name) e) : Extends d c (c.push d).1 := by
  have hno : c.idOf? d.key = none := by
    rw [idOf?_eq_none_iff]
    intro hmem
    obtain ⟨e, he, hkey⟩ := List.mem_map.1 hmem
    exact hnames e he (congrArg Prod.snd hkey)
  rw [push_of_none hno]
  refine ⟨⟨fun {i e} he => ⟨e, ?_, hsame e (List.mem_of_getElem? he)⟩, fun q hq => ?_⟩, by simp, ?_⟩
  · exact (List.getElem?_append_left (List.getElem?_eq_some_iff.1 he).1).trans he
  · have hqd : q d.name d.package = false := by
      cases hb : q d.name d.package with
      | false => rfl
      | true => exact absurd rfl (hq _ _ hb)
    rw [Similar.search_concat, hqd, if_neg (by simp), Option.or_none, Option.map_id, id]
  · exact List.getElem?_concat_length

theorem ofDeclarations_concat (ds : Declarations) (d : Declaration) :
    ofDeclarations { ds with types := ds.types ++ [d] } = ((ofDeclarations ds).push d).1 := by
  rw [ofDeclarations, List.foldl_append]
  rfl

end Catalog

/-- **A bystander makes no difference for the schema** where discovery is off. -/
theorem Declarations.toBlocks_bystander (hoff : config.discovery.strategy = .off)
    {ds : Declarations} (hplaces : Written ds.types) {bs : List Block}
    (hbs : ds.toBlocks config = .ok bs) {d : Declaration} (hd : d.IsBystander own)
    (havoid : ds.Avoid d.name) (hown : ∀ f ∈ own, f.type.AllNames (· ≠ d.name))
    (hignores : ∀ c, ds.flat = .ok c → c.Ignores d.name own) :
    toBlocks config { ds with types := ds.types ++ [d] } = .ok bs := by
  obtain ⟨ctx, hctx, hblocks⟩ := Declarations.toBlocks_eq_ok_iff.1 hbs
  obtain ⟨-, w, hw, -, henumIds⟩ := Declarations.spread_maker hplaces hctx
  obtain ⟨settled, enums, c, v, hsettled, henums, hc, hv, rfl⟩ :=
    (maker_eq_ok_iff_of_off hoff).1 hctx
  obtain rfl := Except.ok.inj (hw.symm.trans hsettled)
  have hsub : (Catalog.ofDeclarations ds).types ⊆ ds.types :=
    (Catalog.types_ofDeclarations_sublist ds).subset
  have hstart : Catalog.Extends d (Catalog.ofDeclarations ds)
      (Catalog.ofDeclarations { ds with types := ds.types ++ [d] }) := by
    rw [Catalog.ofDeclarations_concat]
    exact Catalog.extends_push (fun e he => havoid.declared e (hsub he))
      fun e he => havoid.types e (hsub he)
  obtain ⟨w', hw', hsettle⟩ := hstart.settle hd hw
  have hconsts : w'.consts = w.consts := by
    rw [Catalog.consts_settleAll hw', Catalog.consts_settleAll hw, Catalog.consts_ofDeclarations,
      Catalog.consts_ofDeclarations]
  have hspoken : ∀ k ∈ w.consts, ∀ t, k.type = some t → t.AllNames (· ≠ d.name) := by
    rw [Catalog.consts_settleAll hw, Catalog.consts_ofDeclarations]
    exact havoid.consts
  have henums' := hsettle.enumMembers hd hconsts hspoken henums
  obtain ⟨c', hc', hflat⟩ := hsettle.flatten hd hc
  have hignored := hignores c (flat_eq_ok_iff.2 ⟨w, hw, hc⟩)
  obtain ⟨v', hv', hsurrounds⟩ := hflat.withInstances hd hown hignored hv
  have hmaker : maker config { ds with types := ds.types ++ [d] } = .ok ⟨v', enums, config⟩ :=
    (maker_eq_ok_iff_of_off hoff).2 ⟨w', enums, c', v', hw', henums', hc', hv', rfl⟩
  refine Declarations.toBlocks_eq_ok_iff.2 ⟨_, hmaker, ?_⟩
  rw [← hblocks]
  refine BlockMaker.blocks_eq_of_bystander hd hsurrounds rfl rfl fun i e he hsome => ?_
  have hi : i < w.types.length := List.mem_range.1 (List.mem_filter.1 (henumIds i e he hsome)).1
  rwa [← Catalog.heads_length, Catalog.heads_flatten hc, Catalog.heads_length]

/-- **A struct without directives leaves the schema as it is**, where nothing but directives asks
for blocks. The struct stands behind all others, its name occurs nowhere else and is not the one of
an instance, and its fields refer to no instances but those that other structs refer to. -/
theorem blocksOfFiles_undirected (hoff : config.discovery.strategy = .off)
    {before : List SourceFile} {last : SourceFile} {bs : List Block}
    (hbs : blocksOfFiles config (before ++ [last]) = .ok bs)
    (hdecl : decl.IsUndirected config last own)
    (hfresh : ∀ file ∈ before ++ [last], file.Avoids decl.name)
    (hown : decl.body.AllNames (· ≠ decl.name))
    (hignores : ∀ c ∈ flatCatalog? config (before ++ [last]), c.Ignores decl.name own) :
    blocksOfFiles config (before ++ [last.withStruct decl]) = .ok bs := by
  unfold blocksOfFiles at hbs ⊢
  split at hbs
  · exact nomatch hbs
  · rename_i ds hds
    obtain ⟨d, hd, hname, hds'⟩ := Declarations.exists_ofFiles_withStruct hds hdecl
    obtain ⟨fs, hbody, -, hread⟩ := hdecl.fields
    have hfields : ∀ f ∈ own, f.type.AllNames (· ≠ d.name) := by
      intro f hf
      obtain ⟨source, hsource, hmade⟩ := Pointwise.exists_left (forall₂_of_mapM hread) hf
      rw [(Field.ofDecl_ok hmade).1, hname]
      rw [hbody] at hown
      exact last.allNames_qualify _ (hown source hsource)
    have havoid : ds.Avoid d.name := hname ▸ Declarations.avoid_ofFiles hds hfresh
    rw [hds']
    refine Declarations.toBlocks_bystander hoff (Declarations.written_ofFiles hds) hbs hd havoid
      hfields fun c hc => ?_
    rw [hname]
    refine hignores c ?_
    rw [flatCatalog?, hds]
    show ds.flat.toOption = some c
    rw [hc]
    rfl

/-- The generic struct of `depot` with an argument. -/
def crateOf (name : String) : GoType := .named none none "Crate" [.ofName name]

/-- A generic struct that gives a type, and a struct that gives one and uses the generic one. -/
def depot : SourceFile :=
  { path := ⟨"m.go"⟩
    package := "m"
    types :=
      [⟨"Crate", some "@gqlType", 1, ["T"], .record [⟨some "V", .ofName "T", none, none, 1⟩]⟩,
        ⟨"Dock", some "@gqlType", 2, [],
          .record [⟨some "Crate", crateOf "int", none, none, 3⟩]⟩] }

/-- A struct without directives that has one field. -/
def shed (name : String) (type : GoType) (tag : Option String) : TypeDecl :=
  ⟨name, none, 5, [], .record [⟨some "item", type, tag, none, 6⟩]⟩

theorem depot_avoids {name : String} (h : name ∉ ["Crate", "T", "Dock", "int"]) :
    depot.Avoids name := by
  simp only [List.mem_cons, not_or] at h
  constructor <;>
    simp [depot, crateOf, TypeBody.AllNames, GoType.AllNames, GoType.AllNamesIn, GoType.ofName,
      Ne.symm h.1, Ne.symm h.2.1, Ne.symm h.2.2.1, Ne.symm h.2.2.2.1]

/-- The field of a struct without directives that uses a generic one. -/
def shedField (argument : String) : Field :=
  { goName := some "item"
    type := .named (some "m") none "Crate" [.ofName argument]
    origin := "cache.item"
    line := 6 }

theorem shed_isUndirected {argument : String} (h : argument ∈ ["int", "bool"]) :
    (shed "cache" (crateOf argument) none).IsUndirected {} depot [shedField argument] where
  plain := rfl
  doc := ⟨{}, rfl, rfl⟩
  fields := by
    refine ⟨_, rfl, by simp, eq_ok_of_toOption ?_⟩
    simp only [List.mem_cons, List.not_mem_nil, or_false] at h
    rcases h with rfl | rfl <;> decide +kernel

theorem depot_withStruct :
    ∃ bs, blocksOfFiles {} [depot] = .ok bs ∧ bs.map Block.name = ["Dock", "CrateInt"] ∧
      blocksOfFiles {} [depot.withStruct (shed "cache" (crateOf "int") none)] = .ok bs := by
  have h : (blocksOfFiles {} [depot]).toOption.map (·.map Block.name) =
      some ["Dock", "CrateInt"] := by decide +kernel
  obtain ⟨bs, hbs, hnames⟩ := Option.map_eq_some_iff.1 h
  have hblocks : blocksOfFiles {} ([] ++ [depot]) = .ok bs := eq_ok_of_toOption hbs
  have hfresh : ∀ file ∈ [] ++ [depot], file.Avoids "cache" :=
    List.forall_mem_singleton.2 (depot_avoids (by decide))
  have hignores : ∀ c ∈ flatCatalog? {} ([] ++ [depot]), c.Ignores "cache" [shedField "int"] := by
    decide +kernel
  have hown : (shed "cache" (crateOf "int") none).body.AllNames (· ≠ "cache") := by
    simp [shed, crateOf, TypeBody.AllNames, GoType.AllNames, GoType.AllNamesIn, GoType.ofName]
  exact ⟨bs, hblocks, hnames, blocksOfFiles_undirected rfl hblocks
    (shed_isUndirected (by decide)) hfresh hown hignores⟩

/-- **A struct without directives may change the schema.** It does if its tag is malformed, if its
field refers to an instance that is not made otherwise, or if an instance has its name. -/
theorem depot_withStruct_differs :
    ((blocksOfFiles {} [depot]).toOption.map (·.map Block.name) = some ["Dock", "CrateInt"]) ∧
      depot.Avoids "cache" ∧ depot.Avoids "CrateInt" ∧
      blocksOfFiles {} [depot.withStruct (shed "cache" (.ofName "bool") (some "gql"))] =
        .error (.directive ⟨"m.go"⟩ "cache.item" "gql tag" (.tag (.expectedQuoted "gql" "gql"))) ∧
      (shed "cache" (crateOf "bool") none).IsUndirected {} depot [shedField "bool"] ∧
      (blocksOfFiles {} [depot.withStruct (shed "cache" (crateOf "bool") none)]).toOption.map
        (·.map Block.name) = some ["Dock", "CrateInt", "CrateBool"] ∧
      blocksOfFiles {} [depot.withStruct (shed "CrateInt" (.ofName "bool") none)] =
        .error (.unknownType "Dock" "Crate" "CrateInt") :=
  ⟨by decide +kernel, depot_avoids (by decide), depot_avoids (by decide), by decide +kernel,
    shed_isUndirected (by decide), by decide +kernel, by decide +kernel⟩

end GoSchema
