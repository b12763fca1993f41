/-
# Declarations and their sources

Every type declaration of the sources becomes one declaration, in the order of the sources, and its
directives become its requests, in their order. A directive for an enum may stand there once. The
catalog starts with the first declaration of every key.

Key definitions: `Directive.blockRequest?`, `Directive.enumRequest?`, `Declaration.IsOf`,
`SourceFile.declared`, `SourceFile.constants`, `SourceFile.withTypes`, `Registers`, `flatCatalog?`.
Key theorems: `Declaration.withDirectives_ok`, `Declaration.isOf_ofDecl`, `Declarations.ofFiles_ok`,
`Declaration.ofDecl_withTypes`, `exists_registers`, `Declarations.maker_eq_ok_iff_of_off`.
-/
import GoSchema.Generation
import GoSchema.Proofs.Lookup
import GoSchema.Proofs.Places
import GoSchema.Proofs.SimilarCatalogs

namespace GoSchema

open Outcome Source

/-- What a directive for a block asks for. -/
def Directive.blockRequest? (x : Directive) : Option BlockRequest :=
  match x.kind with
  | .typeBlock => some (.ofDirective .type x)
  | .inputBlock => some (.ofDirective .input x)
  | _ => none

/-- What a directive for an enum asks for. -/
def Directive.enumRequest? (x : Directive) : Option EnumRequest :=
  match x.kind with
  | .enumBlock => some ⟨x.text? "name", x.text? "description"⟩
  | _ => none

namespace Declaration

/-- What directives leave as it is. -/
structure Keeps (d d' : Declaration) : Prop where
  name : d'.name = d.name
  package : d'.package = d.package
  typeParams : d'.typeParams = d.typeParams
  body : d'.body = d.body
  synthetic : d'.synthetic = d.synthetic

theorem Keeps.refl (d : Declaration) : Keeps d d := ⟨rfl, rfl, rfl, rfl, rfl⟩

theorem Keeps.trans {d d' d'' : Declaration} (h : Keeps d d') (h' : Keeps d' d'') :
    Keeps d d'' where
  name := h'.name.trans h.name
  package := h'.package.trans h.package
  typeParams := h'.typeParams.trans h.typeParams
  body := h'.body.trans h.body
  synthetic := h'.synthetic.trans h.synthetic

/-- One directive adds what it asks for. -/
theorem withDirective_ok {isLiteral : Bool} {d d' : Declaration} {x : Directive}
    (h : d.withDirective isLiteral x = .ok d') :
    d.Keeps d' ∧ d'.requests = d.requests ++ x.blockRequest?.toList ∧
      d'.enumRequest = d.enumRequest.or x.enumRequest? := by
  cases hk : x.kind with
  | typeBlock | inputBlock | ignoreAll =>
    simp only [withDirective, hk] at h
    obtain rfl := Except.ok.inj h
    exact ⟨⟨rfl, rfl, rfl, rfl, rfl⟩, by simp [Directive.blockRequest?, hk],
      by simp [Directive.enumRequest?, hk]⟩
  | extraField =>
    simp only [withDirective, hk] at h
    obtain ⟨extra, -, rfl⟩ := map_eq_ok_iff.1 h
    exact ⟨⟨rfl, rfl, rfl, rfl, rfl⟩, by simp [Directive.blockRequest?, hk],
      by simp [Directive.enumRequest?, hk]⟩
  | enumBlock =>
    simp only [withDirective, hk] at h
    split_ifs at h with hl hno
    obtain rfl := Except.ok.inj h
    have hnone : d.enumRequest = none := by simpa using hno
    exact ⟨⟨rfl, rfl, rfl, rfl, rfl⟩, by simp [Directive.blockRequest?, hk],
      by simp [Directive.enumRequest?, hk, hnone]⟩
  | packageName =>
    simp only [withDirective, hk] at h
    split_ifs at h
    obtain rfl := Except.ok.inj h
    exact ⟨⟨rfl, rfl, rfl, rfl, rfl⟩, by simp [Directive.blockRequest?, hk],
      by simp [Directive.enumRequest?, hk]⟩
  | enumValue =>
    simp only [withDirective, hk] at h
    cases h

/-- **Directives become requests, in order.** -/
theorem withDirectives_ok {file : SourceFile} {isLiteral : Bool} :
    ∀ {xs : List Directive} {d d' : Declaration}, withDirectives file isLiteral d xs = .ok d' →
      d.Keeps d' ∧ d'.requests = d.requests ++ xs.filterMap Directive.blockRequest? ∧
        d'.enumRequest = d.enumRequest.or (xs.filterMap Directive.enumRequest?).head?
  | [], d, d', h => by
    obtain rfl := Except.ok.inj h
    exact ⟨.refl d, by simp, by simp⟩
  | x :: xs, d, d', h => by
    unfold withDirectives at h
    split at h
    · exact nomatch h
    · rename_i next hnext
      obtain ⟨hkeeps, hrequests, henum⟩ := withDirective_ok hnext
      obtain ⟨hkeeps', hrequests', henum'⟩ := withDirectives_ok h
      refine ⟨hkeeps.trans hkeeps', ?_, ?_⟩
      · rw [hrequests', hrequests, List.append_assoc, List.filterMap_cons]
        cases x.blockRequest? <;> rfl
      · rw [henum', henum, Option.or_assoc, List.filterMap_cons]
        cases x.enumRequest? <;> simp

/-- A directive says the same of similar declarations. -/
theorem Similar.withDirective {ok : String → Prop} {d d' : Declaration}
    (h : d.Similar ok d') (isLiteral : Bool) (x : Directive) :
    Outcome.Alike (Declaration.Similar ok) (d.withDirective isLiteral x)
      (d'.withDirective isLiteral x) := by
  obtain ⟨body, rfl⟩ : ∃ body, d' = { d with body } := ⟨_, Declaration.eq_of_head h.head⟩
  cases hk : x.kind with
  | typeBlock | inputBlock | ignoreAll =>
    simp only [Declaration.withDirective, hk]
    exact .ok ⟨rfl, h.body⟩
  | extraField =>
    simp only [Declaration.withDirective, hk]
    exact (Alike.refl (fun _ => rfl) _).map fun extra _ he => ⟨by subst he; rfl, h.body⟩
  | enumBlock =>
    simp only [Declaration.withDirective, hk]
    split_ifs
    · exact .error _
    · exact .error _
    · exact .ok ⟨rfl, h.body⟩
  | packageName =>
    simp only [Declaration.withDirective, hk]
    split_ifs
    · exact .error _
    · exact .ok ⟨rfl, h.body⟩
  | enumValue =>
    simp only [Declaration.withDirective, hk]
    exact .error _

theorem Similar.withDirectives {file : SourceFile} {ok : String → Prop} (isLiteral : Bool) :
    ∀ (xs : List Directive) {d d' : Declaration}, d.Similar ok d' →
      Outcome.Alike (Declaration.Similar ok) (Declaration.withDirectives file isLiteral d xs)
        (Declaration.withDirectives file isLiteral d' xs)
  | [], _, _, h => .ok h
  | x :: xs, d, d', h => by
    have hfirst := h.withDirective isLiteral x
    unfold Declaration.withDirectives
    rw [h.name]
    generalize d.withDirective isLiteral x = a at hfirst
    generalize d'.withDirective isLiteral x = b at hfirst
    cases hfirst with
    | error e => exact .error _
    | ok hnext => exact withDirectives isLiteral xs hnext

/-! ### Declarations -/

/-- A declaration is that of a type in a file: it is named as there, and asks for what the
directives of the type ask for. -/
structure IsOf (config : Config) (source : SourceFile × TypeDecl) (d : Declaration) : Prop where
  name : d.name = source.2.name
  package : d.package = source.1.ownPackage
  typeParams : d.typeParams = source.2.typeParams
  synthetic : d.synthetic = false
  directives : ∃ doc, source.1.readDoc source.2.name source.2.doc = .ok doc ∧
    d.requests = doc.directives.filterMap Directive.blockRequest? ∧
    d.enumRequest = (doc.directives.filterMap Directive.enumRequest?).head? ∧
    d.doc = config.prose doc

theorem isOf_ofDecl {config : Config} {file : SourceFile} {space : Option String} {place : Place}
    {decl : TypeDecl} {d : Declaration}
    (h : Declaration.ofDecl config file space place decl = .ok d) : IsOf config (file, decl) d := by
  unfold ofDecl at h
  split at h
  · exact nomatch h
  · rename_i doc hdoc
    split at h
    · exact nomatch h
    · obtain ⟨r, hr, rfl⟩ := map_eq_ok_iff.1 h
      obtain ⟨hkeeps, hrequests, henum⟩ := withDirectives_ok hr
      exact ⟨hkeeps.name, hkeeps.package, hkeeps.typeParams, hkeeps.synthetic, doc, hdoc,
        by simpa using hrequests, by simpa using henum, rfl⟩

theorem bodyOf_of_ofDecl {config : Config} {file : SourceFile} {space : Option String}
    {place : Place} {decl : TypeDecl} {d : Declaration}
    (h : Declaration.ofDecl config file space place decl = .ok d) :
    bodyOf config file decl = .ok d.body := by
  unfold ofDecl at h
  split at h
  · exact nomatch h
  · split at h
    · exact nomatch h
    · rename_i body hbody
      obtain ⟨r, hr, rfl⟩ := map_eq_ok_iff.1 h
      rw [hbody, (withDirectives_ok hr).1.body]

theorem IsOf.of_head {config : Config} {source : SourceFile × TypeDecl} {d d' : Declaration}
    (h : IsOf config source d) (hh : d'.head = d.head) : IsOf config source d' := by
  rw [eq_of_head hh]
  exact ⟨h.name, h.package, h.typeParams, h.synthetic, h.directives⟩

end Declaration

theorem Field.ofDecl_ok {config : Config} {file : SourceFile} {owner : TypeDecl} {decl : FieldDecl}
    {f : Field} (h : ofDecl config file owner decl = .ok f) :
    f.type = file.qualify owner.typeParams decl.type ∧
      (decl.name.isSome = true → f.isEmbedded = false) := by
  unfold ofDecl at h
  dsimp only at h
  split at h
  · exact nomatch h
  · split at h
    · exact nomatch h
    · split at h
      · exact nomatch h
      · obtain rfl := Except.ok.inj h
        refine ⟨rfl, fun hn => ?_⟩
        obtain ⟨name, hname⟩ := Option.isSome_iff_exists.1 hn
        simp [Field.isEmbedded, goNameOf, hname]

theorem Constant.type_of_ofDecl {config : Config} {file : SourceFile} {place : Place}
    {decl : ConstDecl} {k : Constant} (h : ofDecl config file place decl = .ok k) :
    k.type = decl.type.map (file.qualify []) := by
  unfold ofDecl at h
  split at h
  · exact nomatch h
  · obtain ⟨request, -, rfl⟩ := map_eq_ok_iff.1 h
    rfl

/-- The type declarations of a file. -/
def SourceFile.declared (file : SourceFile) : List (SourceFile × TypeDecl) :=
  file.types.map fun decl => (file, decl)

/-- What identifies a type declaration of the sources. -/
def sourceKey (source : SourceFile × TypeDecl) : String × String :=
  (source.1.ownPackage.identity, source.2.name)

theorem Declaration.IsOf.key {config : Config} {source : SourceFile × TypeDecl} {d : Declaration}
    (h : IsOf config source d) : d.key = sourceKey source := by
  rw [Declaration.key, sourceKey, h.name, h.package]

/-- The constant declarations of a file. -/
def SourceFile.constants (file : SourceFile) : List (SourceFile × ConstDecl) :=
  file.consts.map fun decl => (file, decl)

namespace Declarations

variable {config : Config} {files : List SourceFile} {ds : Declarations}

theorem ofFile_ok {spaces : List (String × String)} {number : Nat} {file : SourceFile}
    (h : ofFile config spaces number file = .ok ds) :
    List.Forall₂ (fun s d => ∃ space place, Declaration.ofDecl config s.1 space place s.2 = .ok d)
        file.declared ds.types ∧
      List.Forall₂ (fun s k => ∃ place, Constant.ofDecl config s.1 place s.2 = .ok k)
        file.constants ds.consts := by
  unfold ofFile at h
  dsimp only at h
  split at h
  · exact nomatch h
  · rename_i types htypes
    obtain ⟨consts, hconsts, rfl⟩ := map_eq_ok_iff.1 h
    constructor
    · refine List.forall₂_map_left_iff.2 (Pointwise.of_zipIdx ((forall₂_of_mapM htypes).imp ?_))
      exact fun _ _ hd => ⟨_, _, hd⟩
    · refine List.forall₂_map_left_iff.2 (Pointwise.of_zipIdx ((forall₂_of_mapM hconsts).imp ?_))
      exact fun _ _ hk => ⟨_, hk⟩

/-- **Every type and every constant of the sources becomes one declaration**, in order. -/
theorem ofFiles_ok (h : ofFiles config files = .ok ds) :
    List.Forall₂ (fun s d => ∃ space place, Declaration.ofDecl config s.1 space place s.2 = .ok d)
        (files.flatMap SourceFile.declared) ds.types ∧
      List.Forall₂ (fun s k => ∃ place, Constant.ofDecl config s.1 place s.2 = .ok k)
        (files.flatMap SourceFile.constants) ds.consts := by
  unfold ofFiles at h
  split at h
  · exact nomatch h
  · rename_i spaces hspaces
    obtain ⟨all, hall, rfl⟩ := map_eq_ok_iff.1 h
    have hparts : List.Forall₂ (fun file part => ∃ number,
        ofFile config spaces number file = .ok part) files all :=
      Pointwise.of_zipIdx ((forall₂_of_mapM hall).imp fun _ _ hpart => ⟨_, hpart⟩)
    exact ⟨List.rel_flatMap hparts fun _ _ ⟨_, hpart⟩ => (ofFile_ok hpart).1,
      List.rel_flatMap hparts fun _ _ ⟨_, hpart⟩ => (ofFile_ok hpart).2⟩

theorem forall₂_ofFiles (h : ofFiles config files = .ok ds) :
    List.Forall₂ (Declaration.IsOf config) (files.flatMap SourceFile.declared) ds.types :=
  (ofFiles_ok h).1.imp fun _ _ ⟨_, _, hd⟩ => Declaration.isOf_ofDecl hd

end Declarations

/-! ### What declarations read of their file -/

/-- The file with other types. -/
def SourceFile.withTypes (file : SourceFile) (types : List TypeDecl) : SourceFile :=
  { file with types }

section WithTypes

variable (file : SourceFile) (types : List TypeDecl)

theorem SourceFile.qualify_withTypes (params : List String) (t : GoType) :
    (file.withTypes types).qualify params t = file.qualify params t := by
  induction t using GoType.rec (motive_2 := fun ts =>
    (file.withTypes types).qualifyAll params ts = file.qualifyAll params ts) with
  | pointer t ih | slice t ih | array t ih => simp only [qualify, ih]
  | map k v ihk ihv => simp only [qualify, ihk, ihv]
  | any | other => rfl
  | named package qualifier name args ih =>
    simp only [qualify, ih]
    rfl
  | nil => rfl
  | cons t ts ih ihs => simp only [qualifyAll, ih, ihs]

theorem Field.ofDecl_withTypes (config : Config) (owner : TypeDecl) :
    ofDecl config (file.withTypes types) owner = ofDecl config file owner := by
  funext decl
  unfold ofDecl
  simp only [SourceFile.qualify_withTypes]
  rfl

theorem Declaration.withDirectives_withTypes (isLiteral : Bool) (d : Declaration)
    (xs : List Directive) :
    withDirectives (file.withTypes types) isLiteral d xs = withDirectives file isLiteral d xs := by
  induction xs generalizing d with
  | nil => rfl
  | cons x xs ih =>
    simp only [withDirectives, ih]
    rfl

/-- Of the file of a type, its other types are not read. -/
theorem Declaration.ofDecl_withTypes (config : Config) :
    ofDecl config (file.withTypes types) = ofDecl config file := by
  funext space place decl
  unfold ofDecl bodyOf
  simp only [SourceFile.qualify_withTypes, Field.ofDecl_withTypes, withDirectives_withTypes]
  rfl

theorem Constant.requestOf_withTypes (owner : String) (request : Option ValueRequest)
    (xs : List Directive) :
    requestOf (file.withTypes types) owner request xs = requestOf file owner request xs := by
  induction xs generalizing request with
  | nil => rfl
  | cons x xs ih =>
    simp only [requestOf, ih]
    rfl

theorem Constant.ofDecl_withTypes (config : Config) :
    ofDecl config (file.withTypes types) = ofDecl config file := by
  funext place decl
  unfold ofDecl
  simp only [requestOf_withTypes, funext (SourceFile.qualify_withTypes file types [])]
  rfl

theorem Declarations.spacesOf_withTypes (xs : List Directive) :
    spacesOf (file.withTypes types) xs = spacesOf file xs := by
  induction xs with
  | nil => rfl
  | cons x xs ih =>
    simp only [spacesOf, ih]
    rfl

end WithTypes

theorem Declarations.packageSpaces_eq {files files' : List SourceFile}
    (h : List.Forall₂ (fun file file' => ∃ types, file' = SourceFile.withTypes file types) files
      files') : packageSpaces files' = packageSpaces files := by
  induction h with
  | nil => rfl
  | @cons file _ _ _ hfile _ ih =>
    obtain ⟨types, rfl⟩ := hfile
    unfold packageSpaces
    simp only [spacesOf_withTypes, ih]
    rfl

theorem Declarations.ofFile_eq_bind (config : Config) (spaces : List (String × String))
    (number : Nat) (file : SourceFile) :
    ofFile config spaces number file =
      (file.types.zipIdx.mapM fun p => Declaration.ofDecl config file
        (spaces.lookup file.ownPackage.identity) ⟨number, p.2, 0⟩ p.1) >>= fun types =>
          (file.consts.zipIdx.mapM fun p => Constant.ofDecl config file ⟨number, p.2, 0⟩ p.1).map
            fun consts => ⟨types, consts⟩ := by
  unfold ofFile
  dsimp only
  cases file.types.zipIdx.mapM fun p => Declaration.ofDecl config file
    (spaces.lookup file.ownPackage.identity) ⟨number, p.2, 0⟩ p.1 <;> rfl

/-! ### Catalogs -/

/-- Some of the type declarations of the sources, in order: one of every key. -/
structure Registers (files : List SourceFile) (sources : List (SourceFile × TypeDecl)) : Prop where
  sublist : sources.Sublist (files.flatMap SourceFile.declared)
  nodup : (sources.map sourceKey).Nodup
  complete : ∀ s ∈ files.flatMap SourceFile.declared, sourceKey s ∈ sources.map sourceKey

namespace Catalog

theorem key_mem_keys_push (c : Catalog) (d : Declaration) : d.key ∈ (c.push d).1.keys := by
  rw [push_fst_keys]
  split
  · assumption
  · exact List.mem_append_right _ (List.mem_singleton_self _)

theorem keys_subset_push (c : Catalog) (d : Declaration) : c.keys ⊆ (c.push d).1.keys := by
  rw [push_fst_keys]
  split
  · exact List.Subset.refl _
  · exact List.subset_append_left _ _

theorem key_mem_keys_foldl_push : ∀ (ds : List Declaration) (c : Catalog),
    c.keys ⊆ (ds.foldl (fun c d => (c.push d).1) c).keys ∧
      ∀ d ∈ ds, d.key ∈ (ds.foldl (fun c d => (c.push d).1) c).keys
  | [], c => ⟨List.Subset.refl _, fun _ hno => absurd hno List.not_mem_nil⟩
  | d :: ds, c => by
    rw [List.foldl_cons]
    obtain ⟨hkeep, hnew⟩ := key_mem_keys_foldl_push ds (c.push d).1
    refine ⟨List.Subset.trans (keys_subset_push c d) hkeep, fun e he => ?_⟩
    rcases List.mem_cons.1 he with rfl | he
    · exact hkeep (key_mem_keys_push c e)
    · exact hnew e he

/-- **The catalog starts with one declaration of every key of the sources.** -/
theorem exists_registers {config : Config} {files : List SourceFile} {ds : Declarations}
    (h : Declarations.ofFiles config files = .ok ds) :
    ∃ sources, Registers files sources ∧
      List.Forall₂ (Declaration.IsOf config) sources (ofDeclarations ds).types := by
  have hall := Declarations.forall₂_ofFiles h
  obtain ⟨sources, hsources, hpart⟩ :=
    Pointwise.sublist_right hall (types_ofDeclarations_sublist ds)
  have hkeys : sources.map sourceKey = (ofDeclarations ds).keys := by
    have hsame : List.Forall₂ (· = ·) (sources.map sourceKey)
        ((ofDeclarations ds).types.map Declaration.key) :=
      List.forall₂_map_left_iff.2 (List.forall₂_map_right_iff.2
        (hpart.imp fun _ _ hd => hd.key.symm))
    rwa [List.forall₂_eq_eq_eq] at hsame
  refine ⟨sources, ⟨hsources, hkeys ▸ ofDeclarations_keys_nodup ds, fun s hs => ?_⟩, hpart⟩
  obtain ⟨d, hd, his⟩ := Pointwise.exists_right hall hs
  rw [hkeys, ← his.key]
  exact (key_mem_keys_foldl_push ds.types { consts := ds.consts }).2 d hd

theorem consts_foldl_push : ∀ (ds : List Declaration) (c : Catalog),
    (ds.foldl (fun c d => (c.push d).1) c).consts = c.consts
  | [], _ => rfl
  | d :: ds, c => by
    rw [List.foldl_cons, consts_foldl_push ds]
    unfold push
    split <;> rfl

theorem consts_ofDeclarations (ds : Declarations) : (ofDeclarations ds).consts = ds.consts :=
  consts_foldl_push _ _

end Catalog

/-- The catalog of declarations once no struct embeds another one. Instantiation starts from it. -/
def Declarations.flat (ds : Declarations) : Except Fault Catalog := do
  let catalog ← (Catalog.ofDeclarations ds).settle
  catalog.flatten

theorem Declarations.flat_eq_ok_iff {ds : Declarations} {c : Catalog} :
    ds.flat = .ok c ↔
      ∃ settled, (Catalog.ofDeclarations ds).settle = .ok settled ∧ settled.flatten = .ok c :=
  bind_eq_ok_iff

/-- The flat catalog of source files; none if they end in a fault before that. -/
def flatCatalog? (config : Config) (files : List SourceFile) : Option Catalog :=
  ((Declarations.ofFiles config files).bind Declarations.flat).toOption

/-- Where discovery is off, the catalog for the blocks is the one with the instances. -/
theorem Declarations.maker_eq_ok_iff_of_off {config : Config}
    (hoff : config.discovery.strategy = .off) {ds : Declarations} {ctx : BlockMaker} :
    ds.maker config = .ok ctx ↔
      ∃ settled enums flat last, (Catalog.ofDeclarations ds).settle = .ok settled ∧
        settled.enumMembers = .ok enums ∧ settled.flatten = .ok flat ∧
        flat.withInstances = .ok last ∧ ctx = ⟨last, enums, config⟩ := by
  simp only [maker, bind_eq_ok_iff, Catalog.addDiscovered, hoff]
  constructor
  · rintro ⟨settled, hsettled, enums, henums, flat, hflat, last, hlast, _, hall, hctx⟩
    obtain rfl := Except.ok.inj hall
    exact ⟨settled, enums, flat, last, hsettled, henums, hflat, hlast, (Except.ok.inj hctx).symm⟩
  · rintro ⟨settled, enums, flat, last, hsettled, henums, hflat, hlast, rfl⟩
    exact ⟨settled, hsettled, enums, henums, flat, hflat, last, hlast, last, rfl, rfl⟩

end GoSchema
