/-
# Hidden fields

A field that its tag hides is seen in no block, and every stage but one passes its type by: settling
and flattening hand it on, and discovery and the blocks read the types of visible fields only.
Instantiation goes through all fields, hidden or not, and makes the instances that their types refer
to. So hidden fields may have any types as long as the same instances are asked for: sources that
differ in nothing else give the same blocks, or fail with the same fault.

Key definitions: `FieldDecl.Retyped`, `SourceFile.Retyped`, `instanceTables`.
Key theorems: `Declarations.ofFiles_alike`, `Catalog.Twins.flatten`, `Catalog.Twins.withInstances`,
`Declarations.maker_alike`, `blocksOfFiles_retyped`.
-/
import GoSchema.Proofs.SimilarDiscovery
import GoSchema.Proofs.SimilarInstances
import GoSchema.Proofs.SimilarShapes
import GoSchema.Proofs.SourceDeclarations

namespace GoSchema

open Outcome Source

/-- The same field, or one with a name that its tag hides and with another type. -/
inductive Source.FieldDecl.Retyped : FieldDecl → FieldDecl → Prop
  | same (decl : FieldDecl) : Retyped decl decl
  | hidden {decl : FieldDecl} (hn : decl.name.isSome = true)
      (hh : ∀ tag, FieldTag.ofRaw? decl.tag = .ok tag → tag.options.hidden = true)
      (type : GoType) : Retyped decl { decl with type }

/-- The same type declaration, or a struct where hidden fields have other types. -/
inductive Source.TypeDecl.Retyped : TypeDecl → TypeDecl → Prop
  | same (decl : TypeDecl) : Retyped decl decl
  | record {decl : TypeDecl} {fs fs' : List FieldDecl} (hb : decl.body = .record fs)
      (h : List.Forall₂ FieldDecl.Retyped fs fs') :
      Retyped decl { decl with body := .record fs' }

/-- Files that differ in the types of hidden fields only. -/
def SourceFile.Retyped (file file' : SourceFile) : Prop :=
  ∃ types, file' = file.withTypes types ∧ List.Forall₂ TypeDecl.Retyped file.types types

/-! ### Declarations and catalogs -/

/-- Every name has this property, so hidden fields may have any types. -/
abbrev anyName : String → Prop := fun _ => True

theorem allNames_any (t : GoType) : t.AllNames anyName :=
  GoType.allNames_of_forall (fun _ => trivial) t

theorem Body.similar_any (b : Body) : b.Similar anyName b := by
  cases b with
  | record fs => exact .record (List.forall₂_same.2 fun f _ => .same (allNames_any f.type))
  | defined t => exact .defined (allNames_any t)
  | aliased t => exact .aliased (allNames_any t)

section Declarations

variable (config : Config) (file : SourceFile)

theorem Field.ofDecl_alike (owner : TypeDecl) {decl decl' : FieldDecl}
    (h : decl.Retyped decl') :
    Outcome.Alike (Field.Similar anyName) (Field.ofDecl config file owner decl)
      (Field.ofDecl config file owner decl') := by
  obtain ⟨name, declared, tagText, docText, line⟩ := decl
  cases h with
  | same => exact .refl (fun f => .same (allNames_any f.type)) _
  | hidden hn hh type =>
    obtain ⟨name, rfl⟩ := Option.isSome_iff_exists.1 hn
    unfold Field.ofDecl
    simp only [Option.getD_some]
    cases file.readDoc (owner.name ++ "." ++ name) docText with
    | error e => exact .error e
    | ok doc =>
      dsimp only
      cases doc.directives with
      | cons x xs => exact .error _
      | nil =>
        cases htag : FieldTag.ofRaw? tagText with
        | error e => exact .error _
        | ok tag => exact .ok (.hidden (fun _ => trivial) (hh tag htag) rfl _)

theorem Declaration.bodyOf_alike {decl decl' : TypeDecl} (h : decl.Retyped decl') :
    Outcome.Alike (Body.Similar anyName) (Declaration.bodyOf config file decl)
      (Declaration.bodyOf config file decl') := by
  cases h with
  | same => exact .refl Body.similar_any _
  | @record fs fs' hb hfs =>
    have step : ∀ f f', FieldDecl.Retyped f f' →
        Outcome.Alike (Field.Similar anyName) (Field.ofDecl config file decl f)
          (Field.ofDecl config file { decl with body := .record fs' } f') :=
      fun f f' hf => Field.ofDecl_alike config file decl hf
    unfold Declaration.bodyOf
    rw [hb]
    exact (Alike.mapM step hfs).map fun _ _ hsim => .record hsim

theorem Source.TypeDecl.Retyped.eq_withBody {decl decl' : TypeDecl} (h : decl.Retyped decl') :
    ∃ body, decl' = { decl with body } ∧
      Declaration.isLiteral body = Declaration.isLiteral decl.body := by
  cases h with
  | same => exact ⟨decl.body, rfl, rfl⟩
  | record hb _ => exact ⟨_, rfl, by rw [hb]; rfl⟩

/-- **Declarations are similar**, or fail with the same fault. -/
theorem Declaration.ofDecl_alike (space : Option String) (place : Place) {decl decl' : TypeDecl}
    (h : decl.Retyped decl') :
    Outcome.Alike (Declaration.Similar anyName) (Declaration.ofDecl config file space place decl)
      (Declaration.ofDecl config file space place decl') := by
  have hbody := Declaration.bodyOf_alike config file h
  obtain ⟨body, rfl, hliteral⟩ := h.eq_withBody
  unfold Declaration.ofDecl
  dsimp only
  cases file.readDoc decl.name decl.doc with
  | error e => exact .error e
  | ok doc =>
    dsimp only
    generalize Declaration.bodyOf config file decl = a at hbody
    generalize Declaration.bodyOf config file { decl with body } = b at hbody
    cases hbody with
    | error e => exact .error e
    | @ok own own' hsim =>
      rw [hliteral]
      refine (Declaration.Similar.withDirectives _ doc.directives
        (?_ : Declaration.Similar anyName _ _)).map ?_
      · exact ⟨rfl, hsim⟩
      · intro d d' hd
        refine ⟨?_, hd.body⟩
        rw [Declaration.eq_of_head hd.head]
        rfl

end Declarations

/-- Declarations that are similar one by one, with the same constants. -/
structure Declarations.Similar (ok : String → Prop) (ds ds' : Declarations) : Prop where
  types : List.Forall₂ (Declaration.Similar ok) ds.types ds'.types
  consts : ds'.consts = ds.consts

theorem Declarations.ofFile_alike (config : Config) (spaces : List (String × String)) (number : Nat)
    {file file' : SourceFile} (h : file.Retyped file') :
    Outcome.Alike (Declarations.Similar anyName) (ofFile config spaces number file)
      (ofFile config spaces number file') := by
  obtain ⟨types, rfl, htypes⟩ := h
  rw [ofFile_eq_bind, ofFile_eq_bind, Declaration.ofDecl_withTypes, Constant.ofDecl_withTypes]
  refine (Alike.mapM (S := Declaration.Similar anyName) (fun p q hpq => ?_)
    (Pointwise.zipIdx htypes 0)).bind fun ds ds' hds => ?_
  · rw [← hpq.2]
    exact Declaration.ofDecl_alike config file _ _ hpq.1
  · exact (Alike.refl (fun _ => rfl) _).map fun consts _ hc => ⟨hds, hc.symm⟩

/-- **The declarations of the sources are similar**, or not to be had for the same fault. -/
theorem Declarations.ofFiles_alike (config : Config) {files files' : List SourceFile}
    (h : List.Forall₂ SourceFile.Retyped files files') :
    Outcome.Alike (Declarations.Similar anyName) (ofFiles config files)
      (ofFiles config files') := by
  unfold ofFiles
  rw [packageSpaces_eq (h.imp fun _ _ ⟨types, heq, _⟩ => ⟨types, heq⟩)]
  cases packageSpaces files with
  | error e => exact .error e
  | ok spaces =>
    refine (Alike.mapM (S := Declarations.Similar anyName) (fun p q hpq => ?_)
      (Pointwise.zipIdx h 0)).map fun all all' hall => ⟨?_, ?_⟩
    · dsimp only
      rw [← hpq.2]
      exact ofFile_alike config spaces _ hpq.1
    · exact List.rel_flatMap hall fun _ _ hpart => hpart.types
    · have hconsts : List.Forall₂ (· = ·) (all.map Declarations.consts)
          (all'.map Declarations.consts) :=
        List.forall₂_map_left_iff.2
          (List.forall₂_map_right_iff.2 (hall.imp fun _ _ hpart => hpart.consts.symm))
      rw [List.forall₂_eq_eq_eq] at hconsts
      show all'.flatMap Declarations.consts = all.flatMap Declarations.consts
      rw [List.flatMap_def, List.flatMap_def, hconsts]

namespace Catalog.Twins

variable {ok : String → Prop} {c c' : Catalog}

/-- Similar declarations whose names have the property are put into twins alike. -/
theorem foldl_push {ds ds' : List Declaration} (hds : List.Forall₂ (Declaration.Similar ok) ds ds')
    (hok : ∀ d ∈ ds, ok d.name) : ∀ {c c' : Catalog}, Twins ok c c' →
      Twins ok (ds.foldl (fun c d => (c.push d).1) c) (ds'.foldl (fun c d => (c.push d).1) c') := by
  induction hds with
  | nil => exact fun h => h
  | @cons d d' ds ds' hd _ ih =>
    intro c c' h
    obtain ⟨hname, hrest⟩ := List.forall_mem_cons.1 hok
    have hpushed := h.similar.push hd hname fun k => by rw [id, h.length_eq]
    refine ih hrest (hpushed.1.twins ?_)
    exact (hpushed.2.2 0).symm

theorem settle (h : Twins ok c c') : Outcome.Alike (Twins ok) c.settle c'.settle := by
  unfold Catalog.settle
  rw [h.ids_eq]
  have hsettled := h.similar.settleAll fun i hi => List.mem_range.1 hi
  refine hsettled.with_ok.imp fun w w' ⟨hw, hw', hsim⟩ => hsim.twins ?_
  rw [← heads_length, ← heads_length, heads_settleAll hw, heads_settleAll hw', heads_length,
    heads_length, h.length_eq]

theorem enumMembers_eq (h : Twins ok c c') (hconsts : c'.consts = c.consts)
    (hok : ∀ k ∈ c.consts, ∀ t, k.type = some t → t.AllNames ok) :
    c'.enumMembers = c.enumMembers := by
  have hids : c'.enumIds = c.enumIds := by
    unfold enumIds
    rw [h.ids_eq]
    congr 1
    funext i
    rcases h.get?_cases i with ⟨hno, hno'⟩ | ⟨d, d', hd, hd', hs⟩
    · rw [hno, hno']
    · rw [hd, hd', Option.map_some, Option.map_some, hs.enumRequest]
  have hlabel : ∀ i, ((c'.get? i).map Declaration.label).getD "" =
      ((c.get? i).map Declaration.label).getD "" := by
    intro i
    rcases h.get?_cases i with ⟨hno, hno'⟩ | ⟨d, d', hd, hd', hs⟩
    · rw [hno, hno']
    · rw [hd, hd', Option.map_some, Option.map_some, hs.label]
  unfold enumMembers
  rw [hconsts, hids, h.similar.foldlM_addConstant_eq hok]
  simp only [hlabel]

theorem flatten (h : Twins ok c c') : Outcome.Alike (Twins ok) c.flatten c'.flatten := by
  have hflat : Outcome.Alike (Catalog.Similar ok id) c.flatten c'.flatten := by
    unfold Catalog.flatten
    rw [h.ids_eq]
    exact (h.similar.flattenAll (fun i hi => List.mem_range.1 hi) .nil).map fun _ _ hdone =>
      h.similar.foldl_setBody hdone
  refine hflat.with_ok.imp fun w w' ⟨hw, hw', hsim⟩ => hsim.twins ?_
  rw [← heads_length, ← heads_length, heads_flatten hw, heads_flatten hw', heads_length,
    heads_length, h.length_eq]

end Catalog.Twins

/-! ### Instances -/

/-- The tables of instances while `n` structs of a catalog are gone through, one after every
field. -/
def Catalog.instanceTables (c : Catalog) (n : Nat) : List Instances.Table :=
  Instances.tables n (Instances.start c)

theorem Instances.renumberAll_id (l : List Table) : renumberAll id l = l := by
  have hid : renumber id = id := rfl
  rw [renumberAll, hid, List.map_id_fun, List.map_id]

theorem Instances.tables_of_ended : ∀ (m n : Nat) {s : Instances}, m ≤ n → (run m s).queue = [] →
    tables n s = tables m s
  | 0, n, s, _, hend => by
    have hq : s.queue = [] := hend
    cases n with
    | zero => rfl
    | succ n =>
      rw [tables.eq_def]
      dsimp only
      rw [hq]
      rfl
  | m + 1, 0, _, hle, _ => absurd hle (Nat.not_succ_le_zero m)
  | m + 1, n + 1, s, hle, hend => by
    cases hq : s.queue with
    | nil => rw [tables, hq, tables, hq]
    | cons id queue =>
      rw [run_succ hq] at hend
      rw [tables, hq, tables, hq]
      exact congrArg _ (tables_of_ended m n (Nat.le_of_succ_le_succ hle) hend)

theorem Catalog.Twins.start {ok : String → Prop} {c c' : Catalog} (h : Catalog.Twins ok c c') :
    Instances.Similar ok id (Instances.start c) (Instances.start c') ∧
      (Instances.start c').queue = (Instances.start c).queue where
  left :=
    { catalog := h.similar
      next := fun k => by
        show c.types.length + k = c'.types.length + k
        rw [h.length_eq]
      known := rfl
      made := rfl }
  right := h.plainStructs_eq

/-- **Twins for which the same instances are asked for get them.** -/
theorem Catalog.Twins.withInstances {c c' : Catalog} (h : Catalog.Twins anyName c c')
    (htables : ∀ n, c'.instanceTables n = c.instanceTables n) :
    Outcome.Alike (Catalog.Twins anyName) c.withInstances c'.withInstances := by
  obtain ⟨hsim, hqueue⟩ := h.start
  have hruns : ∀ n, Instances.Similar anyName id (Instances.run n (Instances.start c))
      (Instances.run n (Instances.start c')) ∧
      (Instances.run n (Instances.start c')).queue =
        (Instances.run n (Instances.start c)).queue := by
    intro n
    obtain ⟨hlast, hleft⟩ := Instances.run_similar Function.injective_id n hsim
      (by rw [hqueue, List.map_id]) (fun _ _ => trivial)
      fun _ => (htables n).trans (Instances.renumberAll_id _).symm
    exact ⟨hlast, hleft.trans (List.map_id _)⟩
  -- either both runs end after the same number of steps, or neither of them ends
  cases hw : c.withInstances with
  | ok v =>
    obtain ⟨n, hend, rfl⟩ := Catalog.withInstances_eq_ok_iff.1 hw
    obtain ⟨hlast, hleft⟩ := hruns n
    rw [Catalog.withInstances_eq_ok_iff.2 ⟨n, hleft.trans hend, rfl⟩]
    exact .ok (hlast.catalog.twins (hlast.next 0).symm)
  | error e =>
    obtain ⟨rfl, hnever⟩ := Catalog.withInstances_eq_error_iff.1 hw
    have hnever' : ∀ v, ¬ Instances.Ends c' v := fun v ⟨n, hend, _⟩ =>
      hnever _ ⟨n, (hruns n).2.symm.trans hend, rfl⟩
    rw [Catalog.withInstances_eq_error_iff.2 ⟨rfl, hnever'⟩]
    exact .error _

/-! ### The schema -/

/-- What the same blocks are made with: twins, the same enums, and the same configuration. -/
structure BlockMaker.Twins (ok : String → Prop) (ctx ctx' : BlockMaker) : Prop where
  catalog : Catalog.Twins ok ctx.catalog ctx'.catalog
  enums : ctx'.enums = ctx.enums
  config : ctx'.config = ctx.config

theorem BlockMaker.Twins.blocks_eq {ok : String → Prop} {ctx ctx' : BlockMaker}
    (h : BlockMaker.Twins ok ctx ctx') : ctx'.blocks = ctx.blocks := by
  have hsim : BlockMaker.Similar ok id ctx ctx' :=
    ⟨h.catalog.similar, h.config, fun i _ _ _ => congrArg (List.lookup i) h.enums⟩
  have hall := Pointwise.and_right (Pointwise.zipIdx h.catalog 0).flip
    (P := fun p => ctx.catalog.types[p.2]? = some p.1) fun p hp => List.mem_zipIdx_iff_getElem?.1 hp
  refine BlockMaker.blocksFrom_congr (hall.flip.imp fun p p' ⟨⟨hs, hnumber⟩, hp⟩ => ?_) []
  rw [← hnumber]
  exact hsim.blocksOf_eq hs hp

/-- **Similar declarations make twins**, if the same instances are asked for. -/
theorem Declarations.maker_alike (config : Config) {ds ds' : Declarations}
    (h : Declarations.Similar anyName ds ds')
    (htables : ∀ c c', ds.flat = .ok c → ds'.flat = .ok c' →
      ∀ n, c'.instanceTables n = c.instanceTables n) :
    Outcome.Alike (BlockMaker.Twins anyName) (ds.maker config) (ds'.maker config) := by
  have hstart : Catalog.Twins anyName (Catalog.ofDeclarations ds) (Catalog.ofDeclarations ds') :=
    Catalog.Twins.foldl_push h.types (fun _ _ => trivial) List.Forall₂.nil
  have hconsts : (Catalog.ofDeclarations ds').consts = (Catalog.ofDeclarations ds).consts := by
    rw [Catalog.consts_ofDeclarations, Catalog.consts_ofDeclarations, h.consts]
  unfold maker
  refine hstart.settle.with_ok.bind fun w w' ⟨hw, hw', hsettled⟩ => ?_
  have henums : w'.enumMembers = w.enumMembers := by
    refine hsettled.enumMembers_eq ?_ fun _ _ t _ => allNames_any t
    rw [Catalog.consts_settleAll hw', Catalog.consts_settleAll hw, hconsts]
  rw [henums]
  refine (Alike.refl (fun _ => rfl) _).bind fun enums _ hsame => ?_
  subst hsame
  refine hsettled.flatten.with_ok.bind fun c c' ⟨hc, hc', hflat⟩ => ?_
  have hsame : ∀ n, c'.instanceTables n = c.instanceTables n :=
    htables c c' (flat_eq_ok_iff.2 ⟨w, hw, hc⟩) (flat_eq_ok_iff.2 ⟨w', hw', hc'⟩)
  refine (hflat.withInstances hsame).bind fun v v' hv => ?_
  exact (hv.addDiscovered config).bind fun u u' hu => .ok ⟨hu, rfl, rfl⟩

/-- The tables of instances while `n` structs of source files are gone through, one after every
field; none if the files end in a fault before that. -/
def instanceTables (config : Config) (files : List SourceFile) (n : Nat) :
    Option (List Instances.Table) :=
  (flatCatalog? config files).map (·.instanceTables n)

/-- **Hidden fields may have any types.** Files that differ in the types of hidden fields only give
the same blocks or end in the same fault, whatever discovery adds, if going through the fields asks
for the same instances of generic structs. Only instantiation reads the types of hidden fields. -/
theorem blocksOfFiles_retyped (config : Config) {files files' : List SourceFile}
    (h : List.Forall₂ SourceFile.Retyped files files')
    (htables : ∀ n, instanceTables config files' n = instanceTables config files n) :
    blocksOfFiles config files' = blocksOfFiles config files := by
  have hds := (Declarations.ofFiles_alike config h).with_ok
  unfold instanceTables flatCatalog? at htables
  unfold blocksOfFiles
  generalize Declarations.ofFiles config files = x at hds htables
  generalize Declarations.ofFiles config files' = y at hds htables
  cases hds with
  | error e => rfl
  | @ok ds ds' hds =>
    have hmaker := Declarations.maker_alike config hds.2.2 fun c c' hc hc' => by
      simpa [Except.bind, hc, hc', Except.toOption] using htables
    dsimp only
    unfold Declarations.toBlocks
    generalize ds.maker config = a at hmaker
    generalize ds'.maker config = b at hmaker
    cases hmaker with
    | error e => rfl
    | ok hctx => exact hctx.blocks_eq

theorem instanceTables_of_ended {config : Config} {files : List SourceFile} {m : Nat}
    (hend : ∀ c ∈ flatCatalog? config files,
      (Instances.run m (Instances.start c)).queue = []) {n : Nat} (hn : m ≤ n) :
    instanceTables config files n = instanceTables config files m := by
  unfold instanceTables
  cases hc : flatCatalog? config files with
  | none => rfl
  | some c => exact congrArg some (Instances.tables_of_ended m n hn (hend c hc))

/-- Files for which the same tables are kept until all structs have been gone through keep the same
ones for ever. -/
theorem instanceTables_eq_of_ended {config : Config} {files files' : List SourceFile} (m : Nat)
    (hsame : ∀ n < m + 1, instanceTables config files' n = instanceTables config files n)
    (hend : ∀ c ∈ flatCatalog? config files, (Instances.run m (Instances.start c)).queue = [])
    (hend' : ∀ c ∈ flatCatalog? config files', (Instances.run m (Instances.start c)).queue = [])
    (n : Nat) : instanceTables config files' n = instanceTables config files n := by
  rcases Nat.le_total n m with hn | hn
  · exact hsame n (Nat.lt_succ_of_le hn)
  · rw [instanceTables_of_ended hend hn, instanceTables_of_ended hend' hn]
    exact hsame m (Nat.lt_succ_self m)

/-- A generic struct that gives a type, and a struct with a field of the type `shown` and a hidden
one of the type `hidden`. -/
def vault (shown hidden : GoType) : SourceFile :=
  { path := ⟨"m.go"⟩
    package := "m"
    types :=
      [⟨"Box", some "@gqlType", 1, ["T"], .record [⟨some "V", .ofName "T", none, none, 1⟩]⟩,
        ⟨"R", some "@gqlType", 2, [],
          .record [⟨some "A", shown, none, none, 3⟩,
            ⟨some "H", hidden, some "gql:\"-\"", none, 4⟩]⟩] }

/-- The generic struct of `vault` with an argument. -/
def boxOf (name : String) : GoType := .named none none "Box" [.ofName name]

theorem FieldTag.hidden_of_dash {tag : FieldTag} (h : ofRaw? (some "gql:\"-\"") = .ok tag) :
    tag.options.hidden = true := by
  have hdash : ofRaw? (some "gql:\"-\"") = .ok { options := { hidden := true } } :=
    eq_ok_of_toOption (by decide +kernel)
  rw [← Except.ok.inj (hdash.symm.trans h)]

theorem vault_retyped (shown hidden hidden' : GoType) :
    List.Forall₂ SourceFile.Retyped [vault shown hidden] [vault shown hidden'] := by
  have hfield : FieldDecl.Retyped ⟨some "H", hidden, some "gql:\"-\"", none, 4⟩
      ⟨some "H", hidden', some "gql:\"-\"", none, 4⟩ :=
    .hidden rfl (fun _ htag => FieldTag.hidden_of_dash htag) hidden'
  exact .cons ⟨_, rfl, .cons (.same _) (.cons (.record rfl (.cons (.same _) (.cons hfield .nil)))
    .nil)⟩ .nil

theorem blocksOfFiles_vault_box :
    List.Forall₂ SourceFile.Retyped [vault (boxOf "int") (.ofName "string")]
        [vault (boxOf "int") (boxOf "int")] ∧
      (∀ n, instanceTables {} [vault (boxOf "int") (boxOf "int")] n =
        instanceTables {} [vault (boxOf "int") (.ofName "string")] n) ∧
      (instanceTables {} [vault (boxOf "int") (boxOf "int")] 2).isSome = true ∧
      blocksOfFiles {} [vault (boxOf "int") (boxOf "int")] =
        blocksOfFiles {} [vault (boxOf "int") (.ofName "string")] := by
  have htables : ∀ n, instanceTables {} [vault (boxOf "int") (boxOf "int")] n =
      instanceTables {} [vault (boxOf "int") (.ofName "string")] n :=
    instanceTables_eq_of_ended 2 (by decide +kernel) (by decide +kernel) (by decide +kernel)
  exact ⟨vault_retyped _ _ _, htables, by decide +kernel,
    blocksOfFiles_retyped {} (vault_retyped _ _ _) htables⟩

/-- **The type of a hidden field may decide whether there are blocks.** An instance that only a
hidden field refers to is made, and its own field has no type. -/
theorem vault_hidden_fails :
    List.Forall₂ SourceFile.Retyped [vault (.ofName "string") (.ofName "string")]
        [vault (.ofName "string") (boxOf "error")] ∧
      (∃ b, blocksOfFiles {} [vault (.ofName "string") (.ofName "string")] = .ok [b]) ∧
      blocksOfFiles {} [vault (.ofName "string") (boxOf "error")] =
        .error (.unknownType "BoxError" "V" "error") := by
  refine ⟨vault_retyped _ _ _, ⟨?_, eq_ok_of_toOption ?_⟩, by decide +kernel⟩
  · exact
      { kind := .type
        name := "R"
        package := "m"
        place := ⟨0, 1, 0⟩
        slot := 1
        fields := [{ name := "a", typeText := "String!" }]
        source := "m.R (type)" }
  · decide +kernel

end GoSchema
