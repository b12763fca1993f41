/-
# Where directives may stand

Each kind of directive has its places, and no stage knows all of them. Reading a file refuses every
directive on a field, a package clause takes a namespace only, a constant takes a value only, and a
type takes no value and, if it is written as a struct, no enum. Settling knows what a name leads to:
it asks for a struct where a block is asked for and for none where an enum is. Linking asks for the
enum of a constant that is said to be a value. Nothing asks for a struct where a directive hides
fields or adds one, so these two may stand on any type.

Key definitions: `SourceFile.Directs`, `Catalog.Admits`.
Key theorems: `Declarations.directs_of_packageSpaces`, `Declaration.admits_of_ofDecl`,
`Constant.directs_of_ofDecl`, `blocksOfFiles_placed`.
-/
import GoSchema.Proofs.DeclarationOrder
import GoSchema.Proofs.EnumLinks
import GoSchema.Proofs.StructNames

namespace GoSchema

open Outcome Source

/-- The documentation of an owner can be read, and each of its directives has the property. -/
def SourceFile.Directs (file : SourceFile) (owner : String) (text : Option String)
    (P : Directive → Prop) : Prop :=
  ∃ doc, file.readDoc owner text = .ok doc ∧ ∀ x ∈ doc.directives, P x

/-- The documentation of an owner can be read, and one of its directives is of a kind. -/
def SourceFile.HasDirective (file : SourceFile) (owner : String) (text : Option String)
    (kind : Directive.Kind) : Prop :=
  ∃ doc, file.readDoc owner text = .ok doc ∧ ∃ x ∈ doc.directives, x.kind = kind

namespace SourceFile

variable {file : SourceFile} {owner : String} {text : Option String}

theorem Directs.of_hasDirective {P : Directive → Prop} {kind : Directive.Kind}
    (h : file.Directs owner text P) (hkind : file.HasDirective owner text kind) :
    ∃ x : Directive, x.kind = kind ∧ P x := by
  obtain ⟨doc, hdoc, hall⟩ := h
  obtain ⟨doc', hdoc', x, hx, rfl⟩ := hkind
  obtain rfl := Except.ok.inj (hdoc.symm.trans hdoc')
  exact ⟨x, rfl, hall x hx⟩

theorem hasDirective_of_any {kind : Directive.Kind}
    (h : (file.readDoc owner text).toOption.any (·.directives.any (·.kind = kind)) = true) :
    file.HasDirective owner text kind := by
  cases hdoc : file.readDoc owner text with
  | error e =>
    rw [hdoc] at h
    exact nomatch h
  | ok doc =>
    rw [hdoc] at h
    obtain ⟨x, hx, hkind⟩ := List.any_eq_true.1 h
    exact ⟨doc, hdoc, x, hx, of_decide_eq_true hkind⟩

end SourceFile

/-- The directives that the documentation of the type with a number may have: blocks are asked of
what is over a struct, and enums of what is over none or too far away from it. -/
def Catalog.Admits (c : Catalog) (id : Nat) (kind : Directive.Kind) : Prop :=
  match kind with
  | .typeBlock | .inputBlock => ∃ names, c.OverStruct names id
  | .enumBlock => ∀ names, c.OverStruct names id → chainLimit < names
  | .enumValue => False
  | .ignoreAll | .extraField | .packageName => True

/-! ### Clauses, types and constants -/

namespace Declarations

theorem kind_of_spacesOf {file : SourceFile} : ∀ {xs : List Directive}
    {spaces : List (String × String)}, spacesOf file xs = .ok spaces →
      ∀ x ∈ xs, x.kind = .packageName
  | [], _, _ => fun _ hx => absurd hx List.not_mem_nil
  | x :: xs, spaces, h => by
    unfold spacesOf at h
    split_ifs at h with hkind
    obtain ⟨more, hmore, -⟩ := map_eq_ok_iff.1 h
    exact List.forall_mem_cons.2 ⟨not_not.1 hkind, kind_of_spacesOf hmore⟩

/-- **A package clause takes a namespace only.** -/
theorem directs_of_packageSpaces : ∀ {files : List SourceFile} {spaces : List (String × String)},
    packageSpaces files = .ok spaces → ∀ file ∈ files,
      file.Directs ("package " ++ file.package) file.packageDoc (·.kind = .packageName)
  | [], _, _ => fun _ hfile => absurd hfile List.not_mem_nil
  | file :: files, spaces, h => by
    unfold packageSpaces at h
    split at h
    · exact nomatch h
    · rename_i doc hdoc
      split at h
      · exact nomatch h
      · rename_i own hown
        obtain ⟨more, hmore, -⟩ := map_eq_ok_iff.1 h
        exact List.forall_mem_cons.2 ⟨⟨doc, hdoc, kind_of_spacesOf hown⟩,
          directs_of_packageSpaces hmore⟩

end Declarations

/-- The field that a declaration of a field describes in messages. -/
def Source.FieldDecl.originIn (decl : FieldDecl) (owner : TypeDecl) : String :=
  owner.name ++ "." ++ decl.name.getD decl.type.display

/-- **A field takes no directive.** -/
theorem Field.directs_of_ofDecl {config : Config} {file : SourceFile} {owner : TypeDecl}
    {decl : FieldDecl} {f : Field} (h : ofDecl config file owner decl = .ok f) :
    file.Directs (decl.originIn owner) decl.doc fun _ => False := by
  unfold ofDecl at h
  dsimp only at h
  split at h
  · exact nomatch h
  · rename_i doc hdoc
    split at h
    · exact nomatch h
    · rename_i hnone
      refine ⟨doc, hdoc, fun x hx => ?_⟩
      rw [hnone] at hx
      exact absurd hx List.not_mem_nil

namespace Declaration

theorem kind_of_withDirectives {file : SourceFile} {isLiteral : Bool} :
    ∀ {xs : List Directive} {d d' : Declaration}, withDirectives file isLiteral d xs = .ok d' →
      ∀ x ∈ xs, x.kind ≠ .enumValue
  | [], _, _, _ => fun _ hx => absurd hx List.not_mem_nil
  | x :: xs, d, d', h => by
    unfold withDirectives at h
    split at h
    · cases h
    · rename_i next hnext
      refine List.forall_mem_cons.2 ⟨fun hkind => ?_, kind_of_withDirectives h⟩
      rw [withDirective, hkind] at hnext
      cases hnext

/-- **A type takes the directives that its place in the catalog admits.** -/
theorem admits_of_ofDecl {config : Config} {file : SourceFile} {space : Option String}
    {place : Place} {decl : TypeDecl} {d : Declaration}
    (h : ofDecl config file space place decl = .ok d) {c : Catalog} {id : Nat}
    (hfits : c.FitsAt id d) :
    file.Directs decl.name decl.doc (c.Admits id ·.kind) := by
  obtain ⟨-, -, -, -, doc, hdoc, hrequests, henum, -⟩ := isOf_ofDecl h
  have hvalue : ∀ x ∈ doc.directives, x.kind ≠ .enumValue := by
    unfold ofDecl at h
    rw [hdoc] at h
    dsimp only at h
    split at h
    · exact nomatch h
    · obtain ⟨r, hr, -⟩ := map_eq_ok_iff.1 h
      exact kind_of_withDirectives hr
  have hblock : ∀ x ∈ doc.directives, x.blockRequest?.isSome = true →
      ∃ names, c.OverStruct names id := by
    intro x hx hsome
    obtain ⟨r, hr⟩ := Option.isSome_iff_exists.1 hsome
    refine hfits.record fun hnil => ?_
    have hmem : r ∈ d.requests := hrequests ▸ List.mem_filterMap.2 ⟨x, hx, hr⟩
    rw [hnil] at hmem
    exact absurd hmem List.not_mem_nil
  refine ⟨doc, hdoc, fun x hx => ?_⟩
  show c.Admits id x.kind
  cases hk : x.kind with
  | typeBlock | inputBlock => exact hblock x hx (by simp [Directive.blockRequest?, hk])
  | enumBlock =>
    refine hfits.enum ?_
    have hasked : x.enumRequest? = some ⟨x.text? "name", x.text? "description"⟩ := by
      simp [Directive.enumRequest?, hk]
    have hmem := List.mem_filterMap.2 ⟨x, hx, hasked⟩
    obtain ⟨first, rest, hfirst⟩ := List.exists_cons_of_ne_nil (List.ne_nil_of_mem hmem)
    rw [henum, hfirst]
    rfl
  | enumValue => exact absurd hk (hvalue x hx)
  | ignoreAll | extraField | packageName => trivial

theorem fields_of_ofDecl {config : Config} {file : SourceFile} {space : Option String}
    {place : Place} {decl : TypeDecl} {d : Declaration}
    (h : ofDecl config file space place decl = .ok d) {fields : List FieldDecl}
    (hfields : decl.body = .record fields) :
    ∀ f ∈ fields, file.Directs (f.originIn decl) f.doc fun _ => False := by
  have hbody := bodyOf_of_ofDecl h
  rw [bodyOf, hfields] at hbody
  obtain ⟨made, hmade, -⟩ := map_eq_ok_iff.1 hbody
  intro f hf
  obtain ⟨g, -, hg⟩ := Pointwise.exists_right (forall₂_of_mapM hmade) hf
  exact Field.directs_of_ofDecl hg

theorem IsOf.hasDirective {config : Config} {source : SourceFile × TypeDecl} {d : Declaration}
    (h : IsOf config source d) (hsome : d.enumRequest.isSome = true) :
    source.1.HasDirective source.2.name source.2.doc .enumBlock := by
  obtain ⟨-, -, -, -, doc, hdoc, -, henum, -⟩ := h
  obtain ⟨r, hr⟩ := Option.isSome_iff_exists.1 hsome
  obtain ⟨x, hx, hasked⟩ := List.mem_filterMap.1 (List.mem_of_mem_head? (henum.symm.trans hr))
  refine ⟨doc, hdoc, x, hx, ?_⟩
  unfold Directive.enumRequest? at hasked
  split at hasked
  · assumption
  · exact nomatch hasked

end Declaration

namespace Constant

/-- Directives of a constant are for values, and one of them makes it a value. -/
theorem kind_of_requestOf {file : SourceFile} {owner : String} : ∀ {xs : List Directive}
    {request made : Option ValueRequest}, requestOf file owner request xs = .ok made →
      (∀ x ∈ xs, x.kind = .enumValue) ∧
        (xs ≠ [] ∨ request.isSome = true → made.isSome = true)
  | [], request, made, h => by
    obtain rfl := Except.ok.inj h
    simp
  | x :: xs, request, made, h => by
    unfold requestOf at h
    split_ifs at h with hkind
    obtain ⟨hall, hmade⟩ := kind_of_requestOf h
    exact ⟨List.forall_mem_cons.2 ⟨not_not.1 hkind, hall⟩, fun _ => hmade (.inr rfl)⟩

/-- **A constant takes directives for values only**, and with one it is said to be a value. -/
theorem directs_of_ofDecl {config : Config} {file : SourceFile} {place : Place}
    {decl : ConstDecl} {k : Constant} (h : ofDecl config file place decl = .ok k) :
    file.Directs decl.name decl.doc fun x => x.kind = .enumValue ∧ k.request.isSome = true := by
  unfold ofDecl at h
  split at h
  · exact nomatch h
  · rename_i doc hdoc
    obtain ⟨request, hrequest, rfl⟩ := map_eq_ok_iff.1 h
    obtain ⟨hall, hmade⟩ := kind_of_requestOf hrequest
    exact ⟨doc, hdoc, fun x hx => ⟨hall x hx, hmade (.inl (List.ne_nil_of_mem hx))⟩⟩

end Constant

/-! ### All directives -/

theorem Declarations.keys_eq_sourceKeys {config : Config} {files : List SourceFile}
    {ds : Declarations} (h : ofFiles config files = .ok ds) :
    ds.types.map Declaration.key = (files.flatMap SourceFile.declared).map sourceKey := by
  have hsame : List.Forall₂ (· = ·) ((files.flatMap SourceFile.declared).map sourceKey)
      (ds.types.map Declaration.key) :=
    List.forall₂_map_left_iff.2 (List.forall₂_map_right_iff.2
      ((forall₂_ofFiles h).imp fun _ _ hd => hd.key.symm))
  rw [List.forall₂_eq_eq_eq] at hsame
  exact hsame.symm

/-- Where no type is declared twice, a type has the same number among the sources and in the
catalog. -/
theorem Declarations.getElem?_declared {config : Config} {files : List SourceFile}
    {ds : Declarations} (h : ofFiles config files = .ok ds)
    (hkeys : ((files.flatMap SourceFile.declared).map sourceKey).Nodup) (id : Nat) :
    ((files.flatMap SourceFile.declared)[id]? = none ∧
        (Catalog.ofDeclarations ds).get? id = none) ∨
      ∃ s d, (files.flatMap SourceFile.declared)[id]? = some s ∧
        (Catalog.ofDeclarations ds).get? id = some d ∧
        ∃ space place, Declaration.ofDecl config s.1 space place s.2 = .ok d := by
  have htypes : (Catalog.ofDeclarations ds).types = ds.types :=
    Catalog.ofDeclarations_types (by rwa [keys_eq_sourceKeys h])
  rw [Catalog.get?, htypes]
  exact Pointwise.getElem?_cases (ofFiles_ok h).1 id

/-- **Where directives stand.** In every run without a fault, on files that declare no type twice, a
package clause has directives for its namespace only, and a field of a struct has none. A type that
has one for a type or an input is over a struct, and one that has one for an enum is not, or more
names stand between than a chain may have. A constant has directives for values only, and its type
is that of an enum then. Directives that hide fields or add one may stand on any type. -/
theorem blocksOfFiles_placed {config : Config} {files : List SourceFile} {bs : List Block}
    (hkeys : ((files.flatMap SourceFile.declared).map sourceKey).Nodup)
    (h : blocksOfFiles config files = .ok bs) :
    ∃ ds, Declarations.ofFiles config files = .ok ds ∧
      (∀ file ∈ files,
        file.Directs ("package " ++ file.package) file.packageDoc (·.kind = .packageName)) ∧
      (∀ id (file : SourceFile) (decl : TypeDecl),
        (files.flatMap SourceFile.declared)[id]? = some (file, decl) →
          file.Directs decl.name decl.doc ((Catalog.ofDeclarations ds).Admits id ·.kind) ∧
          ∀ fields, decl.body = .record fields → ∀ f ∈ fields,
            file.Directs (f.originIn decl) f.doc fun _ => False) ∧
      ∀ (file : SourceFile) (decl : ConstDecl),
        (file, decl) ∈ files.flatMap SourceFile.constants →
          file.Directs decl.name decl.doc fun x => x.kind = .enumValue ∧
            ∃ t id other enum, decl.type = some t ∧
              (Catalog.ofDeclarations ds).idOfType? (file.qualify [] t) = some id ∧
              (files.flatMap SourceFile.declared)[id]? = some (other, enum) ∧
              other.HasDirective enum.name enum.doc .enumBlock := by
  unfold blocksOfFiles at h
  split at h
  · cases h
  rename_i ds hds
  obtain ⟨ctx, hctx, -⟩ := Declarations.toBlocks_eq_ok_iff.1 h
  simp only [Declarations.maker, bind_eq_ok_iff] at hctx
  obtain ⟨w, hw, enums, henums, -⟩ := hctx
  refine ⟨ds, hds, ?packages, fun id file decl hid => ?types, fun file decl hdecl => ?consts⟩
  case packages =>
    unfold Declarations.ofFiles at hds
    split at hds
    · cases hds
    · rename_i hspaces
      exact Declarations.directs_of_packageSpaces hspaces
  case types =>
    rcases Declarations.getElem?_declared hds hkeys id with ⟨hnone, -⟩ | ⟨s, d, hs, hd, hmade⟩
    · cases hid.symm.trans hnone
    · obtain rfl := Option.some.inj (hid.symm.trans hs)
      obtain ⟨space, place, hmade⟩ := hmade
      exact ⟨Declaration.admits_of_ofDecl hmade (Catalog.fitsAt_of_settle hw hd),
        fun fields hfields => Declaration.fields_of_ofDecl hmade hfields⟩
  case consts =>
    obtain ⟨k, hk, place, hmade⟩ := Pointwise.exists_right (Declarations.ofFiles_ok hds).2 hdecl
    obtain ⟨doc, hdoc, hdirects⟩ := Constant.directs_of_ofDecl hmade
    refine ⟨doc, hdoc, fun x hx => ⟨(hdirects x hx).1, ?_⟩⟩
    obtain ⟨hlinked, -⟩ := Catalog.enumMembers_eq_ok_iff.1 henums
    have hmem : k ∈ w.consts := by
      rwa [Catalog.consts_settleAll hw, Catalog.consts_ofDeclarations]
    obtain ⟨id, hid, htyped⟩ := hlinked.asked k hmem (hdirects x hx).2
    obtain ⟨e, he, hasked⟩ := Catalog.mem_enumIds_iff.1 hid
    have htype : k.type.bind w.idOfType? = some id := of_decide_eq_true htyped
    rw [Constant.type_of_ofDecl hmade, Option.bind_map, Option.bind_eq_some_iff] at htype
    obtain ⟨t, ht, hfind⟩ := htype
    rw [Function.comp_apply, Catalog.idOfType?_eq_of_heads (Catalog.heads_settleAll hw)] at hfind
    -- the enum is one of the sources
    obtain ⟨d, hd, hhead⟩ := Catalog.exists_get?_of_heads (Catalog.heads_settleAll hw) he
    rcases Declarations.getElem?_declared hds hkeys id with ⟨-, hnone⟩ | ⟨s, d', hs, hd', hmade'⟩
    · cases hd.symm.trans hnone
    · obtain rfl := Option.some.inj (hd.symm.trans hd')
      obtain ⟨space, place', hmade'⟩ := hmade'
      have henum : d.enumRequest.isSome = true := by
        rwa [show d.enumRequest = e.enumRequest from congrArg (·.enumRequest) hhead]
      exact ⟨t, id, s.1, s.2, ht, hfind, hs, (Declaration.isOf_ofDecl hmade').hasDirective henum⟩

/-- An enum and a value of it, and a name of a struct that asks for a type. -/
def deskFile : SourceFile :=
  { path := ⟨"m.go"⟩
    package := "m"
    packageDoc := some "@gqlNamespace(name: \"desk\")"
    types :=
      [⟨"Status", some "@gqlEnum", 1, [], .defined (.ofName "string")⟩,
        ⟨"User", none, 2, [], .record [⟨some "Name", .ofName "string", none, none, 3⟩]⟩,
        ⟨"Account", some "@gqlType", 4, [], .defined (.ofName "User")⟩]
    consts := [⟨"StatusOpen", some (.ofName "Status"), some "@gqlEnumValue(name: \"OPEN\")", 5⟩] }

theorem deskFile_placed :
    (([deskFile].flatMap SourceFile.declared).map sourceKey).Nodup ∧
      (∃ bs, blocksOfFiles {} [deskFile] = .ok bs) ∧
      ∃ ds, Declarations.ofFiles {} [deskFile] = .ok ds ∧
        (∃ names, (Catalog.ofDeclarations ds).OverStruct names 2) ∧
        ∃ id other enum, (Catalog.ofDeclarations ds).idOfType?
            (deskFile.qualify [] (.ofName "Status")) = some id ∧
          ([deskFile].flatMap SourceFile.declared)[id]? = some (other, enum) ∧
          other.HasDirective enum.name enum.doc .enumBlock := by
  have hkeys : (([deskFile].flatMap SourceFile.declared).map sourceKey).Nodup := by decide +kernel
  have hsome : (blocksOfFiles {} [deskFile]).toOption.isSome = true := by decide +kernel
  obtain ⟨bs, hbs⟩ := Option.isSome_iff_exists.1 hsome
  replace hbs := eq_ok_of_toOption hbs
  obtain ⟨ds, hds, -, htypes, hconsts⟩ := blocksOfFiles_placed hkeys hbs
  refine ⟨hkeys, ⟨bs, hbs⟩, ds, hds, ?_, ?_⟩
  · have hkind : deskFile.HasDirective "Account" (some "@gqlType") .typeBlock :=
      SourceFile.hasDirective_of_any (by decide +kernel)
    obtain ⟨x, hx, hadmits⟩ := (htypes 2 _ _ rfl).1.of_hasDirective hkind
    rwa [hx] at hadmits
  · have hkind : deskFile.HasDirective "StatusOpen" (some "@gqlEnumValue(name: \"OPEN\")")
        .enumValue :=
      SourceFile.hasDirective_of_any (by decide +kernel)
    obtain ⟨x, -, -, t, id, other, enum, ht, hid, henum⟩ :=
      (hconsts _ _ List.mem_cons_self).of_hasDirective hkind
    obtain rfl := Option.some.inj ht
    exact ⟨id, other, enum, hid, henum⟩

/-- A type with a directive that hides fields, and one with a directive that adds a field. Neither
is a struct. -/
def strayFile : SourceFile :=
  { path := ⟨"m.go"⟩
    package := "m"
    types :=
      [⟨"Name", some "@gqlIgnoreAll", 1, [], .defined (.ofName "string")⟩,
        ⟨"Code", some "@gqlExtraField(name: \"x\", type: \"Int\")", 2, [],
          .defined (.ofName "int")⟩] }

/-- An enum that is a struct behind 33 names. -/
def distantFile : SourceFile :=
  { path := ⟨"m.go"⟩
    package := "m"
    types :=
      (List.range 33).map (fun n =>
        ⟨"N" ++ toString n, if n = 0 then some "@gqlEnum" else none, n + 1, [],
          .defined (.ofName ("N" ++ toString (n + 1)))⟩) ++
        [⟨"N33", none, 34, [], .record []⟩]
    consts := [⟨"First", some (.ofName "N0"), none, 35⟩] }

/-- **Not every directive out of its place is refused.** Directives that hide fields or add one are
taken on types that are no structs; one for an enum is taken on a type that is a struct behind 33
names. -/
theorem strayFile_taken :
    blocksOfFiles {} [strayFile] = .ok [] ∧
      (∃ ds decl other, Declarations.ofFiles {} [strayFile] = .ok ds ∧
        [strayFile].flatMap SourceFile.declared = [(strayFile, decl), (strayFile, other)] ∧
        strayFile.HasDirective decl.name decl.doc .ignoreAll ∧
        (¬ ∃ names, (Catalog.ofDeclarations ds).OverStruct names 0) ∧
        strayFile.HasDirective other.name other.doc .extraField ∧
        ¬ ∃ names, (Catalog.ofDeclarations ds).OverStruct names 1) ∧
      (∃ bs, blocksOfFiles {} [distantFile] = .ok bs) ∧
      ∃ ds decl, Declarations.ofFiles {} [distantFile] = .ok ds ∧
        ([distantFile].flatMap SourceFile.declared)[0]? = some (distantFile, decl) ∧
        distantFile.HasDirective decl.name decl.doc .enumBlock ∧
        ∃ names, (Catalog.ofDeclarations ds).OverStruct names 0 := by
  refine ⟨eq_ok_of_toOption (by decide +kernel), ?_, ?_, ?_⟩
  · have hmade : (Declarations.ofFiles {} [strayFile]).toOption.map
        (fun ds => decide ((Catalog.ofDeclarations ds).HasShortNames ∧
          ((Catalog.ofDeclarations ds).fieldsBehind (chainLimit + 1) 0).isSome = false ∧
          ((Catalog.ofDeclarations ds).fieldsBehind (chainLimit + 1) 1).isSome = false)) =
        some true := by decide +kernel
    obtain ⟨ds, hds, hnone⟩ := Option.map_eq_some_iff.1 hmade
    obtain ⟨hshort, hfirst, hsecond⟩ := of_decide_eq_true hnone
    rw [← Bool.not_eq_true, hshort.isSome_fieldsBehind_iff] at hfirst hsecond
    refine ⟨ds, _, _, eq_ok_of_toOption hds, rfl, ?_, hfirst, ?_, hsecond⟩
    · exact SourceFile.hasDirective_of_any (by decide +kernel)
    · exact SourceFile.hasDirective_of_any (by decide +kernel)
  · have hsome : (blocksOfFiles {} [distantFile]).toOption.isSome = true := by decide +kernel
    obtain ⟨bs, hbs⟩ := Option.isSome_iff_exists.1 hsome
    exact ⟨bs, eq_ok_of_toOption hbs⟩
  · have hmade : (Declarations.ofFiles {} [distantFile]).toOption.map
        (fun ds => ((Catalog.ofDeclarations ds).fieldsBehind 34 0).isSome) = some true := by
      decide +kernel
    obtain ⟨ds, hds, hfound⟩ := Option.map_eq_some_iff.1 hmade
    obtain ⟨names, -, hover⟩ :=
      Catalog.exists_fieldsBehind_iff.1 (Option.isSome_iff_exists.1 hfound)
    refine ⟨ds, _, eq_ok_of_toOption hds, rfl, ?_, names, hover⟩
    exact SourceFile.hasDirective_of_any (by decide +kernel)

end GoSchema
