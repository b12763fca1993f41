/-
# References across packages

A qualified name refers to a type of another package. The qualifier is looked up among the imports
of the file, and an import without an alias goes by the name that its path implies; the package
clauses of the files at the path are not read. So a reference leads to a declaration with an import
path exactly if the last import that goes by the qualifier has this path. Where the package is
imported without an alias, and nothing else goes by its name, that is so exactly if the path implies
the name.

Key definitions: `ImportSpec.name?`, `importSpecs`, `pathOf?`, `StandsFor`, `GoType.within`,
`GoType.LinksTo`, `SourceFile.IsReadFrom`.
Key theorems: `lookup_foldl_withImport`, `imports_of_parse`, `standsFor_iff`, `within_qualify`,
`lookup_eq_iff`, `exists_ofDeclarations`, `packageReferences_linksTo`.
-/
import GoSchema.Proofs.SourceDeclarations

namespace GoSchema

open Outcome Source

namespace Source

/-- The name that an import goes by in its file: the alias that is given, or the one that the path
implies. Imports into the file's own names and for side effects go by no name. -/
def ImportSpec.name? (spec : ImportSpec) : Option String :=
  match spec.localName with
  | none => some (String.ofList (impliedName spec.path.toList))
  | some given => if given = "." ∨ given = "_" then none else some given

theorem lookup_withImport (imports : List (String × String)) (spec : ImportSpec) (name : String) :
    (withImport imports spec).lookup name =
      if spec.name? = some name then some spec.path else imports.lookup name := by
  have hadd : ∀ given, (imports.filter (·.1 ≠ given) ++ [(given, spec.path)]).lookup name =
      if some given = some name then some spec.path else imports.lookup name := by
    intro given
    have hothers := Pointwise.lookup_filter (fun r => decide (r ≠ given)) name imports
    rw [List.lookup_append, hothers, List.lookup_cons]
    by_cases h : name = given
    · simp [h]
    · have h' : ¬ given = name := fun heq => h heq.symm
      simp [h, h', beq_false_of_ne h]
  unfold withImport
  cases hlocal : spec.localName with
  | none => simpa [ImportSpec.name?, hlocal] using hadd (String.ofList (impliedName spec.path.toList))
  | some given =>
    by_cases hdot : given = "."
    · simp [ImportSpec.name?, hlocal, hdot]
    · by_cases hblank : given = "_"
      · simp [ImportSpec.name?, hlocal, hblank]
      · simpa [ImportSpec.name?, hlocal, hdot, hblank] using hadd given

/-- The path that a name stands for: that of the last import that goes by it. -/
def pathOf? (specs : List ImportSpec) (name : String) : Option String :=
  (specs.reverse.find? fun spec => spec.name? = some name).map ImportSpec.path

/-- **The last import of a name counts.** -/
theorem lookup_foldl_withImport (name : String) : ∀ (specs : List ImportSpec)
    (imports : List (String × String)),
    (specs.foldl withImport imports).lookup name = (pathOf? specs name).or (imports.lookup name)
  | [], _ => rfl
  | spec :: specs, imports => by
    rw [List.foldl_cons, lookup_foldl_withImport name specs, lookup_withImport, pathOf?, pathOf?,
      List.reverse_cons, List.find?_append]
    by_cases hname : spec.name? = some name
    · cases specs.reverse.find? fun spec => spec.name? = some name <;> simp [hname]
    · cases specs.reverse.find? fun spec => spec.name? = some name <;> simp [hname]

/-- The imports of a part of a file. -/
def Part.importSpecs : Part → List ImportSpec
  | .imports specs => specs
  | _ => []

/-- The imports in the text of a file, in order. -/
def importSpecs (text : String) : List ImportSpec :=
  (((lex text.toList).bind parts).getD []).flatMap fun item => item.value.importSpecs

theorem map_fst_inContext {α : Type} (final : List Comment) : ∀ (items : List (Item α))
    (previousEnd : Option Nat), (inContext final previousEnd items).map Prod.fst = items
  | [], _ => rfl
  | [_], _ => rfl
  | item :: next :: items, _ => by
    rw [inContext, List.map_cons, map_fst_inContext final (next :: items)]

theorem imports_foldl_withPart : ∀ (entries : List (Item Part × Option Nat × List Comment))
    (file : SourceFile), (entries.foldl withPart file).imports =
      ((entries.map Prod.fst).flatMap fun item => item.value.importSpecs).foldl withImport
        file.imports
  | [], _ => rfl
  | entry :: entries, file => by
    have hfirst : (withPart file entry).imports =
        entry.1.value.importSpecs.foldl withImport file.imports := by
      obtain ⟨⟨before, value, row, endRow⟩, previousEnd, after⟩ := entry
      cases value <;> rfl
    rw [List.foldl_cons, imports_foldl_withPart entries, hfirst, List.map_cons, List.flatMap_cons,
      List.foldl_append]

/-- **The imports of a file** are those in its text. -/
theorem imports_of_parse {path : Path} {text : String} {file : SourceFile}
    (h : SourceFile.parse path text = .ok file) :
    file.imports = (importSpecs text).foldl withImport [] := by
  unfold SourceFile.parse at h
  unfold importSpecs
  cases hparts : (lex text.toList).bind parts with
  | none => simp [hparts] at h
  | some ps =>
    rw [hparts] at h
    dsimp only at h
    split at h
    · exact nomatch h
    · obtain rfl := Except.ok.inj h
      rw [imports_foldl_withPart, map_fst_inContext]
      rfl

/-- Whether a name stands for a path in a file with these imports. A name that no import goes by
stands for itself. -/
def StandsFor (specs : List ImportSpec) (name path : String) : Prop :=
  (pathOf? specs name).getD name = path

/-- **An import without an alias** has the name of its package exactly if the path implies it, where
nothing else goes by this name. -/
theorem standsFor_iff {specs : List ImportSpec} {name path : String}
    (himport : ⟨none, path⟩ ∈ specs)
    (hother : ∀ spec ∈ specs, spec.name? = some name → spec = ⟨none, path⟩) :
    StandsFor specs name path ↔ String.ofList (impliedName path.toList) = name ∨ path = name := by
  have hfound : ∀ spec, specs.reverse.find? (fun spec => spec.name? = some name) = some spec →
      spec = ⟨none, path⟩ := by
    intro spec hspec
    have hmem := List.mem_reverse.1 (List.mem_of_find?_eq_some hspec)
    exact hother spec hmem (by simpa using List.find?_some hspec)
  unfold StandsFor pathOf?
  by_cases himplied : String.ofList (impliedName path.toList) = name
  · cases hspec : specs.reverse.find? fun spec => spec.name? = some name with
    | none =>
      have hno := List.find?_eq_none.1 hspec _ (List.mem_reverse.2 himport)
      exact absurd himplied (by simpa [ImportSpec.name?] using hno)
    | some spec => simp [himplied, hfound spec hspec]
  · cases hspec : specs.reverse.find? fun spec => spec.name? = some name with
    | none => simp [himplied, eq_comm]
    | some spec =>
      have hname : spec.name? = some name := by simpa using List.find?_some hspec
      rw [hfound spec hspec] at hname
      exact absurd (by simpa [ImportSpec.name?] using hname) himplied

end Source

/-! ### Types in types -/

namespace GoType

mutual

/-- A type and all types in it. -/
def within : GoType → List GoType
  | named package qualifier name args => named package qualifier name args :: withinAll args
  | pointer t => pointer t :: within t
  | slice t => slice t :: within t
  | array t => array t :: within t
  | map k v => map k v :: (within k ++ within v)
  | any => [any]
  | other text => [other text]

/-- The types of a list and all types in them. -/
def withinAll : List GoType → List GoType
  | [] => []
  | t :: ts => within t ++ withinAll ts

end

/-- Whether a type is a name with this qualifier. -/
def isReference (qualifier name : String) : GoType → Bool
  | named _ (some q) n _ => q = qualifier && n = name
  | _ => false

/-- Whether all references by a qualified name in a type as it is written have become references to
a declaration, each at its place, exactly if a condition holds. -/
def LinksTo (c : Catalog) (id : Nat) (qualifier name : String) (condition : Prop)
    (written made : GoType) : Prop :=
  List.Forall₂ (fun w t => w.isReference qualifier name → (c.idOfType? t = some id ↔ condition))
    written.within made.within

theorem within_eq_cons (t : GoType) : ∃ inner, t.within = t :: inner := by
  cases t <;> exact ⟨_, rfl⟩

/-- What is said of all references in a type is said of one that is the type. -/
theorem LinksTo.idOfType?_iff {c : Catalog} {id : Nat} {qualifier name : String}
    {condition : Prop} {written made : GoType}
    (h : LinksTo c id qualifier name condition written made)
    (hwritten : written.isReference qualifier name) :
    c.idOfType? made = some id ↔ condition := by
  obtain ⟨inner, hinner⟩ := within_eq_cons written
  obtain ⟨inner', hinner'⟩ := within_eq_cons made
  unfold LinksTo at h
  rw [hinner, hinner', List.forall₂_cons] at h
  exact h.1 hwritten

end GoType

/-- A type with the packages of names has the types in it with the packages of names. -/
theorem SourceFile.within_qualify (file : SourceFile) (params : List String) (t : GoType) :
    (file.qualify params t).within = t.within.map (file.qualify params) := by
  induction t using GoType.rec (motive_2 := fun ts =>
    GoType.withinAll (file.qualifyAll params ts) =
      (GoType.withinAll ts).map (file.qualify params)) with
  | pointer t ih | slice t ih | array t ih => simp only [qualify, GoType.within, List.map_cons, ih]
  | map k v ihk ihv =>
    simp only [qualify, GoType.within, List.map_cons, List.map_append, ihk, ihv]
  | any | other => rfl
  | named package qualifier name args ih =>
    simp only [qualify, GoType.within, List.map_cons, ih]
  | nil => rfl
  | cons t ts ih ihs =>
    simp only [qualifyAll, GoType.withinAll, List.map_append, ih, ihs]

theorem GoType.linksTo_qualify {c : Catalog} {id : Nat} {qualifier name : String}
    {condition : Prop} {file : SourceFile} {params : List String}
    (h : ∀ t : GoType, t.isReference qualifier name →
      (c.idOfType? (file.qualify params t) = some id ↔ condition)) (t : GoType) :
    GoType.LinksTo c id qualifier name condition t (file.qualify params t) := by
  unfold LinksTo
  rw [SourceFile.within_qualify, List.forall₂_map_right_iff]
  exact List.forall₂_same.2 fun u _ => h u

/-- The types that a body is written with. -/
def Source.TypeBody.types : TypeBody → List GoType
  | .record fields => fields.map FieldDecl.type
  | .defined t | .aliased t => [t]

/-- The types of fields, or the one behind a name. -/
def Body.types : Body → List GoType
  | .record fields => fields.map Field.type
  | .defined t | .aliased t => [t]

theorem Declaration.types_of_bodyOf {config : Config} {file : SourceFile} {decl : TypeDecl}
    {body : Body} (h : bodyOf config file decl = .ok body) :
    body.types = decl.body.types.map (file.qualify decl.typeParams) := by
  unfold bodyOf at h
  cases hbody : decl.body with
  | record fields =>
    rw [hbody] at h
    obtain ⟨own, hown, rfl⟩ := map_eq_ok_iff.1 h
    have hall : List.Forall₂ (· = ·) (fields.map fun f => file.qualify decl.typeParams f.type)
        (own.map Field.type) :=
      List.forall₂_map_left_iff.2 (List.forall₂_map_right_iff.2
        ((forall₂_of_mapM hown).imp fun _ _ hf => (Field.ofDecl_ok hf).1.symm))
    rw [List.forall₂_eq_eq_eq] at hall
    rw [Body.types, TypeBody.types, List.map_map, ← hall]
    rfl
  | defined t | aliased t =>
    rw [hbody] at h
    obtain rfl := Except.ok.inj h
    rfl

/-! ### Lookups and references -/

/-- Whether a file was read from a text and then got its import path. -/
def SourceFile.IsReadFrom (file : SourceFile) (text : String) : Prop :=
  SourceFile.parse file.path text = .ok { file with importPath := none }

namespace Catalog

variable {c : Catalog} {id : Nat} {d : Declaration}

/-- A declaration with an import path is found under this path only. -/
theorem lookup_eq_iff {path name : String} (hid : c.idOf? (path, name) = some id)
    (hd : c.get? id = some d) (hpath : d.package.importPath = some path) (package : String) :
    c.lookup package name = some id ↔ package = path := by
  constructor
  · intro hfound
    rcases Option.or_eq_some_iff.1 hfound with hkey | ⟨-, hloose⟩
    · obtain ⟨e, he, hkey⟩ := exists_of_idOf? hkey
      obtain rfl := Option.some.inj (hd.symm.trans he)
      have hpackage : d.package.identity = package := congrArg Prod.fst hkey
      rw [← hpackage, Package.identity, hpath]
      rfl
    · -- a loose match has no import path
      obtain ⟨hlt, hmatch, -⟩ := List.findIdx?_eq_some_iff_getElem.1 hloose
      obtain rfl := Option.some.inj (hd.symm.trans (List.getElem?_eq_getElem hlt))
      simp [matchesLoosely, hpath] at hmatch
  · rintro rfl
    exact lookup_of_idOf? hid

/-- **A qualified name** is looked up under the path that the qualifier stands for. -/
theorem idOfType?_qualify {file : SourceFile} {text : String} (h : file.IsReadFrom text)
    (params : List String) {qualifier name : String} {t : GoType}
    (ht : t.isReference qualifier name) : c.idOfType? (file.qualify params t) =
      c.lookup ((pathOf? (importSpecs text) qualifier).getD qualifier) name := by
  have hread : SourceFile.parse file.path text = .ok { file with importPath := none } := h
  have hspecs := imports_of_parse hread
  have himports : file.imports = (importSpecs text).foldl withImport [] := hspecs
  unfold GoType.isReference at ht
  split at ht
  · rename_i package q n args
    simp only [Bool.and_eq_true, decide_eq_true_eq] at ht
    obtain ⟨rfl, rfl⟩ := ht
    have hlookup := lookup_foldl_withImport q (importSpecs text) []
    rw [List.lookup_nil, Option.or_none, ← himports] at hlookup
    rw [SourceFile.qualify, SourceFile.packageOf, hlookup]
    rfl
  · simp at ht

theorem exists_foldl_push {key : String × String} : ∀ {l : List Declaration} {c : Catalog},
    (c.types ++ l).find? (·.key = key) = some d →
    ∃ id, (l.foldl (fun c d => (c.push d).1) c).idOf? key = some id ∧
      (l.foldl (fun c d => (c.push d).1) c).get? id = some d
  | [], c, h => by
    rw [List.append_nil] at h
    obtain ⟨hkey, i, hi, hd, hbefore⟩ := List.find?_eq_some_iff_getElem.1 h
    refine ⟨i, List.findIdx?_eq_some_iff_getElem.2 ⟨hi, hd ▸ hkey, fun j hj => ?_⟩, ?_⟩
    · have hno := hbefore j hj
      rw [Bool.not_eq_true'] at hno
      exact ne_true_of_eq_false hno
    · exact hd ▸ List.getElem?_eq_getElem hi
  | e :: l, c, h => by
    rw [List.foldl_cons]
    refine exists_foldl_push ?_
    cases hid : c.idOf? e.key with
    | some id =>
      -- the key is there already, so the declaration is not the first one with it
      obtain ⟨first, hfirst, hkey⟩ := exists_of_idOf? hid
      rw [push_of_some hid, List.find?_append]
      rw [List.find?_append, List.find?_cons] at h
      cases hfound : c.types.find? (·.key = key) with
      | some d' => simpa [hfound] using h
      | none =>
        have hno := List.find?_eq_none.1 hfound first (List.mem_of_getElem? hfirst)
        have hne : ¬ e.key = key := by simpa [hkey] using hno
        simpa [hfound, hne] using h
    | none =>
      rw [push_of_none hid]
      simpa using h

/-- **The first declaration with a key** is the one that the catalog starts with. -/
theorem exists_ofDeclarations {key : String × String} {ds : Declarations}
    (h : ds.types.find? (·.key = key) = some d) :
    ∃ id, (ofDeclarations ds).idOf? key = some id ∧ (ofDeclarations ds).get? id = some d :=
  exists_foldl_push h

end Catalog

section References

variable {config : Config} {files : List SourceFile} {ds : Declarations} {f g : SourceFile}
  {decl : TypeDecl} {path text : String}

/-- **The record of a declaration**: that of the first one with its key. -/
theorem exists_record (hds : Declarations.ofFiles config files = .ok ds)
    (hfirst : (files.flatMap SourceFile.declared).find?
      (fun s => sourceKey s = sourceKey (f, decl)) = some (f, decl)) :
    ∃ id d, Declaration.IsOf config (f, decl) d ∧
      (Catalog.ofDeclarations ds).idOf? (sourceKey (f, decl)) = some id ∧
      (Catalog.ofDeclarations ds).get? id = some d := by
  have hall := Declarations.forall₂_ofFiles hds
  have hkeys : ∀ s d, Declaration.IsOf config s d →
      decide (sourceKey s = sourceKey (f, decl)) = decide (d.key = sourceKey (f, decl)) :=
    fun s d hd => by rw [hd.key]
  rcases Pointwise.find?_cases hall hkeys with ⟨hno, -⟩ | ⟨s, d, hs, hd, his⟩
  · rw [hno] at hfirst
    cases hfirst
  · obtain rfl := Option.some.inj (hs.symm.trans hfirst)
    obtain ⟨id, hid, hget⟩ := Catalog.exists_ofDeclarations hd
    exact ⟨id, d, his, hid, hget⟩

/-- **References across packages.** The file `f` declares a type, as the first one with its key, in
a package with an import path, and `g` is any file. Wherever `g` writes the type with the name of
the package as the qualifier, in the type of a field, behind a name, or as the type of a constant,
at any depth, the reference leads to the record of the type exactly if the name stands for the path
in `g`. Where `g` imports the path without an alias, and no other import goes by the name, that is
so exactly if the path implies the name, or is the name itself. -/
theorem packageReferences_linksTo (hds : Declarations.ofFiles config files = .ok ds)
    (hfirst : (files.flatMap SourceFile.declared).find?
      (fun s => sourceKey s = sourceKey (f, decl)) = some (f, decl))
    (hpath : f.importPath = some path) (htext : g.IsReadFrom text) :
    (∃ id d, Declaration.IsOf config (f, decl) d ∧
      (Catalog.ofDeclarations ds).get? id = some d ∧
      List.Forall₂ (fun s e => s.1 = g → List.Forall₂
        (GoType.LinksTo (Catalog.ofDeclarations ds) id f.package decl.name
          (StandsFor (importSpecs text) f.package path))
        s.2.body.types e.body.types) (files.flatMap SourceFile.declared) ds.types ∧
      List.Forall₂ (fun s k => s.1 = g → Option.Rel
        (GoType.LinksTo (Catalog.ofDeclarations ds) id f.package decl.name
          (StandsFor (importSpecs text) f.package path))
        s.2.type k.type) (files.flatMap SourceFile.constants) ds.consts) ∧
    (⟨none, path⟩ ∈ importSpecs text →
      (∀ spec ∈ importSpecs text, spec.name? = some f.package → spec = ⟨none, path⟩) →
      (StandsFor (importSpecs text) f.package path ↔
        String.ofList (impliedName path.toList) = f.package ∨ path = f.package)) := by
  refine ⟨?_, standsFor_iff⟩
  obtain ⟨id, d, his, hid, hget⟩ := exists_record hds hfirst
  have hrecord : d.package.importPath = some path := by rw [his.package]; exact hpath
  have hkey : sourceKey (f, decl) = (path, decl.name) := by
    simp [sourceKey, SourceFile.ownPackage, Package.identity, hpath]
  rw [hkey] at hid
  have hlinks : ∀ params t, GoType.LinksTo (Catalog.ofDeclarations ds) id f.package decl.name
      (StandsFor (importSpecs text) f.package path) t (g.qualify params t) := by
    intro params t
    refine GoType.linksTo_qualify (fun u hu => ?_) t
    rw [Catalog.idOfType?_qualify htext params hu]
    exact Catalog.lookup_eq_iff hid hget hrecord _
  obtain ⟨htypes, hconsts⟩ := Declarations.ofFiles_ok hds
  refine ⟨id, d, his, hget, htypes.imp ?_, hconsts.imp ?_⟩
  · rintro ⟨file, source⟩ e ⟨space, place, he⟩ rfl
    rw [Declaration.types_of_bodyOf (Declaration.bodyOf_of_ofDecl he), List.forall₂_map_right_iff]
    exact List.forall₂_same.2 fun t _ => hlinks _ t
  · rintro ⟨file, source⟩ k ⟨place, hk⟩ rfl
    rw [Constant.type_of_ofDecl hk]
    cases source.type with
    | none => exact .none
    | some t => exact .some (hlinks [] t)

end References

/-! ### An enum and a value in another package -/

/-- The text of a package with an enum. -/
def statusText (package : String) : String :=
  "package " ++ package ++ "\n\n// @gqlEnum\ntype Status string\n\n" ++
    "const StatusActive Status = \"a\"\n"

/-- The text of another package, which imports that one without an alias, with a value of the
enum. -/
def pendingText (package path : String) : String :=
  "package consts\n\nimport \"" ++ path ++ "\"\n\nconst StatusPending " ++ package ++
    ".Status = \"p\"\n"

/-- The enum. -/
def statusDecl : TypeDecl :=
  ⟨"Status", some "@gqlEnum", 4, [], .defined (.named none none "string" [])⟩

/-- The file with the enum. -/
def statusFile (package path : String) : SourceFile :=
  { path := ⟨"models/m.go"⟩
    package
    types := [statusDecl]
    consts := [⟨"StatusActive", some (.named none none "Status" []), none, 6⟩]
    importPath := some path }

/-- The file with the further value. -/
def pendingFile (package path : String) : SourceFile :=
  { path := ⟨"consts/c.go"⟩
    package := "consts"
    imports := [(String.ofList (impliedName path.toList), path)]
    consts := [⟨"StatusPending", some (.named none (some package) "Status" []), none, 5⟩]
    importPath := some "example.com/app/consts" }

/-- Both files. -/
def statusFiles (package path : String) : List SourceFile :=
  [statusFile package path, pendingFile package path]

/-- Where the path implies the name of the package, the further value leads to the enum. -/
theorem goStatus_links :
    (pendingFile "status" "example.com/go-status/v2").IsReadFrom
      (pendingText "status" "example.com/go-status/v2") ∧
    ∃ ds id d, Declarations.ofFiles {} (statusFiles "status" "example.com/go-status/v2") = .ok ds ∧
      Declaration.IsOf {} (statusFile "status" "example.com/go-status/v2", statusDecl) d ∧
      (Catalog.ofDeclarations ds).get? id = some d ∧
      ∃ active pending, ds.consts = [active, pending] ∧
        pending.type.bind (Catalog.ofDeclarations ds).idOfType? = some id := by
  have htext : (pendingFile "status" "example.com/go-status/v2").IsReadFrom
      (pendingText "status" "example.com/go-status/v2") := eq_ok_of_toOption (by decide +kernel)
  have hspecs : importSpecs (pendingText "status" "example.com/go-status/v2") =
      [⟨none, "example.com/go-status/v2"⟩] := by decide +kernel
  have hcount : (Declarations.ofFiles {} (statusFiles "status" "example.com/go-status/v2")).map
      (fun ds => ds.consts.length) = .ok 2 := eq_ok_of_toOption (by decide +kernel)
  obtain ⟨ds, hds, hcount⟩ := map_eq_ok_iff.1 hcount
  have hfirst : ((statusFiles "status" "example.com/go-status/v2").flatMap
      SourceFile.declared).find? (fun s => sourceKey s =
        sourceKey (statusFile "status" "example.com/go-status/v2", statusDecl)) =
      some (statusFile "status" "example.com/go-status/v2", statusDecl) := by decide +kernel
  obtain ⟨⟨id, d, his, hget, -, hconsts⟩, hstands⟩ := packageReferences_linksTo hds hfirst rfl htext
  have hname := (hstands (by simp [hspecs]) (by simp [hspecs])).2 (.inl (by decide))
  obtain ⟨active, pending, hlist⟩ := List.length_eq_two.1 hcount
  rw [hlist] at hconsts
  have hlast : Option.Rel (GoType.LinksTo (Catalog.ofDeclarations ds) id "status" "Status"
      (StandsFor (importSpecs (pendingText "status" "example.com/go-status/v2")) "status"
        "example.com/go-status/v2"))
      (some (.named none (some "status") "Status" [])) pending.type := by
    cases hconsts with
    | cons _ hrest => exact (List.forall₂_cons.1 hrest).1 rfl
  refine ⟨htext, ds, id, d, hds, his, hget, active, pending, hlist, ?_⟩
  cases htype : pending.type with
  | none =>
    rw [htype] at hlast
    cases hlast
  | some t =>
    rw [htype] at hlast
    cases hlast with
    | some hlinks => exact (hlinks.idOfType?_iff rfl).2 hname

/-- **A reference may be lost**: the path ends in `models`, the package is called `model`, and the
enum does not get the further value. -/
theorem models_loses_value :
    (statusFile "model" "example.com/app/models").IsReadFrom (statusText "model") ∧
    (pendingFile "model" "example.com/app/models").IsReadFrom
      (pendingText "model" "example.com/app/models") ∧
    importSpecs (pendingText "model" "example.com/app/models") =
      [⟨none, "example.com/app/models"⟩] ∧
    ((statusFiles "model" "example.com/app/models").flatMap SourceFile.declared).find?
      (fun s => sourceKey s = ("example.com/app/models", "Status")) =
        some (statusFile "model" "example.com/app/models", statusDecl) ∧
    ∃ ds, Declarations.ofFiles {} (statusFiles "model" "example.com/app/models") = .ok ds ∧
      (Catalog.ofDeclarations ds).idOf? ("example.com/app/models", "Status") = some 0 ∧
      ds.consts.map (fun k => (k.name, k.type.bind (Catalog.ofDeclarations ds).idOfType?)) =
        [("StatusActive", some 0), ("StatusPending", none)] ∧
      (Catalog.ofDeclarations ds).enumMembers =
        .ok [(0, [⟨"StatusActive", "ACTIVE", none, none⟩])] := by
  have hid : (Declarations.ofFiles {} (statusFiles "model" "example.com/app/models")).map
      (fun ds => (Catalog.ofDeclarations ds).idOf? ("example.com/app/models", "Status")) =
        .ok (some 0) := eq_ok_of_toOption (by decide +kernel)
  have hconsts : (Declarations.ofFiles {} (statusFiles "model" "example.com/app/models")).map
      (fun ds => ds.consts.map fun k =>
        (k.name, k.type.bind (Catalog.ofDeclarations ds).idOfType?)) =
        .ok [("StatusActive", some 0), ("StatusPending", none)] :=
    eq_ok_of_toOption (by decide +kernel)
  have hmembers : (Declarations.ofFiles {} (statusFiles "model" "example.com/app/models")).map
      (fun ds => (Catalog.ofDeclarations ds).enumMembers.toOption) =
        .ok (some [(0, [⟨"StatusActive", "ACTIVE", none, none⟩])]) :=
    eq_ok_of_toOption (by decide +kernel)
  obtain ⟨ds, hds, hid⟩ := map_eq_ok_iff.1 hid
  rw [hds] at hconsts hmembers
  exact ⟨eq_ok_of_toOption (by decide +kernel), eq_ok_of_toOption (by decide +kernel),
    by decide +kernel, by decide +kernel, ds, hds, hid, Except.ok.inj hconsts,
    eq_ok_of_toOption (Except.ok.inj hmembers)⟩

end GoSchema
