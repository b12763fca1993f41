/-
# The indexes of the catalog

The index by key holds for every key the number that a search would find, and the index by name
holds the numbers of all declarations of the name in order. Both stay so when a declaration enters,
because it enters at the end and only if its key is new. So a catalog with indexes is the catalog
without them, finds what that one finds, and a number that was found under its own key is found
there after any further pushes.

What is found without a key of its own is the only declaration it can be: without an import path a
package is identified by its name, so two declarations of one name in packages of one name would
have the same key.

Key definitions: `IndexedCatalog.IsCoherent`.
Key theorems: `IsCoherent.insert`, `IsCoherent.push`, `isCoherent_ofDeclarations`,
`IsCoherent.pushAll`, `IsCoherent.lookup_eq`, `Catalog.find?_push`, `Catalog.idOf?_eq_some_iff`,
`Catalog.lookup_loose_iff`, `coherent_after_pushes`.
-/
import GoSchema.Catalog.Indexed
import GoSchema.Proofs.Lookup
import Mathlib.Data.List.Nodup

namespace GoSchema

namespace Catalog

variable {c : Catalog}

/-- Where no key occurs twice, a number is found under a key exactly if its declaration has it. -/
theorem idOf?_eq_some_iff (h : c.keys.Nodup) {key : String × String} {id : Nat} :
    c.idOf? key = some id ↔ ∃ d, c.get? id = some d ∧ d.key = key := by
  refine ⟨exists_of_idOf?, fun ⟨d, hd, hkey⟩ => ?_⟩
  obtain ⟨hlt, hget⟩ := List.getElem?_eq_some_iff.1 hd
  refine List.findIdx?_eq_some_iff_getElem.2 ⟨hlt, by simp [hget, hkey], fun j hj hfirst => ?_⟩
  have hid : id < c.keys.length := by simpa [keys] using hlt
  have hj' : j < c.keys.length := Nat.lt_trans hj hid
  have hsame : c.keys[j] = c.keys[id] := by simpa [keys, hget, hkey] using hfirst
  exact absurd ((List.Nodup.getElem_inj_iff h).1 hsame) (Nat.ne_of_lt hj)

/-- A declaration that stands for a name without having its key is of the key that the name has in
the package itself. -/
theorem key_of_matchesLoosely {package name : String} {d : Declaration}
    (h : matchesLoosely package name d = true) : d.key = (lastSegment package, name) := by
  simp only [matchesLoosely, Bool.and_eq_true, decide_eq_true_eq, Option.isNone_iff_eq_none] at h
  obtain ⟨⟨hname, himport⟩, hpackage⟩ := h
  simp [Declaration.key, Package.identity, himport, hname, hpackage]

/-- **What is found without a key** is the only declaration of the name that has no import path and
stands in a package of the path's last name. -/
theorem lookup_loose_iff (h : c.keys.Nodup) {package name : String}
    (hno : (package, name) ∉ c.keys) {id : Nat} :
    c.lookup package name = some id ↔ ∃ d, c.get? id = some d ∧ d.name = name ∧
      d.package.importPath = none ∧ d.package.name = lastSegment package := by
  have hmatch : ∀ d : Declaration, matchesLoosely package name d = true ↔ d.name = name ∧
      d.package.importPath = none ∧ d.package.name = lastSegment package := by
    intro d
    simp [matchesLoosely, and_assoc]
  rw [lookup, idOf?_eq_none_iff.2 hno, Option.none_or]
  constructor
  · intro hid
    obtain ⟨hlt, hfound, -⟩ := List.findIdx?_eq_some_iff_getElem.1 hid
    exact ⟨c.types[id], List.getElem?_eq_getElem hlt, (hmatch _).1 hfound⟩
  · rintro ⟨d, hd, hfound⟩
    have hloose := (hmatch d).2 hfound
    cases hid : c.types.findIdx? (matchesLoosely package name) with
    | none =>
      exact absurd hloose
        (ne_true_of_eq_false (List.findIdx?_eq_none_iff.1 hid d (List.mem_of_getElem? hd)))
    | some i =>
      -- both have the same key
      obtain ⟨hlt, hfirst, -⟩ := List.findIdx?_eq_some_iff_getElem.1 hid
      have hi : c.idOf? (lastSegment package, name) = some i :=
        (idOf?_eq_some_iff h).2 ⟨_, List.getElem?_eq_getElem hlt, key_of_matchesLoosely hfirst⟩
      exact hi.symm.trans ((idOf?_eq_some_iff h).2 ⟨d, hd, key_of_matchesLoosely hloose⟩)

theorem types_prefix_push (c : Catalog) (d : Declaration) : c.types <+: (c.push d).1.types := by
  cases hid : c.idOf? d.key with
  | some id => exact push_of_some hid ▸ List.prefix_rfl
  | none => exact push_of_none hid ▸ List.prefix_append _ _

/-- A push leaves the first declaration of every key as it is, be it the one that is pushed. -/
theorem find?_push (c : Catalog) (d : Declaration) (key : String × String) :
    (c.push d).1.types.find? (·.key = key) = (c.types ++ [d]).find? (·.key = key) := by
  cases hid : c.idOf? d.key with
  | none => rw [push_of_none hid]
  | some id =>
    obtain ⟨first, hfirst, hkey⟩ := exists_of_idOf? hid
    rw [push_of_some hid, List.find?_append, List.find?_singleton]
    by_cases hd : d.key = key
    · -- the declaration that is there comes before the one that is pushed
      cases hfound : c.types.find? (·.key = key) with
      | some _ => rfl
      | none =>
        have hno := List.find?_eq_none.1 hfound first (List.mem_of_getElem? hfirst)
        exact absurd (decide_eq_true (hkey.trans hd)) hno
    · simp [hd]

theorem find?_foldl_push (key : String × String) : ∀ (ds : List Declaration) (c : Catalog),
    (ds.foldl (fun c d => (c.push d).1) c).types.find? (·.key = key) =
      (c.types ++ ds).find? (·.key = key)
  | [], c => by rw [List.foldl_nil, List.append_nil]
  | d :: ds, c => by
    rw [List.foldl_cons, find?_foldl_push key ds, List.find?_append, find?_push,
      ← List.find?_append, List.append_assoc, List.singleton_append]

end Catalog

namespace IndexedCatalog

/-! ### Coherence -/

/-- The numbers of all declarations of a name, in order. -/
def numbersOf (c : IndexedCatalog) (name : String) : List Nat :=
  c.ids.filter fun id => (c.get? id).map Declaration.name = some name

/-- No key occurs twice, and the indexes hold what searches would find. -/
structure IsCoherent (c : IndexedCatalog) : Prop where
  keys : c.keys.Nodup
  byKey : ∀ key, c.byKey.lookup key = c.idOf? key
  byName : ∀ name, c.named name = c.numbersOf name

variable {c : IndexedCatalog}

theorem isCoherent_empty (consts : List Constant) : IsCoherent { consts } :=
  ⟨List.nodup_nil, fun _ => rfl, fun _ => rfl⟩

theorem numbersOf_insert (c : IndexedCatalog) (d : Declaration) (name : String) :
    (c.insert d).numbersOf name =
      c.numbersOf name ++ if name = d.name then [c.types.length] else [] := by
  have hold : ∀ id ∈ List.range c.types.length,
      decide (((c.types ++ [d])[id]?).map Declaration.name = some name) =
        decide ((c.types[id]?).map Declaration.name = some name) := fun id hid => by
    rw [List.getElem?_append_left (List.mem_range.1 hid)]
  have hnew : ((c.types ++ [d])[c.types.length]?).map Declaration.name = some d.name := by
    rw [List.getElem?_concat_length, Option.map_some]
  have hlength : (c.insert d).types.length = c.types.length + 1 := by simp [insert]
  unfold numbersOf Catalog.ids Catalog.get?
  rw [hlength, List.range_succ, List.filter_append]
  congr 1
  · exact List.filter_congr hold
  · by_cases h : name = d.name
    · simp [insert, h]
    · simp [insert, h, Ne.symm h]

theorem IsCoherent.toCatalog_insert (h : c.IsCoherent) {d : Declaration}
    (hd : c.byKey.lookup d.key = none) :
    ((c.insert d).toCatalog, c.types.length) = c.toCatalog.push d := by
  rw [h.byKey] at hd
  exact (Catalog.push_of_none hd).symm

/-- **What a declaration of a new key keeps**: it enters both indexes with the number that searches
find from then on. -/
theorem IsCoherent.insert (h : c.IsCoherent) {d : Declaration}
    (hd : c.byKey.lookup d.key = none) : (c.insert d).IsCoherent := by
  have hpush : (c.insert d).toCatalog = (c.toCatalog.push d).1 :=
    congrArg Prod.fst (h.toCatalog_insert hd)
  refine ⟨?_, fun key => ?_, fun name => ?_⟩
  · rw [hpush]
    exact Catalog.push_fst_keys_nodup h.keys d
  · rw [h.byKey] at hd
    have hsearch : (c.insert d).idOf? key =
        (c.idOf? key).or (if d.key = key then some c.types.length else none) := by
      simp [IndexedCatalog.insert, Catalog.idOf?, List.findIdx?_append, List.findIdx?_singleton]
    rw [lookup_byKey_insert, h.byKey, hsearch]
    by_cases hkey : key = d.key
    · rw [if_pos hkey, if_pos hkey.symm, hkey, hd, Option.none_or]
    · rw [if_neg hkey, if_neg (Ne.symm hkey), Option.or_none]
  · rw [named_insert, numbersOf_insert, h.byName]

theorem IsCoherent.push (h : c.IsCoherent) (d : Declaration) : (c.push d).1.IsCoherent := by
  unfold IndexedCatalog.push
  cases hd : c.byKey.lookup d.key with
  | some id => exact h
  | none => exact h.insert hd

theorem IsCoherent.toCatalog_push (h : c.IsCoherent) (d : Declaration) :
    ((c.push d).1.toCatalog, (c.push d).2) = c.toCatalog.push d := by
  unfold IndexedCatalog.push
  cases hd : c.byKey.lookup d.key with
  | some id =>
    rw [h.byKey] at hd
    exact (Catalog.push_of_some hd).symm
  | none => exact h.toCatalog_insert hd

/-- **What pushes in a row keep**, and the catalog that they leave. -/
theorem IsCoherent.pushAll : ∀ (ds : List Declaration) {c : IndexedCatalog}, c.IsCoherent →
    (c.pushAll ds).IsCoherent ∧
      (c.pushAll ds).toCatalog = ds.foldl (fun c d => (c.push d).1) c.toCatalog
  | [], _, h => ⟨h, rfl⟩
  | d :: ds, c, h => by
    obtain ⟨hall, hcatalog⟩ := IsCoherent.pushAll ds (h.push d)
    refine ⟨hall, hcatalog.trans ?_⟩
    rw [List.foldl_cons, ← h.toCatalog_push d]

/-- The sources enter as if they were pushed. -/
theorem ofDeclarations_eq_pushAll (ds : Declarations) :
    ofDeclarations ds = pushAll { consts := ds.consts } ds.types :=
  congrArg (fun f => ds.types.foldl f _) (funext fun c => funext fun d => add_eq_push c d)

theorem isCoherent_ofDeclarations (ds : Declarations) : (ofDeclarations ds).IsCoherent :=
  ofDeclarations_eq_pushAll ds ▸ (IsCoherent.pushAll ds.types (isCoherent_empty ds.consts)).1

theorem toCatalog_ofDeclarations (ds : Declarations) :
    (ofDeclarations ds).toCatalog = Catalog.ofDeclarations ds :=
  ofDeclarations_eq_pushAll ds ▸ (IsCoherent.pushAll ds.types (isCoherent_empty ds.consts)).2

theorem types_prefix_pushAll : ∀ (ds : List Declaration) {c : IndexedCatalog}, c.IsCoherent →
    c.types <+: (c.pushAll ds).types
  | [], _, _ => List.prefix_rfl
  | d :: ds, c, h => by
    have hfirst : (c.push d).1.toCatalog = (c.toCatalog.push d).1 :=
      congrArg Prod.fst (h.toCatalog_push d)
    exact (hfirst ▸ Catalog.types_prefix_push c.toCatalog d).trans
      (types_prefix_pushAll ds (h.push d))

/-! ### Lookups -/

theorem find?_range_length {α : Type} (l : List α) (p : α → Bool) :
    (List.range l.length).find? (fun i => (l[i]?.map p).getD false) = l.findIdx? p := by
  ext i
  rw [List.find?_range_eq_some, List.findIdx?_eq_some_iff_getElem]
  constructor
  · rintro ⟨hp, hi, hbefore⟩
    have hlt := List.mem_range.1 hi
    refine ⟨hlt, by simpa [hlt] using hp, fun j hj => ?_⟩
    have hjlt := Nat.lt_trans hj hlt
    simpa [hjlt] using hbefore j hj
  · rintro ⟨hlt, hp, hbefore⟩
    refine ⟨by simpa [hlt] using hp, List.mem_range.2 hlt, fun j hj => ?_⟩
    have hjlt := Nat.lt_trans hj hlt
    simpa [hjlt] using hbefore j hj

/-- The first number of a name that stands in a package is what a search for both finds. -/
theorem IsCoherent.find?_named (h : c.IsCoherent) (package name : String) :
    (c.named name).find? (c.standsIn package) =
      c.types.findIdx? (Catalog.matchesLoosely package name) := by
  have hboth : ∀ id, decide ((c.get? id).map Declaration.name = some name ∧
      c.standsIn package id = true) =
        ((c.types[id]?).map (Catalog.matchesLoosely package name)).getD false := by
    intro id
    unfold standsIn Catalog.get? Catalog.matchesLoosely
    cases c.types[id]? with
    | none => rfl
    | some d =>
      rw [Bool.eq_iff_iff]
      simp [and_assoc]
  rw [h.byName, numbersOf, List.find?_filter, ← find?_range_length]
  simp only [decide_eq_true_eq, hboth]
  rfl

/-- **Lookups with indexes find what searches find.** -/
theorem IsCoherent.lookup_eq (h : c.IsCoherent) (package name : String) :
    c.lookup package name = c.toCatalog.lookup package name := by
  rw [IndexedCatalog.lookup_eq, h.byKey, h.find?_named]
  rfl

theorem IsCoherent.idOfType?_eq (h : c.IsCoherent) (t : GoType) :
    c.idOfType? t = c.toCatalog.idOfType? t := by
  unfold IndexedCatalog.idOfType?
  split
  · rename_i ht
    rw [h.lookup_eq, Catalog.idOfType?, ht]
  · rename_i hno
    rw [Catalog.idOfType?]
    split
    · exact absurd ‹_› (hno _ _ _ _)
    · rfl

theorem IsCoherent.lookup_key (h : c.IsCoherent) {id : Nat} {d : Declaration}
    (hd : c.get? id = some d) : c.lookup d.package.identity d.name = some id := by
  rw [h.lookup_eq]
  exact Catalog.lookup_of_idOf? ((Catalog.idOf?_eq_some_iff h.keys).2 ⟨d, hd, rfl⟩)

theorem IsCoherent.lookup_push (h : c.IsCoherent) (d : Declaration) :
    (c.push d).1.lookup d.package.identity d.name = some (c.push d).2 := by
  rw [(h.push d).lookup_eq]
  obtain ⟨hcatalog, hid⟩ := Prod.mk.inj (h.toCatalog_push d)
  rw [hcatalog, hid]
  exact Catalog.lookup_of_idOf? (Catalog.idOf?_push _ d)

/-- **The indexes stay coherent.** After the declarations of the sources have entered and any others
were pushed, no key occurs twice and the indexes hold what searches find. Every declaration is found
under its own key, and it is so after all further pushes, which leave it and its number as they are.
It is the first one with its key that was given. A name that has no key in a package is found
exactly at the declaration of the name that has no import path and stands in a package of the path's
last name. With all this the indexed catalog is the catalog of the same declarations, and both
answer alike. -/
theorem coherent_after_pushes (ds : Declarations) (pushed later : List Declaration) :
    let c := (ofDeclarations ds).pushAll pushed
    let c' := c.pushAll later
    c.IsCoherent ∧ c.keys.Nodup ∧
    (∀ id d, c.get? id = some d → c.lookup d.package.identity d.name = some id ∧
      c'.get? id = some d ∧ c'.lookup d.package.identity d.name = some id) ∧
    c.types <+: c'.types ∧
    (∀ key, c.types.find? (·.key = key) = (ds.types ++ pushed).find? (·.key = key)) ∧
    (∀ package name, (package, name) ∉ c.keys → ∀ id, c.lookup package name = some id ↔
      ∃ d, c.get? id = some d ∧ d.name = name ∧ d.package.importPath = none ∧
        d.package.name = lastSegment package) ∧
    (∀ d, (c.push d).1.lookup d.package.identity d.name = some (c.push d).2) ∧
    c.toCatalog = pushed.foldl (fun c d => (c.push d).1) (Catalog.ofDeclarations ds) ∧
    (∀ package name, c.lookup package name = c.toCatalog.lookup package name) ∧
    ∀ t, c.idOfType? t = c.toCatalog.idOfType? t := by
  intro c c'
  obtain ⟨hc, hcatalog⟩ := IsCoherent.pushAll pushed (isCoherent_ofDeclarations ds)
  have hc' : c'.IsCoherent := (IsCoherent.pushAll later hc).1
  have hkept : c.types <+: c'.types := types_prefix_pushAll later hc
  rw [toCatalog_ofDeclarations] at hcatalog
  refine ⟨hc, hc.keys, fun id d hd => ?_, hkept, fun key => ?_, fun package name hno id => ?_,
    hc.lookup_push, hcatalog, hc.lookup_eq, hc.idOfType?_eq⟩
  · have hd' : c'.get? id = some d := by
      obtain ⟨more, hmore⟩ := hkept
      have hlt : id < c.types.length := Catalog.lt_of_get? hd
      rw [Catalog.get?, ← hmore, List.getElem?_append_left hlt]
      exact hd
    exact ⟨hc.lookup_key hd, hd', hc'.lookup_key hd'⟩
  · have hfirst : ∀ key, (Catalog.ofDeclarations ds).types.find? (·.key = key) =
        ds.types.find? (·.key = key) := fun key => Catalog.find?_foldl_push key ds.types _
    calc c.types.find? (·.key = key)
        = ((Catalog.ofDeclarations ds).types ++ pushed).find? (·.key = key) :=
          hcatalog ▸ Catalog.find?_foldl_push key pushed _
      _ = (ds.types ++ pushed).find? (·.key = key) := by
          rw [List.find?_append, List.find?_append, hfirst]
  · exact (hc.lookup_eq package name).symm ▸ Catalog.lookup_loose_iff hc.keys hno

/-- A struct in a package without a module file. -/
def tillStruct (name package path : String) : Declaration :=
  { name, package := ⟨package, none⟩, path := ⟨path⟩, line := 1, place := ⟨0, 0, 0⟩,
    body := .record [] }

/-- Two files declare `User` in one package, and a third one `Money` in another. -/
def till : Declarations :=
  { types := [tillStruct "User" "models" "a.go", tillStruct "User" "models" "b.go",
      tillStruct "Money" "money" "money.go"] }

theorem till_coherent :
    let page := tillStruct "PageUser" "models" "a.go"
    let c := (ofDeclarations till).pushAll [page]
    c.types = [tillStruct "User" "models" "a.go", tillStruct "Money" "money" "money.go", page] ∧
    c.lookup "models" "PageUser" = some 2 ∧ (c.pushAll [page]).lookup "models" "PageUser" = some 2 ∧
    ("example.com/lib/money", "Money") ∉ c.keys ∧
    c.lookup "example.com/lib/money" "Money" = some 1 ∧
    c.lookup "example.com/lib/cash" "Money" = none := by
  intro page c
  obtain ⟨-, -, hfound, -, -, hloose, -⟩ := coherent_after_pushes till [page] [page]
  have hno : ("example.com/lib/money", "Money") ∉ c.keys := by decide
  obtain ⟨hpage, -, hpage'⟩ := hfound 2 page rfl
  exact ⟨rfl, hpage, hpage', hno,
    (hloose _ _ hno 1).2 ⟨tillStruct "Money" "money" "money.go", rfl, rfl, rfl, by decide⟩,
    by decide⟩

end IndexedCatalog

end GoSchema
