/-
# Looking declarations up

What it means that a type refers to a declaration of the catalog. The number of the declaration
comes from the package and the name alone, and no lookup reads the body of a declaration: catalogs
whose declarations have the same heads answer alike, and a catalog that others are appended to keeps
its answers, unless one of the new declarations has the key that is asked for.

Key definitions: `Declaration.head`, `Catalog.heads`.
Key theorems: `exists_get?_of_heads`, `get?_cases_of_heads`, `heads_settleAll`, `heads_flatten`,
`find_eq_some_iff`, `lookup_eq_of_heads`, `idOf?_append`, `heads_push`.
-/
import GoSchema.Catalog.Flatten
import GoSchema.Proofs.Outcome

namespace GoSchema

/-- A declaration without its body. -/
def Declaration.head (d : Declaration) : Declaration := { d with body := .record [] }

/-- A declaration is its head with a body. -/
theorem Declaration.eq_of_head {d d' : Declaration} (h : d'.head = d.head) :
    d' = { d with body := d'.body } := by
  calc d' = { d'.head with body := d'.body } := rfl
    _ = { d.head with body := d'.body } := by rw [h]

namespace Catalog

variable {c c' : Catalog}

/-- The declarations of a catalog without their bodies. -/
def heads (c : Catalog) : List Declaration := c.types.map Declaration.head

theorem heads_length (c : Catalog) : c.heads.length = c.types.length := by
  simp [heads]

theorem heads_getElem? (c : Catalog) (id : Nat) : c.heads[id]? = (c.get? id).map .head := by
  simp [heads, get?]

/-- Catalogs with the same heads have declarations of the same numbers. -/
theorem exists_get?_of_heads (h : c'.heads = c.heads) {id : Nat} {d' : Declaration}
    (hd' : c'.get? id = some d') : ∃ d, c.get? id = some d ∧ d.head = d'.head := by
  have hhead : c.heads[id]? = some d'.head := by
    rw [← h, heads_getElem?, hd']
    rfl
  rwa [heads_getElem?, Option.map_eq_some_iff] at hhead

/-- Where heads are appended, a declaration is an old one, or its head is a new one. -/
theorem get?_cases_of_heads {ext : List Declaration} (h : c'.heads = c.heads ++ ext) {id : Nat}
    {d' : Declaration} (hd' : c'.get? id = some d') :
    (∃ d, c.get? id = some d ∧ d.head = d'.head) ∨ d'.head ∈ ext := by
  have hhead : (c.heads ++ ext)[id]? = some d'.head := by
    rw [← h, heads_getElem?, hd']
    rfl
  rcases Nat.lt_or_ge id c.heads.length with hlt | hge
  · rw [List.getElem?_append_left hlt, heads_getElem?, Option.map_eq_some_iff] at hhead
    exact .inl hhead
  · rw [List.getElem?_append_right hge] at hhead
    exact .inr (List.mem_of_getElem? hhead)

theorem exists_get?_of_heads_append {ext : List Declaration} (h : c'.heads = c.heads ++ ext)
    {id : Nat} {d : Declaration} (hd : c.get? id = some d) :
    ∃ d', c'.get? id = some d' ∧ d'.head = d.head := by
  have hlt : id < c.heads.length := by
    rw [heads_length]
    exact (List.getElem?_eq_some_iff.1 hd).1
  have hhead : c'.heads[id]? = some d.head := by
    rw [h, List.getElem?_append_left hlt, heads_getElem?, hd]
    rfl
  rwa [heads_getElem?, Option.map_eq_some_iff] at hhead

theorem lt_of_get? {id : Nat} {d : Declaration} (h : c.get? id = some d) : id < c.types.length :=
  (List.getElem?_eq_some_iff.1 h).1

theorem mem_ids_of_get? {id : Nat} {d : Declaration} (h : c.get? id = some d) : id ∈ c.ids :=
  List.mem_range.2 (lt_of_get? h)

/-! ### Changes that keep the heads -/

theorem heads_setBody (c : Catalog) (id : Nat) (body : Body) :
    (c.setBody id body).heads = c.heads := by
  apply List.ext_getElem?
  intro i
  by_cases hi : id = i
  · subst hi
    simp only [heads, setBody, modify, List.getElem?_map, List.getElem?_modify_eq,
      Option.map_eq_map, Option.map_map]
    rfl
  · simp [heads, setBody, modify, hi]

theorem get?_setBody_self {id : Nat} {d : Declaration} (h : c.get? id = some d) (body : Body) :
    (c.setBody id body).get? id = some { d with body } := by
  unfold get? at h
  simp [setBody, modify, get?, h]

theorem get?_setBody_of_none {id : Nat} (h : c.get? id = none) (body : Body) :
    (c.setBody id body).get? id = none := by
  unfold get? at h
  simp [setBody, modify, get?, h]

theorem get?_setBody_ne {id i : Nat} (h : id ≠ i) (body : Body) :
    (c.setBody id body).get? i = c.get? i := by
  simp [setBody, modify, get?, h]

theorem get?_settleBody_ne {id i : Nat} (h : id ≠ i) : (c.settleBody id).get? i = c.get? i := by
  unfold settleBody
  split
  · exact get?_setBody_ne h _
  · rfl

theorem get?_settleAll_of_not_mem : ∀ {ids : List Nat} {c w : Catalog}, c.settleAll ids = .ok w →
    ∀ {i : Nat}, i ∉ ids → w.get? i = c.get? i
  | [], c, w, h, i, _ => by rw [← Except.ok.inj h]
  | id :: ids, c, w, h, i, hi => by
    obtain ⟨hne, hi⟩ := List.ne_and_not_mem_of_not_mem_cons hi
    unfold settleAll at h
    dsimp only at h
    split at h
    · exact nomatch h
    · rw [get?_settleAll_of_not_mem h hi, get?_settleBody_ne (Ne.symm hne)]

theorem consts_settleAll : ∀ {ids : List Nat} {c w : Catalog}, c.settleAll ids = .ok w →
    w.consts = c.consts
  | [], c, w, h => by rw [← Except.ok.inj h]
  | id :: ids, c, w, h => by
    unfold settleAll at h
    dsimp only at h
    split at h
    · exact nomatch h
    · rw [consts_settleAll h, settleBody]
      split <;> rfl

theorem heads_settleAll : ∀ {ids : List Nat} {c w : Catalog}, c.settleAll ids = .ok w →
    w.heads = c.heads
  | [], _, _, h => by rw [Except.ok.inj h]
  | id :: ids, c, w, h => by
    have hbody : (c.settleBody id).heads = c.heads := by
      unfold settleBody
      split
      · exact heads_setBody _ _ _
      · rfl
    unfold settleAll at h
    dsimp only at h
    split at h
    · exact nomatch h
    · rw [heads_settleAll h, hbody]

theorem heads_foldl_setBody : ∀ (done : Flattened) (c : Catalog),
    (done.foldl (fun c (id, fields) => c.setBody id (.record fields)) c).heads = c.heads
  | [], _ => rfl
  | (id, fields) :: done, c => by
    rw [List.foldl_cons, heads_foldl_setBody done, heads_setBody]

theorem heads_flatten (h : c.flatten = .ok c') : c'.heads = c.heads := by
  obtain ⟨done, -, rfl⟩ := Outcome.map_eq_ok_iff.1 h
  exact heads_foldl_setBody done c

theorem idOf?_eq_heads (c : Catalog) (key : String × String) :
    c.idOf? key = c.heads.findIdx? fun d => d.key = key := by
  simp only [idOf?, heads, List.findIdx?_map]
  rfl

theorem lookup_eq_heads (c : Catalog) (package name : String) :
    c.lookup package name =
      (c.heads.findIdx? fun d => d.key = (package, name)).or
        (c.heads.findIdx? (matchesLoosely package name)) := by
  rw [lookup, idOf?_eq_heads]
  congr 1
  simp only [heads, List.findIdx?_map]
  rfl

theorem idOfType?_named (c : Catalog) (package qualifier : Option String) (name : String)
    (args : List GoType) :
    c.idOfType? (.named package qualifier name args) =
      package.bind fun p => c.lookup p name := by
  cases package <;> rfl

theorem idOf?_eq_of_heads (h : c'.heads = c.heads) (key : String × String) :
    c'.idOf? key = c.idOf? key := by
  rw [idOf?_eq_heads, idOf?_eq_heads, h]

theorem lookup_eq_of_heads (h : c'.heads = c.heads) (package name : String) :
    c'.lookup package name = c.lookup package name := by
  rw [lookup_eq_heads, lookup_eq_heads, h]

theorem keys_eq_of_heads (h : c'.heads = c.heads) : c'.keys = c.keys := by
  have hkeys : ∀ x : Catalog, x.keys = x.heads.map Declaration.key := fun x => by
    rw [heads, List.map_map]
    rfl
  rw [hkeys, hkeys, h]

theorem idOfType?_eq_of_heads (h : c'.heads = c.heads) (t : GoType) :
    c'.idOfType? t = c.idOfType? t := by
  unfold idOfType?
  split
  · exact lookup_eq_of_heads h _ _
  · rfl

/-! ### What a lookup finds -/

theorem find_eq_some_iff {t : GoType} {id : Nat} {d : Declaration} :
    c.find t = some (id, d) ↔ c.idOfType? t = some id ∧ c.get? id = some d := by
  simp only [find, Option.bind_eq_some_iff, Option.map_eq_some_iff, Prod.mk.injEq]
  constructor
  · rintro ⟨i, hi, e, he, rfl, rfl⟩
    exact ⟨hi, he⟩
  · rintro ⟨hi, hd⟩
    exact ⟨id, hi, d, hd, rfl, rfl⟩

theorem mem_of_find {t : GoType} {id : Nat} {d : Declaration} (h : c.find t = some (id, d)) :
    d ∈ c.types :=
  List.mem_of_getElem? (find_eq_some_iff.1 h).2

theorem exists_of_idOf? {key : String × String} {id : Nat} (h : c.idOf? key = some id) :
    ∃ d, c.get? id = some d ∧ d.key = key := by
  obtain ⟨hlt, hkey, -⟩ := List.findIdx?_eq_some_iff_getElem.1 h
  exact ⟨c.types[id], List.getElem?_eq_getElem hlt, by simpa using hkey⟩

theorem lookup_of_idOf? {package name : String} {id : Nat} (h : c.idOf? (package, name) = some id) :
    c.lookup package name = some id := by
  simp [lookup, h]

theorem name_of_lookup {package name : String} {id : Nat} {d : Declaration}
    (hl : c.lookup package name = some id) (hd : c.get? id = some d) : d.name = name := by
  rcases Option.or_eq_some_iff.1 hl with hk | ⟨-, hloose⟩
  · obtain ⟨e, he, hkey⟩ := exists_of_idOf? hk
    obtain rfl := Option.some.inj (hd.symm.trans he)
    exact congrArg Prod.snd hkey
  · obtain ⟨hlt, hmatch, -⟩ := List.findIdx?_eq_some_iff_getElem.1 hloose
    obtain rfl := Option.some.inj (hd.symm.trans (List.getElem?_eq_getElem hlt))
    simp only [matchesLoosely, Bool.and_eq_true, decide_eq_true_eq] at hmatch
    exact hmatch.1.1

/-! ### Catalogs that grow -/

/-- A key that is there keeps its number, and a new key gets a number behind the old ones. -/
theorem idOf?_append {ext : List Declaration} (h : c'.heads = c.heads ++ ext)
    (key : String × String) :
    c'.idOf? key =
      (c.idOf? key).or ((ext.findIdx? fun d => d.key = key).map (· + c.types.length)) := by
  rw [idOf?_eq_heads, idOf?_eq_heads, h, List.findIdx?_append, heads_length]

theorem idOf?_append_of_some {ext : List Declaration} (h : c'.heads = c.heads ++ ext)
    {key : String × String} {id : Nat} (hk : c.idOf? key = some id) : c'.idOf? key = some id := by
  rw [idOf?_append h, hk]
  rfl

theorem length_le_of_idOf?_append {ext : List Declaration} (h : c'.heads = c.heads ++ ext)
    {key : String × String} {id : Nat} (hk : c.idOf? key = none) (hk' : c'.idOf? key = some id) :
    c.types.length ≤ id := by
  rw [idOf?_append h, hk, Option.none_or, Option.map_eq_some_iff] at hk'
  obtain ⟨i, -, rfl⟩ := hk'
  exact Nat.le_add_left _ _

/-- A name that is found keeps its declaration, unless a new declaration has just its key. -/
theorem lookup_append_of_some {ext : List Declaration} (h : c'.heads = c.heads ++ ext)
    {package name : String} {id : Nat} (hl : c.lookup package name = some id)
    (hnew : c.idOf? (package, name) = none → c'.idOf? (package, name) = none) :
    c'.lookup package name = some id := by
  rcases Option.or_eq_some_iff.1 hl with hk | ⟨hk, hloose⟩
  · exact lookup_of_idOf? (idOf?_append_of_some h hk)
  · rw [lookup_eq_heads, ← idOf?_eq_heads, hnew hk, Option.none_or, h, List.findIdx?_append]
    have : c.heads.findIdx? (matchesLoosely package name) = some id := by
      rw [← hloose]
      simp only [heads, List.findIdx?_map]
      rfl
    rw [this]
    rfl

theorem length_le_of_lookup_append {ext : List Declaration} (h : c'.heads = c.heads ++ ext)
    {package name : String} {id : Nat} (hl : c.lookup package name = none)
    (hl' : c'.lookup package name = some id) : c.types.length ≤ id := by
  rw [lookup_eq_heads, Option.or_eq_none_iff] at hl
  rw [lookup_eq_heads, h, List.findIdx?_append, List.findIdx?_append, hl.1, hl.2, Option.none_or,
    Option.none_or, Option.or_eq_some_iff, heads_length] at hl'
  rcases hl' with hl' | ⟨-, hl'⟩
  all_goals
    obtain ⟨i, -, rfl⟩ := Option.map_eq_some_iff.1 hl'
    exact Nat.le_add_left _ _

/-- A name that finds one of the old declarations found it before. -/
theorem lookup_of_append {ext : List Declaration} (h : c'.heads = c.heads ++ ext)
    {package name : String} {id : Nat} (hl : c'.lookup package name = some id)
    (hlt : id < c.types.length) : c.lookup package name = some id := by
  cases hbefore : c.lookup package name with
  | none => exact absurd hlt (Nat.not_lt.2 (length_le_of_lookup_append h hbefore hl))
  | some i =>
    have hnew : c.idOf? (package, name) = none → c'.idOf? (package, name) = none := by
      intro hno
      cases hkey : c'.idOf? (package, name) with
      | none => rfl
      | some j =>
        -- a new declaration of this key would have been found
        obtain rfl := Option.some.inj ((lookup_of_idOf? hkey).symm.trans hl)
        exact absurd hlt (Nat.not_lt.2 (length_le_of_idOf?_append h hno hkey))
    exact (lookup_append_of_some h hbefore hnew).symm.trans hl

theorem push_of_some {d : Declaration} {id : Nat} (h : c.idOf? d.key = some id) :
    c.push d = (c, id) := by
  simp [push, h]

theorem push_of_none {d : Declaration} (h : c.idOf? d.key = none) :
    c.push d = ({ c with types := c.types ++ [d] }, c.types.length) := by
  simp [push, h]

theorem heads_push (c : Catalog) (d : Declaration) :
    (c.push d).1.heads = c.heads ∨ (c.push d).1.heads = c.heads ++ [d.head] := by
  cases h : c.idOf? d.key with
  | some id => exact .inl (by rw [push_of_some h])
  | none => exact .inr (by rw [push_of_none h]; simp [heads])

theorem get?_push {d : Declaration} {id : Nat} {e : Declaration}
    (h : (c.push d).1.get? id = some e) : c.get? id = some e ∨ e = d := by
  cases hk : c.idOf? d.key with
  | some i =>
    rw [push_of_some hk] at h
    exact .inl h
  | none =>
    rw [push_of_none hk] at h
    unfold get? at h ⊢
    rcases Nat.lt_or_ge id c.types.length with hlt | hge
    · rw [List.getElem?_append_left hlt] at h
      exact .inl h
    · rw [List.getElem?_append_right hge] at h
      exact .inr (List.mem_singleton.1 (List.mem_of_getElem? h))

theorem idOf?_push (c : Catalog) (d : Declaration) :
    (c.push d).1.idOf? d.key = some (c.push d).2 := by
  cases h : c.idOf? d.key with
  | some id => rw [push_of_some h, h]
  | none =>
    rw [push_of_none h, idOf?, List.findIdx?_append]
    rw [idOf?] at h
    simp [h]

end Catalog

end GoSchema
