/-
# The fields of instances

When a run of instantiation has gone through its queue, every struct that is not generic has its
fields with each reference to a generic struct replaced by a reference to an instance, at any depth
of a type. What such a reference finds should be the generic struct with just those arguments put
in, and `Faithful` says so. It is so exactly when names keep apart what the references mean
(`faithful_iff`): no declared type has the key of an instance, no written reference to a generic
struct reads like one, and two references have the same key only if they are to the same generic
struct with arguments that differ in pointers and qualifiers at most.

Key definitions: `GoType.essence`, `Instances.Becomes`, `Instances.NamesApart`,
`Instances.Faithful`, `Instances.Source`, `Instances.Inv`.
Key theorems: `Inv.concrete`, `Inv.step`, `Inv.run`, `faithful_iff`.
-/
import GoSchema.Proofs.InstanceTable
import GoSchema.Proofs.Pointwise

namespace GoSchema

namespace GoType

mutual

/-- A type without pointers and without the qualifiers that its names are written with. -/
def essence : GoType → GoType
  | named package _ name args => named package none name (essences args)
  | pointer t => essence t
  | slice t => slice (essence t)
  | array t => array (essence t)
  | map k v => map (essence k) (essence v)
  | any => any
  | other text => other text

/-- The types of a list without pointers and qualifiers. -/
def essences : List GoType → List GoType
  | [] => []
  | t :: ts => essence t :: essences ts

end

end GoType

namespace Instances

/-- The reference to the instance of a generic struct for arguments. -/
def instanceRef (generic : Declaration) (args : List GoType) : GoType :=
  .named (some (instanceKey generic args).1) none (instanceKey generic args).2 []

mutual

/-- A type with its references to generic structs of `c` replaced, from the inside out, by
references to the instances in the table. -/
inductive Becomes (c : Catalog) (table : Table) : GoType → GoType → Prop
  | pointer {t u : GoType} : Becomes c table t u → Becomes c table (.pointer t) (.pointer u)
  | slice {t u : GoType} : Becomes c table t u → Becomes c table (.slice t) (.slice u)
  | array {t u : GoType} : Becomes c table t u → Becomes c table (.array t) (.array u)
  | map {k k' v v' : GoType} : Becomes c table k k' → Becomes c table v v' →
      Becomes c table (.map k v) (.map k' v')
  | any : Becomes c table .any .any
  | other (text : String) : Becomes c table (.other text) (.other text)
  | name (package qualifier : Option String) (name : String) :
      Becomes c table (.named package qualifier name []) (.named package qualifier name [])
  | plain {package qualifier : Option String} {name : String} {t : GoType} {ts us : List GoType} :
      genericOf? c package name = none → BecomeAll c table (t :: ts) us →
      Becomes c table (.named package qualifier name (t :: ts)) (.named package qualifier name us)
  | generic {package qualifier : Option String} {name : String} {t : GoType} {ts us : List GoType}
      {id made : Nat} {d : Declaration} : genericOf? c package name = some (id, d) →
      BecomeAll c table (t :: ts) us → ((id, us), made) ∈ table →
      Becomes c table (.named package qualifier name (t :: ts)) (instanceRef d us)

/-- The types of a list with their references replaced. -/
inductive BecomeAll (c : Catalog) (table : Table) : List GoType → List GoType → Prop
  | nil : BecomeAll c table [] []
  | cons {t u : GoType} {ts us : List GoType} : Becomes c table t u → BecomeAll c table ts us →
      BecomeAll c table (t :: ts) (u :: us)

end

/-- Fields with the references in their types replaced; nothing else of a field changes. -/
def FieldsBecome (c : Catalog) (table : Table) : List Field → List Field → Prop :=
  List.Forall₂ fun f g => g = { f with type := g.type } ∧ Becomes c table f.type g.type

/-! ### Faithful instantiation -/

/-- The names of instances keep apart what they stand for. -/
structure NamesApart (c : Catalog) (table : Table) : Prop where
  /-- No declared type has the key of an instance. -/
  free : ∀ e ∈ table, ∀ d ∈ c.get? e.1.1, instanceKey d e.1.2 ∉ c.keys
  /-- No reference to a generic struct reads like one to an instance. -/
  unread : ∀ e ∈ table, ∀ d ∈ c.get? e.1.1,
    genericOf? c (some (instanceKey d e.1.2).1) (instanceKey d e.1.2).2 = none
  /-- Only instances of one generic struct for the same arguments, up to pointers and qualifiers,
  have the same key. -/
  apart : ∀ e ∈ table, ∀ e' ∈ table, ∀ d ∈ c.get? e.1.1, ∀ d' ∈ c.get? e'.1.1,
    instanceKey d e.1.2 = instanceKey d' e'.1.2 →
    e.1.1 = e'.1.1 ∧ GoType.essences e.1.2 = GoType.essences e'.1.2

instance (c : Catalog) (table : Table) : Decidable (NamesApart c table) :=
  decidable_of_iff
    ((∀ e ∈ table, ∀ d ∈ c.get? e.1.1, instanceKey d e.1.2 ∉ c.keys) ∧
      (∀ e ∈ table, ∀ d ∈ c.get? e.1.1,
        genericOf? c (some (instanceKey d e.1.2).1) (instanceKey d e.1.2).2 = none) ∧
      (∀ e ∈ table, ∀ e' ∈ table, ∀ d ∈ c.get? e.1.1, ∀ d' ∈ c.get? e'.1.1,
        instanceKey d e.1.2 = instanceKey d' e'.1.2 →
        e.1.1 = e'.1.1 ∧ GoType.essences e.1.2 = GoType.essences e'.1.2))
    ⟨fun ⟨free, unread, apart⟩ => ⟨free, unread, apart⟩, fun ⟨free, unread, apart⟩ =>
      ⟨free, unread, apart⟩⟩

/-- What instantiation should come to, from the catalog `c`. -/
structure Faithful (c : Catalog) (s : Instances) : Prop where
  /-- A struct that is not generic has its references replaced, and nothing else. -/
  structs : ∀ id d, c.get? id = some d → d.isRecord = true → d.isGeneric = false →
    ∃ fields, s.catalog.get? id = some { d with body := .record fields } ∧
      FieldsBecome c s.known d.body.fields fields
  /-- A reference to an instance finds the fields of the generic struct with the arguments put in,
  up to pointers and qualifiers, and with the references in them replaced. -/
  instances : ∀ e ∈ s.known, ∃ generic, c.get? e.1.1 = some generic ∧
    ∃ d args fields, s.catalog.find (instanceRef generic e.1.2) = some (e.2, d) ∧
      GoType.essences args = GoType.essences e.1.2 ∧ d.body = .record fields ∧
      FieldsBecome c s.known (generic.body.fields.map (Field.subst generic.typeParams args)) fields
  /-- References share a declaration only if they mean the same. -/
  unshared : ∀ e ∈ s.known, ∀ e' ∈ s.known, e.2 = e'.2 →
    e.1.1 = e'.1.1 ∧ GoType.essences e.1.2 = GoType.essences e'.1.2
  /-- No reference shares a declaration with a declared type. -/
  undeclared : ∀ e ∈ s.known, c.types.length ≤ e.2
  /-- What refers to a generic struct goes on referring to it. -/
  generics : ∀ package name x, genericOf? c package name = some x →
    genericOf? s.catalog package name = some x

theorem Becomes.mono {c : Catalog} {table table' : Table} (hsub : table ⊆ table') {t u : GoType}
    (h : Becomes c table t u) : Becomes c table' t u := by
  induction h using Becomes.rec (motive_2 := fun ts us _ => BecomeAll c table' ts us) with
  | pointer _ ih => exact .pointer ih
  | slice _ ih => exact .slice ih
  | array _ ih => exact .array ih
  | map _ _ ihk ihv => exact .map ihk ihv
  | any => exact .any
  | other text => exact .other text
  | name => exact .name _ _ _
  | plain hg _ ih => exact .plain hg ih
  | generic hg _ hmem ih => exact .generic hg ih (hsub hmem)
  | nil => exact .nil
  | cons _ _ ih ihs => exact .cons ih ihs

theorem FieldsBecome.mono {c : Catalog} {table table' : Table} (hsub : table ⊆ table')
    {fs gs : List Field} (h : FieldsBecome c table fs gs) : FieldsBecome c table' fs gs :=
  h.imp fun _ _ ⟨heq, hb⟩ => ⟨heq, hb.mono hsub⟩

theorem BecomeAll.mono {c : Catalog} {table table' : Table} (hsub : table ⊆ table') :
    ∀ {ts us : List GoType}, BecomeAll c table ts us → BecomeAll c table' ts us
  | _, _, .nil => .nil
  | _, _, .cons h hs => .cons (h.mono hsub) (hs.mono hsub)

/-! ### The invariant of a run -/

/-- The fields that a struct of the catalog has before its references are replaced: those that it is
declared with, or those of a generic struct with arguments put in. -/
inductive Source (c : Catalog) (table : Table) (id : Nat) : List Field → Prop
  | declared {d : Declaration} : c.get? id = some d → d.isRecord = true → d.isGeneric = false →
      Source c table id d.body.fields
  | made {base : Nat} {args : List GoType} {d : Declaration} : ((base, args), id) ∈ table →
      c.types.length ≤ id → c.get? base = some d →
      Source c table id (d.body.fields.map (Field.subst d.typeParams args))

theorem Source.mono {c : Catalog} {table table' : Table} (hsub : table ⊆ table') {id : Nat}
    {fields : List Field} (h : Source c table id fields) : Source c table' id fields := by
  cases h with
  | declared hd hr hg => exact .declared hd hr hg
  | made hmem hle hd => exact .made (hsub hmem) hle hd

/-- A declaration with a source is no generic one of the catalog, and no other type than a
struct. -/
theorem Source.not_declared {c : Catalog} {table : Table} {id : Nat} {fields : List Field}
    (h : Source c table id fields) {d : Declaration} (hd : c.get? id = some d) :
    d.isGeneric = false ∧ d.isRecord = true ∧ fields = d.body.fields := by
  cases h with
  | declared hd' hr hg =>
    obtain rfl := Option.some.inj (hd'.symm.trans hd)
    exact ⟨hg, hr, rfl⟩
  | made _ hle _ => exact absurd (List.getElem?_eq_some_iff.1 hd).1 (by omega)

/-- What a declaration of a run from the catalog `c` may be: a generic struct or no struct, as it
was; a struct that is waiting, with the fields of its source; or one with the references in them
replaced. -/
def InPlace (c : Catalog) (table : Table) (waiting : List Nat) (id : Nat) (d : Declaration) :
    Prop :=
  (c.get? id = some d ∧ (d.isGeneric = true ∨ d.isRecord = false)) ∨
    ∃ source, Source c table id source ∧
      ((id ∈ waiting ∧ d.body = .record source) ∨
        ∃ fields, d.body = .record fields ∧ FieldsBecome c table source fields)

theorem InPlace.mono {c : Catalog} {table table' : Table} (hsub : table ⊆ table')
    {waiting waiting' : List Nat} {id : Nat} (hw : id ∈ waiting → id ∈ waiting') {d : Declaration}
    (h : InPlace c table waiting id d) : InPlace c table' waiting' id d := by
  rcases h with hold | ⟨source, hs, ⟨hid, hb⟩ | ⟨fields, hb, hf⟩⟩
  · exact .inl hold
  · exact .inr ⟨source, hs.mono hsub, .inl ⟨hw hid, hb⟩⟩
  · exact .inr ⟨source, hs.mono hsub, .inr ⟨fields, hb, hf.mono hsub⟩⟩

/-- The invariant of a run from the catalog `c`. The structs of the queue, and those in work, have a
source, and every declaration is what it may be. -/
structure Inv (c : Catalog) (busy : List Nat) (s : Instances) : Prop extends Framed c s where
  queued : ∀ id ∈ busy ++ s.queue, ∃ source, Source c s.known id source
  bodies : ∀ id d, s.catalog.get? id = some d → InPlace c s.known (busy ++ s.queue) id d

theorem NamesApart.anti {c : Catalog} {table table' : Table} (h : NamesApart c table')
    (hsub : table ⊆ table') : NamesApart c table where
  free e he := h.free e (hsub he)
  unread e he := h.unread e (hsub he)
  apart e he e' he' := h.apart e (hsub he) e' (hsub he')

theorem Framed.length_le {c : Catalog} {s : Instances} (h : Framed c s) :
    c.types.length ≤ s.catalog.types.length := by
  obtain ⟨ext, hext, -⟩ := h.heads
  rw [← Catalog.heads_length, ← Catalog.heads_length, hext, List.length_append]
  exact Nat.le_add_right _ _

theorem Framed.reference_eq {c : Catalog} {s : Instances} (h : Framed c s)
    {e : (Nat × List GoType) × Nat} (he : e ∈ s.known) {generic : Declaration}
    (hd : c.get? e.1.1 = some generic) : reference s.catalog e.2 = instanceRef generic e.1.2 := by
  obtain ⟨B, hB, -, hid⟩ := h.entries e he
  obtain rfl := Option.some.inj (hB.symm.trans hd)
  obtain ⟨d, hd, hkey⟩ := Catalog.exists_of_idOf? hid
  rw [reference, hd, instanceRef, ← hkey]
  rfl

namespace Inv

variable {c : Catalog} {busy : List Nat} {s : Instances}

theorem get?_generic (h : Inv c busy s) {id : Nat} {d : Declaration} :
    (c.get? id = some d ∧ d.isGeneric = true) ↔
      (s.catalog.get? id = some d ∧ d.isGeneric = true) := by
  constructor
  · rintro ⟨hd, hg⟩
    obtain ⟨d', hd', -⟩ := h.exists_get hd
    rcases h.bodies id d' hd' with ⟨hc, -⟩ | ⟨source, hsource, -⟩
    · obtain rfl := Option.some.inj (hd.symm.trans hc)
      exact ⟨hd', hg⟩
    · rw [(hsource.not_declared hd).1] at hg
      exact nomatch hg
  · rintro ⟨hd, hg⟩
    obtain ⟨B, hB, hhead⟩ := h.exists_generic hd hg
    rcases h.bodies id d hd with ⟨hc, -⟩ | ⟨source, hsource, -⟩
    · exact ⟨hc, hg⟩
    · have hBg := (hsource.not_declared hB).1
      rw [← Declaration.isGeneric_head, hhead, Declaration.isGeneric_head, hg] at hBg
      exact nomatch hBg

theorem exists_entry (h : Inv c busy s) {key : String × String} {id : Nat}
    (hc : c.idOf? key = none) (hs : s.catalog.idOf? key = some id) :
    ∃ e ∈ s.known, ∃ d, c.get? e.1.1 = some d ∧ instanceKey d e.1.2 = key := by
  obtain ⟨ext, hext, -⟩ := h.heads
  have hle := Catalog.length_le_of_idOf?_append hext hc hs
  have hnone : ∀ d, c.get? id ≠ some d := fun d hd =>
    absurd (List.getElem?_eq_some_iff.1 hd).1 (by omega)
  obtain ⟨x, hx, hkey⟩ := Catalog.exists_of_idOf? hs
  rcases h.bodies id x hx with ⟨hd, -⟩ | ⟨source, hsource, -⟩
  · exact absurd hd (hnone x)
  · cases hsource with
    | declared hd => exact absurd hd (hnone _)
    | made hmem =>
      obtain ⟨d, hd, -, hid⟩ := h.entries _ hmem
      obtain ⟨x', hx', hkey'⟩ := Catalog.exists_of_idOf? hid
      obtain rfl := Option.some.inj (hx.symm.trans hx')
      exact ⟨_, hmem, d, hd, hkey'.symm.trans hkey⟩

/-- **References to generic structs are those of the catalog** that the run started from. -/
theorem genericOf?_eq (h : Inv c busy s) (hn : NamesApart c s.known) (package : Option String)
    (name : String) : genericOf? s.catalog package name = genericOf? c package name := by
  obtain ⟨ext, hext, -⟩ := h.heads
  ext ⟨id, d⟩
  rw [genericOf?_eq_some_iff, genericOf?_eq_some_iff]
  constructor
  · rintro ⟨⟨p, rfl, hl⟩, hd, hg, hr⟩
    obtain ⟨hcd, -⟩ := h.get?_generic.2 ⟨hd, hg⟩
    have hlt : id < c.types.length := (List.getElem?_eq_some_iff.1 hcd).1
    exact ⟨⟨p, rfl, Catalog.lookup_of_append hext hl hlt⟩, hcd, hg, hr⟩
  · rintro ⟨⟨p, rfl, hl⟩, hd, hg, hr⟩
    refine ⟨⟨p, rfl, Catalog.lookup_append_of_some hext hl fun hcid => ?_⟩,
      (h.get?_generic.1 ⟨hd, hg⟩).1, hg, hr⟩
    -- an instance with that key would read like a reference to a generic struct
    by_contra hsid
    obtain ⟨j, hj⟩ := Option.ne_none_iff_exists'.1 hsid
    obtain ⟨e, he, B, hB, hkey⟩ := h.exists_entry hcid hj
    have hno := hn.unread e he B hB
    rw [hkey, genericOf?_eq_some_iff.2 ⟨⟨p, rfl, hl⟩, hd, hg, hr⟩] at hno
    exact nomatch hno

theorem mem_queue_snoc {id : Nat} (new : Nat) (hid : id ∈ busy ++ s.queue) :
    id ∈ busy ++ (s.queue ++ [new]) := by
  rw [← List.append_assoc]
  exact List.mem_append_left _ hid

theorem queued_snoc (h : Inv c busy s) {table : Table} (hsub : s.known ⊆ table) {new : Nat}
    (hnew : ∃ source, Source c table new source) :
    ∀ id ∈ busy ++ (s.queue ++ [new]), ∃ source, Source c table id source := by
  intro id hid
  rw [← List.append_assoc] at hid
  rcases List.mem_append.1 hid with hid | hid
  · obtain ⟨source, hs⟩ := h.queued id hid
    exact ⟨source, hs.mono hsub⟩
  · obtain rfl := List.mem_singleton.1 hid
    exact hnew

theorem addEntry (h : Inv c busy s) {made : List Nat} {e : (Nat × List GoType) × Nat}
    (hf : Framed c { s with known := s.known ++ [e], made, queue := s.queue ++ [e.2] })
    (hsource : ∃ source, Source c s.known e.2 source) :
    Inv c busy { s with known := s.known ++ [e], made, queue := s.queue ++ [e.2] } where
  toFramed := hf
  queued := by
    obtain ⟨source, hs⟩ := hsource
    exact h.queued_snoc (List.subset_append_left _ _)
      ⟨source, hs.mono (List.subset_append_left _ _)⟩
  bodies id d hd := (h.bodies id d hd).mono (List.subset_append_left _ _) (mem_queue_snoc e.2)

/-- Adding a declaration at the end of the catalog, with its entry. -/
theorem addDeclaration (h : Inv c busy s) {made : List Nat} {id : Nat} {args : List GoType}
    {generic d : Declaration} (hg : c.get? id = some generic)
    (hbody : d.body = .record (generic.body.fields.map (Field.subst generic.typeParams args)))
    (hf : Framed c
      { catalog := { s.catalog with types := s.catalog.types ++ [d] }
        known := s.known ++ [((id, args), s.catalog.types.length)]
        made
        queue := s.queue ++ [s.catalog.types.length] }) :
    Inv c busy
      { catalog := { s.catalog with types := s.catalog.types ++ [d] }
        known := s.known ++ [((id, args), s.catalog.types.length)]
        made
        queue := s.queue ++ [s.catalog.types.length] } := by
  have hsub : s.known ⊆ s.known ++ [((id, args), s.catalog.types.length)] :=
    List.subset_append_left _ _
  have hnew : Source c (s.known ++ [((id, args), s.catalog.types.length)]) s.catalog.types.length
      (generic.body.fields.map (Field.subst generic.typeParams args)) :=
    .made (List.mem_append_right _ (List.mem_singleton.2 rfl)) h.length_le hg
  refine ⟨hf, h.queued_snoc hsub ⟨_, hnew⟩, ?_⟩
  intro i x hx
  unfold Catalog.get? at hx
  rcases Nat.lt_or_ge i s.catalog.types.length with hlt | hge
  · rw [List.getElem?_append_left hlt] at hx
    exact (h.bodies i x hx).mono hsub (mem_queue_snoc _)
  · rw [List.getElem?_append_right hge] at hx
    have hi : i = s.catalog.types.length := by
      have := (List.getElem?_eq_some_iff.1 hx).1
      simp only [List.length_singleton] at this
      omega
    subst hi
    obtain rfl : d = x := by simpa using hx
    refine .inr ⟨_, hnew, .inl ⟨?_, hbody⟩⟩
    exact List.mem_append_right _ (List.mem_append_right _ (List.mem_singleton.2 rfl))

/-- **Asking for an instance** keeps the invariant, and the answer is in the table. -/
theorem instanceFor (h : Inv c busy s) {id : Nat} {generic : Declaration}
    (hd : c.get? id = some generic) (hg : generic.isGeneric = true) (args : List GoType)
    (hn : NamesApart c (s.instanceFor id generic args).2.known) :
    Inv c busy (s.instanceFor id generic args).2 ∧
      ((id, args), (s.instanceFor id generic args).1) ∈
        (s.instanceFor id generic args).2.known := by
  have hf := h.toFramed.instanceFor (h.get?_generic.1 ⟨hd, hg⟩).1 hg args
  unfold Instances.instanceFor at hn hf ⊢
  split at hn
  · rename_i made hk
    exact ⟨h, Pointwise.mem_of_lookup hk⟩
  · rename_i hk
    simp only [hk] at hf
    dsimp only
    refine ⟨?_, List.mem_append_right _ (List.mem_singleton.2 rfl)⟩
    generalize hx : instanceOf generic (s.made.count id + 1) args = x at hn hf ⊢
    have hkey : x.key = instanceKey generic args := by
      rw [← hx]
      exact key_instanceOf ..
    cases hid : s.catalog.idOf? x.key with
    | none =>
      rw [Catalog.push_of_none hid] at hf ⊢
      exact h.addDeclaration hd (by rw [← hx]; rfl) hf
    | some i =>
      rw [Catalog.push_of_some hid] at hf hn ⊢
      refine h.addEntry (e := ((id, args), i)) hf ?_
      obtain ⟨y, hy, hykey⟩ := Catalog.exists_of_idOf? hid
      rcases h.bodies i y hy with ⟨hc, -⟩ | ⟨source, hs, -⟩
      · -- a declared type would have the key of an instance
        refine absurd (List.mem_map_of_mem (List.mem_of_getElem? hc)) (?_ : y.key ∉ c.keys)
        rw [hykey, hkey]
        exact hn.free _ (List.mem_append_right _ (List.mem_singleton.2 rfl)) generic hd
      · exact ⟨source, hs⟩

end Inv

/-! ### Types, fields and steps -/

mutual

/-- **A rewritten type** has its references replaced by the table that it leaves. -/
theorem Inv.concrete {c : Catalog} {busy : List Nat} : ∀ (t : GoType) {s : Instances},
    Inv c busy s → NamesApart c (concrete s t).2.known →
    Inv c busy (concrete s t).2 ∧ Becomes c (concrete s t).2.known t (concrete s t).1
  | .pointer t, s, h, hn => by
    simp only [Instances.concrete] at hn ⊢
    obtain ⟨hi, hb⟩ := Inv.concrete t h hn
    exact ⟨hi, .pointer hb⟩
  | .slice t, s, h, hn => by
    simp only [Instances.concrete] at hn ⊢
    obtain ⟨hi, hb⟩ := Inv.concrete t h hn
    exact ⟨hi, .slice hb⟩
  | .array t, s, h, hn => by
    simp only [Instances.concrete] at hn ⊢
    obtain ⟨hi, hb⟩ := Inv.concrete t h hn
    exact ⟨hi, .array hb⟩
  | .map k v, s, h, hn => by
    simp only [Instances.concrete] at hn ⊢
    have hsub := known_subset_concrete (Instances.concrete s k).2 v
    obtain ⟨hk, hbk⟩ := Inv.concrete k h (hn.anti hsub)
    obtain ⟨hv, hbv⟩ := Inv.concrete v hk hn
    exact ⟨hv, .map (hbk.mono hsub) hbv⟩
  | .any, s, h, _ => by
    simp only [Instances.concrete]
    exact ⟨h, .any⟩
  | .other text, s, h, _ => by
    simp only [Instances.concrete]
    exact ⟨h, .other text⟩
  | .named package qualifier name [], s, h, _ => by
    simp only [Instances.concrete]
    exact ⟨h, .name package qualifier name⟩
  | .named package qualifier name (t :: ts), s, h, hn => by
    rw [Instances.concrete] at hn ⊢
    · dsimp only at hn ⊢
      split at hn
      · rename_i id generic hg
        dsimp only
        have hsub := known_subset_instanceFor (Instances.concreteAll s (t :: ts)).2 id generic
          (Instances.concreteAll s (t :: ts)).1
        obtain ⟨hi, hbs⟩ := Inv.concreteAll (t :: ts) h (hn.anti hsub)
        rw [hi.genericOf?_eq (hn.anti hsub)] at hg
        obtain ⟨-, hd, hgen, -⟩ := genericOf?_eq_some_iff.1 hg
        obtain ⟨hi', hmem⟩ := hi.instanceFor hd hgen (Instances.concreteAll s (t :: ts)).1 hn
        refine ⟨hi', ?_⟩
        rw [hi'.reference_eq hmem hd]
        exact .generic hg (hbs.mono hsub) hmem
      · rename_i hg
        dsimp only
        obtain ⟨hi, hbs⟩ := Inv.concreteAll (t :: ts) h hn
        rw [hi.genericOf?_eq hn] at hg
        exact ⟨hi, .plain hg hbs⟩
    · simp
    · simp

theorem Inv.concreteAll {c : Catalog} {busy : List Nat} : ∀ (ts : List GoType) {s : Instances},
    Inv c busy s → NamesApart c (concreteAll s ts).2.known →
    Inv c busy (concreteAll s ts).2 ∧ BecomeAll c (concreteAll s ts).2.known ts (concreteAll s ts).1
  | [], s, h, _ => by
    simp only [Instances.concreteAll]
    exact ⟨h, .nil⟩
  | t :: ts, s, h, hn => by
    simp only [Instances.concreteAll] at hn ⊢
    have hsub := known_subset_concreteAll (Instances.concrete s t).2 ts
    obtain ⟨ht, hbt⟩ := Inv.concrete t h (hn.anti hsub)
    obtain ⟨hts, hbts⟩ := Inv.concreteAll ts ht hn
    exact ⟨hts, .cons (hbt.mono hsub) hbts⟩

end

theorem Inv.concreteFields {c : Catalog} {busy : List Nat} : ∀ (fs : List Field) {s : Instances},
    Inv c busy s → NamesApart c (concreteFields s fs).2.known →
    Inv c busy (concreteFields s fs).2 ∧
      FieldsBecome c (concreteFields s fs).2.known fs (concreteFields s fs).1
  | [], s, h, _ => by
    simp only [Instances.concreteFields]
    exact ⟨h, .nil⟩
  | f :: fs, s, h, hn => by
    simp only [Instances.concreteFields] at hn ⊢
    have hsub := known_subset_concreteFields (Instances.concrete s f.type).2 fs
    obtain ⟨hf, hbf⟩ := Inv.concrete f.type h (hn.anti hsub)
    obtain ⟨hfs, hbfs⟩ := Inv.concreteFields fs hf hn
    exact ⟨hfs, .cons ⟨rfl, hbf.mono hsub⟩ hbfs⟩

theorem concrete_of_becomes {c : Catalog} {table : Table} {s : Instances}
    (hs : ∀ package name, genericOf? s.catalog package name = genericOf? c package name)
    {t u : GoType} (h : Becomes c table t u) : Instances.concrete s u = (u, s) := by
  induction h using Becomes.rec
    (motive_2 := fun _ us _ => Instances.concreteAll s us = (us, s)) with
  | pointer _ ih | slice _ ih | array _ ih => simp only [Instances.concrete, ih]
  | map _ _ ihk ihv => simp only [Instances.concrete, ihk, ihv]
  | any | other | name => simp only [Instances.concrete]
  | @plain package qualifier name t ts us hg _ ih =>
    cases us with
    | nil => simp only [Instances.concrete]
    | cons u us =>
      rw [Instances.concrete]
      · simp only [ih, hs, hg]
      · simp
  | generic => simp only [instanceRef, Instances.concrete]
  | nil => simp only [Instances.concreteAll]
  | cons _ _ ih ihs => simp only [Instances.concreteAll, ih, ihs]

theorem concreteFields_of_become {c : Catalog} {table : Table} {s : Instances}
    (hs : ∀ package name, genericOf? s.catalog package name = genericOf? c package name)
    {fs gs : List Field} (h : FieldsBecome c table fs gs) :
    Instances.concreteFields s gs = (gs, s) := by
  induction h with
  | nil => simp only [Instances.concreteFields]
  | cons hf _ ih => simp only [Instances.concreteFields, concrete_of_becomes hs hf.2, ih]

namespace Inv

variable {c : Catalog} {s : Instances}

theorem start (c : Catalog) : Inv c [] (start c) where
  toFramed := Framed.start c
  queued id hid := by
    obtain ⟨-, hp⟩ := List.mem_filter.1 hid
    cases hd : c.get? id with
    | none => simp [hd] at hp
    | some d =>
      simp only [hd, Option.map_some, Option.getD_some, Bool.and_eq_true, Bool.not_eq_true'] at hp
      exact ⟨_, .declared hd hp.1 hp.2⟩
  bodies id d hd := by
    change c.get? id = some d at hd
    cases hg : d.isGeneric with
    | true => exact .inl ⟨hd, .inl hg⟩
    | false =>
      cases hb : d.body with
      | defined t => exact .inl ⟨hd, .inr (by simp [Declaration.isRecord, hb, Body.isRecord])⟩
      | aliased t => exact .inl ⟨hd, .inr (by simp [Declaration.isRecord, hb, Body.isRecord])⟩
      | record fields =>
        have hr : d.isRecord = true := by simp [Declaration.isRecord, hb, Body.isRecord]
        refine .inr ⟨d.body.fields, .declared hd hr hg, .inl ⟨?_, by rw [hb]; rfl⟩⟩
        refine List.mem_filter.2 ⟨?_, by simp [hd, hr, hg]⟩
        exact List.mem_range.2 (List.getElem?_eq_some_iff.1 hd).1

theorem exists_fields {busy : List Nat} (h : Inv c busy s) {id : Nat} (hid : id ∈ busy ++ s.queue) :
    ∃ d source fields, s.catalog.get? id = some d ∧ Source c s.known id source ∧
      d.body = .record fields ∧ (fields = source ∨ FieldsBecome c s.known source fields) := by
  obtain ⟨source, hs⟩ := h.queued id hid
  have hd : ∃ d, s.catalog.get? id = some d := by
    cases hs with
    | declared hd => exact (h.exists_get hd).imp fun _ hd' => hd'.1
    | made hmem =>
      obtain ⟨_, -, -, hk⟩ := h.entries _ hmem
      exact (Catalog.exists_of_idOf? hk).imp fun _ hd' => hd'.1
  obtain ⟨d, hd⟩ := hd
  rcases h.bodies id d hd with ⟨hc, hno⟩ | ⟨source', hs', ⟨-, hb⟩ | ⟨fields, hb, hf⟩⟩
  · obtain ⟨hg, hr, -⟩ := hs.not_declared hc
    rcases hno with hno | hno <;> simp [hg, hr] at hno
  · exact ⟨d, source', source', hd, hs', hb, .inl rfl⟩
  · exact ⟨d, source', fields, hd, hs', hb, .inr hf⟩

theorem setBody {id : Nat} (h : Inv c [id] s) {source fields : List Field}
    (hs : Source c s.known id source) (hf : FieldsBecome c s.known source fields) :
    Inv c [] { s with catalog := s.catalog.setBody id (.record fields) } where
  toFramed := h.toFramed.setBody id _
  queued i hi := h.queued i (List.mem_append_right _ hi)
  bodies i d hd := by
    by_cases hne : id = i
    · subst hne
      obtain ⟨x, -, -, hx, -⟩ := h.exists_fields (List.mem_append_left _ (List.mem_singleton.2 rfl))
      change (s.catalog.setBody id _).get? id = some d at hd
      rw [Catalog.get?_setBody_self hx] at hd
      obtain rfl := Option.some.inj hd
      exact .inr ⟨source, hs, .inr ⟨fields, rfl, hf⟩⟩
    · change (s.catalog.setBody id _).get? i = some d at hd
      rw [Catalog.get?_setBody_ne hne] at hd
      refine (h.bodies i d hd).mono (List.Subset.refl _) fun hi => ?_
      rcases List.mem_append.1 hi with hi | hi
      · exact absurd (List.mem_singleton.1 hi).symm hne
      · exact hi

/-- **A step** keeps the invariant. -/
theorem step (h : Inv c [] s) (hn : NamesApart c s.step.known) : Inv c [] s.step := by
  unfold Instances.step at hn ⊢
  split at hn
  · exact h
  · rename_i id queue hqueue
    dsimp only at hn ⊢
    -- the struct at the head of the queue is in work
    have hbusy : Inv c [id] { s with queue } :=
      { toFramed := ⟨h.heads, h.entries⟩
        queued := by simpa [hqueue] using h.queued
        bodies := by simpa [hqueue] using h.bodies }
    obtain ⟨d, source, fields, hd, hs, hb, hfields⟩ :=
      hbusy.exists_fields (List.mem_append_left _ (List.mem_singleton.2 rfl))
    change s.catalog.get? id = some d at hd
    simp only [hd, Option.map_some, hb] at hn ⊢
    have hsub := known_subset_concreteFields { s with queue } fields
    obtain ⟨hi, hf⟩ := Inv.concreteFields fields hbusy hn
    refine hi.setBody (hs.mono hsub) ?_
    rcases hfields with rfl | hdone
    · exact hf
    · have hgen := hbusy.genericOf?_eq (hn.anti hsub)
      rw [concreteFields_of_become hgen hdone]
      exact hdone

/-- **A run** keeps the invariant. -/
theorem run : ∀ (limit : Nat) {s : Instances}, Inv c [] s → NamesApart c (run limit s).known →
    Inv c [] (run limit s)
  | 0, _, h, _ => h
  | limit + 1, s, h, hn => by
    unfold Instances.run at hn ⊢
    by_cases he : s.queue.isEmpty
    · rwa [if_pos he]
    · rw [if_neg he] at hn ⊢
      exact run limit (h.step (hn.anti (known_subset_run s.step limit))) hn

end Inv

/-! ### Runs that end -/

section Finished

variable {c : Catalog} {s : Instances} (h : Inv c [] s) (hq : s.queue = [])
include h hq

/-- When the queue is empty, every struct has the references in its source replaced. -/
theorem exists_fields_of_finished {id : Nat} {d : Declaration} (hd : s.catalog.get? id = some d)
    (hc : ∀ x, c.get? id = some x → x.isRecord = true ∧ x.isGeneric = false) :
    ∃ source fields, Source c s.known id source ∧ d.body = .record fields ∧
      FieldsBecome c s.known source fields := by
  rcases h.bodies id d hd with ⟨hold, hno⟩ | ⟨source, hs, ⟨hid, -⟩ | ⟨fields, hb, hf⟩⟩
  · obtain ⟨hr, hg⟩ := hc d hold
    rcases hno with hno | hno <;> simp [hg, hr] at hno
  · exact absurd hid (by simp [hq])
  · exact ⟨source, fields, hs, hb, hf⟩

theorem faithful_of_namesApart (hn : NamesApart c s.known) : Faithful c s where
  structs id d hd hr hg := by
    obtain ⟨d', hd', hhead⟩ := h.exists_get hd
    obtain ⟨source, fields, hs, hb, hf⟩ := exists_fields_of_finished h hq hd' fun x hx => by
      obtain rfl := Option.some.inj (hd.symm.trans hx)
      exact ⟨hr, hg⟩
    obtain ⟨-, -, rfl⟩ := hs.not_declared hd
    refine ⟨fields, ?_, hf⟩
    rw [hd', ← hb]
    exact congrArg some (Declaration.eq_of_head hhead)
  instances e he := by
    obtain ⟨generic, hg, -, hid⟩ := h.entries e he
    have hold : ∀ x, c.get? e.2 ≠ some x := fun x hx => by
      have hlt : e.2 < c.types.length := (List.getElem?_eq_some_iff.1 hx).1
      exact hn.free e he generic hg ((h.declared_iff he hg).1 hlt)
    obtain ⟨d, hd, -⟩ := Catalog.exists_of_idOf? hid
    obtain ⟨source, fields, hs, hb, hf⟩ :=
      exists_fields_of_finished h hq hd fun x hx => absurd hx (hold x)
    have hfind : s.catalog.find (instanceRef generic e.1.2) = some (e.2, d) :=
      Catalog.find_eq_some_iff.2 ⟨Catalog.lookup_of_idOf? hid, hd⟩
    cases hs with
    | declared hd' => exact absurd hd' (hold _)
    | @made base args generic' hmem _ hg' =>
      have hkey := (h.share_iff hmem he hg' hg).1 rfl
      obtain ⟨hbase, hargs⟩ := hn.apart _ hmem e he generic' hg' generic hg hkey
      dsimp only at hbase hargs
      subst hbase
      obtain rfl := Option.some.inj (hg'.symm.trans hg)
      exact ⟨generic', hg, d, args, fields, hfind, hargs, hb, hf⟩
  unshared e he e' he' heq := by
    obtain ⟨d, hd, -, -⟩ := h.entries e he
    obtain ⟨d', hd', -, -⟩ := h.entries e' he'
    exact hn.apart e he e' he' d hd d' hd' ((h.share_iff he he' hd hd').1 heq)
  undeclared e he := by
    obtain ⟨d, hd, -, -⟩ := h.entries e he
    by_contra hlt
    exact hn.free e he d hd ((h.declared_iff he hd).1 (by omega))
  generics package name x hx := by
    rw [h.genericOf?_eq hn]
    exact hx

end Finished

theorem namesApart_of_faithful {c : Catalog} {s : Instances} (h : Framed c s)
    (hf : Faithful c s) : NamesApart c s.known where
  free e he d hd hmem := by
    have := (h.declared_iff he hd).2 hmem
    have := hf.undeclared e he
    omega
  unread e he d hd := by
    by_contra hno
    obtain ⟨⟨id, x⟩, hx⟩ := Option.ne_none_iff_exists'.1 hno
    obtain ⟨-, hcx, -, -⟩ := genericOf?_eq_some_iff.1 hx
    obtain ⟨⟨p, hp, hl⟩, -, -, -⟩ := genericOf?_eq_some_iff.1 (hf.generics _ _ _ hx)
    obtain ⟨B, hB, -, hid⟩ := h.entries e he
    obtain rfl := Option.some.inj (hB.symm.trans hd)
    obtain rfl := Option.some.inj hp
    obtain rfl := Option.some.inj (hl.symm.trans (Catalog.lookup_of_idOf? hid))
    have := (List.getElem?_eq_some_iff.1 hcx).1
    have := hf.undeclared e he
    omega
  apart e he e' he' d hd d' hd' hkey := hf.unshared e he e' he' ((h.share_iff he he' hd hd').2 hkey)

/-- **A run that ends is faithful exactly when the names of its instances keep them apart.** -/
theorem faithful_iff (c : Catalog) (limit : Nat) (hq : (run limit (start c)).queue = []) :
    Faithful c (run limit (start c)) ↔ NamesApart c (run limit (start c)).known :=
  ⟨namesApart_of_faithful (framed_run c limit),
    fun hn => faithful_of_namesApart ((Inv.start c).run limit hn) hq hn⟩

/-- A struct of package `m` in the file `m.go`. -/
def plainDeclaration (name : String) (typeParams : List String) (fields : List (String × GoType)) :
    Declaration :=
  { name
    package := ⟨"m", none⟩
    path := ⟨"m.go"⟩
    line := 1
    place := ⟨0, 0, 0⟩
    typeParams
    body := .record (fields.map fun (goName, type) => { goName := some goName, type })
    requests := [{ kind := .type }] }

/-- A generic struct that refers to itself, and a struct that refers to it at several depths. -/
def chained : Catalog :=
  { types :=
      [plainDeclaration "Node" ["T"]
          [("Item", .ofName "T"),
            ("Next", .pointer (.named (some "m") none "Node" [.ofName "T"]))],
        plainDeclaration "Root" []
          [("Names", .slice (.named (some "m") none "Node" [.ofName "string"])),
            ("Lists", .map (.ofName "string")
              (.named (some "m") none "Node"
                [.slice (.pointer (.named (some "m") none "Root" []))])),
            ("Nested", .named (some "m") none "Node"
              [.named (some "m") none "Node" [.ofName "string"]])]] }

theorem chained_faithful :
    (run 10 (start chained)).queue = [] ∧ NamesApart chained (run 10 (start chained)).known ∧
      Faithful chained (run 10 (start chained)) :=
  have hq : (run 10 (start chained)).queue = [] := by decide +kernel
  have hn : NamesApart chained (run 10 (start chained)).known := by decide +kernel
  ⟨hq, hn, (faithful_iff chained 10 hq).2 hn⟩

/-- References to one generic struct with a predeclared type and with a declared type, whose names
differ in the case of the first letter. -/
def clashing : Catalog :=
  { types :=
      [plainDeclaration "Box" ["T"] [("Item", .ofName "T")],
        plainDeclaration "Root" []
          [("Small", .named (some "m") none "Box" [.ofName "int"]),
            ("Large", .named (some "m") none "Box" [.named (some "m") none "Int" []])],
        { plainDeclaration "Int" [] [] with body := .defined (.ofName "string"), requests := [] }] }

/-- **Names may fail to keep instances apart.** `Box[int]` and `Box[Int]` are one declaration, whose
item is an `int`. -/
theorem clashing_shares :
    (run 10 (start clashing)).queue = [] ∧
      (∃ e ∈ (run 10 (start clashing)).known, ∃ e' ∈ (run 10 (start clashing)).known,
        e.1 = (0, [.ofName "int"]) ∧ e'.1 = (0, [.named (some "m") none "Int" []]) ∧ e.2 = e'.2 ∧
        ((run 10 (start clashing)).catalog.get? e.2).map (·.body) =
          some (.record [{ goName := some "Item", type := .ofName "int" }])) ∧
      ¬ Faithful clashing (run 10 (start clashing)) := by
  have hsmall : ((0, [.ofName "int"]), 3) ∈ (run 10 (start clashing)).known := by decide +kernel
  have hlarge : ((0, [.named (some "m") none "Int" []]), 3) ∈ (run 10 (start clashing)).known := by
    decide +kernel
  refine ⟨by decide +kernel, ⟨_, hsmall, _, hlarge, rfl, rfl, rfl, by decide +kernel⟩, fun hf => ?_⟩
  have hsame := (hf.unshared _ hsmall _ hlarge rfl).2
  exact absurd hsame (by decide)

end Instances

end GoSchema
