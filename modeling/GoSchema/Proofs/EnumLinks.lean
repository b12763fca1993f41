/-
# Constants and their enums

One loop over all constants fills the lists of all enums at once. A constant whose declared type is
no enum is passed over, unless a directive says that it is a value; one whose name the enum has is a
fault; any other is put at the end of its list. So at every point of the loop each enum has the
values of just those constants behind it whose declared type refers to the enum, in their order
(`foldlM_addConstant_ok_iff`), and what can go wrong is said without the loop (`IsLinked`).

Key definitions: `Catalog.isTypedBy`, `Catalog.constantsOf`, `Catalog.valuesFrom`,
`Catalog.valuesOf`, `Catalog.IsLinked`.
Key theorems: `addConstant_table_ok_iff`, `foldlM_addConstant_ok_iff`, `enumMembers_eq_ok_iff`,
`values_of_enumMembers`, `enumMembers_links`.
-/
import GoSchema.Catalog.EnumMembers
import GoSchema.Proofs.Lookup
import GoSchema.Proofs.Outcome
import GoSchema.Proofs.Pointwise

namespace GoSchema.Catalog

open Outcome

variable {c : Catalog}

/-- Whether the declared type of a constant refers to the declaration with a number. -/
def isTypedBy (c : Catalog) (id : Nat) (k : Constant) : Bool := k.type.bind c.idOfType? = some id

/-- The constants whose declared type refers to the declaration with a number, in order. -/
def constantsOf (c : Catalog) (id : Nat) : List Constant := c.consts.filter (c.isTypedBy id)

/-- The values that the constants of a list give for the enum with a number. -/
def valuesFrom (c : Catalog) (ks : List Constant) (id : Nat) : List EnumValue :=
  match c.get? id with
  | some enum => (ks.filter (c.isTypedBy id)).map (enumValueOf enum)
  | none => []

/-- The values that all constants give for the enum with a number. -/
def valuesOf (c : Catalog) (id : Nat) : List EnumValue := c.valuesFrom c.consts id

/-- Constants and enums fit together. -/
structure IsLinked (c : Catalog) : Prop where
  /-- A constant that is said to be a value has the type of an enum. -/
  asked : ∀ k ∈ c.consts, k.request.isSome → ∃ id ∈ c.enumIds, c.isTypedBy id k = true
  /-- An enum is the type of a constant. -/
  filled : ∀ id ∈ c.enumIds, ∃ k ∈ c.consts, c.isTypedBy id k = true
  /-- The values of an enum have different names. -/
  distinct : ∀ id ∈ c.enumIds, ((c.valuesOf id).map EnumValue.name).Nodup

/-! ### The enum of a constant -/

theorem mem_enumIds_iff {id : Nat} :
    id ∈ c.enumIds ↔ ∃ enum, c.get? id = some enum ∧ enum.enumRequest.isSome = true := by
  unfold enumIds
  rw [List.mem_filter]
  constructor
  · rintro ⟨-, h⟩
    cases hd : c.get? id with
    | none => simp [hd] at h
    | some enum => exact ⟨enum, rfl, by simpa [hd] using h⟩
  · rintro ⟨enum, hd, he⟩
    exact ⟨mem_ids_of_get? hd, by simpa [hd] using he⟩

theorem enumOf?_eq_some_iff {k : Constant} {id : Nat} {enum : Declaration} :
    c.enumOf? k = some (id, enum) ↔
      c.isTypedBy id k = true ∧ c.get? id = some enum ∧ enum.enumRequest.isSome = true := by
  unfold enumOf? isTypedBy
  rw [Option.filter_eq_some_iff]
  cases k.type with
  | none => simp
  | some t => simp [find_eq_some_iff, and_assoc]

theorem enumOf?_isSome_iff {k : Constant} :
    (c.enumOf? k).isSome ↔ ∃ id ∈ c.enumIds, c.isTypedBy id k = true := by
  rw [Option.isSome_iff_exists]
  constructor
  · rintro ⟨⟨id, enum⟩, h⟩
    obtain ⟨ht, hd, he⟩ := enumOf?_eq_some_iff.1 h
    exact ⟨id, mem_enumIds_iff.2 ⟨enum, hd, he⟩, ht⟩
  · rintro ⟨id, hid, ht⟩
    obtain ⟨enum, hd, he⟩ := mem_enumIds_iff.1 hid
    exact ⟨(id, enum), enumOf?_eq_some_iff.2 ⟨ht, hd, he⟩⟩

theorem isTypedBy_unique {k : Constant} {id id' : Nat} (h : c.isTypedBy id k = true)
    (h' : c.isTypedBy id' k = true) : id = id' := by
  have htype : k.type.bind c.idOfType? = some id := of_decide_eq_true h
  have htype' : k.type.bind c.idOfType? = some id' := of_decide_eq_true h'
  exact Option.some.inj (htype.symm.trans htype')

/-! ### The table of values -/

theorem enumIds_nodup (c : Catalog) : c.enumIds.Nodup :=
  (List.nodup_range).filter _

/-- The enums with the values that the constants of a list give. -/
def table (c : Catalog) (ks : List Constant) : EnumMembers :=
  c.enumIds.map fun id => (id, c.valuesFrom ks id)

theorem keys_table (ks : List Constant) : (c.table ks).map Prod.fst = c.enumIds := by
  rw [table, List.map_map]
  exact List.map_id _

theorem lookup_table {id : Nat} (hid : id ∈ c.enumIds) (ks : List Constant) :
    (c.table ks).lookup id = some (c.valuesFrom ks id) :=
  Pointwise.lookup_of_mem (keys_table ks ▸ c.enumIds_nodup) (List.mem_map.2 ⟨id, hid, rfl⟩)

theorem valuesFrom_nil (id : Nat) : c.valuesFrom [] id = [] := by
  unfold valuesFrom
  cases c.get? id <;> rfl

theorem table_nil : c.table [] = c.enumIds.map fun id => (id, []) := by
  simp only [table, valuesFrom_nil]

theorem valuesFrom_snoc_of_typed {id : Nat} {enum : Declaration} (hd : c.get? id = some enum)
    {k : Constant} (hk : c.isTypedBy id k = true) (ks : List Constant) :
    c.valuesFrom (ks ++ [k]) id = c.valuesFrom ks id ++ [enumValueOf enum k] := by
  simp [valuesFrom, hd, List.filter_append, hk]

theorem valuesFrom_snoc_of_not_typed {id : Nat} {k : Constant} (hk : c.isTypedBy id k = false)
    (ks : List Constant) : c.valuesFrom (ks ++ [k]) id = c.valuesFrom ks id := by
  unfold valuesFrom
  cases c.get? id <;> simp [List.filter_append, hk]

/-- Whether a constant can be put behind the constants of a list: a directive stands at a value
only, and its name is new to its enum. -/
structure Fits (c : Catalog) (ks : List Constant) (k : Constant) : Prop where
  asked : k.request.isSome → ∃ id ∈ c.enumIds, c.isTypedBy id k = true
  fresh : ∀ id enum, c.enumOf? k = some (id, enum) →
    ∀ v ∈ c.valuesFrom ks id, v.name ≠ (enumValueOf enum k).name

/-- A value put behind those of the enum of a constant gives the table with this constant. -/
theorem map_table_of_typed {ks : List Constant} {k : Constant} {id : Nat} {enum : Declaration}
    (hd : c.get? id = some enum) (htyped : c.isTypedBy id k = true)
    {f : Nat × List EnumValue → Nat × List EnumValue}
    (hf : ∀ p, f p = if p.1 = id then (p.1, p.2 ++ [enumValueOf enum k]) else p) :
    (c.table ks).map f = c.table (ks ++ [k]) := by
  rw [table, table, List.map_map]
  refine List.map_congr_left fun other _ => ?_
  rw [Function.comp_apply, hf]
  by_cases heq : other = id
  · subst heq
    rw [if_pos rfl, valuesFrom_snoc_of_typed hd htyped]
  · have hnot : c.isTypedBy other k = false :=
      Bool.eq_false_iff.2 fun hother => heq (isTypedBy_unique hother htyped)
    rw [if_neg heq, valuesFrom_snoc_of_not_typed hnot]

/-- **One more constant** is taken exactly when it fits, and then the table is that of the
constants with this one behind them. -/
theorem addConstant_table_ok_iff {ks : List Constant} {k : Constant} {values : EnumMembers} :
    c.addConstant (c.table ks) k = .ok values ↔ c.Fits ks k ∧ values = c.table (ks ++ [k]) := by
  unfold addConstant
  cases hk : c.enumOf? k with
  | none =>
    have hno : ¬ ∃ id ∈ c.enumIds, c.isTypedBy id k = true := by
      rw [← enumOf?_isSome_iff, hk]
      exact Bool.false_ne_true
    have htable : c.table (ks ++ [k]) = c.table ks := by
      refine List.map_congr_left fun id hid => ?_
      have htyped : c.isTypedBy id k = false :=
        Bool.eq_false_iff.2 fun htyped => hno ⟨id, hid, htyped⟩
      rw [valuesFrom_snoc_of_not_typed htyped]
    dsimp only
    rw [htable]
    by_cases hr : k.request.isSome = true
    · rw [if_pos hr]
      exact iff_of_false (by rintro ⟨⟩) fun h => hno (h.1.asked hr)
    · have hfits : c.Fits ks k := by
        refine ⟨fun h => absurd h hr, fun id enum h => ?_⟩
        rw [hk] at h
        cases h
      rw [if_neg hr, Except.ok.injEq, eq_comm]
      exact ⟨fun h => ⟨hfits, h⟩, And.right⟩
  | some x =>
    obtain ⟨id, enum⟩ := x
    obtain ⟨htyped, hd, he⟩ := enumOf?_eq_some_iff.1 hk
    have hid : id ∈ c.enumIds := mem_enumIds_iff.2 ⟨enum, hd, he⟩
    dsimp only
    rw [lookup_table hid, Option.getD_some, map_table_of_typed hd htyped fun _ => rfl]
    have hfits : c.Fits ks k ↔
        (c.valuesFrom ks id).find? (·.name = (enumValueOf enum k).name) = none := by
      rw [List.find?_eq_none]
      simp only [decide_eq_true_eq]
      refine ⟨fun h => h.fresh id enum hk, fun h => ⟨fun _ => ⟨id, hid, htyped⟩, ?_⟩⟩
      intro id' enum' hk'
      obtain ⟨rfl, rfl⟩ := Prod.mk.inj (Option.some.inj (hk.symm.trans hk'))
      exact h
    rw [hfits]
    cases (c.valuesFrom ks id).find? (·.name = (enumValueOf enum k).name) with
    | some first => exact iff_of_false (by rintro ⟨⟩) fun h => Option.some_ne_none _ h.1
    | none =>
      rw [Except.ok.injEq, eq_comm]
      exact ⟨fun h => ⟨rfl, h⟩, And.right⟩

theorem nodup_valuesFrom_snoc_iff {ks : List Constant} {k : Constant}
    (h : ∀ id ∈ c.enumIds, ((c.valuesFrom ks id).map EnumValue.name).Nodup) :
    (∀ id ∈ c.enumIds, ((c.valuesFrom (ks ++ [k]) id).map EnumValue.name).Nodup) ↔
      ∀ id enum, c.enumOf? k = some (id, enum) →
        ∀ v ∈ c.valuesFrom ks id, v.name ≠ (enumValueOf enum k).name := by
  constructor
  · intro hall id enum hk v hv heq
    obtain ⟨htyped, hd, he⟩ := enumOf?_eq_some_iff.1 hk
    have hnodup := hall id (mem_enumIds_iff.2 ⟨enum, hd, he⟩)
    rw [valuesFrom_snoc_of_typed hd htyped, List.map_append, List.nodup_append] at hnodup
    exact hnodup.2.2 v.name (List.mem_map_of_mem hv) (enumValueOf enum k).name (by simp) heq
  · intro hfresh id hid
    by_cases htyped : c.isTypedBy id k = true
    · obtain ⟨enum, hd, he⟩ := mem_enumIds_iff.1 hid
      have hk := enumOf?_eq_some_iff.2 ⟨htyped, hd, he⟩
      rw [valuesFrom_snoc_of_typed hd htyped]
      refine Pointwise.nodup_map_concat (h id hid) (List.find?_eq_none.2 fun v hv => ?_)
      simpa using hfresh id enum hk v hv
    · rw [valuesFrom_snoc_of_not_typed (Bool.eq_false_iff.2 htyped)]
      exact h id hid

/-- **The loop over the constants**, from the table of the constants `ks` behind it. The induction
is on the constants that are still to come, and what is kept is that the names so far differ. -/
theorem foldlM_addConstant_ok_iff : ∀ {l ks : List Constant} {values : EnumMembers},
    (∀ id ∈ c.enumIds, ((c.valuesFrom ks id).map EnumValue.name).Nodup) →
    (l.foldlM c.addConstant (c.table ks) = .ok values ↔
      (∀ k ∈ l, k.request.isSome → ∃ id ∈ c.enumIds, c.isTypedBy id k = true) ∧
      (∀ id ∈ c.enumIds, ((c.valuesFrom (ks ++ l) id).map EnumValue.name).Nodup) ∧
      values = c.table (ks ++ l))
  | [], ks, values, h => by
    rw [List.append_nil]
    exact ⟨fun hv => ⟨nofun, h, (Except.ok.inj hv).symm⟩, fun hv => congrArg Except.ok hv.2.2.symm⟩
  | k :: l, ks, values, h => by
    have hstep := nodup_valuesFrom_snoc_iff (k := k) h
    rw [List.foldlM_cons, bind_eq_ok_iff, List.append_cons, List.forall_mem_cons]
    constructor
    · rintro ⟨next, hnext, hrun⟩
      obtain ⟨hfits, rfl⟩ := addConstant_table_ok_iff.1 hnext
      obtain ⟨hasked, hnodup, hv⟩ := (foldlM_addConstant_ok_iff (hstep.2 hfits.fresh)).1 hrun
      exact ⟨⟨hfits.asked, hasked⟩, hnodup, hv⟩
    · rintro ⟨⟨hk, hasked⟩, hnodup, hv⟩
      have hnext : ∀ id ∈ c.enumIds, ((c.valuesFrom (ks ++ [k]) id).map EnumValue.name).Nodup := by
        intro id hid
        refine (hnodup id hid).sublist (List.Sublist.map _ ?_)
        unfold valuesFrom
        cases c.get? id with
        | none => exact .refl _
        | some enum =>
          exact ((List.sublist_append_left _ l).filter _).map _
      exact ⟨_, addConstant_table_ok_iff.2 ⟨⟨hk, hstep.1 hnext⟩, rfl⟩,
        (foldlM_addConstant_ok_iff hnext).2 ⟨hasked, hnodup, hv⟩⟩

theorem valuesOf_eq_nil_iff {id : Nat} (hid : id ∈ c.enumIds) :
    c.valuesOf id = [] ↔ ¬ ∃ k ∈ c.consts, c.isTypedBy id k = true := by
  obtain ⟨enum, hd, -⟩ := mem_enumIds_iff.1 hid
  simp [valuesOf, valuesFrom, hd]

theorem enumMembers_eq_ok_iff {values : EnumMembers} :
    c.enumMembers = .ok values ↔ c.IsLinked ∧ values = c.table c.consts := by
  have hstart : ∀ id ∈ c.enumIds, ((c.valuesFrom [] id).map EnumValue.name).Nodup := by
    intro id _
    rw [valuesFrom_nil]
    exact List.nodup_nil
  have hrun : ∀ all, c.consts.foldlM c.addConstant (c.enumIds.map fun id => (id, [])) = .ok all ↔
      (∀ k ∈ c.consts, k.request.isSome → ∃ id ∈ c.enumIds, c.isTypedBy id k = true) ∧
      (∀ id ∈ c.enumIds, ((c.valuesOf id).map EnumValue.name).Nodup) ∧
      all = c.table c.consts := by
    intro all
    rw [← table_nil]
    exact foldlM_addConstant_ok_iff hstart
  have hfull : (c.table c.consts).find? (·.2.isEmpty) = none ↔
      ∀ id ∈ c.enumIds, ∃ k ∈ c.consts, c.isTypedBy id k = true := by
    rw [List.find?_eq_none, table, List.forall_mem_map]
    refine forall₂_congr fun id hid => ?_
    rw [List.isEmpty_iff]
    exact (not_congr (valuesOf_eq_nil_iff hid)).trans not_not
  unfold enumMembers
  cases hall : c.consts.foldlM c.addConstant (c.enumIds.map fun id => (id, [])) with
  | error e =>
    refine ⟨nofun, fun h => ?_⟩
    have := (hrun values).2 ⟨h.1.asked, h.1.distinct, h.2⟩
    exact nomatch hall.symm.trans this
  | ok all =>
    obtain ⟨hasked, hdistinct, rfl⟩ := (hrun all).1 hall
    dsimp only
    cases hfind : (c.table c.consts).find? (·.2.isEmpty) with
    | some x =>
      refine ⟨nofun, fun h => ?_⟩
      exact nomatch hfind.symm.trans (hfull.2 h.1.filled)
    | none =>
      rw [Except.ok.injEq, eq_comm]
      exact ⟨fun h => ⟨⟨hasked, hfull.1 hfind, hdistinct⟩, h⟩, And.right⟩

/-- **Every enum has values, and no two of one name.** -/
theorem values_of_enumMembers {values : EnumMembers} (h : c.enumMembers = .ok values) {id : Nat}
    (hid : id ∈ c.enumIds) :
    ∃ vs, values.lookup id = some vs ∧ vs ≠ [] ∧ (vs.map EnumValue.name).Nodup := by
  obtain ⟨hlinked, rfl⟩ := enumMembers_eq_ok_iff.1 h
  refine ⟨c.valuesOf id, lookup_table hid _, fun hnil => ?_, hlinked.distinct id hid⟩
  exact (valuesOf_eq_nil_iff hid).1 hnil (hlinked.filled id hid)

theorem valuesOf_eq {id : Nat} {enum : Declaration} (hd : c.get? id = some enum) :
    c.valuesOf id = (c.constantsOf id).map (enumValueOf enum) := by
  rw [valuesOf, valuesFrom, hd]
  rfl

/-- **Enum linkage is exact.** The values of the enums are found exactly when every constant that is
said to be a value has the type of an enum, every enum is the type of a constant, and the values of
each enum have different names. The values of an enum are then those of all constants whose
declared type refers to it, each once, in the order of the constants. -/
theorem enumMembers_links (c : Catalog) :
    ((∃ values, c.enumMembers = .ok values) ↔ c.IsLinked) ∧
    ∀ values, c.enumMembers = .ok values →
      values.map Prod.fst = c.enumIds ∧
      ∀ id enum, c.get? id = some enum → enum.enumRequest.isSome = true →
        values.lookup id = some ((c.constantsOf id).map (enumValueOf enum)) := by
  refine ⟨⟨?_, ?_⟩, fun values hvalues => ?_⟩
  · rintro ⟨values, hvalues⟩
    exact (enumMembers_eq_ok_iff.1 hvalues).1
  · exact fun hlinked => ⟨_, enumMembers_eq_ok_iff.2 ⟨hlinked, rfl⟩⟩
  · obtain ⟨-, rfl⟩ := enumMembers_eq_ok_iff.1 hvalues
    refine ⟨keys_table c.consts, fun id enum hd he => ?_⟩
    rw [lookup_table (mem_enumIds_iff.2 ⟨enum, hd, he⟩), ← valuesOf_eq hd]
    rfl

/-- A type of the package `types`, and an enum if `isEnum`. -/
def crewType (name : String) (number : Nat) (isEnum : Bool) : Declaration :=
  { name
    package := ⟨"types", some "example.com/app/types"⟩
    path := ⟨"types/role.go"⟩
    line := number + 1
    place := ⟨0, number, 0⟩
    body := .defined (.ofName "string")
    enumRequest := if isEnum then some {} else none }

/-- A constant of the package `roles`, of a type of the package `types`. -/
def crewConstant (name type : String) (number : Nat) (request : Option ValueRequest) : Constant :=
  { name
    type := some (.named (some "example.com/app/types") (some "types") type [])
    path := ⟨"roles/roles.go"⟩
    line := number + 1
    place := ⟨1, number, 0⟩
    request }

/-- Two enums and a further type, and constants of these types in turn. -/
def crew : Catalog :=
  { types := [crewType "Role" 0 true, crewType "Title" 1 false, crewType "Shift" 2 true]
    consts :=
      [crewConstant "Viewer" "Role" 0 none, crewConstant "Day" "Shift" 1 none,
        crewConstant "Captain" "Title" 2 none,
        crewConstant "RoleAdmin" "Role" 3 (some { name := some "ROOT" }),
        crewConstant "ShiftNight" "Shift" 4 none] }

theorem crew_links :
    crew.IsLinked ∧ ∃ values, crew.enumMembers = .ok values ∧ values.map Prod.fst = [0, 2] ∧
      values.lookup 0 = some [⟨"Viewer", "VIEWER", none, none⟩, ⟨"RoleAdmin", "ROOT", none, none⟩] ∧
      values.lookup 2 = some [⟨"Day", "DAY", none, none⟩, ⟨"ShiftNight", "NIGHT", none, none⟩] := by
  have hsome : crew.enumMembers.toOption.isSome = true := by decide +kernel
  obtain ⟨values, hvalues⟩ := Option.isSome_iff_exists.1 hsome
  replace hvalues := eq_ok_of_toOption hvalues
  obtain ⟨hkeys, hlookup⟩ := (enumMembers_links crew).2 values hvalues
  refine ⟨(enumMembers_links crew).1.1 ⟨values, hvalues⟩, values, hvalues, hkeys.trans ?_, ?_, ?_⟩
  · decide +kernel
  · exact (hlookup 0 _ rfl rfl).trans (by decide +kernel)
  · exact (hlookup 2 _ rfl rfl).trans (by decide +kernel)

end GoSchema.Catalog
