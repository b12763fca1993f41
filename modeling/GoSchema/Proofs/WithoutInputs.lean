/-
# Catalogs without inputs

Inputs that are asked for can be taken away. Requests stand beside the bodies of declarations and no
stage before discovery reads a request for an input: names lead to the same declarations, settling
and flattening put the same fields into them, and instances are made of the same structs. So these
stages do the same to a catalog without its inputs.

Key definitions: `Declaration.withoutInputs`, `Catalog.withoutInputs`, `Declarations.withoutInputs`.
Key theorems: `find_withoutInputs`, `ofDeclarations_withoutInputs`, `settle_withoutInputs`,
`enumMembers_withoutInputs`, `flatten_withoutInputs`, `withInstances_withoutInputs`.
-/
import GoSchema.Proofs.AlikeCatalogs
import GoSchema.Proofs.InstanceTable

namespace GoSchema

/-- Whether anything but an input is asked for. -/
def BlockRequest.isKept (r : BlockRequest) : Bool := r.kind ≠ .input

/-- The declaration without the inputs that are asked for. -/
def Declaration.withoutInputs (d : Declaration) : Declaration :=
  { d with requests := d.requests.filter BlockRequest.isKept }

/-- The declarations without the inputs that are asked for. -/
def Declarations.withoutInputs (ds : Declarations) : Declarations :=
  { ds with types := ds.types.map Declaration.withoutInputs }

namespace Declaration

variable (d : Declaration)

@[simp]
theorem requests_withoutInputs :
    d.withoutInputs.requests = d.requests.filter BlockRequest.isKept := rfl

@[simp]
theorem key_withoutInputs : d.withoutInputs.key = d.key := rfl

@[simp]
theorem name_withoutInputs : d.withoutInputs.name = d.name := rfl

@[simp]
theorem label_withoutInputs : d.withoutInputs.label = d.label := rfl

@[simp]
theorem body_withoutInputs : d.withoutInputs.body = d.body := rfl

@[simp]
theorem isRecord_withoutInputs : d.withoutInputs.isRecord = d.isRecord := rfl

@[simp]
theorem isGeneric_withoutInputs : d.withoutInputs.isGeneric = d.isGeneric := rfl

@[simp]
theorem typeParams_withoutInputs : d.withoutInputs.typeParams = d.typeParams := rfl

@[simp]
theorem enumRequest_withoutInputs : d.withoutInputs.enumRequest = d.enumRequest := rfl

theorem requests?_withoutInputs {kind : BlockKind} (h : kind ≠ .input) :
    d.withoutInputs.requests? kind = d.requests? kind := by
  unfold requests?
  rw [requests_withoutInputs, List.any_filter]
  congr 1
  funext r
  by_cases hr : r.kind = kind
  · simp [BlockRequest.isKept, hr, h]
  · simp [hr]

end Declaration

namespace Catalog

/-- The catalog without the inputs that are asked for. -/
def withoutInputs (c : Catalog) : Catalog :=
  { c with types := c.types.map Declaration.withoutInputs }

variable (c : Catalog)

/-! ### Lookups and changes -/

@[simp]
theorem get?_withoutInputs (id : Nat) :
    c.withoutInputs.get? id = (c.get? id).map Declaration.withoutInputs := by
  simp [withoutInputs, get?]

@[simp]
theorem ids_withoutInputs : c.withoutInputs.ids = c.ids := by
  simp [withoutInputs, ids]

@[simp]
theorem nameOf_withoutInputs : c.withoutInputs.nameOf = c.nameOf := by
  funext id
  cases h : c.get? id <;> simp [nameOf, h]

@[simp]
theorem labelOf_withoutInputs : c.withoutInputs.labelOf = c.labelOf := by
  funext id
  cases h : c.get? id <;> simp [labelOf, h]

@[simp]
theorem idOf?_withoutInputs (key : String × String) :
    c.withoutInputs.idOf? key = c.idOf? key := by
  simp only [idOf?, withoutInputs, List.findIdx?_map]
  rfl

@[simp]
theorem lookup_withoutInputs (package name : String) :
    c.withoutInputs.lookup package name = c.lookup package name := by
  rw [lookup, idOf?_withoutInputs]
  simp only [withoutInputs, List.findIdx?_map]
  rfl

@[simp]
theorem idOfType?_withoutInputs (t : GoType) : c.withoutInputs.idOfType? t = c.idOfType? t := by
  unfold idOfType?
  split
  · exact c.lookup_withoutInputs _ _
  · rfl

/-- **A type refers to the same declaration.** -/
@[simp]
theorem find_withoutInputs (t : GoType) :
    c.withoutInputs.find t = (c.find t).map fun x => (x.1, x.2.withoutInputs) := by
  unfold find
  rw [idOfType?_withoutInputs]
  cases c.idOfType? t with
  | none => rfl
  | some id =>
    rw [Option.bind_some, Option.bind_some, get?_withoutInputs]
    cases c.get? id <;> rfl

theorem modify_withoutInputs {f g : Declaration → Declaration}
    (h : ∀ d : Declaration, (f d).withoutInputs = g d.withoutInputs) (id : Nat) :
    (c.modify id f).withoutInputs = c.withoutInputs.modify id g := by
  unfold modify withoutInputs
  rw [Catalog.mk.injEq]
  refine ⟨?_, rfl⟩
  apply List.ext_getElem?
  intro i
  by_cases hi : id = i
  · subst hi
    cases hd : c.types[id]? <;> simp [hd, h]
  · simp [hi]

theorem setBody_withoutInputs (id : Nat) (body : Body) :
    (c.setBody id body).withoutInputs = c.withoutInputs.setBody id body := by
  have hbody : ∀ d : Declaration, Declaration.withoutInputs { d with body } =
      { d.withoutInputs with body } := fun _ => rfl
  exact c.modify_withoutInputs hbody id

theorem push_withoutInputs (d : Declaration) :
    c.withoutInputs.push d.withoutInputs = ((c.push d).1.withoutInputs, (c.push d).2) := by
  unfold push
  rw [Declaration.key_withoutInputs, idOf?_withoutInputs]
  cases c.idOf? d.key with
  | some id => rfl
  | none => simp [withoutInputs]

theorem ofDeclarations_withoutInputs (ds : Declarations) :
    ofDeclarations ds.withoutInputs = (ofDeclarations ds).withoutInputs := by
  have hstep : ∀ (c : Catalog) (d : Declaration),
      (c.withoutInputs.push d.withoutInputs).1 = (c.push d).1.withoutInputs :=
    fun c d => congrArg Prod.fst (c.push_withoutInputs d)
  have hfold : ds.types.foldl (fun c d => (c.push d.withoutInputs).1)
      (withoutInputs { consts := ds.consts }) = (ofDeclarations ds).withoutInputs :=
    List.foldl_hom withoutInputs hstep
  rw [ofDeclarations, Declarations.withoutInputs, List.foldl_map]
  exact hfold

/-! ### Settling, enums and flattening -/

theorem fieldsBehind_withoutInputs : ∀ room id : Nat,
    c.withoutInputs.fieldsBehind room id = c.fieldsBehind room id
  | 0, _ => rfl
  | room + 1, id => by
    have through : ∀ t, c.withoutInputs.fieldsThrough room t = c.fieldsThrough room t := by
      intro t
      unfold fieldsThrough
      rw [find_withoutInputs]
      cases c.find t with
      | none => rfl
      | some x =>
        simp only [Option.map_some, Option.bind_some, Declaration.typeParams_withoutInputs]
        rw [fieldsBehind_withoutInputs room x.1]
    rw [fieldsBehind_succ, fieldsBehind_succ, get?_withoutInputs]
    cases c.get? id with
    | none => rfl
    | some d => simp only [Option.map_some, Option.bind_some, Declaration.body_withoutInputs, through]

theorem settleBody_withoutInputs (id : Nat) :
    c.withoutInputs.settleBody id = (c.settleBody id).withoutInputs := by
  unfold settleBody
  rw [fieldsBehind_withoutInputs]
  split
  · rw [setBody_withoutInputs]
  · rfl

/-- What a declaration does not ask for need not be given. -/
theorem unfit?_withoutInputs {d : Declaration} (h : unfit? d = none) :
    unfit? d.withoutInputs = none := by
  unfold unfit? at h ⊢
  rw [Declaration.isRecord_withoutInputs, Declaration.enumRequest_withoutInputs]
  cases hrecord : d.isRecord with
  | true => simpa [hrecord] using h
  | false =>
    cases hrequests : d.requests with
    | nil => simp [hrequests]
    | cons r rs => simp [hrequests, hrecord] at h

variable {c} {w : Catalog}

theorem settleAll_withoutInputs : ∀ {ids : List Nat} {c w : Catalog}, c.settleAll ids = .ok w →
    c.withoutInputs.settleAll ids = .ok w.withoutInputs
  | [], _, _, h => by
    obtain rfl := Except.ok.inj h
    rfl
  | id :: ids, c, w, h => by
    unfold settleAll at h ⊢
    dsimp only at h ⊢
    rw [settleBody_withoutInputs, get?_withoutInputs]
    split at h
    · exact nomatch h
    · rename_i hfit
      have hfit' : ((c.settleBody id).get? id |>.map Declaration.withoutInputs).bind unfit? =
          none := by
        cases hd : (c.settleBody id).get? id with
        | none => rfl
        | some d =>
          rw [hd] at hfit
          exact unfit?_withoutInputs hfit
      rw [hfit']
      exact settleAll_withoutInputs h

theorem settle_withoutInputs (h : c.settle = .ok w) :
    c.withoutInputs.settle = .ok w.withoutInputs := by
  unfold settle at h ⊢
  rw [ids_withoutInputs]
  exact settleAll_withoutInputs h

variable (c)

theorem enumIds_withoutInputs : c.withoutInputs.enumIds = c.enumIds := by
  unfold enumIds
  rw [ids_withoutInputs]
  congr 1
  funext id
  cases h : c.get? id <;> simp [h]

theorem addConstant_withoutInputs : c.withoutInputs.addConstant = c.addConstant := by
  have henum : ∀ k, c.withoutInputs.enumOf? k =
      (c.enumOf? k).map fun x => (x.1, x.2.withoutInputs) := by
    intro k
    unfold enumOf?
    cases k.type with
    | none => rfl
    | some t =>
      rw [Option.bind_some, Option.bind_some, find_withoutInputs]
      cases c.find t with
      | none => rfl
      | some x => cases h : x.2.enumRequest <;> simp [Option.filter, h]
  funext values k
  unfold addConstant
  rw [henum]
  cases c.enumOf? k <;> rfl

theorem enumMembers_withoutInputs : c.withoutInputs.enumMembers = c.enumMembers := by
  have hlabel : ∀ id, (c.withoutInputs.get? id).map Declaration.label =
      (c.get? id).map Declaration.label := by
    intro id
    cases h : c.get? id <;> simp [h]
  unfold enumMembers
  rw [enumIds_withoutInputs, addConstant_withoutInputs]
  simp only [hlabel]
  rfl

theorem addField_withoutInputs : c.withoutInputs.addField = c.addField := by
  funext owner flat p f
  unfold addField
  rw [find_withoutInputs]
  cases c.find f.type <;> rfl

theorem flattenFrom_withoutInputs : ∀ room : Nat,
    c.withoutInputs.flattenFrom room = c.flattenFrom room
  | 0 => by
    funext chain done id
    unfold flattenFrom
    rw [labelOf_withoutInputs, nameOf_withoutInputs]
  | room + 1 => by
    funext chain done id
    unfold flattenFrom
    dsimp only
    rw [flattenFrom_withoutInputs room, addField_withoutInputs, get?_withoutInputs,
      nameOf_withoutInputs]
    cases c.get? id <;> rfl

theorem flattenAll_withoutInputs : ∀ (ids : List Nat) (done : Flattened),
    c.withoutInputs.flattenAll done ids = c.flattenAll done ids
  | [], _ => rfl
  | id :: ids, done => by
    unfold flattenAll
    rw [flattenFrom_withoutInputs, get?_withoutInputs]
    simp only [flattenAll_withoutInputs ids]
    cases c.get? id <;> rfl

theorem flatten_withoutInputs :
    c.withoutInputs.flatten = c.flatten.map Catalog.withoutInputs := by
  have hstep : ∀ (c : Catalog) (x : Nat × List Field),
      c.withoutInputs.setBody x.1 (.record x.2) = (c.setBody x.1 (.record x.2)).withoutInputs :=
    fun c x => (c.setBody_withoutInputs x.1 (.record x.2)).symm
  unfold flatten
  rw [ids_withoutInputs, flattenAll_withoutInputs]
  cases c.flattenAll [] c.ids with
  | error e => rfl
  | ok done => exact congrArg Except.ok (List.foldl_hom withoutInputs hstep)

end Catalog

/-! ### Instances -/

namespace Instances

/-- The state whose catalog has no inputs that are asked for. -/
def withoutInputs (s : Instances) : Instances := { s with catalog := s.catalog.withoutInputs }

variable (s : Instances)

@[simp]
theorem catalog_withoutInputs : s.withoutInputs.catalog = s.catalog.withoutInputs := rfl

@[simp]
theorem queue_withoutInputs : s.withoutInputs.queue = s.queue := rfl

theorem instanceOf_withoutInputs (generic : Declaration) (copy : Nat) (args : List GoType) :
    instanceOf generic.withoutInputs copy args = (instanceOf generic copy args).withoutInputs := by
  have hkept : (BlockRequest.isKept ∘ fun r : BlockRequest => { r with customName := none }) =
      BlockRequest.isKept := rfl
  simp only [instanceOf, Declaration.withoutInputs, List.filter_map, hkept]

theorem instanceFor_withoutInputs (id : Nat) (generic : Declaration) (args : List GoType) :
    s.withoutInputs.instanceFor id generic.withoutInputs args =
      ((s.instanceFor id generic args).1, (s.instanceFor id generic args).2.withoutInputs) := by
  unfold instanceFor
  rw [show s.withoutInputs.known = s.known from rfl]
  split
  · rfl
  · rw [instanceOf_withoutInputs, catalog_withoutInputs, Catalog.push_withoutInputs]
    rfl

theorem reference_withoutInputs (c : Catalog) (id : Nat) :
    reference c.withoutInputs id = reference c id := by
  unfold reference
  rw [Catalog.get?_withoutInputs]
  cases c.get? id <;> rfl

theorem genericOf?_withoutInputs (c : Catalog) (package : Option String) (name : String) :
    genericOf? c.withoutInputs package name =
      (genericOf? c package name).map fun x => (x.1, x.2.withoutInputs) := by
  unfold genericOf?
  rw [Catalog.find_withoutInputs]
  cases c.find (.named package none name []) with
  | none => rfl
  | some x => cases h : x.2.isGeneric && x.2.isRecord <;> simp [Option.filter, h]

mutual

/-- **Types get the same references.** -/
theorem concrete_withoutInputs : ∀ (s : Instances) (t : GoType),
    concrete s.withoutInputs t = ((concrete s t).1, (concrete s t).2.withoutInputs)
  | s, .pointer t | s, .slice t | s, .array t => by
    simp only [concrete, concrete_withoutInputs s t]
  | s, .map k v => by
    simp only [concrete, concrete_withoutInputs s k, concrete_withoutInputs _ v]
  | s, .named package qualifier name [] => by simp only [concrete]
  | s, .named package qualifier name (arg :: args) => by
    simp only [concrete, concreteAll_withoutInputs s (arg :: args)]
    rw [catalog_withoutInputs, genericOf?_withoutInputs]
    cases genericOf? (concreteAll s (arg :: args)).2.catalog package name with
    | none => rfl
    | some x =>
      simp only [Option.map_some, instanceFor_withoutInputs]
      rw [catalog_withoutInputs, reference_withoutInputs]
  | s, .any | s, .other text => by simp only [concrete]

theorem concreteAll_withoutInputs : ∀ (s : Instances) (ts : List GoType),
    concreteAll s.withoutInputs ts = ((concreteAll s ts).1, (concreteAll s ts).2.withoutInputs)
  | s, [] => by simp only [concreteAll]
  | s, t :: ts => by
    simp only [concreteAll, concrete_withoutInputs s t, concreteAll_withoutInputs _ ts]

end

theorem concreteFields_withoutInputs : ∀ (s : Instances) (fs : List Field),
    concreteFields s.withoutInputs fs =
      ((concreteFields s fs).1, (concreteFields s fs).2.withoutInputs)
  | _, [] => rfl
  | s, f :: fs => by
    simp only [concreteFields, concrete_withoutInputs, concreteFields_withoutInputs _ fs]

theorem step_withoutInputs : s.withoutInputs.step = s.step.withoutInputs := by
  unfold step
  rw [queue_withoutInputs]
  cases s.queue with
  | nil => rfl
  | cons id queue =>
    have hbody : (s.catalog.withoutInputs.get? id).map Declaration.body =
        (s.catalog.get? id).map Declaration.body := by
      cases h : s.catalog.get? id <;> simp [h]
    dsimp only
    rw [catalog_withoutInputs, hbody]
    cases (s.catalog.get? id).map Declaration.body with
    | none => rfl
    | some body =>
      cases body with
      | record fields =>
        have hfields := concreteFields_withoutInputs { s with queue } fields
        unfold withoutInputs at hfields ⊢
        dsimp only at hfields ⊢
        rw [hfields]
        dsimp only
        rw [Catalog.setBody_withoutInputs]
      | defined t | aliased t => rfl

theorem run_withoutInputs : ∀ (limit : Nat) (s : Instances),
    s.withoutInputs.run limit = (s.run limit).withoutInputs
  | 0, _ => rfl
  | limit + 1, s => by
    unfold run
    rw [queue_withoutInputs]
    split
    · rfl
    · rw [step_withoutInputs, run_withoutInputs limit]

theorem start_withoutInputs (c : Catalog) : start c.withoutInputs = (start c).withoutInputs := by
  unfold start withoutInputs
  rw [Instances.mk.injEq]
  refine ⟨rfl, rfl, rfl, ?_⟩
  rw [Catalog.ids_withoutInputs]
  congr 1
  funext id
  cases h : c.get? id <;> simp [h]

end Instances

theorem Catalog.withInstances_withoutInputs {c v : Catalog} (h : c.withInstances = .ok v) :
    c.withoutInputs.withInstances = .ok v.withoutInputs := by
  obtain ⟨n, hend, rfl⟩ := withInstances_eq_ok_iff.1 h
  have hrun : Instances.run n (Instances.start c.withoutInputs) =
      (Instances.run n (Instances.start c)).withoutInputs := by
    rw [Instances.start_withoutInputs, Instances.run_withoutInputs]
  refine withInstances_eq_ok_iff.2 ⟨n, ?_, ?_⟩
  · rw [hrun, Instances.queue_withoutInputs, hend]
  · rw [hrun, Instances.catalog_withoutInputs]

end GoSchema
