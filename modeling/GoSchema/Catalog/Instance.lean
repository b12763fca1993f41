/-
# Instances of generic structs

A reference to a generic struct with type arguments becomes a reference to an instance: a
declaration whose name is put together from the names of the generic struct and of the arguments,
and whose fields have the arguments in place of the parameters. Structs are worked through in order,
and new instances are put at the end of the queue, because their fields may refer to further
instances. The work goes on until the queue is empty; no number bounds it, and a generic struct that
refers to ever larger instances of itself keeps it going for ever.

Key definitions: `nameOfArg`, `Instances`, `Instances.concrete`, `Instances.step`,
`Instances.Exhausted`, `Instances.exhaust`, `Catalog.withInstances`.
Key theorems: `acc_isNext`, `exhaust_eq_some_iff`, `finish_eq_exhaust`.
-/
import GoSchema.Catalog.Basic
import GoSchema.Fault
import GoSchema.Unicode.Alphanumeric

namespace GoSchema

mutual

/-- What a type argument adds to the name of an instance, with `lists` layers of lists around it. -/
def nameOfArg (lists : Nat) : GoType → String
  | .pointer t => nameOfArg lists t
  | .slice t | .array t => nameOfArg (lists + 1) t
  | .named _ _ name args => Name.listedName (name ++ namesOfArgs args) lists
  | .map _ _ => Name.listedName "Map" lists
  | .any => Name.listedName "Any" lists
  | .other text =>
    Name.listedName (String.ofList (text.toList.filter Unicode.isAlphanumeric)) lists

/-- What a list of type arguments adds to a name. -/
def namesOfArgs : List GoType → String
  | [] => ""
  | t :: ts => nameOfArg 0 t ++ namesOfArgs ts

end

/-- The state of instantiation. -/
structure Instances where
  catalog : Catalog
  /-- The instance of a generic struct for a list of arguments. -/
  known : List ((Nat × List GoType) × Nat) := []
  /-- The generic struct of every instance that was made, newest first. -/
  made : List Nat := []
  /-- The structs whose fields are still to be gone through. -/
  queue : List Nat := []
  deriving Repr

namespace Instances

/-- The instance of a generic struct; `copy` is its number among the instances of that struct. -/
def instanceOf (generic : Declaration) (copy : Nat) (args : List GoType) : Declaration :=
  { generic with
    name := generic.name ++ namesOfArgs args
    place := { generic.place with copy }
    typeParams := []
    body := .record (generic.body.fields.map (Field.subst generic.typeParams args))
    requests := generic.requests.map fun r => { r with customName := none }
    enumRequest := none
    synthetic := true }

/-- The number of the instance of a generic struct for arguments, which is made if it is not known
yet. -/
def instanceFor (s : Instances) (id : Nat) (generic : Declaration) (args : List GoType) :
    Nat × Instances :=
  match s.known.lookup (id, args) with
  | some known => (known, s)
  | none =>
    let (catalog, made) := s.catalog.push (instanceOf generic (s.made.count id + 1) args)
    (made,
      { catalog
        known := s.known ++ [((id, args), made)]
        made := id :: s.made
        queue := s.queue ++ [made] })

/-- The reference to a declaration that takes the place of a generic one. -/
def reference (c : Catalog) (id : Nat) : GoType :=
  match c.get? id with
  | some d => .named (some d.package.identity) none d.name []
  | none => .any

/-- The generic struct that a name with arguments refers to. -/
def genericOf? (c : Catalog) (package : Option String) (name : String) :
    Option (Nat × Declaration) :=
  (c.find (.named package none name [])).filter fun (_, d) => d.isGeneric && d.isRecord

mutual

/-- A type with every reference to a generic struct replaced by one to its instance. -/
def concrete (s : Instances) : GoType → GoType × Instances
  | .pointer t =>
    let (t, s) := concrete s t
    (.pointer t, s)
  | .slice t =>
    let (t, s) := concrete s t
    (.slice t, s)
  | .array t =>
    let (t, s) := concrete s t
    (.array t, s)
  | .map k v =>
    let (k, s) := concrete s k
    let (v, s) := concrete s v
    (.map k v, s)
  | .named package qualifier name [] => (.named package qualifier name [], s)
  | .named package qualifier name args =>
    let (args, s) := concreteAll s args
    match genericOf? s.catalog package name with
    | some (id, generic) =>
      let (made, s) := s.instanceFor id generic args
      (reference s.catalog made, s)
    | none => (.named package qualifier name args, s)
  | .any => (.any, s)
  | .other text => (.other text, s)

/-- The types of a list, each with its references replaced, in order. -/
def concreteAll (s : Instances) : List GoType → List GoType × Instances
  | [] => ([], s)
  | t :: ts =>
    let (t, s) := concrete s t
    let (ts, s) := concreteAll s ts
    (t :: ts, s)

end

/-- Fields with the references in their types replaced, in order. -/
def concreteFields (s : Instances) : List Field → List Field × Instances
  | [] => ([], s)
  | f :: fs =>
    let (type, s) := concrete s f.type
    let (fs, s) := concreteFields s fs
    ({ f with type } :: fs, s)

/-- Goes through the fields of the first struct of the queue. -/
def step (s : Instances) : Instances :=
  match s.queue with
  | [] => s
  | id :: queue =>
    let s := { s with queue }
    match (s.catalog.get? id).map Declaration.body with
    | some (.record fields) =>
      let (fields, s) := concreteFields s fields
      { s with catalog := s.catalog.setBody id (.record fields) }
    | _ => s

/-- Takes at most `limit` steps, and stops when the queue is empty. -/
def run : (limit : Nat) → Instances → Instances
  | 0, s => s
  | limit + 1, s => if s.queue.isEmpty then s else run limit s.step

/-- What going on from a state comes to: a state that some number of steps leads to and in which the
queue is empty. There is none where the work never ends. -/
structure Exhausted (s : Instances) where
  last : Option Instances
  reached : ∀ t, last = some t → ∃ n, run n s = t ∧ t.queue = []

instance (s : Instances) : Nonempty (Exhausted s) := ⟨⟨none, fun _ h => nomatch h⟩⟩

/-- A state is the next one after a state with something in the queue. -/
def IsNext (t s : Instances) : Prop := s.queue.isEmpty = false ∧ t = s.step

/-- One step, with what going on from there comes to. -/
@[inline]
def exhaustNext (s : Instances) (onward : ∀ t, IsNext t s → Exhausted t) : Exhausted s :=
  if hend : s.queue.isEmpty then
    { last := some s
      reached := fun _ h => ⟨0, Option.some.inj h, Option.some.inj h ▸ List.isEmpty_iff.1 hend⟩ }
  else
    let next := onward s.step ⟨Bool.eq_false_iff.2 hend, rfl⟩
    { last := next.last
      reached := fun t h =>
        have ⟨n, hn, hqueue⟩ := next.reached t h
        ⟨n + 1, by rw [run, if_neg hend, hn], hqueue⟩ }

/-- Takes steps until the queue is empty, which it may never be. No measure bounds the steps, so the
recursion unfolds only from states that come to an end. From the others nothing is reached, and then
`Exhausted` leaves no value but `none`. -/
def exhaust (s : Instances) : Option Instances :=
  (WellFounded.partialExtrinsicFix IsNext exhaustNext s).last

/-- Steps that come to an end can be taken one after the other. -/
theorem acc_isNext : ∀ {n : Nat} {s : Instances}, (run n s).queue = [] → Acc IsNext s
  | 0, s, hend => .intro s fun t ⟨hmore, _⟩ => by
    rw [run] at hend
    rw [hend] at hmore
    cases hmore
  | n + 1, s, hend => .intro s fun t ⟨hmore, hnext⟩ => by
    rw [run, hmore, if_neg Bool.false_ne_true] at hend
    exact hnext ▸ acc_isNext hend

theorem exhaust_of_acc {s : Instances} (h : Acc IsNext s) :
    s.exhaust = if s.queue.isEmpty then some s else s.step.exhaust := by
  rw [exhaust, WellFounded.partialExtrinsicFix_eq_apply_of_acc h, exhaustNext]
  split <;> rfl

/-- What all steps lead to, if they come to an end, is what some number of steps leads to. -/
theorem exhaust_eq_some_iff {s t : Instances} :
    s.exhaust = some t ↔ ∃ n, run n s = t ∧ t.queue = [] := by
  constructor
  · exact (WellFounded.partialExtrinsicFix IsNext exhaustNext s).reached t
  · rintro ⟨n, rfl, hend⟩
    induction n generalizing s with
    | zero =>
      rw [exhaust_of_acc (acc_isNext hend)]
      exact if_pos (List.isEmpty_iff.2 hend)
    | succ n ih =>
      rw [exhaust_of_acc (acc_isNext hend), run]
      rw [run] at hend
      split
      · rfl
      · rename_i hmore
        rw [if_neg hmore] at hend
        exact ih hend

theorem exhaust_eq (s : Instances) :
    s.exhaust = if s.queue.isEmpty then some s else s.step.exhaust := by
  split
  · rename_i hend
    exact exhaust_eq_some_iff.2 ⟨0, rfl, List.isEmpty_iff.1 hend⟩
  · rename_i hmore
    ext t
    rw [exhaust_eq_some_iff, exhaust_eq_some_iff]
    constructor
    · rintro ⟨n, rfl, hend⟩
      cases n with
      | zero => exact absurd (List.isEmpty_iff.2 hend) hmore
      | succ n =>
        rw [run, if_neg hmore] at hend ⊢
        exact ⟨n, rfl, hend⟩
    · rintro ⟨n, hn, hend⟩
      exact ⟨n + 1, by rw [run, if_neg hmore, hn], hend⟩

theorem exhaust_run : ∀ (n : Nat) (s : Instances), (run n s).exhaust = s.exhaust
  | 0, _ => rfl
  | n + 1, s => by
    rw [run]
    split
    · rfl
    · rename_i hmore
      rw [exhaust_run n, exhaust_eq s, if_neg hmore]

/-- The number of steps that are counted before the others are taken. -/
def countedSteps : Nat := 256

/-- Takes steps until the queue is empty. The first steps are counted, so that a short run can be
computed in a proof; their number makes no difference (`finish_eq_exhaust`). -/
def finish (s : Instances) : Option Instances :=
  let counted := s.run countedSteps
  if counted.queue.isEmpty then some counted else counted.exhaust

theorem finish_eq_exhaust (s : Instances) : s.finish = s.exhaust := by
  unfold finish
  dsimp only
  split
  · rename_i hend
    rw [← exhaust_run countedSteps, exhaust_eq, if_pos hend]
  · exact exhaust_run _ s

/-- The state before the first step: every struct that is not generic is in the queue. -/
def start (c : Catalog) : Instances :=
  { catalog := c
    queue := c.ids.filter fun id =>
      ((c.get? id).map fun d => d.isRecord && !d.isGeneric).getD false }

end Instances

namespace Catalog

/-- The catalog with an instance for every reference to a generic struct. The fault stands for
instantiation that never ends: there is no result then, but the work does not stop either. -/
def withInstances (c : Catalog) : Except Fault Catalog :=
  match (Instances.start c).finish with
  | some s => .ok s.catalog
  | none => .error .endlessInstances

end Catalog

end GoSchema
