/-
# What an argument adds to the name of an instance

The name of an instance is put together from what its arguments add to it, and what an argument adds
depends on the lists around it alone. When the parameters in a type are replaced, what the type adds
is made from its own names and from what the arguments add for the parameters that it mentions
(`namePart_subst_mem`). So if the arguments add one of finitely many parts, then so does the type
(`parts_finite`). A map adds the same whatever its key and its value are.

Key definitions: `namePart`, `GoType.mentions`, `GoType.isBare`, `GoType.argLists`,
`Instances.Parts`.
Key theorems: `parts_finite`, `namePart_subst_mem`, `namePart_mem_parts`, `namesOfArgs_congr`.
-/
import GoSchema.Proofs.InstanceQueue
import Mathlib.Data.Finite.Prod

namespace GoSchema

/-- What a type adds to a name with layers of lists around it. -/
abbrev NamePart : Type := Nat → String

/-- What a type adds to the name of an instance, by the number of layers of lists around it. -/
def namePart (t : GoType) : NamePart := fun lists => nameOfArg lists t

namespace GoType

mutual

/-- Whether a bare name adds to what a type adds to a name. The key and the value of a map do not
add anything. -/
def mentions (name : String) : GoType → Bool
  | named none _ n [] => n = name
  | named _ _ _ args => mentionsIn name args
  | pointer t | slice t | array t => mentions name t
  | map _ _ | any | other _ => false

/-- Whether a bare name adds to what the types of a list add to a name. -/
def mentionsIn (name : String) : List GoType → Bool
  | [] => false
  | t :: ts => mentions name t || mentionsIn name ts

end

/-- Whether a type is a bare name, behind any pointers. -/
def isBare (t : GoType) : Bool :=
  match t.stripPointers with
  | named none _ _ [] => true
  | _ => false

mutual

/-- The lists of arguments in a type, at any depth. -/
def argLists : GoType → List (List GoType)
  | named _ _ _ args => args :: argListsIn args
  | pointer t | slice t | array t => argLists t
  | map k v => argLists k ++ argLists v
  | any | other _ => []

/-- The lists of arguments in the types of a list. -/
def argListsIn : List GoType → List (List GoType)
  | [] => []
  | t :: ts => argLists t ++ argListsIn ts

end

theorem allRefs_argLists {lists : List (List GoType)} :
    ∀ {t : GoType}, t.argLists ⊆ lists → t.AllRefs fun _ _ args => args ∈ lists := by
  intro t
  induction t using GoType.rec
    (motive_2 := fun ts => argListsIn ts ⊆ lists → AllRefsIn (fun _ _ args => args ∈ lists) ts) with
  | pointer t ih | slice t ih | array t ih => exact ih
  | map k v ihk ihv =>
    intro hsub
    exact ⟨ihk (List.append_subset.1 hsub).1, ihv (List.append_subset.1 hsub).2⟩
  | any | other => exact fun _ => trivial
  | named package qualifier name args ih =>
    intro hsub
    exact ⟨fun _ => hsub List.mem_cons_self, ih fun l hl => hsub (List.mem_cons_of_mem _ hl)⟩
  | nil => trivial
  | cons t ts ih ihs hsub =>
    exact ⟨ih (List.append_subset.1 hsub).1, ihs (List.append_subset.1 hsub).2⟩

theorem argFor_eq_some {params : List String} {args : List GoType} {name : String} {a : GoType}
    (h : argFor params args name = some a) :
    name ∈ params ∧ args[params.findIdx (· = name)]? = some a := by
  obtain ⟨i, hi, ha⟩ := Option.bind_eq_some_iff.1 h
  obtain ⟨-, hfind⟩ := List.findIdx?_eq_some_iff_findIdx_eq.1 hi
  obtain ⟨hlt, hname, -⟩ := List.findIdx?_eq_some_iff_getElem.1 hi
  have hat : params[i] = name := of_decide_eq_true hname
  exact ⟨hat ▸ List.getElem_mem hlt, hfind ▸ ha⟩

end GoType

namespace Instances

/-! ### What a type can add to a name -/

mutual

/-- What a type can add to a name when each bare name in it may stand for anything that adds one of
the given parts. -/
def Parts (R : Set NamePart) : GoType → Set NamePart
  | .pointer t => Parts R t
  | .slice t | .array t => (fun f lists => f (lists + 1)) '' Parts R t
  | .named none _ name [] => insert (fun lists => Name.listedName (name ++ "") lists) R
  | .named _ _ name args => (fun s lists => Name.listedName (name ++ s) lists) '' PartsIn R args
  | .map _ _ => {fun lists => Name.listedName "Map" lists}
  | .any => {fun lists => Name.listedName "Any" lists}
  | .other text =>
    {fun lists => Name.listedName (String.ofList (text.toList.filter Unicode.isAlphanumeric)) lists}

/-- What the types of a list can add to a name, one after the other. -/
def PartsIn (R : Set NamePart) : List GoType → Set String
  | [] => {""}
  | t :: ts => Set.image2 (fun f s => f 0 ++ s) (Parts R t) (PartsIn R ts)

end

variable {R S : Set NamePart}

theorem parts_finite (hR : R.Finite) (t : GoType) : (Parts R t).Finite := by
  induction t using GoType.rec (motive_2 := fun ts => (PartsIn R ts).Finite) with
  | pointer t ih => exact ih
  | slice t ih | array t ih => exact ih.image _
  | map k v _ _ => exact Set.finite_singleton _
  | any => exact Set.finite_singleton _
  | other text => exact Set.finite_singleton _
  | named package qualifier name args ih =>
    cases package with
    | some p => simpa only [Parts] using ih.image _
    | none =>
      cases args with
      | nil => simpa only [Parts] using hR.insert _
      | cons a as => simpa only [Parts] using ih.image _
  | nil => exact Set.finite_singleton _
  | cons t ts ih ihs => exact ih.image2 _ ihs

/-- What a type with its parameters replaced adds to a name, where the arguments for the parameters
that it mentions add one of the given parts. -/
theorem namePart_subst_mem {params : List String} {args : List GoType} (t : GoType)
    (h : ∀ name a, t.mentions name = true → GoType.argFor params args name = some a →
      namePart a ∈ R) : namePart (t.subst params args) ∈ Parts R t := by
  induction t using GoType.rec
    (motive_2 := fun ts => (∀ name a, GoType.mentionsIn name ts = true →
      GoType.argFor params args name = some a → namePart a ∈ R) →
      namesOfArgs (GoType.substAll params args ts) ∈ PartsIn R ts) with
  | pointer t ih => exact ih h
  | slice t ih | array t ih => exact ⟨_, ih h, rfl⟩
  | map k v _ _ => rfl
  | any => rfl
  | other text => rfl
  | named package qualifier name own ih =>
    cases package with
    | some p =>
      simp only [GoType.subst, Parts]
      exact ⟨_, ih fun n a hn => h n a (by simpa only [GoType.mentions] using hn), rfl⟩
    | none =>
      cases own with
      | cons x xs =>
        simp only [GoType.subst, Parts]
        exact ⟨_, ih fun n a hn => h n a (by simpa only [GoType.mentions] using hn), rfl⟩
      | nil =>
        simp only [GoType.subst, Parts]
        cases ha : GoType.argFor params args name with
        | none => exact Set.mem_insert _ _
        | some a => exact Set.mem_insert_of_mem _ (h name a (by simp [GoType.mentions]) ha)
  | nil => rfl
  | cons t ts ih ihs h =>
    refine Set.mem_image2_of_mem (ih fun n a hn => h n a ?_) (ihs fun n a hn => h n a ?_)
    · simp [GoType.mentionsIn, hn]
    · simp [GoType.mentionsIn, hn]

theorem subst_nil (t : GoType) : t.subst [] [] = t := by
  induction t using GoType.rec (motive_2 := fun ts => GoType.substAll [] [] ts = ts) with
  | pointer t ih | slice t ih | array t ih => rw [GoType.subst, ih]
  | map k v ihk ihv => rw [GoType.subst, ihk, ihv]
  | any | other => rfl
  | named package qualifier name args ih =>
    cases package <;> cases args <;> simp_all [GoType.subst, GoType.argFor]
  | nil => rfl
  | cons t ts ih ihs => rw [GoType.substAll, ih, ihs]

theorem namePart_mem_parts (t : GoType) : namePart t ∈ Parts R t := by
  have h : namePart (t.subst [] []) ∈ Parts R t := namePart_subst_mem t fun name a _ ha => by
    simp [GoType.argFor] at ha
  rwa [subst_nil] at h

theorem namePart_subst_stripPointers (params : List String) (args : List GoType) (t : GoType) :
    namePart (t.subst params args) = namePart (t.stripPointers.subst params args) := by
  induction t using GoType.stripPointers.induct with
  | case1 t ih => exact ih
  | case2 t h => cases t <;> first | rfl | exact absurd rfl (h _)

theorem namesOfArgs_congr : ∀ {ts us : List GoType}, ts.map namePart = us.map namePart →
    namesOfArgs ts = namesOfArgs us
  | [], [], _ => rfl
  | [], _ :: _, h => nomatch h
  | _ :: _, [], h => nomatch h
  | t :: ts, u :: us, h => by
    obtain ⟨hhead, htail⟩ := List.cons.inj h
    have hzero : nameOfArg 0 t = nameOfArg 0 u := congrFun hhead 0
    rw [namesOfArgs, namesOfArgs, hzero, namesOfArgs_congr htail]

end Instances

end GoSchema
