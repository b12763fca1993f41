/-
# Type texts

A type text is a name or a list, each with or without an exclamation mark. The text that is derived
from a Go type follows what the type is when names are looked through, down to scalars, maps,
interfaces, enums, structs, and slices and arrays whose items are written `byte` or `uint8`: there
is a list for every slice and array, and an exclamation mark wherever there is no pointer, but the
tag of the field decides about the last one.

Key definitions: `PlainName`, `TypeTree`, `TypeTree.print`, `TypeTree.requiredAt`, `Unfolding`,
`BlockMaker.Unfolds`, `BlockMaker.isByteList`, `BlockMaker.HasPlainNames`.
Key theorems: `TypeTree.print_injective`, `TypeTree.isChain_print`, `BlockMaker.Unfolds.unique`,
`BlockMaker.Refers.prints`, `BlockMaker.fieldTypeText_print`.
-/
import GoSchema.Proofs.DiscoveredReferences
import GoSchema.Proofs.References
import Mathlib.Data.List.Chain

namespace GoSchema

open Outcome

/-- Whether a text is a name of the schema language. -/
def isPlainName (text : String) : Bool :=
  match text.toList with
  | [] => false
  | c :: cs => (c.isAlpha || c = '_') && cs.all fun x => x.isAlphanum || x = '_'

/-- A name of the schema language. -/
abbrev PlainName : Type := { text : String // isPlainName text = true }

/-- A type of the schema language. -/
inductive TypeTree
  | name (name : PlainName) (required : Bool)
  | list (item : TypeTree) (required : Bool)

namespace TypeTree

/-- The mark of a type whose value is required. -/
def mark (required : Bool) : String := if required then "!" else ""

/-- The text of a type. -/
def print : TypeTree → String
  | name n required => n.val ++ mark required
  | list item required => "[" ++ item.print ++ "]" ++ mark required

/-- The number of lists in each other. -/
def depth : TypeTree → Nat
  | name _ _ => 0
  | list item _ => item.depth + 1

/-- Whether the value is required at the position in so many lists. -/
def requiredAt : TypeTree → Nat → Bool
  | name _ required, 0 | list _ required, 0 => required
  | name _ _, _ + 1 => false
  | list item _, n + 1 => item.requiredAt n

/-- The type with another mark at its end. -/
def withMark (required : Bool) : TypeTree → TypeTree
  | name n _ => name n required
  | list item _ => list item required

theorem isAlphanum_of_mem_plainName {n : PlainName} {c : Char} (h : c ∈ n.val.toList) :
    c.isAlphanum = true ∨ c = '_' := by
  have hplain := n.property
  unfold isPlainName at hplain
  split at hplain
  · cases hplain
  · rename_i first rest heq
    rw [heq] at h
    simp only [Bool.and_eq_true, List.all_eq_true] at hplain
    rcases List.mem_cons.1 h with rfl | h
    · have hfirst := hplain.1
      grind [Char.isAlphanum]
    · have hrest := hplain.2 c h
      grind

theorem mem_plainName {n : PlainName} {c : Char} (h : c ∈ n.val.toList) :
    c ≠ '[' ∧ c ≠ ']' ∧ c ≠ '!' := by
  have hc := isAlphanum_of_mem_plainName h
  refine ⟨?_, ?_, ?_⟩ <;> rintro rfl <;> revert hc <;> decide

theorem plainName_ne_nil (n : PlainName) : n.val.toList ≠ [] := by
  intro hnil
  have hplain := n.property
  simp [isPlainName, hnil] at hplain

theorem toList_print_name (n : PlainName) (required : Bool) :
    (name n required).print.toList = n.val.toList ++ (mark required).toList :=
  String.toList_append ..

theorem toList_print_list (item : TypeTree) (required : Bool) :
    (list item required).print.toList =
      ('[' :: item.print.toList ++ [']']) ++ (mark required).toList := by
  simp [print]

/-- A mark at the end can be told from what is before it. -/
theorem mark_cancel {l l' : List Char} {required required' : Bool}
    (hl : ∀ c ∈ l.getLast?, c ≠ '!') (hr : ∀ c ∈ l'.getLast?, c ≠ '!')
    (h : l ++ (mark required).toList = l' ++ (mark required').toList) :
    l = l' ∧ required = required' := by
  have hlast : ∀ k : List Char, '!' ∈ (k ++ (mark true).toList).getLast? := fun k => by
    simp [mark]
  have hnone : ∀ k : List Char, k ++ (mark false).toList = k := fun k => by simp [mark]
  cases required <;> cases required'
  · rw [hnone, hnone] at h
    exact ⟨h, rfl⟩
  · rw [hnone] at h
    exact absurd rfl (hl '!' (h ▸ hlast l'))
  · rw [hnone] at h
    exact absurd rfl (hr '!' (h ▸ hlast l))
  · exact ⟨List.append_cancel_right h, rfl⟩

theorem getLast?_plainName (n : PlainName) : ∀ c ∈ n.val.toList.getLast?, c ≠ '!' :=
  fun _ hc => (mem_plainName (List.mem_of_getLast? hc)).2.2

theorem getLast?_list (item : TypeTree) :
    ∀ c ∈ ('[' :: item.print.toList ++ [']']).getLast?, c ≠ '!' := by
  intro c hc
  rw [List.getLast?_concat] at hc
  obtain rfl := Option.some.inj hc
  decide

theorem print_name_ne_print_list (n : PlainName) (required : Bool) (item : TypeTree)
    (required' : Bool) : (name n required).print ≠ (list item required').print := by
  intro h
  have hchars := congrArg String.toList h
  rw [toList_print_name, toList_print_list] at hchars
  obtain ⟨c, cs, hn⟩ := List.exists_cons_of_ne_nil (plainName_ne_nil n)
  rw [hn] at hchars
  have hc : c = '[' := (List.cons.inj hchars).1
  exact (mem_plainName (n := n) (c := c) (by simp [hn])).1 hc

/-- **A type text can be read in one way only.** -/
theorem print_injective : ∀ {t t' : TypeTree}, t.print = t'.print → t = t' := by
  intro t
  induction t with
  | name n required =>
    intro t' h
    cases t' with
    | name n' required' =>
      have hchars := congrArg String.toList h
      rw [toList_print_name, toList_print_name] at hchars
      obtain ⟨hn, rfl⟩ := mark_cancel (getLast?_plainName n) (getLast?_plainName n') hchars
      rw [Subtype.ext (String.toList_injective hn)]
    | list item required' => exact absurd h (print_name_ne_print_list _ _ _ _)
  | list item required ih =>
    intro t' h
    cases t' with
    | name n required' => exact absurd h.symm (print_name_ne_print_list _ _ _ _)
    | list item' required' =>
      have hchars := congrArg String.toList h
      rw [toList_print_list, toList_print_list] at hchars
      obtain ⟨hitem, rfl⟩ := mark_cancel (getLast?_list item) (getLast?_list item') hchars
      have hsame := List.append_cancel_right (List.cons.inj hitem).2
      rw [ih (String.toList_injective hsame)]

/-- **No two exclamation marks** stand side by side in a type text. -/
theorem isChain_print : ∀ t : TypeTree,
    t.print.toList.IsChain fun a b => ¬ (a = '!' ∧ b = '!') := by
  have marked : ∀ {l : List Char} (required : Bool), (∀ c ∈ l.getLast?, c ≠ '!') →
      l.IsChain (fun a b => ¬ (a = '!' ∧ b = '!')) →
      (l ++ (mark required).toList).IsChain fun a b => ¬ (a = '!' ∧ b = '!') := by
    intro l required hlast hl
    refine List.isChain_append.2 ⟨hl, ?_, fun a ha b _ hab => hlast a ha hab.1⟩
    cases required <;> simp [mark]
  intro t
  induction t with
  | name n required =>
    rw [toList_print_name]
    refine marked required (getLast?_plainName n) (List.Pairwise.isChain ?_)
    exact List.pairwise_of_forall_mem_list fun a ha _ _ hab => (mem_plainName ha).2.2 hab.1
  | list item required ih =>
    rw [toList_print_list]
    refine marked required (getLast?_list item) ?_
    refine List.isChain_append.2 ⟨List.isChain_cons.2 ⟨?_, ih⟩, .singleton _, ?_⟩
    · exact fun b _ hab => absurd hab.1 (by decide)
    · rintro a _ b hb ⟨-, rfl⟩
      exact absurd (Option.some.inj hb) (by decide)

theorem print_withMark (t : TypeTree) (required : Bool) :
    (t.withMark required).print = (t.withMark false).print ++ mark required := by
  cases t <;> simp [withMark, print, mark]

theorem depth_withMark (t : TypeTree) (required : Bool) :
    (t.withMark required).depth = t.depth := by
  cases t <;> rfl

theorem requiredAt_withMark_zero (t : TypeTree) (required : Bool) :
    (t.withMark required).requiredAt 0 = required := by
  cases t <;> rfl

theorem requiredAt_withMark_succ (t : TypeTree) (required : Bool) (n : Nat) :
    (t.withMark required).requiredAt (n + 1) = t.requiredAt (n + 1) := by
  cases t <;> rfl

theorem withMark_withMark (t : TypeTree) (required required' : Bool) :
    (t.withMark required).withMark required' = t.withMark required' := by
  cases t <;> rfl

end TypeTree

/-! ### Types with names looked through -/

/-- What a type is when names are looked through: something that is no list and no pointer, a
pointer, or a list. -/
inductive Unfolding
  | base
  | pointer (target : Unfolding)
  | list (item : Unfolding)

namespace Unfolding

/-- The number of lists in each other. -/
def layers : Unfolding → Nat
  | base => 0
  | pointer u => u.layers
  | list u => u.layers + 1

/-- Whether there is a pointer at the position in so many lists. -/
def pointerAt : Unfolding → Nat → Bool
  | pointer _, 0 => true
  | pointer u, n + 1 => u.pointerAt (n + 1)
  | list _, 0 => false
  | list u, n + 1 => u.pointerAt n
  | base, _ => false

/-- The type text over a name, as far as no tag decides otherwise. -/
def tree (name : PlainName) : Unfolding → TypeTree
  | base => .name name true
  | pointer u => (u.tree name).withMark false
  | list u => .list (u.tree name) true

theorem depth_tree (name : PlainName) (u : Unfolding) : (u.tree name).depth = u.layers := by
  induction u with
  | base => rfl
  | pointer u ih => exact (TypeTree.depth_withMark _ _).trans ih
  | list u ih => exact congrArg (· + 1) ih

theorem requiredAt_tree (name : PlainName) (u : Unfolding) :
    ∀ n ≤ u.layers, (u.tree name).requiredAt n = !u.pointerAt n := by
  induction u with
  | base =>
    intro n hn
    obtain rfl := Nat.le_zero.1 hn
    rfl
  | pointer u ih =>
    intro n hn
    cases n with
    | zero => exact TypeTree.requiredAt_withMark_zero _ _
    | succ n => exact (TypeTree.requiredAt_withMark_succ _ _ n).trans (ih _ hn)
  | list u ih =>
    intro n hn
    cases n with
    | zero => rfl
    | succ n => exact ih n (Nat.le_of_succ_le_succ hn)

/-- The mark at the end is there unless there is a pointer. -/
theorem withMark_tree (name : PlainName) (u : Unfolding) :
    (u.tree name).withMark (!u.pointerAt 0) = u.tree name := by
  cases u with
  | base => rfl
  | pointer u => exact TypeTree.withMark_withMark _ _ _
  | list u => rfl

end Unfolding

namespace BlockMaker

variable {ctx : BlockMaker}

/-- What a type is when names are looked through, down to scalars, maps, interfaces, enums, structs,
and the slices and arrays that are taken for texts. -/
inductive Unfolds (ctx : BlockMaker) (isText : GoType → Bool) : GoType → Unfolding → Prop
  | pointer {t : GoType} {u : Unfolding} (h : Unfolds ctx isText t u) :
      Unfolds ctx isText (.pointer t) (.pointer u)
  | slice {t : GoType} {u : Unfolding} (ht : isText (.slice t) = false)
      (h : Unfolds ctx isText t u) : Unfolds ctx isText (.slice t) (.list u)
  | array {t : GoType} {u : Unfolding} (ht : isText (.array t) = false)
      (h : Unfolds ctx isText t u) : Unfolds ctx isText (.array t) (.list u)
  | sliceText {t : GoType} (ht : isText (.slice t) = true) : Unfolds ctx isText (.slice t) .base
  | arrayText {t : GoType} (ht : isText (.array t) = true) : Unfolds ctx isText (.array t) .base
  | map {k v : GoType} : Unfolds ctx isText (.map k v) .base
  | any : Unfolds ctx isText .any .base
  | predeclared {qualifier : Option String} {name scalar : String} {args : List GoType}
      (hs : predeclaredScalar? name = some scalar) :
      Unfolds ctx isText (.named none qualifier name args) .base
  | scalar {package name scalar : String} {qualifier : Option String} {args : List GoType}
      (hs : ctx.scalarOfName? package qualifier name = some scalar) :
      Unfolds ctx isText (.named (some package) qualifier name args) .base
  | declared {package name : String} {qualifier : Option String} {args : List GoType} {id : Nat}
      {d : Declaration} (hs : ctx.scalarOfName? package qualifier name = none)
      (hd : ctx.catalog.find (.named (some package) qualifier name args) = some (id, d))
      (h : d.enumRequest.isSome = true ∨ d.isRecord = true) :
      Unfolds ctx isText (.named (some package) qualifier name args) .base
  | behind {package name : String} {qualifier : Option String} {args : List GoType} {id : Nat}
      {d : Declaration} {t : GoType} {u : Unfolding}
      (hs : ctx.scalarOfName? package qualifier name = none)
      (hd : ctx.catalog.find (.named (some package) qualifier name args) = some (id, d))
      (he : d.enumRequest = none) (hn : d.body.named? = some t) (h : Unfolds ctx isText t u) :
      Unfolds ctx isText (.named (some package) qualifier name args) u

/-- Whether a type is a slice or an array whose items are written `byte` or `uint8`. -/
def isByteList : GoType → Bool
  | .slice t | .array t => isByteType t
  | _ => false

/-- **A type unfolds in one way at most.** -/
theorem Unfolds.unique {isText : GoType → Bool} {t : GoType} {u u' : Unfolding}
    (h : ctx.Unfolds isText t u) (h' : ctx.Unfolds isText t u') : u = u' := by
  induction h generalizing u' with
  | pointer _ ih =>
    cases h' with
    | pointer h' => rw [ih h']
  | slice ht _ ih =>
    cases h' with
    | slice _ h' => rw [ih h']
    | sliceText ht' => exact nomatch ht.symm.trans ht'
  | array ht _ ih =>
    cases h' with
    | array _ h' => rw [ih h']
    | arrayText ht' => exact nomatch ht.symm.trans ht'
  | sliceText ht =>
    cases h' with
    | slice ht' => exact nomatch ht.symm.trans ht'
    | sliceText => rfl
  | arrayText ht =>
    cases h' with
    | array ht' => exact nomatch ht.symm.trans ht'
    | arrayText => rfl
  | map | any | predeclared =>
    cases h'
    rfl
  | scalar hs =>
    cases h' with
    | scalar => rfl
    | declared hs' | behind hs' => exact nomatch hs.symm.trans hs'
  | declared hs hd hkind =>
    cases h' with
    | scalar hs' => exact nomatch hs.symm.trans hs'
    | declared => rfl
    | behind hs' hd' he hn =>
      obtain ⟨rfl, rfl⟩ := Prod.mk.inj (Option.some.inj (hd.symm.trans hd'))
      rcases hkind with henum | hrecord
      · simp [he] at henum
      · exact nomatch hrecord.symm.trans (isRecord_of_named? hn)
  | behind hs hd he hn _ ih =>
    cases h' with
    | scalar hs' => exact nomatch hs.symm.trans hs'
    | declared hs' hd' hkind =>
      obtain ⟨rfl, rfl⟩ := Prod.mk.inj (Option.some.inj (hd.symm.trans hd'))
      rcases hkind with henum | hrecord
      · simp [he] at henum
      · exact nomatch hrecord.symm.trans (isRecord_of_named? hn)
    | behind hs' hd' he' hn' h' =>
      obtain ⟨rfl, rfl⟩ := Prod.mk.inj (Option.some.inj (hd.symm.trans hd'))
      obtain rfl := Option.some.inj (hn.symm.trans hn')
      exact ih h'

/-! ### Texts that are derived -/

/-- Whether the scalars of the configuration, and the names of all blocks and enums that are asked
for, are names of the schema language. -/
structure HasPlainNames (ctx : BlockMaker) : Prop where
  scalars : ∀ x ∈ ctx.config.scalars, isPlainName x.2 = true
  requests : ∀ d ∈ ctx.catalog.types, ∀ r ∈ d.requests,
    isPlainName (d.requestName ctx.config.naming r) = true
  enums : ∀ d ∈ ctx.catalog.types, ∀ r ∈ d.enumRequest,
    isPlainName (Name.typeName ctx.config.naming d.name r.customName .enum) = true

theorem HasPlainNames.scalar (h : ctx.HasPlainNames) {name : String}
    (hname : IsScalar ctx.config name) : isPlainName name = true := by
  rcases hname with husual | ⟨key, hmapped | hmapped⟩
  · have hall : ∀ x ∈ ["String", "Int", "Float", "Boolean", "ID"], isPlainName x = true := by
      decide +kernel
    exact hall name husual
  · exact h.scalars _ hmapped
  · have hall : ∀ x ∈ usualScalars, isPlainName x.2 = true := by decide +kernel
    exact hall _ hmapped

/-- A type text is printed as what its type unfolds to, over a name. -/
def Prints (ctx : BlockMaker) (t : GoType) (r : TypeRef) : Prop :=
  ∃ (name : PlainName) (u : Unfolding), ctx.Unfolds isByteList t u ∧
    r.text = ((u.tree name).withMark false).print ∧ r.nullable = u.pointerAt 0

theorem prints_of_base {t : GoType} (h : ctx.Unfolds isByteList t .base) {name : String}
    (hname : isPlainName name = true) : ctx.Prints t ⟨name, false⟩ :=
  ⟨⟨name, hname⟩, .base, h, by simp [Unfolding.tree, TypeTree.withMark, TypeTree.print,
    TypeTree.mark], rfl⟩

theorem print_list_tree (name : PlainName) (u : Unfolding) :
    "[" ++ ((u.tree name).withMark false).print ++ (if u.pointerAt 0 then "" else "!") ++ "]" =
      (((Unfolding.list u).tree name).withMark false).print := by
  have hmark : (if u.pointerAt 0 then "" else "!") = TypeTree.mark (!u.pointerAt 0) := by
    cases u.pointerAt 0 <;> rfl
  have hitem : ((u.tree name).withMark false).print ++ TypeTree.mark (!u.pointerAt 0) =
      (u.tree name).print := by
    rw [← TypeTree.print_withMark, Unfolding.withMark_tree]
  calc "[" ++ ((u.tree name).withMark false).print ++ (if u.pointerAt 0 then "" else "!") ++ "]"
    _ = "[" ++ (((u.tree name).withMark false).print ++ TypeTree.mark (!u.pointerAt 0)) ++ "]" := by
        simp [hmark, String.append_assoc]
    _ = (((Unfolding.list u).tree name).withMark false).print := by
        rw [hitem]
        simp [Unfolding.tree, TypeTree.withMark, TypeTree.print, TypeTree.mark]

/-- **A text that is derived from a type is printed as what the type unfolds to.** -/
theorem Refers.prints (hnames : ctx.HasPlainNames) {kind : BlockKind} {t : GoType} {r : TypeRef}
    (h : ctx.Refers kind t r) : ctx.Prints t r := by
  induction h with
  | pointer _ ih =>
    obtain ⟨name, u, hu, htext, -⟩ := ih
    refine ⟨name, .pointer u, .pointer hu, htext.trans ?_, rfl⟩
    rw [Unfolding.tree, TypeTree.withMark_withMark]
  | @list t v r hv hb _ ih =>
    obtain ⟨name, u, hu, htext, hnull⟩ := ih
    refine ⟨name, .list u, ?_, ?_, rfl⟩
    · rcases hv with rfl | rfl
      · exact .slice hb hu
      · exact .array hb hu
    · rw [htext, hnull]
      exact print_list_tree name u
  | bytes hv hb =>
    refine prints_of_base ?_ (hnames.scalar (.inl (by decide)))
    rcases hv with rfl | rfl
    · exact .sliceText hb
    · exact .arrayText hb
  | map => exact prints_of_base .map (hnames.scalar (isScalar_usual (.inl rfl)))
  | any => exact prints_of_base .any (hnames.scalar (isScalar_usual (.inr rfl)))
  | predeclared hs =>
    exact prints_of_base (.predeclared hs) (hnames.scalar (isScalar_of_predeclared hs))
  | scalar hs =>
    exact prints_of_base (.scalar hs) (hnames.scalar (isScalar_of_scalarOfName? hs))
  | enum hs hd he =>
    exact prints_of_base (.declared hs hd (.inl (by simp [he])))
      (hnames.enums _ (Catalog.mem_of_find hd) _ he)
  | struct hs hd _ hr hq =>
    exact prints_of_base (.declared hs hd (.inr hr))
      (hnames.requests _ (Catalog.mem_of_find hd) _ (List.mem_of_find?_eq_some hq))
  | behind hs hd he hn _ ih =>
    obtain ⟨name, u, hu, htext⟩ := ih
    exact ⟨name, u, .behind hs hd he hn hu, htext⟩

/-- **Type texts are well formed.** The type text of a field fails with the fault of a type without
a block, or it is the text of one type of the schema language, in which no two exclamation marks
stand side by side. It then has a list for each slice and array of what the Go type of the field
unfolds to, and an exclamation mark at each position where there is no pointer, but for the
outermost position of a field whose tag says otherwise. -/
theorem fieldTypeText_print (hnames : ctx.HasPlainNames) {spot : Spot}
    (ht : spot.field.options.typeText = none) (hf : spot.field.options.forceResolver = false)
    (hid : ctx.isIdField spot.field = false) :
    (∃ t : GoType, ctx.fieldTypeText spot =
      .error (.unknownType spot.owner (spot.field.goName.getD "") t.display)) ∨
    ∃ (tree : TypeTree) (u : Unfolding), ctx.fieldTypeText spot = .ok tree.print ∧
      (∀ tree' : TypeTree, tree'.print = tree.print → tree' = tree) ∧
      tree.print.toList.IsChain (fun a b => ¬ (a = '!' ∧ b = '!')) ∧
      ctx.Unfolds isByteList spot.field.type u ∧
      (∀ u', ctx.Unfolds isByteList spot.field.type u' → u' = u) ∧
      tree.depth = u.layers ∧
      (∀ n, 0 < n → n ≤ u.layers → tree.requiredAt n = !u.pointerAt n) ∧
      (spot.field.options.nullability = some .optional → tree.requiredAt 0 = false) ∧
      (spot.field.options.nullability = some .required → tree.requiredAt 0 = true) ∧
      (spot.field.options.nullability = none → tree.requiredAt 0 = !u.pointerAt 0) := by
  have htext : ctx.fieldTypeText spot = (ctx.refer spot chainLimit spot.field.type).map fun r =>
      if isNullable spot.field.options.nullability r.nullable then r.text else r.text ++ "!" := by
    simp [fieldTypeText_of_derived spot ht, plainRef, hid]
  rw [htext]
  cases href : ctx.refer spot chainLimit spot.field.type with
  | error e =>
    obtain ⟨-, t, -, rfl⟩ := refer_error_iff.1 href
    exact .inl ⟨t, rfl⟩
  | ok r =>
    right
    obtain ⟨name, u, hu, hr, hnull⟩ := (refers_of_refer hf chainLimit href).prints hnames
    have hmark : ∀ nullable : Bool, (if nullable then r.text else r.text ++ "!") =
        ((u.tree name).withMark (!nullable)).print := by
      intro nullable
      rw [TypeTree.print_withMark, ← hr]
      cases nullable <;> simp [TypeTree.mark]
    refine ⟨(u.tree name).withMark (!isNullable spot.field.options.nullability r.nullable), u,
      congrArg Except.ok (hmark _), fun _ => TypeTree.print_injective, TypeTree.isChain_print _, hu,
      fun _ hu' => hu'.unique hu, ?_, fun n hpos hn => ?_, fun hopt => ?_, fun hreq => ?_,
      fun hnone => ?_⟩
    · rw [TypeTree.depth_withMark, Unfolding.depth_tree]
    · obtain ⟨m, rfl⟩ := Nat.exists_eq_succ_of_ne_zero (Nat.ne_of_gt hpos)
      rw [TypeTree.requiredAt_withMark_succ, Unfolding.requiredAt_tree name u _ hn]
    · rw [TypeTree.requiredAt_withMark_zero, hopt]
      rfl
    · rw [TypeTree.requiredAt_withMark_zero, hreq]
      rfl
    · rw [TypeTree.requiredAt_withMark_zero, hnone, isNullable, hnull]

/-- A type that is declared in package `m`. -/
def localType (name : String) : GoType := .named (some "m") none name []

/-- A declaration of package `m`. -/
def localDeclaration (name : String) (number : Nat) (body : Body) : Declaration :=
  { name
    package := ⟨"m", none⟩
    path := ⟨"m.go"⟩
    line := number + 1
    place := ⟨0, number, 0⟩
    body }

/-- The struct that the fields below belong to, another name for `byte`, a list of pointers, and a
list of itself. -/
def spelled : BlockMaker :=
  { catalog :=
      { types :=
          [{ localDeclaration "Key" 0 (.record []) with requests := [{ kind := .type }] },
            localDeclaration "B" 1 (.aliased (.ofName "byte")),
            localDeclaration "Names" 2 (.defined (.slice (.pointer (.ofName "string")))),
            localDeclaration "Loop" 3 (.defined (.slice (localType "Loop")))] }
    enums := []
    config := {} }

/-- A field of a type, without a tag. -/
def plainSpot (type : GoType) : BlockMaker.Spot :=
  { field := { goName := some "Hash", type }, owner := "Key", kind := .type }

theorem spelled_hasPlainNames : spelled.HasPlainNames where
  scalars := by decide +kernel
  requests := by decide +kernel
  enums := by decide +kernel

theorem spelled_fieldTypeText :
    spelled.HasPlainNames ∧
      (∃ (tree : TypeTree) (u : Unfolding),
        spelled.fieldTypeText (plainSpot (.pointer (localType "Names"))) = .ok tree.print ∧
        tree.print = "[String]" ∧
        spelled.Unfolds isByteList (.pointer (localType "Names")) u ∧ tree.depth = u.layers) ∧
      ∃ t : GoType, spelled.fieldTypeText (plainSpot (localType "Loop")) =
        .error (.unknownType "Key" "Hash" t.display) := by
  have hnames : spelled.fieldTypeText (plainSpot (.pointer (localType "Names"))) =
      .ok "[String]" :=
    eq_ok_of_toOption (by decide +kernel)
  have hloop : (spelled.fieldTypeText (plainSpot (localType "Loop"))).toOption = none := by
    decide +kernel
  refine ⟨spelled_hasPlainNames, ?_, ?_⟩
  · have hid : spelled.isIdField (plainSpot (.pointer (localType "Names"))).field = false := by
      decide +kernel
    rcases fieldTypeText_print spelled_hasPlainNames rfl rfl hid with
      ⟨t, herror⟩ | ⟨tree, u, hok, -, -, hu, -, hdepth, -⟩
    · exact nomatch hnames.symm.trans herror
    · exact ⟨tree, u, hok, Except.ok.inj (hok.symm.trans hnames), hu, hdepth⟩
  · have hid : spelled.isIdField (plainSpot (localType "Loop")).field = false := by
      decide +kernel
    rcases fieldTypeText_print spelled_hasPlainNames rfl rfl hid with
      herror | ⟨tree, _, hok, -⟩
    · exact herror
    · rw [hok] at hloop
      exact nomatch hloop

/-- **Byte slices are told from other lists by how they are written.** An array of bytes has no list
in its text, so arrays count as byte slices too. A slice of another name for `byte` has one, so it
does not count as a byte slice. -/
theorem spelled_bytes :
    spelled.HasPlainNames ∧
      (∃ d, spelled.catalog.find (localType "B") = some (1, d) ∧
        d.body = .aliased (.ofName "byte")) ∧
      (∀ t : GoType, t = .array (.ofName "byte") ∨ t = .slice (localType "B") →
        (plainSpot t).field.type = t ∧ (plainSpot t).field.options.typeText = none ∧
        (plainSpot t).field.options.forceResolver = false ∧
        spelled.isIdField (plainSpot t).field = false) ∧
      spelled.fieldTypeText (plainSpot (.array (.ofName "byte"))) = .ok "String!" ∧
      spelled.fieldTypeText (plainSpot (.slice (localType "B"))) = .ok "[Int!]!" ∧
      ∀ isText : GoType → Bool,
        (isText (.array (.ofName "byte")) = false →
          ∃ u, spelled.Unfolds isText (.array (.ofName "byte")) u ∧
            ∀ tree : TypeTree, tree.print = "String!" → tree.depth < u.layers) ∧
        (isText (.slice (localType "B")) = true →
          ∃ u, spelled.Unfolds isText (.slice (localType "B")) u ∧
            ∀ tree : TypeTree, tree.print = "[Int!]!" → u.layers < tree.depth) := by
  have hbyte : predeclaredScalar? "byte" = some "Int" := by decide
  refine ⟨spelled_hasPlainNames, ⟨_, rfl, rfl⟩, ?_, eq_ok_of_toOption (by decide +kernel),
    eq_ok_of_toOption (by decide +kernel), fun isText => ⟨fun harray => ?_, fun hslice => ?_⟩⟩
  · rintro t (rfl | rfl) <;> exact ⟨rfl, rfl, rfl, by decide +kernel⟩
  · refine ⟨.list .base, .array harray (.predeclared hbyte), fun tree htree => ?_⟩
    obtain rfl : tree = .name ⟨"String", by decide +kernel⟩ true :=
      TypeTree.print_injective (htree.trans rfl)
    exact Nat.zero_lt_one
  · refine ⟨.base, .sliceText hslice, fun tree htree => ?_⟩
    obtain rfl : tree = .list (.name ⟨"Int", by decide +kernel⟩ true) true :=
      TypeTree.print_injective (htree.trans rfl)
    exact Nat.zero_lt_one

end BlockMaker

end GoSchema
