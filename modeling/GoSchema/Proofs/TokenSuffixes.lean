/-
# Parsers take tokens from the front

What a parser leaves is a suffix of the tokens that it was given. Each way to put parsers together
keeps this, so the property is a class whose instances follow the way a rule of the grammar is
written; for the rules, which call each other, the class of the depth below is assumed and that of
the next depth is shown.

Key definitions: `Parse.Shrinks`, `Grammar.ShrinksAt`.
Key theorems: `Parse.Shrinks.bind`, `Grammar.shrinksAt`, `Parse.Shrinks.subset`.
-/
import GoSchema.Source.Reader
import Mathlib.Data.List.Basic

namespace GoSchema.Source

open Parse

namespace Parse

variable {α β : Type}

/-- A parser that leaves a suffix of the tokens it is given. -/
class Shrinks (p : Parse α) : Prop where
  suffix : ∀ {ts left : List Token} {a : α}, p ts = some (a, left) → left <:+ ts

theorem bind_eq_some {p : Parse α} {f : α → Parse β} {ts left : List Token} {b : β}
    (h : (p >>= f) ts = some (b, left)) :
    ∃ a mid, p ts = some (a, mid) ∧ f a mid = some (b, left) := by
  obtain ⟨⟨a, mid⟩, hp, hf⟩ := Option.bind_eq_some_iff.1 h
  exact ⟨a, mid, hp, hf⟩

theorem orElse_eq_some {p q : Parse α} {ts left : List Token} {a : α}
    (h : (p <|> q) ts = some (a, left)) : p ts = some (a, left) ∨ q ts = some (a, left) := by
  change (p ts <|> q ts) = some (a, left) at h
  cases hp : p ts with
  | none =>
    rw [hp] at h
    exact .inr h
  | some r =>
    rw [hp] at h
    exact .inl h

theorem token_eq_some {q : Token → Bool} {ts left : List Token} {t : Token}
    (h : token q ts = some (t, left)) : ts = t :: left ∧ q t = true := by
  cases ts with
  | nil => exact nomatch h
  | cons u ts =>
    rw [token] at h
    split at h
    · rename_i hq
      obtain ⟨rfl, rfl⟩ := Prod.mk.inj (Option.some.inj h)
      exact ⟨rfl, hq⟩
    · exact nomatch h

namespace Shrinks

/-- What is left are tokens that were given. -/
theorem subset {p : Parse α} [Shrinks p] {ts left : List Token} {a : α}
    (h : p ts = some (a, left)) : left ⊆ ts := (suffix h).subset

instance pure (a : α) : Shrinks (Pure.pure a : Parse α) where
  suffix h := by
    obtain ⟨-, rfl⟩ := Prod.mk.inj (Option.some.inj h)
    exact List.suffix_refl _

instance failure : Shrinks (Alternative.failure : Parse α) where
  suffix h := by cases h

instance token (q : Token → Bool) : Shrinks (Parse.token q) where
  suffix h := by
    obtain ⟨rfl, -⟩ := token_eq_some h
    exact List.suffix_cons _ _

instance sees (q : Token → Bool) : Shrinks (Parse.sees q) where
  suffix h := by
    obtain ⟨-, rfl⟩ := Prod.mk.inj (Option.some.inj h)
    exact List.suffix_refl _

instance peek : Shrinks Parse.peek where
  suffix h := by
    obtain ⟨t, -, heq⟩ := Option.map_eq_some_iff.1 h
    obtain ⟨-, rfl⟩ := Prod.mk.inj heq
    exact List.suffix_refl _

instance seesTypeSwitch : Shrinks Source.seesTypeSwitch where
  suffix h := by
    unfold Source.seesTypeSwitch at h
    split at h <;>
    · obtain ⟨-, rfl⟩ := Prod.mk.inj (Option.some.inj h)
      exact List.suffix_refl _

/-! ### Parsers put together -/

/-- One parser after the other. -/
theorem bind {p : Parse α} {f : α → Parse β} (hp : Shrinks p) (hf : ∀ a, Shrinks (f a)) :
    Shrinks (p >>= f) where
  suffix h := by
    obtain ⟨a, mid, hmid, hleft⟩ := bind_eq_some h
    exact ((hf a).suffix hleft).trans (hp.suffix hmid)

instance (p : Parse α) (f : α → Parse β) [hp : Shrinks p] [hf : ∀ a, Shrinks (f a)] :
    Shrinks (p >>= f) := hp.bind hf

instance orElse (p q : Parse α) [Shrinks p] [Shrinks q] : Shrinks (p <|> q) where
  suffix h := (orElse_eq_some h).elim suffix suffix

instance ite (c : Prop) [Decidable c] (p q : Parse α) [Shrinks p] [Shrinks q] :
    Shrinks (if c then p else q) := by
  split <;> assumption

instance map (p : Parse α) (f : α → β) [Shrinks p] : Shrinks (f <$> p) :=
  inferInstanceAs (Shrinks (p >>= fun a => Pure.pure (f a)))

instance discard (p : Parse α) [Shrinks p] : Shrinks (Functor.discard p) :=
  inferInstanceAs (Shrinks ((fun _ => PUnit.unit) <$> p))

instance seqRight (p : Parse α) (q : Parse β) [Shrinks p] [Shrinks q] : Shrinks (p *> q) :=
  inferInstanceAs (Shrinks (p >>= fun _ => q))

instance op (s : String) : Shrinks (Parse.op s) :=
  inferInstanceAs (Shrinks (Functor.discard (Parse.token _)))

instance keyword (s : String) : Shrinks (Parse.keyword s) :=
  inferInstanceAs (Shrinks (Functor.discard (Parse.token _)))

instance name : Shrinks Parse.name := inferInstanceAs (Shrinks (Parse.token _))

instance terminator : Shrinks Parse.terminator := inferInstanceAs (Shrinks (Parse.token _))

instance seesOp (s : String) : Shrinks (Parse.seesOp s) := inferInstanceAs (Shrinks (Parse.sees _))

instance seesKeyword (s : String) : Shrinks (Parse.seesKeyword s) :=
  inferInstanceAs (Shrinks (Parse.sees _))

instance opAmong (ops : List String) : Shrinks (Source.opAmong ops) :=
  inferInstanceAs (Shrinks (Functor.discard (Parse.token _)))

instance opt (p : Parse α) [Shrinks p] : Shrinks (Parse.opt p) :=
  inferInstanceAs (Shrinks ((some <$> p) <|> Pure.pure none))

instance many (p : Parse α) [Shrinks p] (n : Nat) : Shrinks (Parse.many p n) := by
  induction n with
  | zero => exact inferInstanceAs (Shrinks (Pure.pure []))
  | succ n ih =>
    rw [Parse.many]
    refine .bind inferInstance fun read => ?_
    cases read <;> infer_instance

instance commaList (p : Parse α) [Shrinks p] (n : Nat) : Shrinks (Parse.commaList p n) := by
  unfold Parse.commaList
  infer_instance

instance commaEnded (p : Parse α) [Shrinks p] (n : Nat) : Shrinks (Parse.commaEnded p n) := by
  unfold Parse.commaEnded
  refine .bind inferInstance fun read => ?_
  cases read <;> infer_instance

instance spanned (p : Parse α) [Shrinks p] : Shrinks (Parse.spanned p) where
  suffix h := by
    obtain ⟨⟨a, left⟩, hp, heq⟩ := Option.map_eq_some_iff.1 h
    obtain ⟨-, rfl⟩ := Prod.mk.inj heq
    exact suffix hp

instance sourceOf (p : Parse α) [Shrinks p] : Shrinks (Parse.sourceOf p) := by
  unfold Parse.sourceOf
  infer_instance

instance item (gap : List Comment) (p : Parse α) [Shrinks p] : Shrinks (Parse.item gap p) := by
  unfold Parse.item
  infer_instance

instance items (p : Parse α) (close : String) [Shrinks p] (n : Nat) (gap : List Comment) :
    Shrinks (Parse.items p close gap n) := by
  induction n generalizing gap with
  | zero => exact inferInstanceAs (Shrinks Alternative.failure)
  | succ n ih =>
    rw [Parse.items]
    infer_instance

instance grouped (p : Parse α) [Shrinks p] (n : Nat) : Shrinks (Source.grouped p n) := by
  unfold Source.grouped
  infer_instance

instance label : Shrinks Source.label := by
  unfold Source.label
  infer_instance

end Shrinks

end Parse

/-! ### The rules of the grammar -/

namespace Grammar

/-- At a depth of recursion every rule leaves a suffix of the tokens. -/
class ShrinksAt (n : Nat) : Prop where
  type : Shrinks (type n)
  inner : Shrinks (inner n)
  typeName : Shrinks (typeName n)
  typeArgs : Shrinks (typeArgs n)
  structBody : Shrinks (structBody n)
  fieldSpec : Shrinks (fieldSpec n)
  interfaceType : Shrinks (interfaceType n)
  constraint : Shrinks (constraint n)
  typeParams : Shrinks (typeParams n)
  signature : Shrinks (signature n)
  params : Shrinks (params n)
  param : Shrinks (param n)
  typeSpec : Shrinks (typeSpec n)
  constSpec : Shrinks (constSpec n)
  varSpec : Shrinks (varSpec n)
  exprs : ∀ literals, Shrinks (exprs n literals)
  expr : ∀ literals, Shrinks (expr n literals)
  unary : ∀ literals, Shrinks (unary n literals)
  operand : Shrinks (operand n)
  postfixes : ∀ literals canOpen, Shrinks (postfixes n literals canOpen)
  index : Shrinks (index n)
  arguments : Shrinks (arguments n)
  exprOrType : Shrinks (exprOrType n)
  literalValue : Shrinks (literalValue n)
  block : Shrinks (block n)
  statements : Shrinks (statements n)
  statement : Shrinks (statement n)
  simple : ∀ literals ranges, Shrinks (simple n literals ranges)
  ifStatement : Shrinks (ifStatement n)
  forStatement : Shrinks (forStatement n)
  switchHead : Shrinks (switchHead n)
  switchStatement : Shrinks (switchStatement n)
  selectStatement : Shrinks (selectStatement n)
  clause : ∀ (head : Parse Unit) [Shrinks head], Shrinks (clause n head)

attribute [instance] ShrinksAt.type ShrinksAt.inner ShrinksAt.typeName ShrinksAt.typeArgs
  ShrinksAt.structBody ShrinksAt.fieldSpec ShrinksAt.interfaceType ShrinksAt.constraint
  ShrinksAt.typeParams ShrinksAt.signature ShrinksAt.params ShrinksAt.param ShrinksAt.typeSpec
  ShrinksAt.constSpec ShrinksAt.varSpec ShrinksAt.exprs ShrinksAt.expr ShrinksAt.unary
  ShrinksAt.operand ShrinksAt.postfixes ShrinksAt.index ShrinksAt.arguments ShrinksAt.exprOrType
  ShrinksAt.literalValue ShrinksAt.block ShrinksAt.statements ShrinksAt.statement ShrinksAt.simple
  ShrinksAt.ifStatement ShrinksAt.forStatement ShrinksAt.switchHead ShrinksAt.switchStatement
  ShrinksAt.selectStatement ShrinksAt.clause

theorem shrinksAt_zero : ShrinksAt 0 := by
  constructor <;> intros <;> exact inferInstanceAs (Shrinks failure)

section Step

-- the search counts every step of a rule, and the rules for statements are long
set_option synthInstance.maxSize 4000

variable (n : Nat) [ShrinksAt n]

/-! The instances do not look into a `match` on what was read. -/

theorem shrinks_inner : Shrinks (inner (n + 1)) := by
  rw [inner]
  refine .bind inferInstance fun t => .bind inferInstance fun read => ?_
  split <;> infer_instance

theorem shrinks_typeName : Shrinks (typeName (n + 1)) := by
  rw [typeName]
  refine .bind inferInstance fun first => .bind inferInstance fun second =>
    .bind inferInstance fun args => ?_
  cases second <;> infer_instance

/-! What several branches of a loop go on with is looked at once. -/

theorem shrinks_forStatement : Shrinks (forStatement (n + 1)) := by
  rw [forStatement]
  refine .bind inferInstance fun _ => .bind inferInstance fun isRange => ?_
  extract_lets body second head
  have hbody : ∀ u, Shrinks (body u) := fun _ => inferInstanceAs (Shrinks (block n))
  have hsecond : ∀ u, Shrinks (second u) := fun u => by
    unfold second
    infer_instance
  have hhead : ∀ isHead, Shrinks (head isHead) := fun isHead => by
    unfold head
    infer_instance
  infer_instance

theorem shrinksAt_succ : ShrinksAt (n + 1) where
  type := by rw [type]; infer_instance
  inner := shrinks_inner n
  typeName := shrinks_typeName n
  typeArgs := by rw [typeArgs]; infer_instance
  structBody := by rw [structBody]; infer_instance
  fieldSpec := by rw [fieldSpec]; infer_instance
  interfaceType := by rw [interfaceType]; infer_instance
  constraint := by rw [constraint]; infer_instance
  typeParams := by rw [typeParams]; infer_instance
  signature := by rw [signature]; infer_instance
  params := by rw [params]; infer_instance
  param := by rw [param]; infer_instance
  typeSpec := by rw [typeSpec]; dsimp only; infer_instance
  constSpec := by rw [constSpec]; infer_instance
  varSpec := by rw [varSpec]; infer_instance
  exprs literals := by rw [exprs]; infer_instance
  expr literals := by rw [expr]; infer_instance
  unary literals := by rw [unary]; infer_instance
  operand := by rw [operand]; dsimp only; infer_instance
  postfixes literals canOpen := by rw [postfixes]; infer_instance
  index := by rw [index]; infer_instance
  arguments := by rw [arguments]; infer_instance
  exprOrType := by rw [exprOrType]; infer_instance
  literalValue := by rw [literalValue]; infer_instance
  block := by rw [block]; infer_instance
  statements := by rw [statements]; infer_instance
  statement := by rw [statement]; infer_instance
  simple literals ranges := by rw [simple]; infer_instance
  ifStatement := by rw [ifStatement]; infer_instance
  forStatement := shrinks_forStatement n
  switchHead := by rw [switchHead]; infer_instance
  switchStatement := by rw [switchStatement]; infer_instance
  selectStatement := by rw [selectStatement]; infer_instance
  clause head _ := by rw [clause]; infer_instance

end Step

/-- **Every rule of the grammar leaves a suffix of the tokens**, at any depth. -/
instance shrinksAt (n : Nat) : ShrinksAt n := by
  induction n with
  | zero => exact shrinksAt_zero
  | succ n ih => exact shrinksAt_succ n

end Grammar

end GoSchema.Source
