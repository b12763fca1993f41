/-
# The names in a file are identifiers

A token that is a name is a Go identifier, because the reader of tokens takes it up to the first
character that belongs to no identifier. Every name that the parser puts into a declaration is the
text of such a token, so all names of types, of fields and of constants in a file that was read are
identifiers, and so are the names in the types of its fields; of several constants declared at once
the commas between them count as names too.

Key definitions: `Token.IsSound`, `Parse.Reads`, `Grammar.NamesAt`, `SourceFile.HasIdentifiers`.
Key theorems: `isSound_of_lex`, `Parse.Reads.bind`, `Grammar.namesAt`, `hasIdentifiers_of_parse`.
-/
import GoSchema.Proofs.PackageReferences
import GoSchema.Proofs.SimilarCatalogs
import GoSchema.Proofs.TokenSuffixes
import GoSchema.Proofs.ValueNames

namespace GoSchema

open Name

/-- Every name in a type is an identifier. -/
def GoType.HasIdentifiers (t : GoType) : Prop := t.AllNames fun name => IsIdentifier name.toList

/-- A name, with or without type arguments, or `any`. -/
def GoType.IsNameOrAny (t : GoType) : Prop :=
  t = .any ∨ ∃ package qualifier name args, t = .named package qualifier name args

namespace Source

open Parse

/-- A name is an identifier. -/
def Token.IsSound (t : Token) : Prop := t.isName = true → IsIdentifier t.text.toList

theorem isNameChar_of_isNameStart {c : Char} (h : isNameStart c = true) : isNameChar c = true := by
  simp only [isNameStart, isNameChar, Bool.or_eq_true] at h ⊢
  tauto

theorem isIdentifier_takeWhile {c : Char} {rest : List Char} (h : isNameStart c = true) :
    IsIdentifier ((c :: rest).takeWhile isNameChar) := by
  rw [List.takeWhile_cons_of_pos (isNameChar_of_isNameStart h)]
  refine ⟨⟨c, rfl, h⟩, fun d hd => ?_⟩
  rcases List.mem_cons.1 hd with rfl | hd
  · exact isNameChar_of_isNameStart h
  · exact List.mem_takeWhile_imp hd

/-- Only a word that starts as an identifier is read as a name. -/
theorem isIdentifier_of_readToken {s left : List Char} {text : String}
    (h : readToken s = some (.name, text, left)) : IsIdentifier text.toList := by
  unfold readToken at h
  split at h
  · cases h
  · rename_i c rest
    split at h
    · rename_i hstart
      obtain ⟨-, htext, -⟩ : _ ∧ String.ofList _ = text ∧ _ = left := by
        simpa only [Option.some.injEq, Prod.mk.injEq] using h
      rw [← htext, String.toList_ofList]
      exact isIdentifier_takeWhile hstart
    · -- no other token is a name
      split_ifs at h <;> simp [Option.map_eq_some_iff] at h

theorem isSound_token (lead : Lead) {kind : TokenKind} {text : String}
    (h : kind = .name → IsIdentifier text.toList) : (lead.token kind text).IsSound :=
  fun hname => h (of_decide_eq_true hname)

theorem isSound_of_lexFrom : ∀ {n : Nat} {isOpen : Bool} {lead : Lead} {s : List Char}
    {ts : List Token}, lexFrom n isOpen lead s = some ts → ∀ t ∈ ts, t.IsSound
  | 0, _, _, _, _, h => nomatch h
  | n + 1, isOpen, lead, [], ts, h => by
    obtain rfl := Option.some.inj h
    intro t ht
    split at ht
    · obtain rfl := List.mem_singleton.1 ht
      exact isSound_token lead (by simp)
    · exact absurd ht List.not_mem_nil
  | n + 1, isOpen, lead, c :: rest, ts, h => by
    have hcons : ∀ {kind : TokenKind} {text : String} {flag : Bool} {next : Lead}
        {left : List Char}, (kind = .name → IsIdentifier text.toList) →
        (lexFrom n flag next left).map (lead.token kind text :: ·) = some ts →
        ∀ t ∈ ts, t.IsSound := by
      intro kind text flag next left hname hmap
      obtain ⟨more, hmore, rfl⟩ := Option.map_eq_some_iff.1 hmap
      exact List.forall_mem_cons.2 ⟨isSound_token lead hname, isSound_of_lexFrom hmore⟩
    rw [lexFrom] at h
    split_ifs at h
    · exact hcons (by simp) h
    · exact isSound_of_lexFrom h
    · exact isSound_of_lexFrom h
    · split at h
      · exact nomatch h
      · split_ifs at h
        · exact hcons (by simp) h
        · exact isSound_of_lexFrom h
    · split at h
      · exact nomatch h
      · rename_i kind text left hread
        refine hcons ?_ h
        rintro rfl
        exact isIdentifier_of_readToken hread

/-- **Names are identifiers.** -/
theorem isSound_of_lex {s : List Char} {ts : List Token} (h : lex s = some ts) :
    ∀ t ∈ ts, t.IsSound :=
  isSound_of_lexFrom h

/-! ### What a parser reads from sound tokens -/

namespace Parse

variable {α β : Type}

/-- From sound tokens a parser reads nothing but what has a property. -/
structure Reads (p : Parse α) (Q : α → Prop) : Prop where
  of_sound : ∀ {ts left : List Token} {a : α}, (∀ t ∈ ts, t.IsSound) →
    p ts = some (a, left) → Q a

namespace Reads

variable {p : Parse α} {P Q : α → Prop} {R : β → Prop}

theorem mono (h : Reads p P) (hPQ : ∀ a, P a → Q a) : Reads p Q :=
  ⟨fun hts hp => hPQ _ (h.of_sound hts hp)⟩

theorem pure {a : α} (h : Q a) : Reads (Pure.pure a) Q where
  of_sound _ hp := by
    obtain ⟨rfl, -⟩ := Prod.mk.inj (Option.some.inj hp)
    exact h

theorem failure : Reads Alternative.failure Q := ⟨fun _ h => nomatch h⟩

/-- What the first parser leaves is sound too. -/
theorem bind [Shrinks p] {f : α → Parse β} (hp : Reads p P) (hf : ∀ a, P a → Reads (f a) R) :
    Reads (p >>= f) R where
  of_sound hts h := by
    obtain ⟨a, mid, hmid, hleft⟩ := bind_eq_some h
    have hrest : ∀ t ∈ mid, t.IsSound := fun t ht => hts t (Shrinks.subset hmid ht)
    exact (hf a (hp.of_sound hts hmid)).of_sound hrest hleft

theorem after [Shrinks p] {f : α → Parse β} (hf : ∀ a, Reads (f a) R) : Reads (p >>= f) R :=
  bind (P := fun _ => True) ⟨fun _ _ => trivial⟩ fun a _ => hf a

theorem last {f : α → β} (hp : Reads p P) (hf : ∀ a, P a → R (f a)) :
    Reads (p >>= fun a => Pure.pure (f a)) R where
  of_sound hts h := by
    obtain ⟨a, mid, hmid, hleft⟩ := bind_eq_some h
    obtain ⟨rfl, -⟩ := Prod.mk.inj (Option.some.inj hleft)
    exact hf a (hp.of_sound hts hmid)

theorem orElse {q : Parse α} (hp : Reads p Q) (hq : Reads q Q) : Reads (p <|> q) Q :=
  ⟨fun hts h => (orElse_eq_some h).elim (hp.of_sound hts) (hq.of_sound hts)⟩

theorem ite {c : Prop} [Decidable c] {q : Parse α} (hp : Reads p Q) (hq : Reads q Q) :
    Reads (if c then p else q) Q := by
  split <;> assumption

theorem name : Reads Parse.name fun t => IsIdentifier t.text.toList where
  of_sound {ts left t} hts h := by
    obtain ⟨rfl, hname⟩ := token_eq_some h
    exact hts t (by simp) hname

theorem opt [Shrinks p] (hp : Reads p Q) : Reads (Parse.opt p) fun read => ∀ a ∈ read, Q a :=
  orElse (bind hp fun a ha => pure (by simpa using ha)) (pure (by simp))

theorem many [Shrinks p] (hp : Reads p Q) : ∀ n, Reads (Parse.many p n) fun l => ∀ a ∈ l, Q a
  | 0 => pure (by simp)
  | n + 1 => by
    rw [Parse.many]
    refine bind hp.opt fun read hread => ?_
    cases read with
    | none => exact pure (by simp)
    | some a =>
      exact bind (many hp n) fun l hl => pure (List.forall_mem_cons.2 ⟨hread a rfl, hl⟩)

theorem commaList [Shrinks p] (hp : Reads p Q) (n : Nat) :
    Reads (Parse.commaList p n) fun l => l ≠ [] ∧ ∀ a ∈ l, Q a := by
  unfold Parse.commaList
  exact bind hp fun a ha => bind ((after fun _ => hp).many n) fun l hl =>
    pure ⟨by simp, List.forall_mem_cons.2 ⟨ha, hl⟩⟩

theorem item [Shrinks p] (hp : Reads p Q) (gap : List Comment) :
    Reads (Parse.item gap p) fun i => Q i.value := by
  unfold Parse.item
  exact after fun _ => bind hp fun a ha => after fun _ => pure ha

theorem items [Shrinks p] (hp : Reads p Q) (close : String) : ∀ (n : Nat) (gap : List Comment),
    Reads (Parse.items p close gap n) fun read => ∀ i ∈ read.1, Q i.value
  | 0, _ => failure
  | n + 1, gap => by
    rw [Parse.items]
    refine after fun t => ite (after fun _ => pure (by simp)) <|
      bind (hp.item gap) fun i hi => after fun next =>
        ite ?_ (after fun _ => pure (by simpa using hi))
    exact after fun _ => bind (items hp close n _) fun read hread =>
      pure (List.forall_mem_cons.2 ⟨hi, hread⟩)

theorem grouped [Shrinks p] (hp : Reads p Q) (n : Nat) :
    Reads (Source.grouped p n) (Sum.elim (fun read => ∀ i ∈ read.1, Q i.value)
      fun i => Q i.value) := by
  unfold Source.grouped
  exact after fun t => ite (after fun _ => bind (hp.items _ n _) fun read hread => pure hread)
    (bind (hp.item _) fun i hi => pure hi)

end Reads

end Parse

/-! ### The rules of the grammar -/

/-- A field whose name and type are made of identifiers; an embedded one has a name or `any` for its
type. -/
structure FieldDecl.HasIdentifiers (f : FieldDecl) : Prop where
  name : ∀ n, f.name = some n → IsIdentifier n.toList
  type : f.type.HasIdentifiers
  embedded : f.name = none → f.type.stripPointers.IsNameOrAny

/-- A body that is made of identifiers. -/
def TypeBody.HasIdentifiers : TypeBody → Prop
  | .record fields => ∀ f ∈ fields, f.HasIdentifiers
  | .defined t | .aliased t => t.HasIdentifiers

/-- A field declaration as read that is made of identifiers. -/
structure FieldSpec.HasIdentifiers (spec : FieldSpec) : Prop where
  names : ∀ n ∈ spec.names, IsIdentifier n.toList
  type : spec.type.HasIdentifiers
  embedded : spec.names = [] → spec.type.stripPointers.IsNameOrAny

/-- A type specification that is made of identifiers. -/
def TypeSpec.HasIdentifiers (spec : TypeSpec) : Prop :=
  IsIdentifier spec.name.toList ∧ spec.body.HasIdentifiers

/-- A name of a constant: an identifier, or a comma between two. -/
def IsConstName (name : String) : Prop := IsIdentifier name.toList ∨ name = ","

theorem mem_of_mem_inContext {α : Type} {final : List Comment} {previousEnd : Option Nat}
    {items : List (Item α)} {entry : Item α × Option Nat × List Comment}
    (h : entry ∈ inContext final previousEnd items) : entry.1 ∈ items := by
  rw [← map_fst_inContext final items previousEnd]
  exact List.mem_map_of_mem h

theorem FieldSpec.hasIdentifiers_toFields {specs : List (Item FieldSpec)} {final : List Comment}
    (h : ∀ i ∈ specs, i.value.HasIdentifiers) :
    ∀ f ∈ FieldSpec.toFields specs final, f.HasIdentifiers := by
  intro f hf
  obtain ⟨⟨item, previousEnd, after⟩, hmem, hf⟩ := List.mem_flatMap.1 hf
  have hspec := h item (mem_of_mem_inContext hmem)
  dsimp only at hf
  split at hf
  · rename_i hnone
    obtain rfl := List.mem_singleton.1 hf
    exact ⟨fun n hn => (nomatch hn), hspec.type, fun _ => hspec.embedded hnone⟩
  · obtain ⟨n, hn, rfl⟩ := List.mem_map.1 hf
    refine ⟨fun m hm => ?_, hspec.type, fun hno => nomatch hno⟩
    obtain rfl := Option.some.inj hm
    exact hspec.names n hn

theorem mem_intersperse {α : Type} {sep a : α} : ∀ {l : List α}, a ∈ l.intersperse sep →
    a ∈ l ∨ a = sep
  | [], h => by simp at h
  | [b], h => .inl h
  | b :: c :: l, h => by
    rw [List.intersperse_cons_cons] at h
    rcases List.mem_cons.1 h with rfl | h
    · simp
    rcases List.mem_cons.1 h with rfl | h
    · simp
    rcases mem_intersperse h with h | h
    · exact .inl (List.mem_cons_of_mem _ h)
    · exact .inr h

namespace Grammar

/-- At a depth of recursion the rules for types and declarations read identifiers. -/
structure NamesAt (n : Nat) : Prop where
  type : Reads (type n) GoType.HasIdentifiers
  inner : Reads (inner n) GoType.HasIdentifiers
  typeName : Reads (typeName n) fun t => t.HasIdentifiers ∧ t.IsNameOrAny
  typeArgs : Reads (typeArgs n) fun ts => ∀ t ∈ ts, t.HasIdentifiers
  structBody : Reads (structBody n) fun fields => ∀ f ∈ fields, f.HasIdentifiers
  fieldSpec : Reads (fieldSpec n) FieldSpec.HasIdentifiers
  typeSpec : Reads (typeSpec n) TypeSpec.HasIdentifiers
  constSpec : Reads (constSpec n) fun spec => ∀ name ∈ spec.names, IsConstName name

theorem namesAt_zero : NamesAt 0 := by
  constructor <;> exact Reads.failure

theorem reads_constSpec (n : Nat) :
    Reads (constSpec (n + 1)) fun spec => ∀ name ∈ spec.names, IsConstName name := by
  rw [constSpec]
  refine .bind (Reads.name.commaList n) fun names hnames => .after fun declared =>
    .after fun hasValue => ?_
  extract_lets made
  have hmade : ∀ u, Reads (made u) fun spec => ∀ name ∈ spec.names, IsConstName name := by
    refine fun u => .pure fun name hname => ?_
    rcases mem_intersperse hname with hname | rfl
    · obtain ⟨t, ht, rfl⟩ := List.mem_map.1 hname
      exact .inl (hnames.2 t ht)
    · exact .inr rfl
  exact .ite (.after fun _ => .after fun u => hmade u) (hmade ())

section Step

variable {n : Nat} (h : NamesAt n)
include h

theorem reads_type : Reads (type (n + 1)) GoType.HasIdentifiers := by
  rw [type]
  have hverbatim : ∀ {text : String}, Reads (pure (.other text)) GoType.HasIdentifiers :=
    .pure trivial
  refine .after fun t => .ite ?named <| .ite ?inParentheses <| .ite ?pointer <| .ite ?list <|
    .ite ?map <| .ite (.after fun _ => .pure trivial) <| .ite (.after fun _ => hverbatim) <|
    .ite (.after fun _ => hverbatim) <| .ite (.after fun _ => hverbatim) <|
    .ite (.after fun _ => hverbatim) .failure
  case named => exact h.typeName.mono fun _ ht => ht.1
  case inParentheses => exact .after fun _ => .bind h.inner fun t ht => .after fun _ => .pure ht
  case pointer => exact .after fun _ => .bind h.inner fun t ht => .pure ht
  case list =>
    refine .after fun _ => .orElse ?_ ?_
    · exact .after fun _ => .bind h.type fun t ht => .pure ht
    · exact .after fun _ => .after fun _ => .bind h.type fun t ht => .pure ht
  case map =>
    exact .after fun _ => .after fun _ => .bind h.type fun k hk => .after fun _ =>
      .bind h.type fun v hv => .pure ⟨hk, hv⟩

theorem reads_inner : Reads (inner (n + 1)) GoType.HasIdentifiers := by
  rw [inner]
  refine .after fun t => .bind h.type fun read hread => ?_
  split
  · exact .pure hread
  · exact .pure trivial

theorem reads_typeName :
    Reads (typeName (n + 1)) fun t => t.HasIdentifiers ∧ t.IsNameOrAny := by
  rw [typeName]
  refine .bind .name fun first hfirst => .bind (Reads.opt (.after fun _ => .name))
    fun second hsecond => .bind h.typeArgs.opt fun read hread => ?_
  have hargs : GoType.AllNamesIn (fun name => IsIdentifier name.toList) (read.getD []) := by
    refine GoType.allNamesIn_iff.2 fun t ht => ?_
    cases read with
    | none => exact absurd ht List.not_mem_nil
    | some args => exact hread args rfl t ht
  cases second with
  | some t => exact .pure ⟨⟨hsecond t rfl, hargs⟩, .inr ⟨_, _, _, _, rfl⟩⟩
  | none =>
    refine .pure ?_
    split
    · exact ⟨trivial, .inl rfl⟩
    · exact ⟨⟨hfirst, hargs⟩, .inr ⟨_, _, _, _, rfl⟩⟩

theorem reads_typeArgs : Reads (typeArgs (n + 1)) fun ts => ∀ t ∈ ts, t.HasIdentifiers := by
  rw [typeArgs]
  exact .after fun _ => .bind (Reads.commaList
      (.bind h.type fun first hfirst => .after fun _ => .pure hfirst) n)
    fun args hargs => .after fun _ => .after fun _ => .pure hargs.2

theorem reads_structBody :
    Reads (structBody (n + 1)) fun fields => ∀ f ∈ fields, f.HasIdentifiers := by
  rw [structBody]
  exact .after fun _ => .after fun _ => .bind (h.fieldSpec.items _ n _) fun read hread =>
    .pure (FieldSpec.hasIdentifiers_toFields hread)

theorem reads_fieldSpec : Reads (fieldSpec (n + 1)) FieldSpec.HasIdentifiers := by
  rw [fieldSpec]
  refine .bind (P := fun read => (∀ n ∈ read.1, IsIdentifier n.toList) ∧ read.2.HasIdentifiers ∧
    (read.1 = [] → read.2.stripPointers.IsNameOrAny)) (.orElse ?_ ?_) fun read hread =>
      .after fun tag => .pure ⟨hread.1, hread.2.1, hread.2.2⟩
  · refine .bind (Reads.name.commaList n) fun names hnames => .bind h.type fun t ht =>
      .pure ⟨fun m hm => ?_, ht, fun hno => absurd (List.map_eq_nil_iff.1 hno) hnames.1⟩
    obtain ⟨t, ht, rfl⟩ := List.mem_map.1 hm
    exact hnames.2 t ht
  · refine .after fun star => .bind h.typeName fun base hread => .pure ?_
    have hstrip : base.stripPointers.IsNameOrAny := by
      rcases hread.2 with rfl | ⟨_, _, _, _, rfl⟩
      · exact .inl rfl
      · exact .inr ⟨_, _, _, _, rfl⟩
    cases star <;> exact ⟨by simp, hread.1, fun _ => hstrip⟩

theorem reads_typeSpec : Reads (typeSpec (n + 1)) TypeSpec.HasIdentifiers := by
  rw [typeSpec]
  refine .bind .name fun first hfirst => ?_
  extract_lets rest
  have hrest : ∀ params, Reads (rest params) TypeSpec.HasIdentifiers := fun params => by
    refine .after fun isAlias => .ite ?_ (.after fun isStruct => .ite ?_ ?_)
    · exact .after fun _ => .bind h.type fun t ht => .pure ⟨hfirst, ht⟩
    · exact .bind h.structBody fun fields hfields => .pure ⟨hfirst, hfields⟩
    · exact .bind h.type fun t ht => .pure ⟨hfirst, ht⟩
  exact .after fun hasBracket =>
    .ite (.orElse (hrest []) (.after fun params => hrest params)) (hrest [])

end Step

/-- **The rules for types and declarations read identifiers**, at any depth. -/
theorem namesAt : ∀ n, NamesAt n
  | 0 => namesAt_zero
  | n + 1 =>
    have h := namesAt n
    ⟨reads_type h, reads_inner h, reads_typeName h, reads_typeArgs h, reads_structBody h,
      reads_fieldSpec h, reads_typeSpec h, reads_constSpec n⟩

end Grammar

/-! ### Files -/

open Grammar

/-- A part of a file whose declarations are made of identifiers. -/
def Part.HasIdentifiers : Part → Prop
  | .types _ specs _ => ∀ i ∈ specs, i.value.HasIdentifiers
  | .consts _ specs _ => ∀ i ∈ specs, ∀ name ∈ i.value.names, IsConstName name
  | _ => True

instance shrinks_importSpec : Shrinks importSpec := by
  unfold importSpec
  infer_instance

set_option synthInstance.maxSize 1000 in
instance shrinks_function (n : Nat) : Shrinks (function n) := by
  unfold function
  infer_instance

instance shrinks_packageClause : Shrinks packageClause := by
  unfold packageClause
  infer_instance

instance shrinks_part (n : Nat) : Shrinks (part n) := by
  unfold part
  refine .bind inferInstance fun t => ?_
  -- a group of specifications and a single one are told apart by a `match`
  split_ifs
  · infer_instance
  · exact .bind inferInstance fun _ => .bind inferInstance fun read => by
      rcases read with ⟨_, _⟩ | _ <;> infer_instance
  · exact .bind inferInstance fun _ => .bind inferInstance fun read => by
      rcases read with ⟨_, _⟩ | _ <;> infer_instance
  · exact .bind inferInstance fun _ => .bind inferInstance fun read => by
      rcases read with ⟨_, _⟩ | _ <;> infer_instance
  · infer_instance
  · infer_instance
  · infer_instance

theorem reads_part (n : Nat) : Reads (part n) Part.HasIdentifiers := by
  unfold part
  refine .after fun t => .ite ?package <| .ite ?imports <| .ite ?types <| .ite ?consts <|
    .ite (.after fun _ => .after fun _ => .pure trivial) <|
    .ite (.after fun _ => .pure trivial) (.after fun _ => .pure trivial)
  case package => exact .after fun _ => .after fun _ => .pure trivial
  case imports =>
    refine .after fun _ => .after fun read => ?_
    rcases read with ⟨specs, final⟩ | spec <;> exact .pure trivial
  case types =>
    refine .after fun _ => .bind ((namesAt n).typeSpec.grouped n) fun read hread => ?_
    rcases read with ⟨specs, final⟩ | spec
    · exact .pure hread
    · exact .pure (by simpa [Part.HasIdentifiers] using hread)
  case consts =>
    refine .after fun _ => .bind ((namesAt n).constSpec.grouped n) fun read hread => ?_
    rcases read with ⟨specs, final⟩ | spec
    · exact .pure hread
    · exact .pure (by simpa [Part.HasIdentifiers] using hread)

theorem reads_partsFrom (depth : Nat) : ∀ (n : Nat) (gap : List Comment),
    Reads (partsFrom depth gap n) fun ps => ∀ i ∈ ps, i.value.HasIdentifiers
  | 0, _ => .failure
  | n + 1, gap => by
    rw [partsFrom]
    refine .after fun hasMore => .ite (.pure (by simp)) <| .bind ((reads_part depth).item gap)
      fun first hfirst => .after fun ends => ?_
    cases ends with
    | none => exact .failure
    | some t =>
      dsimp only
      split
      · exact .failure
      · exact .last (reads_partsFrom depth n t.comments) fun ps hps =>
          List.forall_mem_cons.2 ⟨hfirst, hps⟩

end Source

open Source

/-- A file whose declarations are made of identifiers. -/
structure SourceFile.HasIdentifiers (file : SourceFile) : Prop where
  types : ∀ decl ∈ file.types, IsIdentifier decl.name.toList ∧ decl.body.HasIdentifiers
  consts : ∀ decl ∈ file.consts, IsConstName decl.name

namespace Source

theorem name_of_mem_constDecls {declDoc : Option String} : ∀ {before : Option GoType}
    {entries : List (Item ConstSpec × Option Nat × List Comment)} {decl : ConstDecl},
    decl ∈ constDecls declDoc before entries →
      ∃ entry ∈ entries, decl.name ∈ entry.1.value.names
  | _, [], _, h => absurd h List.not_mem_nil
  | before, (item, previousEnd, after) :: more, decl, h => by
    rw [constDecls] at h
    rcases List.mem_append.1 h with h | h
    · obtain ⟨name, hname, rfl⟩ := List.mem_map.1 h
      exact ⟨_, List.mem_cons_self, (List.mem_filter.1 hname).1⟩
    · obtain ⟨entry, hentry, hname⟩ := name_of_mem_constDecls h
      exact ⟨entry, List.mem_cons_of_mem _ hentry, hname⟩

theorem hasIdentifiers_withPart {file : SourceFile} {entry : Item Part × Option Nat × List Comment}
    (h : file.HasIdentifiers) (hpart : entry.1.value.HasIdentifiers) :
    (withPart file entry).HasIdentifiers := by
  obtain ⟨⟨before, value, row, endRow⟩, previousEnd, after⟩ := entry
  cases value with
  | types isGrouped specs final =>
    refine ⟨fun decl hdecl => ?_, h.consts⟩
    rcases List.mem_append.1 hdecl with hdecl | hdecl
    · exact h.types decl hdecl
    · obtain ⟨entry, hentry, rfl⟩ := List.mem_map.1 hdecl
      exact hpart entry.1 (mem_of_mem_inContext hentry)
  | consts isGrouped specs final =>
    refine ⟨h.types, fun decl hdecl => ?_⟩
    rcases List.mem_append.1 hdecl with hdecl | hdecl
    · exact h.consts decl hdecl
    · obtain ⟨entry, hentry, hname⟩ := name_of_mem_constDecls hdecl
      exact hpart entry.1 (mem_of_mem_inContext hentry) _ hname
  | _ => exact ⟨h.types, h.consts⟩

theorem hasIdentifiers_foldl_withPart :
    ∀ {entries : List (Item Part × Option Nat × List Comment)} {file : SourceFile},
    (∀ entry ∈ entries, entry.1.value.HasIdentifiers) → file.HasIdentifiers →
    (entries.foldl withPart file).HasIdentifiers
  | [], _, _, h => h
  | entry :: entries, _, hentries, h => by
    rw [List.foldl_cons]
    exact hasIdentifiers_foldl_withPart (fun e he => hentries e (List.mem_cons_of_mem _ he))
      (hasIdentifiers_withPart h (hentries entry List.mem_cons_self))

/-- **A file that was read is made of identifiers**: its types, its fields with the names in their
types, and its constants. -/
theorem hasIdentifiers_of_parse {path : Path} {text : String} {file : SourceFile}
    (h : SourceFile.parse path text = .ok file) : file.HasIdentifiers := by
  unfold SourceFile.parse at h
  cases hparts : (lex text.toList).bind parts with
  | none => simp [hparts] at h
  | some ps =>
    rw [hparts] at h
    dsimp only at h
    split at h
    · exact nomatch h
    obtain rfl := Except.ok.inj h
    obtain ⟨ts, hlex, hrun⟩ := Option.bind_eq_some_iff.1 hparts
    obtain ⟨⟨own, left⟩, hread, rfl⟩ := Option.map_eq_some_iff.1 hrun
    have hps : ∀ i ∈ own, i.value.HasIdentifiers := (reads_partsFrom _ _ _).of_sound
      (isSound_of_lex hlex) hread
    exact hasIdentifiers_foldl_withPart (fun entry hentry => hps _ (mem_of_mem_inContext hentry))
      ⟨by simp, by simp⟩

end Source

theorem SourceFile.IsReadFrom.hasIdentifiers {file : SourceFile} {text : String}
    (h : file.IsReadFrom text) : file.HasIdentifiers :=
  have hread := hasIdentifiers_of_parse h
  ⟨hread.types, hread.consts⟩

end GoSchema
