/-
# Parameters among others

A parameter of a directive stands among other parameters, and an item of a tag among other items.
What stands before it is read first, whatever it is, and what stands behind it is read next. So a
value that is written in any way gives its parameter, and the parameters around it are those that
they are around any other value.

Key definitions: `Gaps`, `IsFound`, `ParamContext`, `ItemContext`, `GqlPart.filledFrom`.
Key theorems: `bindFrom_congr`, `ParamContext.readParams_eq`, `ParamContext.bindAll_eq`,
`ParamContext.isFound`, `ItemContext.parse_entry`, `setAll_filledFrom`,
`ItemContext.parse_filledFrom`.
-/
import GoSchema.Proofs.Pointwise
import GoSchema.Proofs.PrintedTags
import GoSchema.Proofs.WrittenValues

namespace GoSchema

open Unicode Reader

/-- Blanks around a value. -/
structure Gaps where
  before : List Char
  after : List Char
  blank_before : ∀ c ∈ before, isBlank c = true
  blank_after : ∀ c ∈ after, isBlank c = true

/-- One blank in front of a value. -/
def Gaps.space : Gaps := ⟨[' '], [], List.forall_mem_singleton.2 rfl, nofun⟩

/-- A key with a value behind a colon, and blanks around the value. -/
def Gaps.entry (g : Gaps) (key : String) (w : List Char) : List Char :=
  key.toList ++ ':' :: (g.before ++ (w ++ g.after))

theorem Gaps.entry_append (g : Gaps) (key : String) (w rest : List Char) :
    g.entry key w ++ rest = key.toList ++ ':' :: (g.before ++ (w ++ (g.after ++ rest))) := by
  simp [Gaps.entry]

namespace Directive

variable {kind : Directive.Kind} {key : String}

theorem bindFrom_cons_ok_iff {p : WrittenParam} {ps : List WrittenParam} {bound r : List Param} :
    bindFrom kind bound (p :: ps) = .ok r ↔ ∃ param, bindParam kind bound.isEmpty p = .ok param ∧
      bound.any (·.key = param.key) = false ∧ bindFrom kind (bound ++ [param]) ps = .ok r := by
  rw [bindFrom]
  cases hparam : bindParam kind bound.isEmpty p with
  | error cause => simp
  | ok param =>
    dsimp only
    split
    · rename_i hany
      constructor
      · intro h
        cases h
      · rintro ⟨_, hp, hnew, -⟩
        cases hp
        rw [hany] at hnew
        cases hnew
    · rename_i hany
      constructor
      · intro h
        exact ⟨param, rfl, by simpa using hany, h⟩
      · rintro ⟨_, hp, -, h⟩
        cases hp
        exact h

theorem bindFrom_append : ∀ {ps : List WrittenParam} {bound next : List Param},
    bindFrom kind bound ps = .ok next → ∀ qs : List WrittenParam,
      bindFrom kind bound (ps ++ qs) = bindFrom kind next qs
  | [], _, _, h, _ => by rw [Except.ok.inj h, List.nil_append]
  | p :: ps, bound, next, h, qs => by
    obtain ⟨param, hparam, hnew, h⟩ := bindFrom_cons_ok_iff.1 h
    rw [List.cons_append, bindFrom, hparam]
    simp only [hnew]
    exact bindFrom_append h qs

theorem prefix_of_bindFrom : ∀ {ps : List WrittenParam} {bound r : List Param},
    bindFrom kind bound ps = .ok r → bound <+: r
  | [], _, _, h => Except.ok.inj h ▸ List.prefix_rfl
  | p :: ps, bound, r, h => by
    obtain ⟨param, -, -, h⟩ := bindFrom_cons_ok_iff.1 h
    exact (List.prefix_append _ _).trans (prefix_of_bindFrom h)

theorem nodup_of_bindFrom : ∀ {ps : List WrittenParam} {bound r : List Param},
    bindFrom kind bound ps = .ok r → (bound.map Param.key).Nodup → (r.map Param.key).Nodup
  | [], _, _, h, hbound => Except.ok.inj h ▸ hbound
  | p :: ps, bound, r, h, hbound => by
    obtain ⟨param, -, hnew, h⟩ := bindFrom_cons_ok_iff.1 h
    have hno : bound.find? (fun q => q.key = param.key) = none := by simpa using hnew
    exact nodup_of_bindFrom h (Pointwise.nodup_map_concat hbound hno)

/-- Of the parameters that are bound already only the keys matter. -/
theorem bindFrom_congr : ∀ {ps : List WrittenParam} {bound bound' more : List Param},
    bound'.map Param.key = bound.map Param.key → bindFrom kind bound ps = .ok (bound ++ more) →
      bindFrom kind bound' ps = .ok (bound' ++ more)
  | [], bound, bound', more, _, h => by
    obtain rfl : more = [] := List.append_right_eq_self.1 (Except.ok.inj h).symm
    rw [List.append_nil]
    rfl
  | p :: ps, bound, bound', more, hkeys, h => by
    have hempty : bound'.isEmpty = bound.isEmpty := by
      rw [← List.isEmpty_map (f := Param.key), hkeys, List.isEmpty_map]
    have hany : ∀ key, bound'.any (·.key = key) = bound.any (·.key = key) := fun key => by
      have hsame := congrArg (List.any · (decide <| · = key)) hkeys
      simpa [List.any_map, Function.comp_def] using hsame
    obtain ⟨param, hparam, hnew, h⟩ := bindFrom_cons_ok_iff.1 h
    obtain ⟨more', heq⟩ := prefix_of_bindFrom h
    obtain rfl : param :: more' = more := by simpa using heq
    have hnext : (bound' ++ [param]).map Param.key = (bound ++ [param]).map Param.key := by
      simp [hkeys]
    refine bindFrom_cons_ok_iff.2 ⟨param, hempty ▸ hparam, hany param.key ▸ hnew, ?_⟩
    rw [← heq] at h
    simpa using bindFrom_congr hnext h

/-! ### A parameter among others -/

/-- Texts between which a parameter with the key `key` may stand in a directive: they are read as
parameters, and together with one for `key` these are what the directive takes. -/
structure ParamContext (kind : Directive.Kind) (key : String) where
  before : List Char
  given : List WrittenParam
  reads_before : ∀ more, readParams (before ++ more) =
    (readParams more).map fun (ps, left) => (given ++ ps, left)
  after : List Char
  others : List WrittenParam
  /-- There is the closing parenthesis, or a comma and further parameters. -/
  reads_after : (after = [')'] ∧ others = []) ∨
    ∃ more, after = ',' :: more ∧ ∀ left, readParams (more ++ left) = .ok (others, left)
  ahead : List Param
  behind : List Param
  known : key ∈ kind.keys
  binds_before : bindFrom kind [] given = .ok ahead
  binds_after : ∃ v raw,
    bindFrom kind (ahead ++ [⟨key, v, raw⟩]) others = .ok (ahead ++ ⟨key, v, raw⟩ :: behind)
  fresh : ∀ p ∈ ahead, p.key ≠ key
  complete : ∀ required ∈ kind.requiredKeys, required ≠ key →
    isGiven (ahead ++ behind) required = true

/-- Whether a text is a directive: where it does not continue a word, the directive is found at its
place, whatever follows it, and the scan goes on behind it. -/
def IsFound (d : (offset stop : Nat) → Directive) (text : List Char) : Prop :=
  ∀ (pos : Nat) (prev : Option Char), atBoundary prev = true → ∀ left : List Char,
    scan pos prev (text ++ left) = (scan (pos + Text.byteLength text) (some ')') left).map
      fun (ds, prose) => (d pos (pos + Text.byteLength text) :: ds, prose)

namespace ParamContext

variable (ctx : ParamContext kind key)

/-- The text of the directive with a parameter between the texts. -/
def text (entry : List Char) : List Char :=
  kind.word.toList ++ '(' :: (ctx.before ++ (entry ++ ctx.after))

/-- All parameters of the directive. -/
def params (v : Value) (w : List Char) : List Param :=
  ctx.ahead ++ ⟨key, v, String.ofList w⟩ :: ctx.behind

/-- The directive with a value for the key. -/
def found (v : Value) (w : List Char) (offset stop : Nat) : Directive :=
  ⟨kind, ctx.params v w, offset, stop⟩

/-- The directive without a value for the key. -/
def without (offset stop : Nat) : Directive := ⟨kind, ctx.ahead ++ ctx.behind, offset, stop⟩

end ParamContext

theorem readParams_entry (g : Gaps) {key : String} (hkey : IsKey key.toList) {w : List Char}
    {v : Value} (hw : Writes [',', ')'] w v) {d : Char} (hd : Follows [',', ')'] [d])
    (more : List Char) : readParams (g.entry key w ++ d :: more) =
      if d = ',' then (readParams more).map fun (ps, left) => (⟨some key.toList, v, w⟩ :: ps, left)
      else .ok ([⟨some key.toList, v, w⟩], more) := by
  have hfollows : Follows [',', ')'] (d :: more) := hd
  have hparam : readParam (g.entry key w ++ d :: more) =
      .ok (⟨some key.toList, v, w⟩, d :: more) := by
    rw [g.entry_append]
    exact Draft.readParam_colon hkey (hw.readValue g.blank_before g.blank_after hfollows)
  obtain ⟨k, ks, hks⟩ := List.exists_cons_of_ne_nil hkey.1
  have hk : isIdentChar k = true := hkey.2 k (hks ▸ List.mem_cons_self)
  rw [g.entry_append, hks] at hparam ⊢
  exact Draft.readParams_of_readParam (isBlank_of_isIdentChar hk)
    (ne_of_isIdentChar hk ')' (by decide)) hd hparam

theorem readParams_blanks {blanks : List Char} (h : ∀ c ∈ blanks, isBlank c = true)
    (s : List Char) : readParams (blanks ++ s) = readParams s := by
  have hskip : skipBlank (blanks ++ s) = skipBlank s := skipBlank_append h s
  rw [readParams, readParams]
  generalize skipBlank (blanks ++ s) = t at hskip ⊢
  subst hskip
  rfl

namespace ParamContext

variable (ctx : ParamContext kind key) {w : List Char} {v : Value}
include ctx

/-- **The parameters around a value** are read as they are around any other value. -/
theorem readParams_eq (g : Gaps) (hw : Writes [',', ')'] w v) (left : List Char) :
    readParams (ctx.before ++ (g.entry key w ++ (ctx.after ++ left))) =
      .ok (ctx.given ++ ⟨some key.toList, v, w⟩ :: ctx.others, left) := by
  have hkey : IsKey key.toList := (Kind.isKey_of_mem ctx.known).1
  rw [ctx.reads_before]
  rcases ctx.reads_after with ⟨hafter, hothers⟩ | ⟨more, hafter, hmore⟩
  · rw [hafter, hothers, List.singleton_append,
      readParams_entry g hkey hw (follows_cons rfl rfl [])]
    rfl
  · rw [hafter, List.cons_append, readParams_entry g hkey hw (follows_cons rfl rfl []), if_pos rfl,
      hmore]
    rfl

theorem bindFrom_eq (v : Value) (w : List Char) :
    bindFrom kind [] (ctx.given ++ ⟨some key.toList, v, w⟩ :: ctx.others) =
      .ok (ctx.params v w) := by
  have hknown : kind.keys.contains key = true := List.contains_iff_mem.2 ctx.known
  have hparam : bindParam kind ctx.ahead.isEmpty ⟨some key.toList, v, w⟩ =
      .ok ⟨key, v, String.ofList w⟩ := by
    simp only [bindParam, Draft.normalKey_of_mem ctx.known, hknown, if_true]
  have hnew : ctx.ahead.any (·.key = key) = false := by
    simpa using ctx.fresh
  obtain ⟨v', raw, hafter⟩ := ctx.binds_after
  have hsample : bindFrom kind (ctx.ahead ++ [⟨key, v', raw⟩]) ctx.others =
      .ok (ctx.ahead ++ [⟨key, v', raw⟩] ++ ctx.behind) := by
    rw [hafter, List.append_assoc, List.singleton_append]
  have hkeys : (ctx.ahead ++ [(⟨key, v, String.ofList w⟩ : Param)]).map Param.key =
      (ctx.ahead ++ [(⟨key, v', raw⟩ : Param)]).map Param.key := by
    simp
  rw [bindFrom_append ctx.binds_before]
  refine bindFrom_cons_ok_iff.2 ⟨_, hparam, hnew, ?_⟩
  rw [bindFrom_congr hkeys hsample, params, List.append_assoc, List.singleton_append]

/-- **The parameters around a value** are bound as they are around any other value, and none is
missing. -/
theorem bindAll_eq (hv : key ∈ kind.requiredKeys →
    ∃ text ∈ v.toText?, Text.isBlankText text.toList = false) :
    bindAll kind (ctx.given ++ ⟨some key.toList, v, w⟩ :: ctx.others) = .ok (ctx.params v w) := by
  have hgiven : ∀ required ∈ kind.requiredKeys, isGiven (ctx.params v w) required = true := by
    intro required hrequired
    unfold isGiven params
    rw [List.any_append, List.any_cons]
    by_cases hkey : required = key
    · subst hkey
      obtain ⟨text, htext, hblank⟩ := hv hrequired
      simp [Option.mem_def.1 htext, hblank]
    · have hothers := ctx.complete required hrequired hkey
      rw [isGiven, List.any_append, Bool.or_eq_true] at hothers
      rcases hothers with h | h <;> simp only [h, Bool.or_true, Bool.true_or]
  have hnone : kind.requiredKeys.find? (fun key => !isGiven (ctx.params v w) key) = none := by
    rw [List.find?_eq_none]
    intro required hrequired
    simp [hgiven required hrequired]
  rw [bindAll, ctx.bindFrom_eq]
  simp only [hnone]

/-- **The directive is found** with a value that is written in any way. -/
theorem isFound (g : Gaps) (hw : Writes [',', ')'] w v) (hv : key ∈ kind.requiredKeys →
      ∃ text ∈ v.toText?, Text.isBlankText text.toList = false) :
    IsFound (ctx.found v w) (ctx.text (g.entry key w)) := by
  intro pos prev hprev left
  have hread : readDirective kind
      ('(' :: (ctx.before ++ (g.entry key w ++ (ctx.after ++ left)))) =
        .ok (ctx.params v w, left) := by
    rw [readDirective, ctx.readParams_eq g hw]
    simp only [ctx.bindAll_eq hv, Except.map]
  have hopen : ∀ c, ('(' :: (ctx.before ++ (g.entry key w ++ (ctx.after ++ left)))).head? = some c →
      isIdentChar c = false := fun c hc => Option.some.inj hc ▸ by decide
  have hsource : kind.word.toList ++
      '(' :: (ctx.before ++ (g.entry key w ++ (ctx.after ++ left))) =
        ctx.text (g.entry key w) ++ left := by
    simp [text]
  rw [← hsource]
  exact scan_directive hopen hread pos hprev hsource

theorem nodup_params (v : Value) (w : List Char) : ((ctx.params v w).map Param.key).Nodup :=
  nodup_of_bindFrom (ctx.bindFrom_eq v w) List.nodup_nil

/-! The parameters of the directive are those that it has without the key, and the one of the key. -/

variable (v : Value) (w : List Char) {offset stop : Nat}

theorem param?_self : (ctx.found v w offset stop).param? key = some ⟨key, v, String.ofList w⟩ := by
  have hnone : ctx.ahead.find? (·.key = key) = none := by
    simpa using ctx.fresh
  simp [found, params, Directive.param?, List.find?_append, hnone]

variable {other : String} (h : other ≠ key)
include h

theorem param?_of_ne :
    (ctx.found v w offset stop).param? other = (ctx.without offset stop).param? other := by
  simp [found, without, params, Directive.param?, List.find?_append, h.symm]

theorem text?_of_ne :
    (ctx.found v w offset stop).text? other = (ctx.without offset stop).text? other := by
  rw [Directive.text?, Directive.text?, ctx.param?_of_ne v w h]

theorem scope?_of_ne :
    (ctx.found v w offset stop).scope? other = (ctx.without offset stop).scope? other := by
  rw [Directive.scope?, Directive.scope?, ctx.param?_of_ne v w h]

theorem deprecation?_of_ne : (ctx.found v w offset stop).deprecation? other =
    (ctx.without offset stop).deprecation? other := by
  rw [Directive.deprecation?, Directive.deprecation?, ctx.param?_of_ne v w h]

omit h

/-- Another required key has a text that is not blank. -/
theorem exists_text_of_required {required : String} (hrequired : required ∈ kind.requiredKeys)
    (hne : required ≠ key) : ∃ text, (∀ offset stop : Nat,
      (ctx.without offset stop).text? required = some text) ∧
        Text.isBlankText text.toList = false := by
  have hsub : (ctx.ahead ++ ctx.behind).Sublist (ctx.params (.text "") []) :=
    List.Sublist.append (List.Sublist.refl _) (List.sublist_cons_self _ _)
  have hnodup := (ctx.nodup_params (.text "") []).sublist (hsub.map Param.key)
  obtain ⟨p, hp, hgiven⟩ := List.any_eq_true.1 (ctx.complete required hrequired hne)
  obtain ⟨hkey, hgiven⟩ := Bool.and_eq_true_iff.1 hgiven
  have hkey : p.key = required := of_decide_eq_true hkey
  -- the first parameter with the key is the one that is given
  have hfind : (ctx.ahead ++ ctx.behind).find? (·.key = required) = some p := by
    cases hfirst : (ctx.ahead ++ ctx.behind).find? (·.key = required) with
    | none => exact absurd hkey (by simpa using List.find?_eq_none.1 hfirst p hp)
    | some q =>
      have hq : q.key = required := by simpa using List.find?_some hfirst
      rw [List.inj_on_of_nodup_map hnodup (List.mem_of_find?_eq_some hfirst) hp (hq.trans hkey.symm)]
  cases htext : p.value.toText? with
  | none => simp [htext] at hgiven
  | some text =>
    refine ⟨text, fun offset stop => ?_, by simpa [htext] using hgiven⟩
    rw [Directive.text?, Directive.param?, without, hfind, Option.bind_some, htext]

end ParamContext

end Directive

namespace GqlPart

open Directive

/-! ### An item among others -/

/-- Texts between which an item may stand in the `gql` part of a tag. -/
structure ItemContext where
  before : List Char
  isFirst : Bool
  given : GqlPart
  /-- The items in front take effect, whatever follows them. -/
  reads_before : ∀ more, setAll true {} (before ++ more) = setAll isFirst given more
  after : List Char
  /-- There is nothing behind the item, or a comma. -/
  follows : Follows [','] after

/-- Options as a tag gives them: they do not exclude the field from both types and inputs. -/
def checked (o : GqlPart) : Except TagFault GqlPart :=
  if o.readOnly && o.writeOnly then .error .readOnlyAndWriteOnly else .ok o

/-- The `gql` part of a tag with an item between the texts. -/
def ItemContext.text (ctx : ItemContext) (entry : List Char) : String :=
  String.ofList (ctx.before ++ (entry ++ ctx.after))

namespace ItemContext

variable (ctx : ItemContext) (g : Gaps) {key : String} {w : List Char} {v : Value}

/-- **An item takes effect** in whatever way its value is written, and then the items behind it
do. -/
theorem setAll_entry (hkey : IsKey key.toList) (hw : Writes [','] w v) :
    setAll true {} (ctx.before ++ (g.entry key w ++ ctx.after)) =
      ctx.given.set ⟨String.ofList (normalKey key.toList), v, w⟩ >>=
        fun next => setAll false next ctx.after.tail := by
  have hread := readSetting_colon hkey
    (hw.readValue g.blank_before g.blank_after ctx.follows) ctx.isFirst
  obtain ⟨k, ks, hks⟩ := List.exists_cons_of_ne_nil hkey.1
  have hk : isIdentChar k = true := hkey.2 k (hks ▸ List.mem_cons_self)
  rw [ctx.reads_before, g.entry_append]
  rw [hks] at hread ⊢
  exact setAll_of_readSetting (skipBlank_of_head (isBlank_of_isIdentChar hk) _)
    (ne_of_isIdentChar hk ',' (by decide)) hread ctx.follows.skipBlank_eq ctx.follows ctx.given

theorem parse_entry (hkey : IsKey key.toList) (hw : Writes [','] w v) :
    parse (ctx.text (g.entry key w)) =
      (ctx.given.set ⟨String.ofList (normalKey key.toList), v, w⟩ >>=
        fun next => setAll false next ctx.after.tail) >>= checked := by
  obtain ⟨k, ks, hks⟩ := List.exists_cons_of_ne_nil hkey.1
  have hk : isIdentChar k = true := hkey.2 k (hks ▸ List.mem_cons_self)
  -- a key is no lone `-`
  have hmem : k ∈ ctx.before ++ (g.entry key w ++ ctx.after) := by
    simp [Gaps.entry, hks]
  have hdash : Text.trim (ctx.before ++ (g.entry key w ++ ctx.after)) ≠ ['-'] := by
    intro htrim
    have hkdash := Text.mem_trim (isBlank_of_isIdentChar hk) hmem
    rw [htrim, List.mem_singleton] at hkdash
    exact ne_of_isIdentChar hk '-' (by decide) hkdash
  rw [parse, text, String.toList_ofList, if_neg hdash, ctx.setAll_entry g hkey hw]
  cases ctx.given.set ⟨String.ofList (normalKey key.toList), v, w⟩ >>=
    fun next => setAll false next ctx.after.tail <;> rfl

end ItemContext

/-- Options with the type text and the scopes of others where they give none themselves. -/
def filledFrom (o before : GqlPart) : GqlPart :=
  { o with
    typeText := o.typeText.or before.typeText
    includedIn := o.includedIn.or before.includedIn
    ignoredIn := o.ignoredIn.or before.ignoredIn }

theorem set_filledFrom (o before : GqlPart) (s : Setting) :
    (o.filledFrom before).set s = (o.set s).map (·.filledFrom before) := by
  unfold GqlPart.set
  split
  case h_2 => split <;> simp [filledFrom, Except.map]
  case h_10 | h_12 | h_13 => split <;> simp [filledFrom, Except.map]
  all_goals simp [filledFrom, Except.map]

/-- **Items take effect on what they set**, whatever type text and scopes were given before them. -/
theorem setAll_filledFrom {isFirst : Bool} {o r : GqlPart} {s : List Char}
    (h : setAll isFirst o s = .ok r) (before : GqlPart) :
    setAll isFirst (o.filledFrom before) s = .ok (r.filledFrom before) := by
  fun_induction setAll isFirst o s with
  | case1 isFirst o s hs =>
    obtain rfl := Except.ok.inj h
    exact setAll_blank hs isFirst (o.filledFrom before)
  | case2 isFirst o s rest hs ih =>
    rw [setAll_comma hs]
    exact ih h
  | case3 => cases h
  | case4 => cases h
  | case5 isFirst o s c rest hs hc setting left hread next hnext hleft =>
    obtain rfl := Except.ok.inj h
    rw [setAll_of_readSetting hs hc hread hleft (follows_nil [',']), set_filledFrom, hnext]
    exact setAll_blank rfl false (next.filledFrom before)
  | case6 isFirst o s c rest hs hc setting left hread next hnext more hleft ih =>
    rw [setAll_of_readSetting hs hc hread hleft (follows_cons rfl rfl more), set_filledFrom, hnext]
    exact ih h
  | case7 => cases h

/-- An item gives its option unless an item behind it gives the same one; all else is as the items
around it have it. -/
theorem ItemContext.parse_filledFrom (ctx : ItemContext) (g : Gaps) {key : String}
    (hkey : IsKey key.toList) {w : List Char} {v : Value} (hw : Writes [','] w v)
    {bare own : GqlPart}
    (hset : ctx.given.set ⟨String.ofList (normalKey key.toList), v, w⟩ = .ok (bare.filledFrom own))
    {o : GqlPart} (hbehind : setAll false bare ctx.after.tail = .ok o)
    (hopen : (o.readOnly && o.writeOnly) = false) :
    parse (ctx.text (g.entry key w)) = .ok (o.filledFrom own) := by
  have hall : (ctx.given.set ⟨String.ofList (normalKey key.toList), v, w⟩ >>=
      fun next => setAll false next ctx.after.tail) = .ok (o.filledFrom own) := by
    rw [hset]
    exact setAll_filledFrom hbehind own
  have hboth : ((o.filledFrom own).readOnly && (o.filledFrom own).writeOnly) = false := hopen
  have hchecked : checked (o.filledFrom own) = .ok (o.filledFrom own) := by
    rw [checked, hboth]
    rfl
  rw [ctx.parse_entry g hkey hw, hall]
  exact hchecked

end GqlPart

end GoSchema
