/-
# Shadowed fields

A declared field shadows what embedded structs hand on under its name: of each name that a struct
declares, its flat fields are the declared ones, and of any other name there is one promoted field
at most. Names are compared while fields are promoted, though, before the declared fields are looked
at. So a name that is handed on twice stops flattening, no matter whether the struct that embeds
both declares it, and nothing else about names does.

Key definitions: `fieldsNamed`, `IsFirstRepeat`, `Catalog.Repeats`, `Catalog.Flattens`.
Key theorems: `Promotion.promote_error_iff`, `Catalog.IsFlat.fieldsNamed_eq`,
`Catalog.IsFlattening.repeats`, `Catalog.flattenFrom_cases`, `Catalog.flattenFrom_shadows`.
-/
import GoSchema.Proofs.FlatStructs

namespace GoSchema

open Outcome

/-- The fields with a name. -/
def fieldsNamed (name : String) (fs : List Field) : List Field := fs.filter (·.goName = some name)

theorem fieldsNamed_append (name : String) (fs fs' : List Field) :
    fieldsNamed name (fs ++ fs') = fieldsNamed name fs ++ fieldsNamed name fs' :=
  List.filter_append ..

theorem fieldsNamed_eq_nil_iff {name : String} {fs : List Field} :
    fieldsNamed name fs = [] ↔ name ∉ goNames fs := by
  simp [fieldsNamed, List.filter_eq_nil_iff, mem_goNames]

theorem length_fieldsNamed (name : String) : ∀ fs : List Field,
    (fieldsNamed name fs).length = (goNames fs).count name
  | [] => rfl
  | f :: fs => by
    have ih := length_fieldsNamed name fs
    rw [fieldsNamed, goNames] at ih ⊢
    cases hf : f.goName with
    | none => simp [hf, ih]
    | some own => by_cases hown : own = name <;> simp [hf, hown, ih]

/-! ### Names that repeat -/

/-- Going through fields, `second` is the first one that has the name of an earlier one, `first`. -/
def IsFirstRepeat (fs : List Field) (name : String) (first second : Field) : Prop :=
  ∃ earlier later, fs = earlier ++ second :: later ∧ (goNames earlier).Nodup ∧ first ∈ earlier ∧
    first.goName = some name ∧ second.goName = some name

theorem eq_of_goName : ∀ {fs : List Field}, (goNames fs).Nodup → ∀ {f g : Field}, f ∈ fs → g ∈ fs →
    ∀ {name : String}, f.goName = some name → g.goName = some name → f = g
  | [], _, _, _, hf, _, _, _, _ => absurd hf List.not_mem_nil
  | e :: fs, h, f, g, hf, hg, name, hfn, hgn => by
    rw [← List.singleton_append, goNames_append, List.nodup_append] at h
    obtain ⟨-, hrest, hapart⟩ := h
    have apart : ∀ {x : Field}, x ∈ fs → x.goName = some name → e.goName ≠ some name :=
      fun hx hxn he => hapart name (mem_goNames.2 ⟨e, List.mem_singleton_self e, he⟩) name
        (mem_goNames.2 ⟨_, hx, hxn⟩) rfl
    rcases List.mem_cons.1 hf with hfe | hf <;> rcases List.mem_cons.1 hg with hge | hg
    · exact hfe.trans hge.symm
    · exact absurd (hfe ▸ hfn) (apart hg hgn)
    · exact absurd (hge ▸ hgn) (apart hf hfn)
    · exact eq_of_goName hrest hf hg hfn hgn

namespace IsFirstRepeat

variable {fs : List Field} {name name' : String} {first first' second second' : Field}

theorem append (h : IsFirstRepeat fs name first second) (more : List Field) :
    IsFirstRepeat (fs ++ more) name first second := by
  obtain ⟨earlier, later, rfl, hrest⟩ := h
  exact ⟨earlier, later ++ more, by simp, hrest⟩

theorem not_nodup (h : IsFirstRepeat fs name first second) : ¬ (goNames fs).Nodup := by
  obtain ⟨earlier, later, rfl, -, hmem, hfirst, hsecond⟩ := h
  intro hnodup
  rw [goNames_append, List.nodup_append] at hnodup
  exact hnodup.2.2 name (mem_goNames.2 ⟨first, hmem, hfirst⟩) name
    (mem_goNames.2 ⟨second, List.mem_cons_self, hsecond⟩) rfl

/-- **There is one first repeat.** -/
theorem unique (h : IsFirstRepeat fs name first second)
    (h' : IsFirstRepeat fs name' first' second') :
    name = name' ∧ first = first' ∧ second = second' := by
  obtain ⟨earlier, later, rfl, hnodup, hmem, hfirst, hsecond⟩ := h
  obtain ⟨earlier', later', heq, hnodup', hmem', hfirst', hsecond'⟩ := h'
  have hsame : earlier = earlier' ∧ second :: later = second' :: later' := by
    rcases List.append_eq_append_iff.1 heq with ⟨more, rfl, hmore⟩ | ⟨more, rfl, hmore⟩
    · cases more with
      | nil => exact ⟨(List.append_nil _).symm, hmore⟩
      | cons f more =>
        obtain ⟨rfl, -⟩ := List.cons.inj hmore
        have hrepeat : IsFirstRepeat (earlier ++ second :: more) name first second :=
          ⟨earlier, more, rfl, hnodup, hmem, hfirst, hsecond⟩
        exact absurd hnodup' hrepeat.not_nodup
    · cases more with
      | nil => exact ⟨List.append_nil _, hmore.symm⟩
      | cons f more =>
        obtain ⟨rfl, -⟩ := List.cons.inj hmore
        have hrepeat : IsFirstRepeat (earlier' ++ second' :: more) name' first' second' :=
          ⟨earlier', more, rfl, hnodup', hmem', hfirst', hsecond'⟩
        exact absurd hnodup hrepeat.not_nodup
  obtain ⟨rfl, hrest⟩ := hsame
  obtain ⟨rfl, -⟩ := List.cons.inj hrest
  obtain rfl := Option.some.inj (hsecond.symm.trans hsecond')
  exact ⟨rfl, eq_of_goName hnodup hmem hmem' hfirst hfirst', rfl⟩

end IsFirstRepeat

namespace Promotion

variable {owner : String} {ps : List Field}

/-- One field is promoted, unless an earlier one has its name. -/
theorem promote_cons_cases (h : (goNames ps).Nodup) (f : Field) (fs : List Field) :
    (promote owner ps (f :: fs) = promote owner (ps ++ [f]) fs ∧ (goNames (ps ++ [f])).Nodup) ∨
      ∃ name first, first ∈ ps ∧ first.goName = some name ∧ f.goName = some name ∧
        promote owner ps (f :: fs) = .error (.repeatedField owner name first.origin f.origin) := by
  cases hfind : ps.find? fun p => p.goName.isSome && p.goName = f.goName with
  | some first =>
    right
    have hfound := List.find?_some hfind
    simp only [Bool.and_eq_true, decide_eq_true_eq, Option.isSome_iff_exists] at hfound
    obtain ⟨⟨name, hname⟩, hsame⟩ := hfound
    have hf : f.goName = some name := hsame ▸ hname
    refine ⟨name, first, List.mem_of_find?_eq_some hfind, hname, hf, ?_⟩
    rw [promote, hfind]
    simp [hf]
  | none =>
    left
    have hone : promote owner ps [f] = .ok (ps ++ [f]) := by
      rw [promote, hfind]
      rfl
    refine ⟨by rw [promote, hfind], ?_⟩
    rcases promote_cases owner [f] h with ⟨-, hnodup⟩ | ⟨-, _, _, _, herror⟩
    · exact hnodup
    · exact nomatch herror.symm.trans hone

/-- **Promoting fields fails at the first repeated name**, and only there. -/
theorem promote_error_iff {e : Fault} : ∀ {fs ps : List Field}, (goNames ps).Nodup →
    (promote owner ps fs = .error e ↔ ∃ name first second,
      IsFirstRepeat (ps ++ fs) name first second ∧
        e = .repeatedField owner name first.origin second.origin)
  | [], ps, h => by
    constructor
    · exact fun hno => nomatch hno
    · rintro ⟨name, first, second, hrepeat, -⟩
      rw [List.append_nil] at hrepeat
      exact absurd h hrepeat.not_nodup
  | f :: fs, ps, h => by
    rcases promote_cons_cases h f fs with ⟨hstep, hnext⟩ | ⟨name, first, hmem, hfirst, hf, herror⟩
    · rw [hstep, promote_error_iff hnext, List.append_assoc, List.singleton_append]
    · have hhere : IsFirstRepeat (ps ++ f :: fs) name first f :=
        ⟨ps, fs, rfl, h, hmem, hfirst, hf⟩
      rw [herror]
      constructor
      · exact fun he => ⟨name, first, f, hhere, (Except.error.inj he).symm⟩
      · rintro ⟨name', first', second', hrepeat, rfl⟩
        obtain ⟨rfl, rfl, rfl⟩ := hhere.unique hrepeat
        rfl

end Promotion

namespace Catalog

variable {c : Catalog}

/-- Of a name that is declared no promoted field remains, and of any other one all do. -/
theorem fieldsNamed_remaining (declared ps : List Field) (name : String) :
    fieldsNamed name (ps.filter (Promotion.remains declared)) =
      if name ∈ goNames declared then [] else fieldsNamed name ps := by
  have hremains : ∀ p : Field, p.goName = some name →
      (Promotion.remains declared p = true ↔ name ∉ goNames declared) := by
    intro p hp
    simp [Promotion.remains, Field.isEmbedded, hp, mem_goNames]
  rw [fieldsNamed, List.filter_filter]
  split_ifs with hname
  · rw [List.filter_eq_nil_iff]
    intro p _ hp
    simp only [Bool.and_eq_true, decide_eq_true_eq] at hp
    exact (hremains p hp.1).1 hp.2 hname
  · refine List.filter_congr fun p _ => ?_
    by_cases hp : p.goName = some name
    · simp [hp, (hremains p hp).2 hname]
    · simp [hp]

/-- **Declared fields shadow promoted ones.** Of a name that a struct declares, its flat fields are
the declared ones; of any other name they are those that are handed on, of which there is one at
most. -/
theorem IsFlat.fieldsNamed_eq {id : Nat} {d : Declaration} {fs : List Field} (h : c.IsFlat id fs)
    (hd : c.get? id = some d) (name : String) :
    (name ∈ goNames (c.declaredFields d.body.fields) →
      fieldsNamed name fs = fieldsNamed name (c.declaredFields d.body.fields)) ∧
    (name ∉ goNames (c.declaredFields d.body.fields) →
      fieldsNamed name fs = fieldsNamed name (c.promotedFields c.flatOf d.body.fields) ∧
        (fieldsNamed name fs).length ≤ 1) := by
  obtain ⟨e, he, -, -, hnodup, rfl⟩ := isFlat_iff.1 h
  obtain rfl := Option.some.inj (hd.symm.trans he)
  rw [flatFields, fieldsNamed_append, fieldsNamed_remaining]
  refine ⟨fun hname => ?_, fun hname => ?_⟩
  · rw [if_pos hname, List.nil_append]
  · rw [if_neg hname, fieldsNamed_eq_nil_iff.2 hname, List.append_nil, length_fieldsNamed]
    exact ⟨rfl, List.nodup_iff_count_le_one.1 hnodup name⟩

/-- Going through these fields of a struct comes to a name that is handed on twice: up to there all
embedded structs have flat fields, and `first` and `second` are the two fields of that name. -/
def Repeats (c : Catalog) (fs : List Field) (name : String) (first second : Field) : Prop :=
  ∃ front back, fs = front ++ back ∧
    (∀ f ∈ front, ∀ x, c.embedded? f = some x → c.IsFlat x.1 (c.flatOf x.1)) ∧
    IsFirstRepeat (c.promotedFields c.flatOf front) name first second

theorem Repeats.isFirstRepeat {fs : List Field} {name : String} {first second : Field}
    (h : c.Repeats fs name first second) :
    IsFirstRepeat (c.promotedFields c.flatOf fs) name first second := by
  obtain ⟨front, back, rfl, -, hrepeat⟩ := h
  rw [promotedFields_append]
  exact hrepeat.append _

/-- Going through the fields of a struct fails where flattening an embedded one does, or at the
first name that is handed on twice. -/
theorem foldlM_addField_error {run : Flattened → Nat → Except Fault (List Field × Flattened)}
    (hrun : c.Computes run) {owner : String} {fs : List Field} {done : Flattened} {e : Fault}
    (hdone : c.IsSound done) (h : fs.foldlM (c.addField owner run) { done } = .error e) :
    (∃ f ∈ fs, ∃ x, c.embedded? f = some x ∧ ∃ start, c.IsSound start ∧
        run start x.1 = .error e) ∨
      ∃ name first second, c.Repeats fs name first second ∧
        e = .repeatedField owner name first.origin second.origin := by
  obtain ⟨front, f, back, p, rfl, hfront, hf⟩ := foldlM_error h
  have hgathered : c.Gathered front p := Gathered.foldlM hrun (.start hdone) hfront
  obtain ⟨id, d, hx, hfail | ⟨inner, done', hinner, hpromote⟩⟩ := addField_error hf
  · exact .inl ⟨f, by simp, _, hx, p.done, hgathered.done, hfail⟩
  · right
    obtain ⟨hd, hr⟩ := embedded?_get? hx
    have hflat := (hrun hd hr hgathered.done hinner).1
    obtain ⟨name, first, second, hrepeat, rfl⟩ :=
      (Promotion.promote_error_iff hgathered.nodup).1 hpromote
    refine ⟨name, first, second, ⟨front ++ [f], back, by simp, ?_, ?_⟩, rfl⟩
    · intro g hg x hgx
      rcases List.mem_append.1 hg with hg | hg
      · exact hgathered.flat g hg x hgx
      · obtain rfl := List.mem_singleton.1 hg
        obtain rfl := Option.some.inj (hx.symm.trans hgx)
        exact hflat.isFlat_flatOf
    · rwa [promotedFields_append, promotedFields_singleton, handedOn_of_some hx, hflat.flatOf_eq,
        ← hgathered.promoted]

/-- **What is reported is handed on twice**, to the struct that is flattened or to one that it
reaches through embedded structs. -/
theorem IsFlattening.repeats
    {run : Nat → List Nat → Flattened → Nat → Except Fault (List Field × Flattened)}
    (hrun : c.IsFlattening run) : ∀ {room : Nat} {chain : List Nat} {done : Flattened} {id : Nat}
      {owner name first second : String}, c.IsSound done →
      run room chain done id = .error (.repeatedField owner name first second) →
        ∃ i d p q, Relation.ReflTransGen c.Embeds id i ∧ c.get? i = some d ∧ owner = d.label ∧
          c.Repeats d.body.fields name p q ∧ first = p.origin ∧ second = q.origin := by
  intro room
  induction room with
  | zero =>
    intro chain done id owner name first second hdone h
    rcases hrun.error h with ⟨-, hno⟩ | ⟨-, hno⟩ | ⟨left, _, _, hroom, -⟩
    · cases hno
    · cases hno
    · omega
  | succ room ih =>
    intro chain done id owner name first second hdone h
    rcases hrun.error h with ⟨-, hno⟩ | ⟨-, hno⟩ | ⟨left, start, d, hroom, hstart, hd, -, h⟩
    · cases hno
    · cases hno
    · obtain rfl : room = left := by omega
      rcases foldlM_addField_error (hrun.computes _ _) (hdone.start hstart) h with
        ⟨f, hf, x, hx, done', hdone', hinner⟩ | ⟨n, p, q, hrepeat, heq⟩
      · obtain ⟨i, e, p, q, hreach, hrest⟩ := ih hdone' hinner
        exact ⟨i, e, p, q, .head (embeds_of_mem hd hf hx) hreach, hrest⟩
      · obtain ⟨rfl, rfl, rfl, rfl⟩ := Fault.repeatedField.inj heq
        exact ⟨id, d, p, q, .refl, hd, rfl, hrepeat, rfl, rfl⟩

/-! ### When a struct can be flattened -/

/-- A struct can be flattened here, whatever is remembered. -/
def Flattens (c : Catalog) (room : Nat) (chain : List Nat) (id : Nat) : Prop :=
  ∀ done, c.IsSound done → ∃ x, c.flattenFrom room chain done id = .ok x

/-- Where all structs that it embeds can be flattened, a struct gets its flat fields, or flattening
stops at the first name that is handed on twice. -/
theorem flattenFrom_cases {room : Nat} {chain : List Nat} {done : Flattened} {id : Nat}
    {d : Declaration} (hd : c.get? id = some d) (hr : d.isRecord = true) (hdone : c.IsSound done)
    (hid : id ∉ chain) (hinner : ∀ i, c.Embeds id i → c.Flattens room (chain ++ [id]) i) :
    (∃ done', c.flattenFrom (room + 1) chain done id =
        .ok (c.flatFields c.flatOf d.body.fields, done') ∧
        (goNames (c.promotedFields c.flatOf d.body.fields)).Nodup) ∨
      ∃ name first second,
        IsFirstRepeat (c.promotedFields c.flatOf d.body.fields) name first second ∧
        c.flattenFrom (room + 1) chain done id =
          .error (.repeatedField d.label name first.origin second.origin) := by
  cases h : c.flattenFrom (room + 1) chain done id with
  | ok x =>
    obtain ⟨fs, done'⟩ := x
    obtain ⟨e, he, -, -, hnodup, rfl⟩ :=
      isFlat_iff.1 ((isFlattening_flattenFrom c).computes _ _ hd hr hdone h).1
    obtain rfl := Option.some.inj (hd.symm.trans he)
    exact .inl ⟨done', rfl, hnodup⟩
  | error e =>
    right
    rcases (isFlattening_flattenFrom c).error h with ⟨hmem, -⟩ | ⟨hroom, -⟩ |
      ⟨left, start, e', hroom, hstart, he, -, hfail⟩
    · exact absurd hmem hid
    · omega
    · obtain rfl : room = left := by omega
      obtain rfl := Option.some.inj (hd.symm.trans he)
      rcases foldlM_addField_error ((isFlattening_flattenFrom c).computes _ _)
        (hdone.start hstart) hfail with
        ⟨f, hf, x, hx, done', hdone', hno⟩ | ⟨name, first, second, hrepeat, rfl⟩
      · obtain ⟨y, hy⟩ := hinner x.1 (embeds_of_mem hd hf hx) done' hdone'
        exact nomatch hno.symm.trans hy
      · exact ⟨name, first, second, hrepeat.isFirstRepeat, rfl⟩

theorem flattens_of_not_embeds {room : Nat} {chain : List Nat} {id : Nat} {d : Declaration}
    (hd : c.get? id = some d) (hr : d.isRecord = true) (hid : id ∉ chain)
    (hno : ∀ f ∈ d.body.fields, c.embedded? f = none) : c.Flattens (room + 1) chain id := by
  intro done hdone
  have hinner : ∀ i, c.Embeds id i → c.Flattens room (chain ++ [id]) i := by
    rintro i ⟨e, he, f, hf, base, hx⟩
    obtain rfl := Option.some.inj (hd.symm.trans he)
    exact nomatch (hno f hf).symm.trans hx
  rcases flattenFrom_cases hd hr hdone hid hinner with ⟨done', hok, -⟩ | ⟨_, _, _, hrepeat, -⟩
  · exact ⟨_, hok⟩
  · have hnone : c.promotedFields c.flatOf d.body.fields = [] :=
      List.flatMap_eq_nil_iff.2 fun f hf => handedOn_of_none (hno f hf)
    rw [hnone] at hrepeat
    exact absurd List.nodup_nil hrepeat.not_nodup

/-- **Shadowing.** Where flattening a struct gives a result, of every name that the struct declares
the result has the declared fields and no promoted one, and of any other name one promoted field at
most. A repeated name that is reported is the first one that is handed on twice, to the struct or to
one that it reaches. And where the structs that it embeds can be flattened, a struct cannot exactly
if a name is handed on twice, whether the struct declares that name or not. -/
theorem flattenFrom_shadows {room : Nat} {chain : List Nat} {done : Flattened} {id : Nat}
    {d : Declaration} (hd : c.get? id = some d) (hr : d.isRecord = true)
    (hdone : c.IsSound done) :
    (∀ fs done', c.flattenFrom room chain done id = .ok (fs, done') → ∀ name,
      (name ∈ goNames (c.declaredFields d.body.fields) →
        fieldsNamed name fs = fieldsNamed name (c.declaredFields d.body.fields)) ∧
      (name ∉ goNames (c.declaredFields d.body.fields) →
        fieldsNamed name fs = fieldsNamed name (c.promotedFields c.flatOf d.body.fields) ∧
          (fieldsNamed name fs).length ≤ 1)) ∧
    (∀ owner name first second,
      c.flattenFrom room chain done id = .error (.repeatedField owner name first second) →
        ∃ i e p q, Relation.ReflTransGen c.Embeds id i ∧ c.get? i = some e ∧ owner = e.label ∧
          c.Repeats e.body.fields name p q ∧ first = p.origin ∧ second = q.origin) ∧
    (∀ left, room = left + 1 → id ∉ chain →
      (∀ i, c.Embeds id i → c.Flattens left (chain ++ [id]) i) →
      ((∃ e, c.flattenFrom room chain done id = .error e) ↔
        ∃ name, 1 < (goNames (c.promotedFields c.flatOf d.body.fields)).count name) ∧
      ∀ name first second,
        c.flattenFrom room chain done id = .error (.repeatedField d.label name first second) ↔
          ∃ p q, IsFirstRepeat (c.promotedFields c.flatOf d.body.fields) name p q ∧
            first = p.origin ∧ second = q.origin) := by
  refine ⟨fun fs done' h name => ?_, fun owner name first second h => ?_,
    fun left hroom hid hinner => ?_⟩
  · exact ((isFlattening_flattenFrom c).computes _ _ hd hr hdone h).1.fieldsNamed_eq hd name
  · exact (isFlattening_flattenFrom c).repeats hdone h
  · subst hroom
    have htwice : (∃ name, 1 < (goNames (c.promotedFields c.flatOf d.body.fields)).count name) ↔
        ¬ (goNames (c.promotedFields c.flatOf d.body.fields)).Nodup := by
      simp [List.nodup_iff_count_le_one]
    rw [htwice]
    rcases flattenFrom_cases hd hr hdone hid hinner with
      ⟨done', hok, hnodup⟩ | ⟨name', p', q', hrepeat, herror⟩
    · rw [hok]
      constructor
      · exact ⟨fun ⟨_, hno⟩ => (nomatch hno), fun hno => absurd hnodup hno⟩
      · refine fun name first second => ⟨fun hno => (nomatch hno), ?_⟩
        rintro ⟨p, q, hrepeat, -⟩
        exact absurd hnodup hrepeat.not_nodup
    · rw [herror]
      refine ⟨⟨fun _ => hrepeat.not_nodup, fun _ => ⟨_, rfl⟩⟩, fun name first second => ?_⟩
      constructor
      · intro h
        obtain ⟨-, rfl, rfl, rfl⟩ := Fault.repeatedField.inj (Except.error.inj h)
        exact ⟨p', q', hrepeat, rfl, rfl⟩
      · rintro ⟨p, q, hrepeat', rfl, rfl⟩
        obtain ⟨rfl, rfl, rfl⟩ := hrepeat.unique hrepeat'
        rfl

/-- Two structs with a field of one name, a struct that embeds both and declares that name too, and
one that embeds one of them and declares it. -/
def overlap : Catalog :=
  { types :=
      [{ plainBase with name := "A", body := .record [{ namedField "X" with origin := "A.X" }] },
        { plainBase with name := "B", body := .record [{ namedField "X" with origin := "B.X" }] },
        { plainBase with
            name := "S"
            body := .record
              [embedding "A" [], embedding "B" [], { namedField "X" with origin := "S.X" }] },
        { plainBase with
            name := "T"
            body := .record [embedding "A" [], { namedField "X" with origin := "T.X" }] }] }

theorem overlap_embeds {i : Nat} (h : overlap.Embeds 2 i) : i = 0 ∨ i = 1 := by
  obtain ⟨d, hd, f, hf, e, he⟩ := h
  obtain rfl := Option.some.inj hd
  rcases List.mem_cons.1 hf with rfl | hf
  · exact .inl (congrArg Prod.fst (Option.some.inj he)).symm
  rcases List.mem_cons.1 hf with rfl | hf
  · exact .inr (congrArg Prod.fst (Option.some.inj he)).symm
  · obtain rfl := List.mem_singleton.1 hf
    cases he

theorem overlap_shadows :
    (∃ d, overlap.get? 3 = some d ∧ d.isRecord = true ∧ overlap.IsSound [] ∧
      "X" ∈ goNames (overlap.declaredFields d.body.fields) ∧
      ∃ fs done, overlap.flattenFrom chainLimit [] [] 3 = .ok (fs, done) ∧
        fieldsNamed "X" fs = fieldsNamed "X" (overlap.declaredFields d.body.fields)) ∧
      ∃ d, overlap.get? 2 = some d ∧ d.isRecord = true ∧
        (∀ i, overlap.Embeds 2 i → overlap.Flattens 31 [2] i) ∧
        (∃ e, overlap.flattenFrom chainLimit [] [] 2 = .error e) ∧
        ∃ name, 1 < (goNames (overlap.promotedFields overlap.flatOf d.body.fields)).count name := by
  have hinner : ∀ i, overlap.Embeds 2 i → overlap.Flattens 31 ([] ++ [2]) i := by
    intro i hi
    rcases overlap_embeds hi with rfl | rfl
    · exact flattens_of_not_embeds rfl rfl (by decide) (by decide)
    · exact flattens_of_not_embeds rfl rfl (by decide) (by decide)
  have hok : overlap.flattenFrom chainLimit [] [] 3 = .ok
      ([{ namedField "X" with origin := "T.X" }],
        [(3, [{ namedField "X" with origin := "T.X" }]),
          (0, [{ namedField "X" with origin := "A.X" }])]) := by
    decide +kernel
  have herror : overlap.flattenFrom chainLimit [] [] 2 =
      .error (.repeatedField "m.S" "X" "A.X" "B.X") := by
    decide +kernel
  refine ⟨⟨_, rfl, rfl, isSound_nil, by decide +kernel, _, _, hok, ?_⟩,
    _, rfl, rfl, hinner, ⟨_, herror⟩, ?_⟩
  · exact ((flattenFrom_shadows rfl rfl isSound_nil).1 _ _ hok "X").1 (by decide +kernel)
  · exact (((flattenFrom_shadows rfl rfl isSound_nil).2.2 31 rfl (by decide) hinner).1).1
      ⟨_, herror⟩

/-- A name that a struct declares, but that two embedded structs hand on, stops flattening. -/
theorem overlap_declared_name_fails :
    overlap.flatten = .error (.repeatedField "m.S" "X" "A.X" "B.X") ∧
      overlap.flattenFrom chainLimit [] [] 2 = .error (.repeatedField "m.S" "X" "A.X" "B.X") ∧
      ∃ d, overlap.get? 2 = some d ∧ d.label = "m.S" ∧
        "X" ∈ goNames (overlap.declaredFields d.body.fields) :=
  ⟨by decide +kernel, by decide +kernel, _, rfl, by decide +kernel, by decide +kernel⟩

end Catalog

end GoSchema
