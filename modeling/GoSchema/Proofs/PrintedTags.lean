/-
# Printed field tags are read back

The options that a tag can give are those of a lone `-`, or options with a type text that is not
blank, scopes without blank entries, and not both directions excluded. Each of them is given by its
printed form: an item takes effect on its own option only, and no text in an item, whatever its
characters, ends the item, the list or the entry of the tag that it stands in. A tag holds the
entries that it was printed from, with their values as they were.

Key definitions: `Scope.IsTidy`, `GqlPart.IsGivable`, `GqlPart.settingOf`.
Key theorems: `isGivable_of_parse`, `foldlM_items`, `readSetting_colon`, `setAll_of_readSetting`,
`setAll_items`, `parse_print`, `split_print`, `parse_printed`.
-/
import GoSchema.FieldTag.Printer
import GoSchema.Proofs.Outcome
import GoSchema.Proofs.PrintedDirectives
import GoSchema.Proofs.Rows

namespace GoSchema

open Unicode Outcome

theorem Text.mem_trim {c : Char} (hc : isBlank c = false) {s : List Char} (h : c ∈ s) :
    c ∈ trim s := by
  have keep : ∀ {s : List Char}, c ∈ s → c ∈ s.dropWhile isBlank := by
    intro s h
    rw [← List.takeWhile_append_dropWhile (p := isBlank) (l := s)] at h
    refine (List.mem_append.1 h).resolve_left fun hlead => ?_
    rw [List.mem_takeWhile_imp hlead] at hc
    cases hc
  exact List.mem_reverse.2 (keep (List.mem_reverse.2 (keep h)))

/-! ### Scopes and options -/

namespace Scope

/-- A scope that its own entries describe: none of them is blank, has blanks at its ends, or is a
`*`. -/
def IsTidy (s : Scope) : Prop := ∀ entries, s = .only entries → ofEntries entries = s

theorem isTidy_all : IsTidy .all := fun _ h => nomatch h

theorem isTidy_ofEntries (entries : List String) : (ofEntries entries).IsTidy := by
  intro kept h
  unfold ofEntries at h
  dsimp only at h
  split at h
  · cases h
  · rename_i hstar
    obtain rfl := Scope.only.inj h
    have hmap : ((((entries.map fun e => Text.trim e.toList).filter (!·.isEmpty)).map
        String.ofList).map fun e => Text.trim e.toList) =
        (entries.map fun e => Text.trim e.toList).filter (!·.isEmpty) := by
      rw [List.map_map]
      refine (List.map_congr_left fun t ht => ?_).trans (List.map_id _)
      obtain ⟨e, -, rfl⟩ := List.mem_map.1 (List.mem_filter.1 ht).1
      rw [Function.comp, String.toList_ofList, Text.trim_trim, id]
    unfold ofEntries
    dsimp only
    rw [hmap, List.filter_filter]
    simp only [Bool.and_self]

theorem isTidy_toScope (v : Value) : v.toScope.IsTidy := by
  cases v with
  | flag => exact isTidy_all
  | text s => exact isTidy_ofEntries _
  | list items => exact isTidy_ofEntries _

theorem IsTidy.toScope_value {s : Scope} (h : s.IsTidy) : s.value.toScope = s := by
  cases s with
  | all => rfl
  | only entries => exact h entries rfl

end Scope

theorem Deprecation.toDeprecation?_value (d : Deprecation) :
    d.value.toDeprecation? = some d := by
  obtain ⟨reason⟩ := d
  cases reason with
  | none => rfl
  | some reason => simp [Deprecation.value, Value.toDeprecation?]

namespace GqlPart

/-- Options that items can give: every text and every scope is as an item leaves it. -/
structure IsGivable (o : GqlPart) : Prop where
  shown : o.hidden = false
  typeText : ∀ t, o.typeText = some t → Text.isBlankText t.toList = false
  includedIn : ∀ s, o.includedIn = some s → s.IsTidy
  ignoredIn : ∀ s, o.ignoredIn = some s → s.IsTidy

theorem isGivable_empty : IsGivable {} where
  shown := rfl
  typeText _ h := nomatch h
  includedIn _ h := nomatch h
  ignoredIn _ h := nomatch h

/-- One more setting leaves options givable. -/
theorem IsGivable.set {o o' : GqlPart} (h : o.IsGivable) {s : Setting} (hs : o.set s = .ok o') :
    o'.IsGivable := by
  obtain ⟨hshown, htype, hincluded, hignored⟩ := h
  unfold GqlPart.set at hs
  split at hs
  case h_2 =>
    split at hs
    · cases hs
    · rename_i hblank
      have htext : ∀ t, some (writtenType s) = some t → Text.isBlankText t.toList = false := by
        intro t ht
        obtain rfl := Option.some.inj ht
        simpa using hblank
      obtain rfl := Except.ok.inj hs
      exact ⟨hshown, htext, hincluded, hignored⟩
  case h_5 | h_6 =>
    obtain rfl := Except.ok.inj hs
    exact ⟨hshown, htype, hincluded, fun t ht => Option.some.inj ht ▸ Scope.isTidy_toScope _⟩
  case h_7 =>
    obtain rfl := Except.ok.inj hs
    exact ⟨hshown, htype, fun t ht => Option.some.inj ht ▸ Scope.isTidy_toScope _, hignored⟩
  case h_10 | h_12 | h_13 =>
    obtain rfl := Except.ok.inj hs
    split <;> exact ⟨hshown, htype, hincluded, hignored⟩
  case h_14 => cases hs
  all_goals
    obtain rfl := Except.ok.inj hs
    exact ⟨hshown, htype, hincluded, hignored⟩

/-- The items of a tag leave options givable. -/
theorem IsGivable.setAll {isFirst : Bool} {o o' : GqlPart} {s : List Char} (h : o.IsGivable)
    (hs : GqlPart.setAll isFirst o s = .ok o') : o'.IsGivable := by
  fun_induction GqlPart.setAll isFirst o s with
  | case1 =>
    obtain rfl := Except.ok.inj hs
    exact h
  | case2 _ _ _ _ _ ih => exact ih h hs
  | case3 => cases hs
  | case4 => cases hs
  | case5 _ _ _ _ _ _ _ _ _ _ _ hnext =>
    obtain rfl := Except.ok.inj hs
    exact h.set hnext
  | case6 _ _ _ _ _ _ _ _ _ _ _ hnext _ _ ih => exact ih (h.set hnext) hs
  | case7 => cases hs

/-- The options that a tag gives are those of a lone `-`, or they are givable and leave one of the
two directions open. -/
theorem isGivable_of_parse {written : String} {o : GqlPart} (h : parse written = .ok o) :
    o = { hidden := true } ∨ o.IsGivable ∧ (o.readOnly && o.writeOnly) = false := by
  unfold parse at h
  split at h
  · exact .inl (Except.ok.inj h).symm
  · split at h
    · cases h
    · rename_i p hp
      split at h
      · cases h
      · rename_i hopen
        obtain rfl := Except.ok.inj h
        exact .inr ⟨isGivable_empty.setAll hp, by simpa using hopen⟩

/-! ### Items -/

/-- The setting that an item is read as. -/
def settingOf (e : String × Value) : Setting :=
  ⟨String.ofList (normalKey e.1.toList), e.2, e.2.source e.1⟩

/-- The options after an item, if it is given. -/
def withItem (o : GqlPart) (e : Option (String × Value)) : Except TagFault GqlPart :=
  match e with
  | none => .ok o
  | some e => o.set (settingOf e)

theorem foldlM_given : ∀ (items : List (Option (String × Value))) (o : GqlPart),
    (items.filterMap id).foldlM (fun o e => o.set (settingOf e)) o = items.foldlM withItem o
  | [], _ => rfl
  | none :: items, o => foldlM_given items o
  | some e :: items, o => by
    show o.set (settingOf e) >>= _ = o.set (settingOf e) >>= _
    exact bind_congr fun next => foldlM_given items next

theorem settingOf_eq {key normal : String} (h : normalKey key.toList = normal.toList) (v : Value) :
    settingOf (key, v) = ⟨normal, v, v.source key⟩ := by
  rw [settingOf, h, String.ofList_toList]

theorem withItem_map {α : Type} {x : Option α} {key : String} {value : α → Value} {p : GqlPart}
    (normal : String) (next : Option α → GqlPart) (hkey : normalKey key.toList = normal.toList)
    (hnone : next none = p)
    (hset : ∀ a, x = some a → p.set ⟨normal, value a, (value a).source key⟩ = .ok (next (some a))) :
    withItem p (x.map fun a => (key, value a)) = .ok (next x) := by
  cases x with
  | none => exact congrArg Except.ok hnone.symm
  | some a => exact (congrArg p.set (settingOf_eq hkey (value a))).trans (hset a rfl)

theorem withItem_flag {isSet : Bool} {key : String} {p : GqlPart} (normal : String)
    (next : Bool → GqlPart) (hkey : normalKey key.toList = normal.toList) (hnone : next false = p)
    (hset : p.set ⟨normal, .flag, key.toList⟩ = .ok (next true)) :
    withItem p (flagItem key isSet) = .ok (next isSet) := by
  cases isSet with
  | false => exact congrArg Except.ok hnone.symm
  | true => exact (congrArg p.set (settingOf_eq hkey .flag)).trans hset

theorem set_type {p : GqlPart} {v : Value} {raw : List Char} {t : String}
    (hwritten : writtenType ⟨"type", v, raw⟩ = t) (h : Text.isBlankText t.toList = false) :
    p.set ⟨"type", v, raw⟩ = .ok { p with typeText := some t } := by
  have hset : p.set ⟨"type", v, raw⟩ =
      if Text.isBlankText (writtenType ⟨"type", v, raw⟩).toList then .error .blankType
      else .ok { p with typeText := some (writtenType ⟨"type", v, raw⟩) } := rfl
  rw [hset, hwritten, h]
  rfl

theorem set_deprecated {p : GqlPart} {v : Value} {raw : List Char} {d : Deprecation}
    (h : v.toDeprecation? = some d) :
    p.set ⟨"deprecated", v, raw⟩ = .ok { p with deprecated := some d } := by
  rw [← h]
  rfl

theorem set_include {p : GqlPart} {v : Value} {raw : List Char} {s : Scope} (h : v.toScope = s) :
    p.set ⟨"include", v, raw⟩ = .ok { p with includedIn := some s } := by
  rw [← h]
  rfl

theorem set_ignore {p : GqlPart} {v : Value} {raw : List Char} {s : Scope} (h : v.toScope = s) :
    p.set ⟨"ignore", v, raw⟩ = .ok { p with ignoredIn := some s } := by
  rw [← h]
  rfl

theorem foldlM_cons_ok {α β ε : Type} {f : β → α → Except ε β} {a : α} {l : List α} {b b' r : β}
    (h : f b a = .ok b') (hl : l.foldlM f b' = .ok r) : (a :: l).foldlM f b = .ok r := by
  rw [List.foldlM_cons, h]
  exact hl

/-- **The items of options give these options.** Every item changes its own option only. -/
theorem foldlM_items {o : GqlPart} (h : o.IsGivable) : o.items.foldlM withItem {} = .ok o := by
  let p₁ : GqlPart := { name := o.name }
  let p₂ := { p₁ with typeText := o.typeText }
  let p₃ := { p₂ with description := o.description }
  let p₄ := { p₃ with deprecated := o.deprecated }
  let p₅ := { p₄ with forceResolver := o.forceResolver }
  let p₆ := { p₅ with includedIn := o.includedIn }
  let p₇ := { p₆ with ignoredIn := o.ignoredIn }
  let p₈ := { p₇ with readOnly := o.readOnly }
  let p₉ := { p₈ with writeOnly := o.writeOnly }
  have name : withItem {} (o.name.map fun s => ("name", .text s)) = .ok p₁ :=
    withItem_map "name" (fun x => { name := x }) (by decide) rfl fun s _ => rfl
  have typeText : withItem p₁ (o.typeText.map fun s => ("type", .text s)) = .ok p₂ :=
    withItem_map "type" (fun x => { p₁ with typeText := x }) (by decide) rfl
      fun t ht => set_type rfl (h.typeText t ht)
  have description : withItem p₂ (o.description.map fun s => ("description", .text s)) = .ok p₃ :=
    withItem_map "description" (fun x => { p₂ with description := x })
      (by decide) rfl fun s _ => rfl
  have deprecated : withItem p₃ (o.deprecated.map fun d => ("deprecated", d.value)) = .ok p₄ :=
    withItem_map "deprecated" (fun x => { p₃ with deprecated := x })
      (by decide) rfl fun d _ => set_deprecated d.toDeprecation?_value
  have forceResolver : withItem p₄ (flagItem "forceResolver" o.forceResolver) = .ok p₅ :=
    withItem_flag "forceresolver" (fun x => { p₄ with forceResolver := x })
      (by decide) rfl rfl
  have includedIn : withItem p₅ (o.includedIn.map fun s => ("include", s.value)) = .ok p₆ :=
    withItem_map "include" (fun x => { p₅ with includedIn := x })
      (by decide) rfl fun s hs => set_include (h.includedIn s hs).toScope_value
  have ignoredIn : withItem p₆ (o.ignoredIn.map fun s => ("ignore", s.value)) = .ok p₇ :=
    withItem_map "ignore" (fun x => { p₆ with ignoredIn := x })
      (by decide) rfl fun s hs => set_ignore (h.ignoredIn s hs).toScope_value
  have readOnly : withItem p₇ (flagItem "ro" o.readOnly) = .ok p₈ :=
    withItem_flag "ro" (fun x => { p₇ with readOnly := x }) (by decide) rfl rfl
  have writeOnly : withItem p₈ (flagItem "wo" o.writeOnly) = .ok p₉ :=
    withItem_flag "wo" (fun x => { p₈ with writeOnly := x }) (by decide) rfl rfl
  have nullability : withItem p₉ (o.nullability.map fun n => (n.key, .flag)) = .ok o := by
    have hlast : { p₉ with nullability := o.nullability } = o := by
      obtain ⟨⟩ := o
      obtain rfl := h.shown
      rfl
    refine Eq.trans ?_ (congrArg Except.ok hlast)
    rcases o.nullability with _ | _ | _
    · rfl
    · have hkey : normalKey "optional".toList = "optional".toList := by decide
      exact (congrArg p₉.set (settingOf_eq hkey .flag)).trans rfl
    · have hkey : normalKey "required".toList = "required".toList := by decide
      exact (congrArg p₉.set (settingOf_eq hkey .flag)).trans rfl
  exact foldlM_cons_ok name <| foldlM_cons_ok typeText <| foldlM_cons_ok description <|
    foldlM_cons_ok deprecated <| foldlM_cons_ok forceResolver <| foldlM_cons_ok includedIn <|
    foldlM_cons_ok ignoredIn <| foldlM_cons_ok readOnly <| foldlM_cons_ok writeOnly <|
    foldlM_cons_ok nullability rfl

open Reader Directive

/-- An item that is read as it is meant: its key is made of the characters of keys, and if it stands
alone it is one of the flags. -/
structure IsItem (e : String × Value) : Prop where
  key : IsKey e.1.toList
  flag : e.2 = .flag → flagKeys.contains (String.ofList (normalKey e.1.toList)) = true

/-- The keys whose values are texts. -/
def textKeys : List String := ["name", "type", "description"]

/-- The keys that may stand alone in the canonical form. -/
def loneKeys : List String :=
  ["deprecated", "forceResolver", "include", "ignore", "ro", "wo", "optional", "required"]

theorem isWordChar_of_isIdentChar {c : Char} (h : isIdentChar c = true) : isWordChar c = true := by
  simp only [isIdentChar, Bool.or_eq_true, decide_eq_true_eq] at h
  rcases h with h | rfl
  · have hascii : c.toNat < 128 := by
      simp only [isAsciiAlphanumeric, isAsciiUpper, isAsciiLower, isAsciiDigit, Bool.or_eq_true,
        Bool.and_eq_true, decide_eq_true_eq] at h
      omega
    simp [isWordChar, isAlphanumeric_of_ascii hascii, h]
  · decide

theorem key_of_mem_items {o : GqlPart} {e : String × Value} (h : some e ∈ o.items) :
    (e.1 ∈ textKeys ∧ e.2 ≠ .flag) ∨ e.1 ∈ loneKeys := by
  simp only [items, flagItem, List.mem_cons, List.not_mem_nil, or_false, eq_comm (a := some e),
    Option.map_eq_some_iff, Option.ite_none_right_eq_some, Option.some.injEq] at h
  rcases h with ⟨_, -, rfl⟩ | ⟨_, -, rfl⟩ | ⟨_, -, rfl⟩ | ⟨_, -, rfl⟩ | ⟨-, rfl⟩ | ⟨_, -, rfl⟩ |
    ⟨_, -, rfl⟩ | ⟨-, rfl⟩ | ⟨-, rfl⟩ | ⟨n, -, rfl⟩
  case inr.inr.inr.inr.inr.inr.inr.inr.inr => cases n <;> simp [loneKeys, Nullability.key]
  all_goals simp [textKeys, loneKeys]

/-- **Every item of options is read as it is meant.** -/
theorem isItem_of_mem {o : GqlPart} {e : String × Value} (h : some e ∈ o.items) : IsItem e := by
  have hkeys : ∀ key ∈ textKeys ++ loneKeys,
      key.toList ≠ [] ∧ key.toList.all isIdentChar = true := by decide
  have hflags : ∀ key ∈ loneKeys,
      flagKeys.contains (String.ofList (normalKey key.toList)) = true := by decide
  have hkey : ∀ {key : String}, key ∈ textKeys ++ loneKeys → IsKey key.toList := fun hmem =>
    ⟨(hkeys _ hmem).1, List.all_eq_true.1 (hkeys _ hmem).2⟩
  rcases key_of_mem_items h with ⟨hmem, hv⟩ | hmem
  · exact ⟨hkey (List.mem_append_left _ hmem), fun hflag => absurd hflag hv⟩
  · exact ⟨hkey (List.mem_append_right _ hmem), fun _ => hflags _ hmem⟩

theorem takeWhile_word {key tail : List Char} (hkey : IsKey key)
    (htail : ∀ c, tail.head? = some c → isWordChar c = false) :
    (key ++ tail).takeWhile isWordChar = key ∧ (key ++ tail).dropWhile isWordChar = tail := by
  have hword : ∀ c ∈ key, isWordChar c = true := fun c hc => isWordChar_of_isIdentChar (hkey.2 c hc)
  rw [List.takeWhile_append_of_pos hword, List.dropWhile_append_of_pos hword]
  cases tail with
  | nil => simp
  | cons c s => simp [htail c rfl]

/-- A key with a colon behind it has the value that is read behind the colon. -/
theorem readSetting_colon {key s : List Char} (hkey : IsKey key) {r : Reading}
    (hread : readValue [','] s = .ok r) (isFirst : Bool) :
    readSetting isFirst (key ++ ':' :: s) =
      .ok (⟨String.ofList (normalKey key), r.value, r.raw⟩, r.left) := by
  have hstop : ∀ c, (':' :: s).head? = some c → isWordChar c = false :=
    fun c hc => Option.some.inj hc ▸ by decide
  obtain ⟨htake, hdrop⟩ := takeWhile_word hkey hstop
  have hcolon : skipBlank (':' :: s) = ':' :: s := skipBlank_of_head (by decide) s
  unfold readSetting
  dsimp only
  rw [htake, hdrop, hcolon]
  simp only [hread]

/-- **A printed item is read back.** -/
theorem readSetting_printEntry {e : String × Value} (he : IsItem e) (isFirst : Bool)
    {rest : List Char} (h : Follows [','] rest) :
    readSetting isFirst (Draft.printEntry e ++ rest) = .ok (settingOf e, rest) := by
  obtain ⟨hkey, hflag⟩ := he
  obtain ⟨key, v⟩ := e
  have hvalue : ∀ {v : Value}, v ≠ .flag →
      readSetting isFirst (key.toList ++ ':' :: (v.source key ++ rest)) =
        .ok (settingOf (key, v), rest) := fun hv =>
    readSetting_colon hkey (readValue_source h key hv) isFirst
  cases v with
  | flag =>
    obtain ⟨htake, hdrop⟩ := takeWhile_word hkey fun c hc => by
      have hstop : c = ',' := by simpa using (h c hc).1
      rw [hstop]
      decide
    have hne : key.toList.isEmpty = false := by simpa using hkey.1
    show readSetting isFirst (key.toList ++ rest) = _
    unfold readSetting
    dsimp only
    rw [htake, hdrop, h.skipBlank_eq]
    split
    · have hcolon : ':' = ',' := by simpa using (h ':' rfl).1
      exact absurd hcolon (by decide)
    · rw [hne, hflag rfl]
      rfl
  | text s =>
    have hread := hvalue (v := .text s) (by simp)
    simpa [Draft.printEntry] using hread
  | list items =>
    have hread := hvalue (v := .list items) (by simp)
    simpa [Draft.printEntry] using hread

theorem setAll_blank {s : List Char} (hs : skipBlank s = []) (isFirst : Bool) (o : GqlPart) :
    setAll isFirst o s = .ok o := by
  rw [setAll]
  split
  · rfl
  · rename_i heq
    rw [hs] at heq
    cases heq

/-- An item that is missing has no effect. -/
theorem setAll_comma {s rest : List Char} (hs : skipBlank s = ',' :: rest) (isFirst : Bool)
    (o : GqlPart) : setAll isFirst o s = setAll false o rest := by
  rw [setAll]
  split
  · rename_i heq
    rw [hs] at heq
    cases heq
  · rename_i c more heq
    rw [hs] at heq
    obtain ⟨rfl, rfl⟩ := List.cons.inj heq
    rw [if_pos rfl]

/-- An item that is read takes effect, and then what follows it is read. -/
theorem setAll_of_readSetting {s : List Char} {c : Char} {t : List Char}
    (hs : skipBlank s = c :: t) (hne : c ≠ ',') {isFirst : Bool} {setting : Setting}
    {left rest : List Char} (hread : readSetting isFirst (c :: t) = .ok (setting, left))
    (hleft : skipBlank left = rest) (h : Follows [','] rest) (o : GqlPart) :
    setAll isFirst o s = o.set setting >>= fun next => setAll false next rest.tail := by
  rw [setAll]
  split
  · rename_i heq
    rw [hs] at heq
    cases heq
  · rename_i c' more heq
    rw [hs] at heq
    obtain ⟨rfl, rfl⟩ := List.cons.inj heq
    rw [if_neg hne]
    split
    · rename_i fault hfault
      rw [hread] at hfault
      cases hfault
    · rename_i setting' left' hsetting
      rw [hread] at hsetting
      obtain ⟨rfl, rfl⟩ := Prod.mk.inj (Except.ok.inj hsetting)
      cases o.set setting with
      | error fault => rfl
      | ok next =>
        show _ = setAll false next rest.tail
        dsimp only
        split
        · rename_i hl
          rw [hleft] at hl
          rw [hl, List.tail_nil, setAll_blank rfl]
        · rename_i d more hl
          rw [hleft] at hl
          have hd : d = ',' := by simpa using (h d (by rw [hl]; rfl)).1
          rw [if_pos hd, hl, List.tail_cons]

/-- A printed item takes effect, and then what follows it is read. -/
theorem setAll_cons {e : String × Value} (he : IsItem e) (isFirst : Bool) (o : GqlPart)
    {rest : List Char} (h : Follows [','] rest) :
    setAll isFirst o (Draft.printEntry e ++ rest) =
      o.set (settingOf e) >>= fun next => setAll false next rest.tail := by
  have hread := readSetting_printEntry he isFirst h
  obtain ⟨k, s, hk, hcons⟩ :
      ∃ k s, isIdentChar k = true ∧ Draft.printEntry e ++ rest = k :: s := by
    obtain ⟨k, ks, hks⟩ := List.exists_cons_of_ne_nil he.key.1
    refine ⟨k, (Draft.printEntry e ++ rest).tail, he.key.2 k (hks ▸ List.mem_cons_self), ?_⟩
    unfold Draft.printEntry
    cases e.2 <;> simp [hks]
  rw [hcons] at hread ⊢
  exact setAll_of_readSetting (skipBlank_of_head (isBlank_of_isIdentChar hk) s)
    (ne_of_isIdentChar hk ',' (by decide)) hread h.skipBlank_eq h o

/-- **Printed items take effect in order.** -/
theorem setAll_items : ∀ (es : List (String × Value)), (∀ e ∈ es, IsItem e) →
    ∀ (isFirst : Bool) (o : GqlPart),
      setAll isFirst o (Text.joinWith [','] (es.map Draft.printEntry)) =
        es.foldlM (fun o e => o.set (settingOf e)) o
  | [], _, isFirst, o => by
    rw [setAll]
    rfl
  | [e], hes, isFirst, o => by
    have hone := setAll_cons (hes e List.mem_cons_self) isFirst o (follows_nil [','])
    rw [List.append_nil] at hone
    rw [List.foldlM_cons]
    refine hone.trans (bind_congr fun next => ?_)
    rw [List.tail_nil, setAll]
    rfl
  | e :: e' :: es, hes, isFirst, o => by
    obtain ⟨he, hes⟩ := List.forall_mem_cons.1 hes
    have hjoin : Text.joinWith [','] ((e :: e' :: es).map Draft.printEntry) =
        Draft.printEntry e ++ ',' :: Text.joinWith [','] ((e' :: es).map Draft.printEntry) := by
      simp [Text.joinWith]
    rw [hjoin, setAll_cons he isFirst o (follows_cons (by decide) (by decide) _), List.foldlM_cons]
    exact bind_congr fun next => setAll_items (e' :: es) hes false next

theorem trim_print_ne {es : List (String × Value)} (hes : ∀ e ∈ es, IsItem e) :
    Text.trim (Text.joinWith [','] (es.map Draft.printEntry)) ≠ ['-'] := by
  cases es with
  | nil => decide
  | cons e es =>
    have hkey := (hes e List.mem_cons_self).key
    obtain ⟨k, ks, hks⟩ := List.exists_cons_of_ne_nil hkey.1
    have hk : isIdentChar k = true := hkey.2 k (hks ▸ List.mem_cons_self)
    have hmem : k ∈ Text.joinWith [','] ((e :: es).map Draft.printEntry) := by
      rw [List.map_cons, Text.joinWith_cons]
      refine List.mem_append_left _ ?_
      unfold Draft.printEntry
      cases e.2 <;> simp [hks]
    intro htrim
    have hdash := Text.mem_trim (isBlank_of_isIdentChar hk) hmem
    rw [htrim, List.mem_singleton] at hdash
    exact ne_of_isIdentChar hk '-' (by decide) hdash

/-- **Options that a tag gives are given by their canonical form.** -/
theorem parse_print {written : String} {o : GqlPart} (h : parse written = .ok o) :
    parse (String.ofList o.print) = .ok o := by
  rcases isGivable_of_parse h with rfl | ⟨hgivable, hopen⟩
  · decide
  · have hitems : ∀ e ∈ o.items.filterMap id, IsItem e := fun e he => by
      obtain ⟨x, hx, rfl⟩ := List.mem_filterMap.1 he
      exact isItem_of_mem hx
    have hset : setAll true {} (Text.joinWith [','] ((o.items.filterMap id).map Draft.printEntry)) =
        .ok o := by
      rw [setAll_items _ hitems, foldlM_given, foldlM_items hgivable]
    unfold parse print
    rw [hgivable.shown, String.toList_ofList]
    simp only [Bool.false_eq_true, if_false]
    rw [if_neg (trim_print_ne hitems), hset]
    simp only [hopen, Bool.false_eq_true, if_false]

end GqlPart

namespace TagEntries

/-! ### Tags -/

open Printer

/-- **A value ends at its closing quote**, and is what was printed. -/
theorem readEscaped_escape (s rest : List Char) :
    readEscaped (escape s ++ '"' :: rest) = some (s, rest) := by
  induction s with
  | nil => rfl
  | cons c s ih =>
    rw [escape_cons]
    by_cases hq : c = '"'
    · subst hq
      simp [readEscaped, ih]
    · by_cases hb : c = '\\'
      · subst hb
        simp [readEscaped, ih]
      · simp [readEscaped, hq, hb, ih]

theorem isKeyChar_iff {c : Char} : isKeyChar c = true ↔ c ≠ ':' ∧ c ≠ '"' ∧ ' ' < c := by
  have hspace : ' ' < c ↔ 32 < c.toNat := Iff.rfl
  simp [isKeyChar, hspace, and_assoc]

/-- Spaces in front of an entry do not count; the entry is read, and then what follows it. -/
theorem splitFrom_cons {e : String × String} (hkey : IsKey e.1) {spaces : List Char}
    (hspaces : ∀ c ∈ spaces, c = ' ') (tag : String) (rest : List Char) :
    splitFrom tag (spaces ++ (printEntry e ++ rest)) = (splitFrom tag rest).map (e :: ·) := by
  obtain ⟨key, value⟩ := e
  obtain ⟨hne, hchars⟩ := hkey
  have hall : ∀ c ∈ key.toList, isKeyChar c = true := fun c hc => isKeyChar_iff.2 (hchars c hc)
  obtain ⟨k, ks, hks⟩ : ∃ k ks, key.toList = k :: ks :=
    List.exists_cons_of_ne_nil (by simpa using hne)
  have hk : k ≠ ' ' := by
    rintro rfl
    exact absurd (hchars ' ' (hks ▸ List.mem_cons_self)).2.2 (by decide)
  let tail := ':' :: '"' :: (escape value.toList ++ '"' :: rest)
  have htext : printEntry (key, value) ++ rest = key.toList ++ tail := by
    simp [printEntry, quoted, tail]
  have htake : (key.toList ++ tail).takeWhile isKeyChar = key.toList := by
    rw [List.takeWhile_append_of_pos hall]
    exact List.append_nil _
  have hdrop : (key.toList ++ tail).dropWhile isKeyChar = tail := by
    rw [List.dropWhile_append_of_pos hall]
    rfl
  have hopen : (spaces ++ (key.toList ++ tail)).dropWhile (· = ' ') = key.toList ++ tail := by
    rw [List.dropWhile_append_of_pos (by simpa using hspaces), hks]
    simp [hk]
  rw [htext, splitFrom]
  split
  · rename_i heq
    rw [hopen, hks] at heq
    cases heq
  · rename_i c more heq
    rw [hopen] at heq
    rw [heq] at htake hdrop
    simp only [htake]
    rw [if_neg (by simpa using hne)]
    split
    · rename_i quoted hq
      rw [hdrop] at hq
      obtain ⟨-, hq⟩ := List.cons.inj hq
      obtain ⟨-, rfl⟩ := List.cons.inj hq
      split
      · rename_i hv
        rw [readEscaped_escape] at hv
        cases hv
      · rename_i v left hv
        rw [readEscaped_escape] at hv
        obtain ⟨rfl, rfl⟩ := Prod.mk.inj (Option.some.inj hv)
        rw [String.ofList_toList, String.ofList_toList]
    · rename_i hno
      exact absurd hdrop (hno _)

/-- **A tag holds the entries that it was printed from.** -/
theorem split_print {entries : List (String × String)} (h : ∀ e ∈ entries, IsKey e.1) :
    split (String.ofList (print entries)) = .ok entries := by
  have hfrom : ∀ (tag : String) (entries : List (String × String)), (∀ e ∈ entries, IsKey e.1) →
      ∀ spaces : List Char, (∀ c ∈ spaces, c = ' ') →
        splitFrom tag (spaces ++ print entries) = .ok entries := by
    intro tag entries
    induction entries with
    | nil =>
      intro _ spaces hspaces
      have hdrop : (spaces ++ print []).dropWhile (· = ' ') = [] := by
        simpa [print, Text.joinWith] using hspaces
      rw [splitFrom]
      split
      · rfl
      · rename_i heq
        rw [hdrop] at heq
        cases heq
    | cons e entries ih =>
      intro h spaces hspaces
      obtain ⟨he, h⟩ := List.forall_mem_cons.1 h
      -- what follows an entry is nothing, or a space and the other entries
      obtain ⟨between, hbetween, hprint⟩ : ∃ between : List Char, (∀ c ∈ between, c = ' ') ∧
          print (e :: entries) = printEntry e ++ (between ++ print entries) := by
        cases entries with
        | nil => exact ⟨[], by simp, by simp [print, Text.joinWith]⟩
        | cons e' entries => exact ⟨[' '], by simp, by simp [print, Text.joinWith]⟩
      rw [hprint, splitFrom_cons he hspaces, ih h between hbetween]
      rfl
  rw [split, String.toList_ofList]
  exact hfrom _ entries h [] (by simp)

end TagEntries

namespace FieldTag

/-- Entries of other keys than `gql` are taken whatever their values are, and leave the options as
they are. -/
theorem foldlM_withEntry_other : ∀ {entries : List (String × String)},
    (∀ e ∈ entries, e.1 ≠ "gql") → ∀ json : JsonPart, ∃ json', ∀ o : GqlPart,
      entries.foldlM withEntry ⟨json, o⟩ = .ok ⟨json', o⟩
  | [], _, json => ⟨json, fun _ => rfl⟩
  | e :: entries, h, json => by
    obtain ⟨he, h⟩ := List.forall_mem_cons.1 h
    obtain ⟨next, hnext⟩ : ∃ next, ∀ o : GqlPart, withEntry ⟨json, o⟩ e = .ok ⟨next, o⟩ := by
      by_cases hjson : e.1 = "json"
      · refine ⟨JsonPart.parse e.2, fun o => ?_⟩
        unfold withEntry
        rw [hjson]
        rfl
      · refine ⟨json, fun o => ?_⟩
        unfold withEntry
        split
        · rename_i heq
          exact absurd heq hjson
        · rename_i heq
          exact absurd heq he
        · rfl
    obtain ⟨json', hjson'⟩ := foldlM_withEntry_other h next
    refine ⟨json', fun o => ?_⟩
    rw [List.foldlM_cons, hnext]
    exact hjson' o

theorem withEntry_gql {tag : FieldTag} {text : String} {o : GqlPart}
    (h : GqlPart.parse text = .ok o) :
    withEntry tag ("gql", text) = .ok { tag with options := o } := by
  unfold withEntry
  dsimp only
  rw [h]
  rfl

theorem parse_printEntries {entries : List (String × String)}
    (h : ∀ e ∈ entries, TagEntries.IsKey e.1) :
    parse (String.ofList (TagEntries.print entries)) = entries.foldlM withEntry {} := by
  rw [parse, TagEntries.split_print h]

/-- **Printed tags are read back.** Options that a tag can give are given by their canonical form;
entries with keys, and whatever values, are the entries of the tag that is printed from them; and
where the canonical form of options is the only `gql` entry of a tag, the tag has these options, and
is otherwise as without the entry. -/
theorem parse_printed :
    (∀ (written : String) (o : GqlPart), GqlPart.parse written = .ok o →
      GqlPart.parse (String.ofList o.print) = .ok o) ∧
    (∀ entries : List (String × String), (∀ e ∈ entries, TagEntries.IsKey e.1) →
      TagEntries.split (String.ofList (TagEntries.print entries)) = .ok entries) ∧
    ∀ (written : String) (o : GqlPart) (before after : List (String × String)),
      GqlPart.parse written = .ok o →
      (∀ e ∈ before ++ after, TagEntries.IsKey e.1 ∧ e.1 ≠ "gql") →
      ∃ json, parse (String.ofList (TagEntries.print (before ++ after))) = .ok ⟨json, {}⟩ ∧
        parse (String.ofList (TagEntries.print
          (before ++ ("gql", String.ofList o.print) :: after))) = .ok ⟨json, o⟩ := by
  refine ⟨fun _ _ => GqlPart.parse_print, fun _ => TagEntries.split_print, ?_⟩
  intro written o before after hwritten hentries
  obtain ⟨hbefore, hafter⟩ := List.forall_mem_append.1 hentries
  obtain ⟨between, hbetween⟩ := foldlM_withEntry_other (fun e he => (hbefore e he).2) {}
  obtain ⟨json, hjson⟩ := foldlM_withEntry_other (fun e he => (hafter e he).2) between
  have hgql : withEntry ⟨between, {}⟩ ("gql", String.ofList o.print) = .ok ⟨between, o⟩ :=
    withEntry_gql (GqlPart.parse_print hwritten)
  refine ⟨json, ?_, ?_⟩
  · rw [parse_printEntries fun e he => (hentries e he).1, List.foldlM_append]
    exact (congrArg (· >>= _) (hbetween {})).trans (hjson {})
  · have hkey : TagEntries.IsKey "gql" := by decide
    have hkeys : ∀ e ∈ before ++ ("gql", String.ofList o.print) :: after,
        TagEntries.IsKey e.1 := by
      refine List.forall_mem_append.2 ⟨fun e he => (hbefore e he).1, ?_⟩
      exact List.forall_mem_cons.2 ⟨hkey, fun e he => (hafter e he).1⟩
    rw [parse_printEntries hkeys, List.foldlM_append]
    refine (congrArg (· >>= _) (hbetween {})).trans ?_
    show List.foldlM withEntry ⟨between, {}⟩ _ = _
    rw [List.foldlM_cons, hgql]
    exact hjson o

/-- Options with texts that look like the end of an item, of a list and of an entry. -/
def remarkOptions : GqlPart where
  name := some "a\",ro"
  typeText := some " [Remark!]'"
  deprecated := some ⟨some "false"⟩
  includedIn := some (.only ["A,B", "]"])
  ignoredIn := some .all
  readOnly := true
  nullability := some .optional

/-- A way to ask for these options that is not the canonical one. -/
def remarkText : String :=
  "'a\",ro', optional ,type:\" [Remark!]'\",include:['A,B',\"]\"],deprecated:[false],omit,r_o:yes"

/-- Entries whose values look like further entries. -/
def remarkEntries : List (String × String) := [("json", "a,\"b"), ("db", "\\\" gql:\"-\"")]

theorem remark_printed :
    GqlPart.parse remarkText = .ok remarkOptions ∧
      (∀ e ∈ remarkEntries ++ [], TagEntries.IsKey e.1 ∧ e.1 ≠ "gql") ∧
      GqlPart.parse (String.ofList remarkOptions.print) = .ok remarkOptions ∧
      TagEntries.split (String.ofList (TagEntries.print remarkEntries)) = .ok remarkEntries ∧
      ∃ json, parse (String.ofList (TagEntries.print (remarkEntries ++ []))) = .ok ⟨json, {}⟩ ∧
        parse (String.ofList (TagEntries.print
          (remarkEntries ++ [("gql", String.ofList remarkOptions.print)]))) =
            .ok ⟨json, remarkOptions⟩ := by
  have hoptions : GqlPart.parse remarkText = .ok remarkOptions :=
    eq_ok_of_toOption (by decide +kernel)
  have hentries : ∀ e ∈ remarkEntries ++ [], TagEntries.IsKey e.1 ∧ e.1 ≠ "gql" := by decide
  exact ⟨hoptions, hentries, parse_printed.1 _ _ hoptions,
    parse_printed.2.1 _ fun e he => (hentries e he).1,
    parse_printed.2.2 _ _ _ _ hoptions hentries⟩

example : String.ofList remarkOptions.print =
    "name:\"a\\\",ro\",type:\" [Remark!]'\"," ++
      "deprecated:[\"false\"],include:[\"A,B\",\"]\"],ignore,ro,optional" := by
  decide

end FieldTag

end GoSchema
