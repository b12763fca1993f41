/-
# Printed directives are read back

What is printed is read as it was meant: a quoted text ends at its closing quote, whatever is in it,
so no comma, bracket, parenthesis or `@` in a value ends the value, the list, the directive or the
scan. A page of prose with directives in their canonical form gives these directives, each at its
place, and the prose around them.

Key definitions: `Reader.Follows`, `Reader.isOrdinary`.
Key theorems: `readQuoted_escape`, `readList_of_readItem`, `readList_quoted`, `readValue_source`,
`readParam_colon`, `readParam_printEntry`, `readParams_of_readParam`, `readParams_printEntries`,
`bindAll_written`, `scan_prose`, `scan_directive`, `scan_parts`, `parse_page`.
-/
import Mathlib.Data.List.Forall2
import GoSchema.Directive.Doc
import GoSchema.Directive.Printer

namespace GoSchema

open Unicode

namespace Text

theorem trim_eq_self {s : List Char} (hhead : ∀ c, s.head? = some c → isBlank c = false)
    (hlast : ∀ c, s.getLast? = some c → isBlank c = false) : trim s = s := by
  have hstart : trimStart s = s := by
    cases s with
    | nil => rfl
    | cons c s => simp [trimStart, hhead c rfl]
  have hend : (s.reverse).dropWhile isBlank = s.reverse := by
    cases hr : s.reverse with
    | nil => rfl
    | cons c t =>
      have hc : s.getLast? = some c := by rw [← List.head?_reverse, hr]; rfl
      simp [hlast c hc]
  rw [trim, hstart, trimEnd, hend, List.reverse_reverse]

end Text

namespace Reader

open Printer

/-! ### Values and keys -/

/-- **A quoted text ends at its closing quote.** -/
theorem readQuoted_escape (s rest : List Char) :
    readQuoted '"' (escape s ++ '"' :: rest) = some (s, rest) := by
  induction s with
  | nil => rfl
  | cons c s ih =>
    rw [escape_cons]
    by_cases hq : c = '"'
    · subst hq
      simp [readQuoted, ih, unescape]
    · by_cases hb : c = '\\'
      · subst hb
        simp [readQuoted, ih, unescape]
      · simp [readQuoted, hq, hb, ih]

theorem skipBlank_of_head {c : Char} (hc : isBlank c = false) (s : List Char) :
    skipBlank (c :: s) = c :: s := by
  simp [skipBlank, hc]

theorem readItem_quoted (s : String) (rest : List Char) :
    readItem (quoted s ++ rest) = .ok ([s], rest) := by
  have hread : readQuoted '"' (escape s.toList ++ '"' :: rest) = some (s.toList, rest) :=
    readQuoted_escape _ _
  simp [readItem, quoted, isQuote, hread]

/-- An item of a list is read up to what ends it, and then the others are read. -/
theorem readList_of_readItem {s : List Char} {c : Char} {t : List Char}
    (hopen : skipBlank s = c :: t) (hc : c ≠ ']') {items : List String} {left : List Char}
    (hitem : readItem (c :: t) = .ok (items, left)) {d : Char} {more : List Char}
    (hleft : skipBlank left = d :: more) : readList s =
      if d = ',' then (readList more).map fun (others, left) => (items ++ others, left)
      else if d = ']' then .ok (items, more) else .error (.expectedInList d) := by
  rw [readList]
  split
  · rename_i heq
    rw [hopen] at heq
    cases heq
  · rename_i c' t' heq
    rw [hopen] at heq
    obtain ⟨rfl, rfl⟩ := List.cons.inj heq
    rw [if_neg hc]
    split
    · rename_i e he
      rw [hitem] at he
      cases he
    · rename_i items' left' he
      rw [hitem] at he
      obtain ⟨rfl, rfl⟩ := Prod.mk.inj (Except.ok.inj he)
      split
      · rename_i hl
        rw [hleft] at hl
        cases hl
      · rename_i d' more' hl
        rw [hleft] at hl
        obtain ⟨rfl, rfl⟩ := List.cons.inj hl
        rfl

theorem readList_quoted_cons (s : String) {d : Char} (hd : isBlank d = false)
    (more : List Char) : readList (quoted s ++ d :: more) =
      if d = ',' then (readList more).map fun (others, left) => (s :: others, left)
      else if d = ']' then .ok ([s], more) else .error (.expectedInList d) := by
  have hquote : quoted s ++ d :: more = '"' :: (escape s.toList ++ '"' :: d :: more) := by
    simp [quoted]
  have hopen : skipBlank (quoted s ++ d :: more) = '"' :: (escape s.toList ++ '"' :: d :: more) := by
    rw [hquote]
    exact skipBlank_of_head (by decide) _
  have hitem : readItem ('"' :: (escape s.toList ++ '"' :: d :: more)) = .ok ([s], d :: more) := by
    rw [← hquote]
    exact readItem_quoted s _
  exact readList_of_readItem hopen (by decide) hitem (skipBlank_of_head hd more)

/-- **A list of quoted texts** ends at its closing bracket. -/
theorem readList_quoted : ∀ (items : List String) (rest : List Char),
    readList (Text.joinWith [','] (items.map quoted) ++ ']' :: rest) = .ok (items, rest)
  | [], rest => by
    rw [readList]
    rfl
  | [s], rest => by
    show readList (quoted s ++ ']' :: rest) = _
    rw [readList_quoted_cons s (by decide)]
    rfl
  | s :: t :: items, rest => by
    have hjoin : Text.joinWith [','] ((s :: t :: items).map quoted) ++ ']' :: rest =
        quoted s ++ ',' :: (Text.joinWith [','] ((t :: items).map quoted) ++ ']' :: rest) := by
      simp [Text.joinWith]
    rw [hjoin, readList_quoted_cons s (by decide), readList_quoted (t :: items) rest]
    rfl

/-- What may follow a value: nothing, or a character that is not blank and ends it. -/
def Follows (stops rest : List Char) : Prop :=
  ∀ c, rest.head? = some c → stops.contains c = true ∧ isBlank c = false

theorem follows_nil (stops : List Char) : Follows stops [] := by
  rintro c hc
  cases hc

theorem follows_cons {stops : List Char} {c : Char} (hstop : stops.contains c = true)
    (hc : isBlank c = false) (s : List Char) : Follows stops (c :: s) := by
  rintro d hd
  obtain rfl := Option.some.inj hd
  exact ⟨hstop, hc⟩

/-- Whether a character in an unquoted value is no more than that: it does not end the value, and is
no bracket and no quote. -/
def isOrdinary (stops : List Char) (c : Char) : Bool :=
  !stops.contains c && !isQuote c && c ≠ '(' && c ≠ ')' && c ≠ '[' && c ≠ ']'

namespace Follows

variable {stops rest : List Char} (h : Follows stops rest)
include h

theorem skipBlank_eq : skipBlank rest = rest := by
  cases rest with
  | nil => rfl
  | cons c s => exact skipBlank_of_head (h c rfl).2 s

theorem skipTrailing_eq : skipTrailing stops rest = .ok rest := by
  cases rest with
  | nil => rfl
  | cons c s =>
    have hstop : stops.contains c = true := (h c rfl).1
    rw [skipTrailing, if_pos hstop]

theorem readBare_eq {s : List Char} (hs : ∀ c ∈ s, isOrdinary stops c = true) :
    readBare stops 0 (s ++ rest) = .ok (s, rest) := by
  induction s with
  | nil =>
    cases rest with
    | nil => rfl
    | cons c s =>
      have hstop : stops.contains c = true := (h c rfl).1
      rw [List.nil_append, readBare, hstop]
      rfl
  | cons c s ih =>
    obtain ⟨hc, hs⟩ := List.forall_mem_cons.1 hs
    simp only [isOrdinary, Bool.and_eq_true, Bool.not_eq_true', decide_eq_true_eq] at hc
    obtain ⟨⟨⟨⟨⟨hstop, hquote⟩, hopen⟩, hclose⟩, hopen'⟩, hclose'⟩ := hc
    have hmem : c ∉ stops := by simpa using hstop
    simp [readBare, hmem, hquote, hopen, hclose, hopen', hclose', ih hs, Except.map]

theorem readValue_eq {v : Value} {source : List Char}
    (hhead : ∃ c, source.head? = some c ∧ isBlank c = false)
    (hlast : ∀ c, source.getLast? = some c → isBlank c = false)
    (hread : readValueAt stops (source ++ rest) = .ok (v, rest)) :
    readValue stops (source ++ rest) = .ok ⟨v, source, rest⟩ := by
  obtain ⟨c, hc, hblank⟩ := hhead
  obtain ⟨s, rfl⟩ : ∃ s, source = c :: s := by
    cases source with
    | nil => cases hc
    | cons d s => exact ⟨s, by rw [Option.some.inj hc]⟩
  have hopen : skipBlank (c :: s ++ rest) = c :: s ++ rest := skipBlank_of_head hblank _
  have htrim : Text.trim (c :: s) = c :: s :=
    Text.trim_eq_self (fun d hd => Option.some.inj hd ▸ hblank) hlast
  simp only [readValue]
  rw [hopen, hread]
  simp only [Except.map, consumed_append, htrim, h.skipBlank_eq]

end Follows

theorem getLast?_quoted (s : String) : (quoted s).getLast? = some '"' :=
  List.getLast?_concat

/-- **A printed value is read back.** -/
theorem readValue_source {stops rest : List Char} (h : Follows stops rest) (key : String)
    {v : Value} (hv : v ≠ .flag) :
    readValue stops (v.source key ++ rest) = .ok ⟨v, v.source key, rest⟩ := by
  cases v with
  | flag => exact absurd rfl hv
  | text s =>
    refine h.readValue_eq ⟨'"', rfl, by decide⟩ (fun c hc => ?_) ?_
    · obtain rfl := Option.some.inj ((getLast?_quoted s).symm.trans hc)
      decide
    · have hread : readQuoted '"' (escape s.toList ++ '"' :: rest) = some (s.toList, rest) :=
        readQuoted_escape _ _
      simp [Value.source, quoted, readValueAt, isQuote, hread]
  | list items =>
    refine h.readValue_eq ⟨'[', rfl, by decide⟩ (fun c hc => ?_) ?_
    · have hlast : (Value.source key (.list items)).getLast? = some ']' :=
        List.getLast?_concat
      obtain rfl := Option.some.inj (hlast.symm.trans hc)
      decide
    · have hread := readList_quoted items rest
      simp [Value.source, readValueAt, isQuote, hread, h.skipTrailing_eq, Except.map]

end Reader

namespace Directive

open Reader

/-- A text is a key if it is made of the characters of keys. -/
def IsKey (key : List Char) : Prop := key ≠ [] ∧ ∀ c ∈ key, isIdentChar c = true

/-- **Every key of a table** is made of the characters of keys, and is its own normal form. -/
theorem Kind.isKey_of_mem {kind : Directive.Kind} {key : String} (h : key ∈ kind.keys) :
    IsKey key.toList ∧ normalKey key.toList = key.toList := by
  have hall : ∀ key ∈ kind.keys, (key.toList ≠ [] ∧ key.toList.all isIdentChar = true) ∧
      normalKey key.toList = key.toList := by
    cases kind <;> decide
  obtain ⟨⟨hne, hchars⟩, hnormal⟩ := hall key h
  exact ⟨⟨hne, List.all_eq_true.1 hchars⟩, hnormal⟩

theorem ne_of_isIdentChar {c : Char} (h : isIdentChar c = true) (d : Char)
    (hd : isIdentChar d = false) : c ≠ d := by
  rintro rfl
  rw [h] at hd
  cases hd

theorem isBlank_of_isIdentChar {c : Char} (h : isIdentChar c = true) : isBlank c = false := by
  simp only [isIdentChar, isAsciiAlphanumeric, isAsciiUpper, isAsciiLower, isAsciiDigit,
    Bool.or_eq_true, Bool.and_eq_true, decide_eq_true_eq] at h
  rcases h with h | rfl
  · rw [Bool.eq_false_iff]
    intro hb
    simp [isBlank, inSpans, blankSpans] at hb
    omega
  · decide

theorem isQuote_of_isIdentChar {c : Char} (h : isIdentChar c = true) : isQuote c = false := by
  simp [isQuote, ne_of_isIdentChar h '"' (by decide), ne_of_isIdentChar h '\'' (by decide)]

theorem takeWhile_name {name tail : List Char} (hname : ∀ c ∈ name, isIdentChar c = true)
    (htail : ∀ c, tail.head? = some c → isIdentChar c = false) :
    (name ++ tail).takeWhile isIdentChar = name ∧ (name ++ tail).dropWhile isIdentChar = tail := by
  rw [List.takeWhile_append_of_pos hname, List.dropWhile_append_of_pos hname]
  cases tail with
  | nil => simp
  | cons c s => simp [htail c rfl]

theorem head_of_follows {rest : List Char} (h : Follows [',', ')'] rest) {c : Char}
    (hc : rest.head? = some c) : isIdentChar c = false ∧ c ≠ ':' := by
  have hstop : c = ',' ∨ c = ')' := by simpa using (h c hc).1
  rcases hstop with rfl | rfl <;> decide

theorem readBare_key {key rest : List Char} (hkey : ∀ c ∈ key, isIdentChar c = true)
    (h : Follows [',', ')'] rest) : readBare [',', ')'] 0 (key ++ rest) = .ok (key, rest) := by
  refine h.readBare_eq fun c hc => ?_
  have hne := ne_of_isIdentChar (hkey c hc)
  simp [isOrdinary, isQuote_of_isIdentChar (hkey c hc), hne ',' (by decide), hne '(' (by decide),
    hne '[' (by decide), hne ')' (by decide), hne ']' (by decide)]

theorem readValue_key {key rest : List Char} (hkey : IsKey key) (h : Follows [',', ')'] rest) :
    readValue [',', ')'] (key ++ rest) = .ok ⟨.text (String.ofList key), key, rest⟩ := by
  obtain ⟨hne, hchars⟩ := hkey
  have hblank : ∀ c ∈ key, isBlank c = false := fun c hc => isBlank_of_isIdentChar (hchars c hc)
  have hlast : ∀ c, key.getLast? = some c → isBlank c = false :=
    fun c hc => hblank c (List.mem_of_getLast? hc)
  have htrim : Text.trim key = key :=
    Text.trim_eq_self (fun c hc => hblank c (List.mem_of_mem_head? hc)) hlast
  obtain ⟨k, ks, rfl⟩ := List.exists_cons_of_ne_nil hne
  have hk : isIdentChar k = true := hchars k List.mem_cons_self
  refine h.readValue_eq ⟨k, rfl, isBlank_of_isIdentChar hk⟩ hlast ?_
  have hbare := readBare_key hchars h
  rw [List.cons_append] at hbare ⊢
  simp [readValueAt, isQuote_of_isIdentChar hk, ne_of_isIdentChar hk '[' (by decide), hbare, htrim,
    Except.map]

/-! ### Parameters -/

namespace Draft

/-- An entry as it is read, before it is bound: a flag is read as a value without a key. -/
def written (e : String × Value) : WrittenParam :=
  match e.2 with
  | .flag => ⟨none, .text e.1, e.1.toList⟩
  | v => ⟨some e.1.toList, v, v.source e.1⟩

theorem readParam_flag {key rest : List Char} (hkey : IsKey key) (h : Follows [',', ')'] rest) :
    readParam (key ++ rest) = .ok (⟨none, .text (String.ofList key), key⟩, rest) := by
  obtain ⟨htake, hdrop⟩ := takeWhile_name hkey.2 fun c hc => (head_of_follows h hc).1
  have hread := readValue_key hkey h
  unfold readParam
  dsimp only
  rw [htake, hdrop, h.skipBlank_eq, hread]
  split
  · exact absurd rfl (head_of_follows h rfl).2
  · rfl

/-- A key with a colon behind it has the value that is read behind the colon. -/
theorem readParam_colon {key s : List Char} (hkey : IsKey key) {r : Reading}
    (hread : readValue [',', ')'] s = .ok r) :
    readParam (key ++ ':' :: s) = .ok (⟨some key, r.value, r.raw⟩, r.left) := by
  have hstop : ∀ c, (':' :: s).head? = some c → isIdentChar c = false :=
    fun c hc => Option.some.inj hc ▸ by decide
  obtain ⟨htake, hdrop⟩ := takeWhile_name hkey.2 hstop
  have hcolon : skipBlank (':' :: s) = ':' :: s := skipBlank_of_head (by decide) s
  unfold readParam
  dsimp only
  rw [htake, hdrop, hcolon]
  obtain ⟨k, ks, hcons⟩ := List.exists_cons_of_ne_nil hkey.1
  rw [hcons]
  simp only [hread, Except.map]

theorem readParam_value {key : String} {v : Value} (hkey : IsKey key.toList) (hv : v ≠ .flag)
    {rest : List Char} (h : Follows [',', ')'] rest) :
    readParam (key.toList ++ ':' :: (v.source key ++ rest)) =
      .ok (⟨some key.toList, v, v.source key⟩, rest) :=
  readParam_colon hkey (readValue_source h key hv)

/-- **A printed parameter is read back.** -/
theorem readParam_printEntry {e : String × Value} (hkey : IsKey e.1.toList) {rest : List Char}
    (h : Follows [',', ')'] rest) : readParam (printEntry e ++ rest) = .ok (written e, rest) := by
  obtain ⟨key, v⟩ := e
  cases v with
  | flag =>
    have hread := readParam_flag hkey h
    rwa [String.ofList_toList] at hread
  | text s =>
    have hread := readParam_value (v := .text s) hkey nofun h
    simpa [printEntry, written] using hread
  | list items =>
    have hread := readParam_value (v := .list items) hkey nofun h
    simpa [printEntry, written] using hread

/-- A parameter is read up to what ends it, and then the others are read. -/
theorem readParams_of_readParam {c : Char} {s : List Char} (hc : isBlank c = false) (hne : c ≠ ')')
    {p : WrittenParam} {d : Char} {more : List Char} (hd : Follows [',', ')'] [d])
    (h : readParam (c :: s) = .ok (p, d :: more)) : readParams (c :: s) =
      if d = ',' then (readParams more).map fun (others, left) => (p :: others, left)
      else .ok ([p], more) := by
  have hfollows : Follows [',', ')'] (d :: more) := hd
  rw [readParams]
  split
  · rename_i heq
    rw [skipBlank_of_head hc] at heq
    cases heq
  · rename_i c' rest heq
    rw [skipBlank_of_head hc] at heq
    obtain ⟨rfl, rfl⟩ := List.cons.inj heq
    rw [if_neg hne]
    split
    · rename_i fault hp
      rw [h] at hp
      cases hp
    · rename_i param left hp
      rw [h] at hp
      obtain ⟨rfl, rfl⟩ := Prod.mk.inj (Except.ok.inj hp)
      split
      · rename_i hl
        rw [hfollows.skipBlank_eq] at hl
        cases hl
      · rename_i d' more' hl
        rw [hfollows.skipBlank_eq] at hl
        obtain ⟨rfl, rfl⟩ := List.cons.inj hl
        have hstop : d = ',' ∨ d = ')' := by simpa using (hd d rfl).1
        rcases hstop with rfl | rfl <;> rfl

/-- A printed parameter is read up to what follows it. -/
theorem readParams_cons {e : String × Value} (hkey : IsKey e.1.toList) {d : Char}
    (hd : Follows [',', ')'] [d]) (more : List Char) :
    readParams (printEntry e ++ d :: more) =
      if d = ',' then (readParams more).map fun (others, left) => (written e :: others, left)
      else .ok ([written e], more) := by
  have hfollows : Follows [',', ')'] (d :: more) := hd
  have hparam := readParam_printEntry hkey hfollows
  obtain ⟨k, s, hk, hcons⟩ : ∃ k s, isIdentChar k = true ∧ printEntry e ++ d :: more = k :: s := by
    obtain ⟨k, ks, hks⟩ := List.exists_cons_of_ne_nil hkey.1
    refine ⟨k, ?_, hkey.2 k (hks ▸ List.mem_cons_self), ?_⟩
    · exact (printEntry e ++ d :: more).tail
    · unfold printEntry
      cases e.2 <;> simp [hks]
  rw [hcons] at hparam ⊢
  exact readParams_of_readParam (isBlank_of_isIdentChar hk)
    (ne_of_isIdentChar hk ')' (by decide)) hd hparam

/-- **Printed parameters are read back**, up to the closing parenthesis. -/
theorem readParams_printEntries : ∀ {entries : List (String × Value)},
    (∀ e ∈ entries, IsKey e.1.toList) → ∀ rest : List Char,
    readParams (Text.joinWith [','] (entries.map printEntry) ++ ')' :: rest) =
      .ok (entries.map written, rest)
  | [], _, rest => by
    rw [readParams]
    rfl
  | [e], hkeys, rest => by
    have hkey : IsKey e.1.toList := hkeys e List.mem_cons_self
    show readParams (printEntry e ++ ')' :: rest) = _
    rw [readParams_cons hkey (follows_cons rfl rfl [])]
    rfl
  | e :: f :: entries, hkeys, rest => by
    obtain ⟨hkey, hmore⟩ := List.forall_mem_cons.1 hkeys
    have hjoin : Text.joinWith [','] ((e :: f :: entries).map printEntry) ++ ')' :: rest =
        printEntry e ++ ',' :: (Text.joinWith [','] ((f :: entries).map printEntry) ++
          ')' :: rest) := by
      simp [Text.joinWith]
    rw [hjoin, readParams_cons hkey (follows_cons rfl rfl []), readParams_printEntries hmore rest]
    rfl

theorem normalKey_of_mem {kind : Directive.Kind} {key : String} (h : key ∈ kind.keys) :
    String.ofList (normalKey key.toList) = key := by
  rw [(Kind.isKey_of_mem h).2, String.ofList_toList]

theorem bindParam_written {kind : Directive.Kind} {e : String × Value} (hknown : e.1 ∈ kind.keys)
    (hflag : e.2 = .flag → e.1 ∈ kind.flagKeys) (isFirst : Bool) :
    bindParam kind isFirst (written e) = .ok (paramOf e) := by
  obtain ⟨key, v⟩ := e
  have hnormal : String.ofList (normalKey key.toList) = key := normalKey_of_mem hknown
  have hgiven : kind.keys.contains key = true := List.contains_iff_mem.2 hknown
  cases v with
  | flag =>
    have hflags : kind.flagKeys.contains key = true := List.contains_iff_mem.2 (hflag rfl)
    obtain ⟨k, ks, hks⟩ := List.exists_cons_of_ne_nil (Kind.isKey_of_mem hknown).1.1
    have hk : isIdentChar k = true :=
      (Kind.isKey_of_mem hknown).1.2 k (hks ▸ List.mem_cons_self)
    have hmarked : isMarked key.toList = false := by
      rw [hks]
      simp [isMarked, isQuote_of_isIdentChar hk, ne_of_isIdentChar hk '[' (by decide)]
    simp only [bindParam, written, hnormal, hmarked, hflags]
    rfl
  | text s | list items =>
    simp only [bindParam, written, hnormal, hgiven]
    rfl

theorem bindFrom_written {kind : Directive.Kind} : ∀ {entries : List (String × Value)}
    {bound : List Param}, (∀ e ∈ entries, e.1 ∈ kind.keys) →
    (∀ e ∈ entries, e.2 = .flag → e.1 ∈ kind.flagKeys) →
    (bound.map Param.key ++ entries.map Prod.fst).Nodup →
    bindFrom kind bound (entries.map written) = .ok (bound ++ entries.map paramOf)
  | [], bound, _, _, _ => by simp [bindFrom]
  | e :: entries, bound, hknown, hflags, hdistinct => by
    obtain ⟨hknown, hknown'⟩ := List.forall_mem_cons.1 hknown
    obtain ⟨hflag, hflags'⟩ := List.forall_mem_cons.1 hflags
    have hnew : bound.any (·.key = (paramOf e).key) = false := by
      rw [List.any_eq_false]
      intro p hp heq
      rw [List.nodup_append] at hdistinct
      exact hdistinct.2.2 p.key (List.mem_map_of_mem hp) e.1 List.mem_cons_self
        (of_decide_eq_true heq)
    have hdistinct' : ((bound ++ [paramOf e]).map Param.key ++ entries.map Prod.fst).Nodup := by
      simpa [paramOf] using hdistinct
    have hrest := bindFrom_written hknown' hflags' hdistinct'
    rw [List.map_cons, bindFrom, bindParam_written hknown hflag]
    simp only [hnew]
    simpa using hrest

/-- **The parameters of a draft are bound**, and none that is required is missing. -/
theorem bindAll_written (d : Draft) : bindAll d.kind (d.entries.map written) = .ok d.params := by
  have hbound : bindFrom d.kind [] (d.entries.map written) = .ok d.params := by
    have hdistinct : (([] : List Param).map Param.key ++ d.entries.map Prod.fst).Nodup := by
      simpa using d.distinct
    simpa [params] using bindFrom_written d.known d.flags hdistinct
  have hgiven : d.kind.requiredKeys.find? (fun key => !isGiven d.params key) = none := by
    rw [List.find?_eq_none]
    intro key hkey
    obtain ⟨e, he, rfl, text, htext, hblank⟩ := d.complete key hkey
    have hany : isGiven d.params e.1 = true :=
      List.any_eq_true.2 ⟨paramOf e, List.mem_map_of_mem he, by simp [paramOf, Option.mem_def.1 htext, hblank]⟩
    simp [hany]
  rw [bindAll, hbound]
  simp only [hgiven]

/-- **A printed directive is read back**, up to its closing parenthesis. -/
theorem readDirective_printEntries (d : Draft) (rest : List Char) :
    readDirective d.kind (printEntries d.entries ++ rest) = .ok (d.params, rest) := by
  have hkeys : ∀ e ∈ d.entries, IsKey e.1.toList :=
    fun e he => (Kind.isKey_of_mem (d.known e he)).1
  have hread := readParams_printEntries hkeys rest
  have hopen : printEntries d.entries ++ rest =
      '(' :: (Text.joinWith [','] (d.entries.map printEntry) ++ ')' :: rest) := by
    simp [printEntries]
  rw [hopen, readDirective, hread]
  simp only [bindAll_written, Except.map]

end Draft

/-! ### Scanning -/

/-- Prose is passed over. -/
theorem scan_prose {prose : List Char} (hno : '@' ∉ prose) (pos : Nat) (prev : Option Char)
    (rest : List Char) : scan pos prev (prose ++ rest) =
      (scan (pos + Text.byteLength prose) (prose.getLast?.or prev) rest).map
        fun (ds, text) => (ds, prose ++ text) := by
  induction prose generalizing pos prev with
  | nil =>
    show scan pos prev rest = (scan pos prev rest).map fun (ds, text) => (ds, [] ++ text)
    cases scan pos prev rest <;> rfl
  | cons c prose ih =>
    obtain ⟨hc, hno⟩ : c ≠ '@' ∧ '@' ∉ prose := by
      simpa [eq_comm] using hno
    have hlast : prose.getLast?.or (some c) = (c :: prose).getLast?.or prev := by
      cases prose with
      | nil => rfl
      | cons d s =>
        rw [List.getLast?_cons_cons]
        cases hl : (d :: s).getLast? with
        | none => simp at hl
        | some x => rfl
    rw [List.cons_append, scan]
    simp only [hc, decide_false, Bool.false_and, Bool.false_eq_true, if_false]
    rw [ih hno, hlast, Text.byteLength_cons, Nat.add_assoc]
    cases scan (pos + (c.utf8Size + Text.byteLength prose)) ((c :: prose).getLast?.or prev) rest
      <;> rfl

/-- A directive may follow prose that does not end in the middle of a word. -/
theorem atBoundary_prose (prose : Prose) {prev : Option Char} (h : atBoundary prev = true) :
    atBoundary (prose.text.getLast?.or prev) = true := by
  cases hlast : prose.text.getLast? with
  | none => exact h
  | some c =>
    obtain ⟨hletter, hline⟩ := prose.ending c hlast
    simp [atBoundary, hletter, hline]

theorem Kind.exists_name (kind : Directive.Kind) : ∃ name, kind.word.toList = '@' :: name ∧
    (∀ c ∈ name, isIdentChar c = true) ∧ Kind.ofName? name = some kind := by
  refine ⟨kind.word.toList.tail, ?_, List.all_eq_true.1 ?_, ?_⟩
  · cases kind <;> rfl
  · cases kind <;> rfl
  · cases kind <;> rfl

/-- **A directive is found** where its word stands and its parameters can be read, with its place,
and the scan goes on behind it. -/
theorem scan_directive {kind : Directive.Kind} {s left : List Char} {params : List Param}
    (hs : ∀ c, s.head? = some c → isIdentChar c = false)
    (hread : readDirective kind s = .ok (params, left)) (pos : Nat) {prev : Option Char}
    (hprev : atBoundary prev = true) {source : List Char}
    (hsource : kind.word.toList ++ s = source ++ left) : scan pos prev (kind.word.toList ++ s) =
      (scan (pos + Text.byteLength source) (some ')') left).map fun (ds, text) =>
        (⟨kind, params, pos, pos + Text.byteLength source⟩ :: ds, text) := by
  obtain ⟨name, hword, hname, hkind⟩ := kind.exists_name
  obtain ⟨htake, hdrop⟩ := takeWhile_name hname hs
  have hconsumed : consumed ('@' :: (name ++ s)) left = source := by
    rw [← List.cons_append, ← hword, hsource, consumed_append]
  rw [hword, List.cons_append, scan]
  simp only [hprev, decide_true, Bool.true_and, if_true]
  rw [htake, hdrop, hkind]
  dsimp only
  split
  · rename_i cause hfault
    rw [hread] at hfault
    cases hfault
  · rename_i params' left' hok
    rw [hread] at hok
    obtain ⟨rfl, rfl⟩ := Prod.mk.inj (Except.ok.inj hok)
    rw [hconsumed]

/-- A printed directive is found, and the scan goes on behind it. -/
theorem scan_draft (d : Draft) (pos : Nat) {prev : Option Char} (hprev : atBoundary prev = true)
    (rest : List Char) : scan pos prev (d.print ++ rest) =
      (scan (pos + Text.byteLength d.print) (some ')') rest).map fun (ds, text) =>
        (⟨d.kind, d.params, pos, pos + Text.byteLength d.print⟩ :: ds, text) := by
  have hstop : ∀ c, (Draft.printEntries d.entries ++ rest).head? = some c →
      isIdentChar c = false := by
    intro c hc
    obtain rfl : '(' = c := Option.some.inj hc
    decide
  have htext : d.kind.word.toList ++ (Draft.printEntries d.entries ++ rest) = d.print ++ rest := by
    simp [Draft.print]
  rw [← htext]
  exact scan_directive hstop (Draft.readDirective_printEntries d rest) pos hprev htext

end Directive

namespace Page

open Directive

/-- **All directives are found**, in order and each at its place. The induction is on the parts; what
is before them gives the places. -/
theorem scan_parts {rest : List Char} (hrest : '@' ∉ rest) : ∀ (parts : List (Prose × Draft))
    (before : List Char) {prev : Option Char}, atBoundary prev = true →
    scan (Text.byteLength before) prev
        (parts.flatMap (fun part => part.1.text ++ part.2.print) ++ rest) =
      .ok (placed before parts, parts.flatMap (·.1.text) ++ rest)
  | [], before, prev, _ => by
    have hscan := scan_prose hrest (Text.byteLength before) prev []
    rw [List.append_nil, scan] at hscan
    simpa [placed, Except.map] using hscan
  | (prose, draft) :: parts, before, prev, hprev => by
    have hclosed : atBoundary (some ')') = true := by decide
    have hmore := scan_parts hrest parts (before ++ prose.text ++ draft.print) hclosed
    have hstart : Text.byteLength before + Text.byteLength prose.text =
        Text.byteLength (before ++ prose.text) := (Text.byteLength_append _ _).symm
    have hstop : Text.byteLength (before ++ prose.text) + Text.byteLength draft.print =
        Text.byteLength (before ++ prose.text ++ draft.print) := (Text.byteLength_append _ _).symm
    rw [List.flatMap_cons, List.append_assoc, List.append_assoc, scan_prose prose.noAt, hstart,
      scan_draft draft _ (atBoundary_prose prose hprev), hstop, hmore]
    simp [Except.map, placed]

/-- The place of a directive goes exactly over its printed text. -/
def Delimits (text : List Char) (part : Prose × Draft) (d : Directive) : Prop :=
  ∃ before after, text = before ++ part.2.print ++ after ∧
    d.offset = Text.byteLength before ∧ d.stop = Text.byteLength (before ++ part.2.print)

theorem delimits_placed (rest : List Char) : ∀ (parts : List (Prose × Draft)) (before : List Char),
    List.Forall₂ (Delimits (before ++
      (parts.flatMap (fun part => part.1.text ++ part.2.print) ++ rest))) parts (placed before parts)
  | [], _ => .nil
  | (prose, draft) :: parts, before => by
    have hmore := delimits_placed rest parts (before ++ prose.text ++ draft.print)
    refine .cons ⟨before ++ prose.text,
      parts.flatMap (fun part => part.1.text ++ part.2.print) ++ rest, ?_, rfl, rfl⟩ ?_
    · simp
    · simpa using hmore

/-- **Canonical directives are read back.** A doc comment that consists of prose and directives in
their canonical form has exactly these directives, in order and each at its place, with the values
that were printed; its prose is that of the text around them. -/
theorem parse_page (p : Page) :
    DocComment.parse (String.ofList p.text) =
        .ok ⟨p.directives, DocComment.proseOf p.prose⟩ ∧
      List.Forall₂ (Delimits p.text) p.parts p.directives := by
  have hstart : atBoundary none = true := rfl
  have hscan := scan_parts p.noAt p.parts [] hstart
  have hplaces := delimits_placed p.rest p.parts []
  refine ⟨?_, hplaces⟩
  have hread : scan 0 none p.text = .ok (p.directives, p.prose) := hscan
  rw [DocComment.parse, String.toList_ofList, hread]
  rfl

/-- A draft with texts that look like the end of a value, of a list and of a directive. -/
def remarkDraft : Draft where
  kind := .extraField
  entries := [("name", .text "a)\"@gqlType\\"), ("type", .text "[X!]"), ("on", .list ["A,B", "]"]),
    ("deprecated", .flag)]
  known := by decide
  distinct := by decide
  flags := by decide
  complete := by decide

/-- A draft with one text. -/
def menuDraft : Draft where
  kind := .typeBlock
  entries := [("name", .text "Menü")]
  known := by decide
  distinct := by decide
  flags := by decide
  complete := by decide

/-- Prose with characters of several bytes before each of two directives and behind them. -/
def cafePage : Page where
  parts :=
    [(⟨"Café: ".toList, by decide, by rintro c ⟨⟩; decide⟩, menuDraft),
      (⟨"\n → ".toList, by decide, by rintro c ⟨⟩; decide⟩, remarkDraft)]
  rest := " ok".toList
  noAt := by decide

set_option maxRecDepth 2000 in
theorem parse_cafePage :
    DocComment.parse ("Café: @gqlType(name:\"Menü\")\n → @gqlExtraField(name:\"a)\\\"@gqlType\\\\\"," ++
        "type:\"[X!]\",on:[\"A,B\",\"]\"],deprecated) ok") =
      .ok ⟨[⟨.typeBlock, menuDraft.params, 7, 29⟩, ⟨.extraField, remarkDraft.params, 35, 110⟩],
        some "Café:\n→  ok"⟩ ∧
    List.Forall₂ (Delimits cafePage.text) cafePage.parts cafePage.directives := by
  have htext : String.ofList cafePage.text =
      "Café: @gqlType(name:\"Menü\")\n → @gqlExtraField(name:\"a)\\\"@gqlType\\\\\"," ++
        "type:\"[X!]\",on:[\"A,B\",\"]\"],deprecated) ok" := by decide
  have hfound : cafePage.directives =
      [⟨.typeBlock, menuDraft.params, 7, 29⟩, ⟨.extraField, remarkDraft.params, 35, 110⟩] := rfl
  have hprose : DocComment.proseOf cafePage.prose = some "Café:\n→  ok" := rfl
  obtain ⟨hparse, hplaces⟩ := parse_page cafePage
  refine ⟨?_, hplaces⟩
  rw [← htext, hparse, hfound, hprose]

end Page

end GoSchema
