/-
# Texts with one region

What has been found in rows tells how their markers stand: there are none, there is an opening one
only, or an opening one is followed by a closing one. Every row that is no fault leads from one of
these states to the next, and rows in one of these states are no fault. So a text can be read
exactly if it has no marker, or one region with no other marker in it, before it and after it, and
what is read is what stands between the two markers.

Key definitions: `Shows`, `Frames`.
Key theorems: `Shows.step`, `shows_of_scan`, `scan_of_shows`, `scan_eq_ok_iff`, `read_cases`.
-/
import GoSchema.Proofs.KeptRegion

namespace GoSchema.Region

open Text

variable {keep : KeepRules}

/-- How the markers stand in rows, for what has been found in them. -/
inductive Shows (keep : KeepRules) : List (List Char) → Progress → Prop
  /-- No row is a marker. -/
  | unmarked {l : List (List Char)} (plain : ∀ row ∈ l, IsPlain keep row) : Shows keep l {}
  /-- A row opens a region, and no other row is a marker. -/
  | begun {before inner : List (List Char)} {first : List Char} (hfirst : trim first = opening keep)
      (hbefore : ∀ row ∈ before, IsPlain keep row) (hinner : ∀ row ∈ inner, IsPlain keep row) :
      Shows keep (before ++ first :: inner) ⟨none, some inner.flatten⟩
  /-- A row opens a region, a later one closes it, and no other row is a marker. -/
  | closed {before inner after : List (List Char)} {first last : List Char}
      (hfirst : trim first = opening keep) (hlast : trim last = closing keep)
      (hbefore : ∀ row ∈ before, IsPlain keep row) (hinner : ∀ row ∈ inner, IsPlain keep row)
      (hafter : ∀ row ∈ after, IsPlain keep row) :
      Shows keep (before ++ first :: (inner ++ last :: after)) ⟨some inner.flatten, none⟩

/-- Rows are rows without markers, a row that opens a region, its rows, a row that closes it, and
rows without markers. The content of the region is what its rows are together. -/
def Frames (keep : KeepRules) (content : List Char) (l : List (List Char)) : Prop :=
  ∃ before first inner last after, l = before ++ first :: (inner ++ last :: after) ∧
    trim first = opening keep ∧ trim last = closing keep ∧
    (∀ row ∈ before, IsPlain keep row) ∧ (∀ row ∈ inner, IsPlain keep row) ∧
    (∀ row ∈ after, IsPlain keep row) ∧ content = inner.flatten

theorem shows_empty_iff {l : List (List Char)} :
    Shows keep l {} ↔ ∀ row ∈ l, IsPlain keep row := by
  constructor
  · rintro ⟨plain⟩
    exact plain
  · exact .unmarked

theorem shows_closed_iff {l : List (List Char)} {content : List Char} :
    Shows keep l ⟨some content, none⟩ ↔ Frames keep content l := by
  constructor
  · intro h
    cases h with
    | closed hfirst hlast hbefore hinner hafter =>
      exact ⟨_, _, _, _, _, rfl, hfirst, hlast, hbefore, hinner, hafter, rfl⟩
  · rintro ⟨before, first, inner, last, after, rfl, hfirst, hlast, hbefore, hinner, hafter, rfl⟩
    exact .closed hfirst hlast hbefore hinner hafter

theorem forall_mem_concat {α : Type} {P : α → Prop} {l : List α} {a : α} (hl : ∀ b ∈ l, P b)
    (ha : P a) : ∀ b ∈ l ++ [a], P b :=
  List.forall_mem_append.2 ⟨hl, List.forall_mem_singleton.2 ha⟩

/-- **One more row** that is no fault leads to the state that it shows. -/
theorem Shows.step {l : List (List Char)} {p q : Progress} {row : List Char}
    (h : Shows keep l p) (hs : Region.step keep p row = .ok q) : Shows keep (l ++ [row]) q := by
  rcases step_ok hs with ⟨hopen, rfl, rfl⟩ | ⟨hopen, content, hcontent, rfl⟩ | ⟨hplain, rfl⟩
  · exact .begun hopen (shows_empty_iff.1 h) (List.forall_mem_nil _)
  · -- a row that is no marker would have left the region open
    have hclose : trim row = closing keep := by
      by_contra hno
      rw [step_plain ⟨hopen, hno⟩, hcontent] at hs
      exact nomatch congrArg Progress.current (Except.ok.inj hs)
    cases h with
    | unmarked => cases hcontent
    | begun hfirst hbefore hinner =>
      obtain rfl := Option.some.inj hcontent
      rw [List.append_assoc, List.cons_append]
      exact .closed hfirst hclose hbefore hinner (List.forall_mem_nil _)
    | closed => cases hcontent
  · cases h with
    | unmarked plain => exact .unmarked (forall_mem_concat plain hplain)
    | @begun before inner first hfirst hbefore hinner =>
      have hnext := Shows.begun hfirst hbefore (forall_mem_concat hinner hplain)
      simpa using hnext
    | @closed before inner after first last hfirst hlast hbefore hinner hafter =>
      have hnext := Shows.closed hfirst hlast hbefore hinner (forall_mem_concat hafter hplain)
      simpa using hnext

/-- Rows that are no fault lead to the state that they show. -/
theorem shows_of_scan : ∀ {rest l : List (List Char)} {p q : Progress}, Shows keep l p →
    scan keep p rest = .ok q → Shows keep (l ++ rest) q
  | [], l, p, q, h, hs => by
    obtain rfl := Except.ok.inj hs
    rwa [List.append_nil]
  | row :: rest, l, p, q, h, hs => by
    rw [scan] at hs
    split at hs
    · cases hs
    · rename_i next hnext
      have hall := shows_of_scan (h.step hnext) hs
      rwa [List.append_assoc, List.singleton_append] at hall

/-- Rows whose markers stand as they should are no fault. -/
theorem scan_of_shows (hm : SoundMarkers keep) {l : List (List Char)} {p : Progress}
    (h : Shows keep l p) : scan keep {} l = .ok p := by
  cases h with
  | unmarked plain => exact scan_plain plain _
  | @begun before inner first hfirst hbefore hinner =>
    have hscan := scan_plain hbefore {}
    rw [scan_append hscan, scan, Option.map_none, step_opening hfirst]
    exact scan_plain hinner _
  | @closed before inner after first last hfirst hlast hbefore hinner hafter =>
    have hscan := scan_plain hbefore {}
    have hregion := scan_plain hinner ⟨none, some []⟩
    rw [scan_append hscan, scan, Option.map_none, step_opening hfirst]
    dsimp only
    rw [scan_append hregion, scan, Option.map_some, List.nil_append, step_closing hm hlast]
    exact scan_plain hafter _

/-- **Rows are no fault exactly if their markers stand as they should.** -/
theorem scan_eq_ok_iff (hm : SoundMarkers keep) {l : List (List Char)} {p : Progress} :
    scan keep {} l = .ok p ↔ Shows keep l p := by
  refine ⟨fun hs => ?_, scan_of_shows hm⟩
  have hstart : Shows keep [] {} := .unmarked (List.forall_mem_nil _)
  exact shows_of_scan hstart hs

theorem read_eq_ok_iff (hm : SoundMarkers keep) {s : List Char} {found : Option (List Char)} :
    read keep s = .ok found ↔ Shows keep (rows s) ⟨found, none⟩ := by
  rw [← scan_eq_ok_iff hm, read]
  cases scan keep {} (rows s) with
  | error fault => simp
  | ok p =>
    obtain ⟨captured, current⟩ := p
    cases current <;> simp

/-- **Exactly the texts with at most one region are read.** Nothing is found in a text exactly if no
row of it is a marker, a content is found exactly if the text has one region with this content and no
other marker, and in every other case there is a fault. -/
theorem read_cases (hm : SoundMarkers keep) (s : List Char) :
    (read keep s = .ok none ↔ IsClear keep s) ∧
      (∀ content, read keep s = .ok (some content) ↔ Frames keep content (rows s)) ∧
      ((∃ fault, read keep s = .error fault) ↔
        ¬ IsClear keep s ∧ ∀ content, ¬ Frames keep content (rows s)) := by
  have hnone : read keep s = .ok none ↔ IsClear keep s :=
    (read_eq_ok_iff hm).trans shows_empty_iff
  have hsome : ∀ content, read keep s = .ok (some content) ↔ Frames keep content (rows s) :=
    fun content => (read_eq_ok_iff hm).trans shows_closed_iff
  refine ⟨hnone, hsome, ?_⟩
  simp only [← hnone, ← hsome]
  cases read keep s with
  | error fault => simp
  | ok found => cases found <;> simp

/-- A text whose closing marker stands above the opening one. -/
def reversedText : String := "# @gqlKeepEnd\r\ntype A\n# @gqlKeepBegin"

theorem plainConfig_read_cases :
    SoundMarkers plainConfig.keep ∧
      Frames plainConfig.keep "extend type Query\r\n\n".toList (rows handWritten.toList) ∧
      read plainConfig.keep "type A\n".toList = .ok none ∧
      ¬ IsClear plainConfig.keep reversedText.toList ∧
      ∀ content, ¬ Frames plainConfig.keep content (rows reversedText.toList) := by
  have hcheck : plainConfig.check = .ok () := rfl
  have hm := soundMarkers_of_check hcheck
  have hregion : read plainConfig.keep handWritten.toList =
      .ok (some "extend type Query\r\n\n".toList) := rfl
  have hclear : IsClear plainConfig.keep "type A\n".toList := by decide
  have hfault : read plainConfig.keep reversedText.toList = .error .endWithoutBegin := rfl
  exact ⟨hm, ((read_cases hm _).2.1 _).1 hregion, (read_cases hm _).1.2 hclear,
    (read_cases hm _).2.2.1 ⟨_, hfault⟩⟩

end GoSchema.Region
