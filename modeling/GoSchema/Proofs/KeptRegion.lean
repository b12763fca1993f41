/-
# The kept region comes back

What is read from a file that was written is what was kept when it was written. Two facts carry
this. What is read is tidy: it is made of rows that end in a line feed and are no markers. And each
part of a file ends in a line feed, so the rows of the file are those of its parts, and the two rows
of the region that are markers are the only ones, unless the header or a block has such a row.

Key definitions: `IsPlain`, `IsClear`, `Tidy`, `Respects`, `FilePlan.regenerate`.
Key theorems: `step_ok`, `tidy_of_read`, `read_framed`, `fileText_framed`, `region_round_trip`.
-/
import GoSchema.Config.Validity
import GoSchema.Output.Plan
import GoSchema.Proofs.Outcome
import GoSchema.Proofs.Rows

namespace GoSchema

open Text

theorem isBlank_lineFeed : Unicode.isBlank '\n' = true := by decide

namespace Region

variable {keep : KeepRules}

/-- What a configuration that was checked says about its markers. -/
structure SoundMarkers (keep : KeepRules) : Prop where
  opening_ne : opening keep ≠ []
  closing_ne : closing keep ≠ []
  differ : opening keep ≠ closing keep
  opening_line : '\n' ∉ opening keep
  closing_line : '\n' ∉ closing keep

theorem soundMarkers_of_check {config : Config} (h : config.check = .ok ()) :
    SoundMarkers config.keep := by
  have hno : config.fault? = none := by
    unfold Config.check at h
    split at h
    · exact nomatch h
    · assumption
  have hall := List.findSome?_eq_none_iff.1 (Option.or_eq_none_iff.1 hno).1
  have hpass : ∀ x ∈ config.checks, x.1 = false := fun x hx => by
    simpa using hall x hx
  simp only [Config.checks, List.mem_cons, List.not_mem_nil, or_false, forall_eq_or_imp,
    forall_eq, Bool.or_eq_false_iff, List.isEmpty_eq_false_iff, decide_eq_false_iff_not,
    List.contains_eq_mem] at hpass
  obtain ⟨-, -, -, -, -, -, ⟨ho, hc⟩, hd, ⟨hol, hcl⟩, -⟩ := hpass
  exact ⟨ho, hc, hd, hol, hcl⟩

/-- Whether a row is no marker. -/
def IsPlain (keep : KeepRules) (row : List Char) : Prop :=
  trim row ≠ opening keep ∧ trim row ≠ closing keep

/-- Whether no row of a text is a marker. -/
def IsClear (keep : KeepRules) (s : List Char) : Prop := ∀ row ∈ rows s, IsPlain keep row

instance (keep : KeepRules) (row : List Char) : Decidable (IsPlain keep row) :=
  inferInstanceAs (Decidable (trim row ≠ opening keep ∧ trim row ≠ closing keep))

instance (keep : KeepRules) (s : List Char) : Decidable (IsClear keep s) :=
  inferInstanceAs (Decidable (∀ row ∈ rows s, IsPlain keep row))

/-- Whether a text ends in a line feed and no row of it is a marker. -/
structure Tidy (keep : KeepRules) (s : List Char) : Prop where
  ended : Ended s
  clear : IsClear keep s

theorem isClear_append_iff {s : List Char} (hs : Ended s) (t : List Char) :
    IsClear keep (s ++ t) ↔ IsClear keep s ∧ IsClear keep t := by
  rw [IsClear, rows_append hs, List.forall_mem_append]
  rfl

theorem isClear_flatMap_iff {α : Type} {f : α → List Char} : ∀ {l : List α},
    (∀ a ∈ l, Ended (f a)) → (IsClear keep (l.flatMap f) ↔ ∀ a ∈ l, IsClear keep (f a))
  | [], _ => ⟨fun _ _ h => absurd h List.not_mem_nil, fun _ _ h => absurd h List.not_mem_nil⟩
  | a :: l, h => by
    rw [List.flatMap_cons, isClear_append_iff (h a List.mem_cons_self), List.forall_mem_cons,
      isClear_flatMap_iff fun b hb => h b (List.mem_cons_of_mem _ hb)]

theorem isClear_line_iff {s : List Char} (h : '\n' ∉ s) :
    IsClear keep (s ++ ['\n']) ↔ IsPlain keep s := by
  rw [IsClear, rows_line h, List.forall_mem_singleton, IsPlain,
    trim_append_blank isBlank_lineFeed]
  rfl

theorem isClear_blank (hm : SoundMarkers keep) : IsClear keep ['\n'] :=
  (isClear_line_iff (s := []) List.not_mem_nil).2 ⟨hm.opening_ne.symm, hm.closing_ne.symm⟩

theorem tidy_nil : Tidy keep [] := ⟨ended_nil, fun _ h => absurd h List.not_mem_nil⟩

theorem Tidy.append {s t : List Char} (hs : Tidy keep s) (ht : Tidy keep t) :
    Tidy keep (s ++ t) :=
  ⟨hs.ended.append ht.ended, (isClear_append_iff hs.ended t).2 ⟨hs.clear, ht.clear⟩⟩

theorem tidy_row {s row : List Char} (hmem : row ∈ rows s) (hended : Ended row)
    (hplain : IsPlain keep row) : Tidy keep row := by
  refine ⟨hended, fun other hother => ?_⟩
  rw [rows_of_mem hmem, List.mem_singleton] at hother
  exact hother ▸ hplain

/-! ### Taking rows into account -/

theorem step_plain {row : List Char} (h : IsPlain keep row) (p : Progress) :
    step keep p row = .ok { p with current := p.current.map (· ++ row) } := by
  rw [step, if_neg h.1, if_neg h.2]

theorem step_opening {row : List Char} (h : trim row = opening keep) :
    step keep {} row = .ok { current := some [] } := by
  rw [step, if_pos h]
  rfl

theorem step_closing (hm : SoundMarkers keep) {row : List Char} (h : trim row = closing keep)
    (captured : Option (List Char)) (content : List Char) :
    step keep ⟨captured, some content⟩ row = .ok ⟨some content, none⟩ := by
  rw [step, if_neg (h ▸ hm.differ.symm), if_pos h]

/-- What a row does if it is no fault: it opens the first region, closes the one that is open, or is
no marker. -/
theorem step_ok {p q : Progress} {row : List Char} (h : step keep p row = .ok q) :
    (trim row = opening keep ∧ p = {} ∧ q = { current := some [] }) ∨
      (trim row ≠ opening keep ∧ ∃ content, p.current = some content ∧ q = ⟨some content, none⟩) ∨
      (IsPlain keep row ∧ q = { p with current := p.current.map (· ++ row) }) := by
  obtain ⟨captured, current⟩ := p
  unfold step at h
  split at h
  · rename_i ho
    split at h
    · exact nomatch h
    · rename_i hcurrent
      split at h
      · exact nomatch h
      · rename_i hcaptured
        obtain rfl : current = none := by simpa using hcurrent
        obtain rfl : captured = none := by simpa using hcaptured
        exact .inl ⟨ho, rfl, (Except.ok.inj h).symm⟩
  · rename_i ho
    split at h
    · split at h
      · rename_i content hcontent
        exact .inr (.inl ⟨ho, content, hcontent, (Except.ok.inj h).symm⟩)
      · exact nomatch h
    · rename_i hc
      exact .inr (.inr ⟨⟨ho, hc⟩, (Except.ok.inj h).symm⟩)

theorem scan_append {p q : Progress} {before : List (List Char)} (h : scan keep p before = .ok q)
    (after : List (List Char)) : scan keep p (before ++ after) = scan keep q after := by
  induction before generalizing p with
  | nil => rw [Except.ok.inj h, List.nil_append]
  | cons row before ih =>
    rw [scan] at h
    rw [List.cons_append, scan]
    cases hnext : step keep p row with
    | error e =>
      rw [hnext] at h
      exact nomatch h
    | ok next =>
      rw [hnext] at h
      exact ih h

/-- Rows that are no markers go into the region that is open, or nowhere. -/
theorem scan_plain {l : List (List Char)} (h : ∀ row ∈ l, IsPlain keep row) (p : Progress) :
    scan keep p l = .ok { p with current := p.current.map (· ++ l.flatten) } := by
  induction l generalizing p with
  | nil => simp [scan]
  | cons row l ih =>
    rw [scan, step_plain (h row List.mem_cons_self)]
    dsimp only
    rw [ih fun other hother => h other (List.mem_cons_of_mem _ hother)]
    simp [Function.comp_def]

theorem scan_outside {s : List Char} (h : IsClear keep s) (captured : Option (List Char)) :
    scan keep ⟨captured, none⟩ (rows s) = .ok ⟨captured, none⟩ := by
  rw [scan_plain h]
  rfl

theorem scan_inside {s : List Char} (h : IsClear keep s) (captured : Option (List Char))
    (content : List Char) :
    scan keep ⟨captured, some content⟩ (rows s) = .ok ⟨captured, some (content ++ s)⟩ := by
  rw [scan_plain h, Option.map_some, rows_flatten]

/-! ### What is read and written -/

/-- Everything found so far is tidy. -/
structure TidyProgress (keep : KeepRules) (p : Progress) : Prop where
  captured : ∀ c, p.captured = some c → Tidy keep c
  current : ∀ c, p.current = some c → Tidy keep c

/-- A row that ends in a line feed keeps everything tidy. -/
theorem TidyProgress.step {p q : Progress} {s row : List Char} (hp : TidyProgress keep p)
    (hmem : row ∈ rows s) (hended : Ended row) (h : Region.step keep p row = .ok q) :
    TidyProgress keep q := by
  rcases step_ok h with ⟨-, rfl, rfl⟩ | ⟨-, content, hcontent, rfl⟩ | ⟨hplain, rfl⟩
  · exact ⟨fun _ hc => (nomatch hc), fun c hc => Option.some.inj hc ▸ tidy_nil⟩
  · exact ⟨fun c hc => hp.current c (hcontent.trans hc), fun _ hc => (nomatch hc)⟩
  · refine ⟨hp.captured, fun c hc => ?_⟩
    obtain ⟨content, hcontent, rfl⟩ := Option.map_eq_some_iff.1 hc
    exact (hp.current content hcontent).append (tidy_row hmem hended hplain)

/-- The last row of a text may have no line feed, but then it is not in a region that is closed. -/
theorem captured_of_step {p q : Progress} {row c : List Char} (hp : TidyProgress keep p)
    (h : Region.step keep p row = .ok q) (hc : q.captured = some c) : Tidy keep c := by
  rcases step_ok h with ⟨-, -, rfl⟩ | ⟨-, content, hcontent, rfl⟩ | ⟨-, rfl⟩
  · cases hc
  · exact hp.current c (hcontent.trans hc)
  · exact hp.captured c hc

theorem captured_of_scan {s c : List Char} : ∀ {l : List (List Char)} {p q : Progress},
    (∀ row ∈ l, row ∈ rows s) → (∀ row ∈ l.dropLast, Ended row) → TidyProgress keep p →
      scan keep p l = .ok q → q.captured = some c → Tidy keep c
  | [], p, q, _, _, hp, h, hc => by
    obtain rfl := Except.ok.inj h
    exact hp.captured c hc
  | row :: l, p, q, hmem, hended, hp, h, hc => by
    unfold scan at h
    split at h
    · exact nomatch h
    · rename_i next hstep
      cases l with
      | nil =>
        obtain rfl := Except.ok.inj h
        exact captured_of_step hp hstep hc
      | cons second l =>
        rw [List.dropLast_cons_cons] at hended
        have hnext := hp.step (hmem row List.mem_cons_self) (hended row List.mem_cons_self) hstep
        exact captured_of_scan (fun r hr => hmem r (List.mem_cons_of_mem _ hr))
          (fun r hr => hended r (List.mem_cons_of_mem _ hr)) hnext h hc

/-- **What is read is tidy.** -/
theorem tidy_of_read {s c : List Char} (h : read keep s = .ok (some c)) : Tidy keep c := by
  unfold read at h
  split at h
  · exact nomatch h
  · rename_i p hp
    split at h
    · exact nomatch h
    · have hstart : TidyProgress keep {} := ⟨fun _ hc => (nomatch hc), fun _ hc => (nomatch hc)⟩
      exact captured_of_scan (fun _ hr => hr) (fun _ hr => ended_of_mem_dropLast hr) hstart hp
        (Except.ok.inj h)

theorem lineEnded_of_ended {s : List Char} (h : Ended s) : lineEnded s = s := by
  unfold lineEnded
  split
  · rename_i hno
    exact (List.getLast?_eq_none_iff.1 hno).symm
  · rfl
  · rename_i c hc hl
    exact absurd (h c hl) hc

theorem rows_render (hm : SoundMarkers keep) {content : List Char} (hc : Tidy keep content) :
    rows (render keep (some content)) =
      (opening keep ++ ['\n']) :: (rows content ++ [closing keep ++ ['\n']]) := by
  unfold render
  rw [Option.getD_some, lineEnded_of_ended hc.ended, List.append_assoc, List.append_assoc,
    rows_append (ended_append_lineFeed _), rows_append hc.ended, rows_line hm.opening_line,
    rows_line hm.closing_line]
  rfl

theorem ended_render (keep : KeepRules) (content : Option (List Char)) :
    Ended (render keep content) := ended_append_lineFeed _

theorem trim_opening (keep : KeepRules) : trim (opening keep ++ ['\n']) = opening keep := by
  rw [trim_append_blank isBlank_lineFeed]
  exact trim_trim _

theorem trim_closing (keep : KeepRules) : trim (closing keep ++ ['\n']) = closing keep := by
  rw [trim_append_blank isBlank_lineFeed]
  exact trim_trim _

theorem scan_render (hm : SoundMarkers keep) {content : List Char} (hc : Tidy keep content) :
    scan keep {} (rows (render keep (some content))) = .ok ⟨some content, none⟩ := by
  rw [rows_render hm hc, scan, step_opening (trim_opening keep)]
  dsimp only
  rw [scan_append (scan_inside hc.clear none []), List.nil_append, scan,
    step_closing hm (trim_closing keep)]
  rfl

/-- The content of a region is read wherever the region stands among texts without markers. -/
theorem read_framed (hm : SoundMarkers keep) {before content after : List Char}
    (hb : Tidy keep before) (hc : Tidy keep content) (ha : IsClear keep after) :
    read keep (before ++ (render keep (some content) ++ after)) = .ok (some content) := by
  have hscan : scan keep {} (rows (before ++ (render keep (some content) ++ after))) =
      .ok ⟨some content, none⟩ := by
    rw [rows_append hb.ended, rows_append (ended_render keep _),
      scan_append (scan_outside hb.clear none), scan_append (scan_render hm hc)]
    exact scan_outside ha (some content)
  rw [read, hscan]
  rfl

theorem read_congr {keep' : KeepRules} (ho : opening keep' = opening keep)
    (hc : closing keep' = closing keep) : read keep' = read keep := by
  have hstep : step keep' = step keep := by
    funext p row
    rw [step, step, ho, hc]
  have hscan : ∀ l p, scan keep' p l = scan keep p l := by
    intro l
    induction l with
    | nil => exact fun _ => rfl
    | cons row l ih =>
      intro p
      rw [scan, scan, hstep]
      split
      · rfl
      · exact ih _
  funext s
  rw [read, read, hscan]

end Region

/-! ### The text of a file -/

open Region

theorem Block.ended_render (models : Bool) (b : Block) : Ended (b.render models) := by
  unfold Block.render
  split
  · exact ended_append_of_getLast? rfl _
  · refine ended_append_of_getLast? ?_ _
    rw [List.getLast?_append]
    rfl

/-- The blocks of a file as they are written, each after a blank line. -/
def blocksText (config : Config) (blocks : List Block) : List Char :=
  blocks.flatMap fun b => ['\n'] ++ b.render config.modelDirectives

theorem ended_blocksText (config : Config) (blocks : List Block) :
    Ended (blocksText config blocks) :=
  ended_flatMap fun b _ => (ended_append_lineFeed []).append (b.ended_render _)

theorem isClear_blocksText_iff {config : Config} (hm : SoundMarkers config.keep)
    (blocks : List Block) : IsClear config.keep (blocksText config blocks) ↔
      ∀ b ∈ blocks, IsClear config.keep (b.render config.modelDirectives) := by
  have hfeed : Ended ['\n'] := ended_append_lineFeed []
  rw [blocksText, isClear_flatMap_iff fun b _ => hfeed.append (b.ended_render _)]
  refine forall₂_congr fun b _ => ?_
  rw [isClear_append_iff hfeed]
  exact and_iff_right (isClear_blank hm)

theorem fileText_eq (config : Config) (kept : Option (List Char)) (blocks : List Block) :
    fileText config kept blocks =
      match config.keep.position with
      | .top => header ++ ['\n'] ++ ['\n'] ++ (render config.keep kept ++ blocksText config blocks)
      | .bottom => header ++ ['\n'] ++ blocksText config blocks ++ ['\n'] ++
          (render config.keep kept ++ []) := by
  unfold fileText blocksText
  dsimp only
  rw [joinWith_cons]
  cases config.keep.position <;> simp only [List.flatMap_append, List.flatMap_cons,
    List.flatMap_nil, List.flatMap_map, List.append_assoc, List.append_nil]

/-- The region of a file stands among texts that end in a line feed, above or below. No row of them
is a marker exactly when neither the header nor a row of a block is one. -/
theorem fileText_framed (config : Config) (hm : SoundMarkers config.keep) (blocks : List Block)
    (kept : Option (List Char)) :
    ∃ before after, fileText config kept blocks =
        before ++ (render config.keep kept ++ after) ∧ Ended before ∧
      (IsClear config.keep before ∧ IsClear config.keep after ↔ IsPlain config.keep header ∧
        ∀ b ∈ blocks, IsClear config.keep (b.render config.modelDirectives)) := by
  have hline : IsClear config.keep (header ++ ['\n']) ↔ IsPlain config.keep header :=
    isClear_line_iff (by decide +kernel)
  have hblank := isClear_blank hm
  rw [fileText_eq, ← isClear_blocksText_iff hm]
  split
  · refine ⟨_, _, rfl, ended_append_lineFeed _, ?_⟩
    rw [isClear_append_iff (ended_append_lineFeed _), hline, and_iff_left hblank]
  · refine ⟨_, _, rfl, ended_append_lineFeed _, ?_⟩
    rw [isClear_append_iff ((ended_append_lineFeed _).append (ended_blocksText config blocks)),
      isClear_append_iff (ended_append_lineFeed _), hline, and_iff_left hblank,
      and_iff_left tidy_nil.clear]

/-- Whatever was tidy when a file was written is read from it. -/
theorem read_fileText {config : Config} (hm : SoundMarkers config.keep) {blocks : List Block}
    (hhead : IsPlain config.keep header)
    (hblocks : ∀ b ∈ blocks, IsClear config.keep (b.render config.modelDirectives))
    {content : List Char} (hc : Tidy config.keep content) :
    read config.keep (fileText config (some content) blocks) = .ok (some content) := by
  obtain ⟨before, after, heq, hb, hclear⟩ := fileText_framed config hm blocks (some content)
  obtain ⟨hbefore, hafter⟩ := hclear.2 ⟨hhead, hblocks⟩
  rw [heq]
  exact read_framed hm ⟨hb, hbefore⟩ hc hafter

/-- A configuration that was checked has these markers up to blanks at their ends, and neither the
header nor a line of the blocks reads as one of them. -/
structure Respects (keep : KeepRules) (config : Config) (blocks : List Block) : Prop where
  check : config.check = .ok ()
  opening_eq : opening config.keep = opening keep
  closing_eq : closing config.keep = closing keep
  header : IsPlain keep header
  blocks : ∀ b ∈ blocks, IsClear keep (b.render config.modelDirectives)

/-- The text of a file after several generations, each with its configuration and the blocks of the
file. -/
def FilePlan.regenerate (path : Path) : List (Config × List Block) → String → Except Fault String
  | [], text => .ok text
  | (config, blocks) :: rounds, text =>
    match FilePlan.ofGroup config ⟨path, blocks⟩ (some text) with
    | .error e => .error e
    | .ok plan => regenerate path rounds plan.content

/-- One generation does not fail and leaves the content of the region as it is. -/
theorem read_ofGroup {keep : KeepRules} {config : Config} {blocks : List Block}
    (h : Respects keep config blocks) (path : Path) {text : String} {c : List Char}
    (hr : read keep text.toList = .ok (some c)) :
    ∃ plan, FilePlan.ofGroup config ⟨path, blocks⟩ (some text) = .ok plan ∧
      read keep plan.content.toList = .ok (some c) := by
  have hread : read config.keep = read keep := read_congr h.opening_eq h.closing_eq
  have hplain : ∀ row, IsPlain keep row → IsPlain config.keep row := fun row hrow => by
    rwa [IsPlain, h.opening_eq, h.closing_eq]
  unfold FilePlan.ofGroup
  dsimp only
  split
  · exact ⟨_, rfl, hr⟩
  · rw [hread, hr]
    refine ⟨_, rfl, ?_⟩
    rw [String.toList_ofList, ← hread]
    exact read_fileText (soundMarkers_of_check h.check) (hplain _ h.header)
      (fun b hb row hrow => hplain row (h.blocks b hb row hrow))
      (tidy_of_read (hread ▸ hr))

theorem read_regenerate {keep : KeepRules} (path : Path) {c : List Char} :
    ∀ {rounds : List (Config × List Block)} {text : String},
      (∀ r ∈ rounds, Respects keep r.1 r.2) → read keep text.toList = .ok (some c) →
      ∃ new, FilePlan.regenerate path rounds text = .ok new ∧
        read keep new.toList = .ok (some c)
  | [], text, _, hr => ⟨text, rfl, hr⟩
  | (config, blocks) :: rounds, text, h, hr => by
    obtain ⟨plan, hplan, hnext⟩ := read_ofGroup (h _ List.mem_cons_self) path hr
    unfold FilePlan.regenerate
    rw [hplan]
    exact read_regenerate path (fun r hmem => h r (List.mem_cons_of_mem _ hmem)) hnext

/-- **The region survives.** Where neither the header nor a line of the blocks reads as a marker,
the content that was read from an old file is read from the new one, wherever the region is put, and
it is empty if there was no region. So it stays the same over any number of generations, each with
its own blocks and its own place for the region. -/
theorem region_round_trip {config : Config} {blocks : List Block} (hcheck : config.check = .ok ())
    (hhead : IsPlain config.keep header)
    (hblocks : ∀ b ∈ blocks, IsClear config.keep (b.render config.modelDirectives)) :
    (∀ old c, read config.keep old = .ok (some c) →
        read config.keep (fileText config (some c) blocks) = .ok (some c)) ∧
      read config.keep (fileText config none blocks) = .ok (some []) ∧
      ∀ path rounds text c, (∀ r ∈ rounds, Respects config.keep r.1 r.2) →
        read config.keep text.toList = .ok (some c) →
        ∃ new, FilePlan.regenerate path rounds text = .ok new ∧
          read config.keep new.toList = .ok (some c) := by
  have hm := soundMarkers_of_check hcheck
  refine ⟨fun old c hr => ?_, ?_, fun path rounds text c h hr => read_regenerate path h hr⟩
  · exact read_fileText hm hhead hblocks (tidy_of_read hr)
  · exact read_fileText hm hhead hblocks tidy_nil

/-- A configuration that passes all checks, with the usual markers and the region below. -/
def plainConfig : Config := { roots := ["."] }

/-- A block with one field. -/
def userBlock : Block :=
  { kind := .type
    name := "User"
    package := "m"
    place := ⟨0, 0, 0⟩
    slot := 1
    fields := [{ name := "id", typeText := "ID!" }]
    source := "m.User (type)" }

/-- A file with a region and nothing else. -/
def handWritten : String := "  # @gqlKeepBegin\nextend type Query\r\n\n# @gqlKeepEnd"

theorem plainConfig_round_trip :
    read plainConfig.keep handWritten.toList = .ok (some "extend type Query\r\n\n".toList) ∧
      read plainConfig.keep
          (fileText plainConfig (some "extend type Query\r\n\n".toList) [userBlock]) =
        .ok (some "extend type Query\r\n\n".toList) ∧
      read plainConfig.keep (fileText plainConfig none [userBlock]) = .ok (some []) ∧
      ∃ new, FilePlan.regenerate ⟨"schema.graphqls"⟩
          [({ plainConfig with keep.position := .top }, [userBlock]), (plainConfig, [])]
          handWritten = .ok new ∧
        read plainConfig.keep new.toList = .ok (some "extend type Query\r\n\n".toList) := by
  have hcheck : plainConfig.check = .ok () := Outcome.eq_ok_of_toOption (by decide +kernel)
  have hhead : IsPlain plainConfig.keep header := by decide +kernel
  have hblock : IsClear plainConfig.keep (userBlock.render false) := by decide +kernel
  have hblocks : ∀ b ∈ [userBlock], IsClear plainConfig.keep (b.render false) := by
    simpa using hblock
  have hread : read plainConfig.keep handWritten.toList =
      .ok (some "extend type Query\r\n\n".toList) :=
    Outcome.eq_ok_of_toOption (by decide +kernel)
  obtain ⟨hsome, hnone, hrounds⟩ := region_round_trip hcheck hhead hblocks
  refine ⟨hread, hsome _ _ hread, hnone, hrounds _ _ _ _ ?_ hread⟩
  intro r hr
  rcases List.mem_cons.1 hr with rfl | hr
  · exact ⟨Outcome.eq_ok_of_toOption (by decide +kernel), rfl, rfl, hhead, hblocks⟩
  · obtain rfl := List.mem_singleton.1 hr
    exact ⟨hcheck, rfl, rfl, hhead, fun b hb => absurd hb List.not_mem_nil⟩

end GoSchema
