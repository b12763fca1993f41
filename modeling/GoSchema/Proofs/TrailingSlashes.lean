/-
# Slashes at the ends of roots

A slash at the end of a root stays when the root is read. Behind a directory it changes nothing, and
behind `**` it does not either: the part after it is empty, a pattern is the same with it, and where
the whole pattern is any depth it is taken away with the stars. Behind the name of a directory it
does: the name is looked for with the slash and another one behind it, and as no directory has an
empty name nothing is found. So a root `base/**/name/` agrees with `base/**/name` only where that
finds nothing.

Key definitions: `EndsDeep`, `Same`.
Key theorems: `Pattern.compileFrom_slash`, `normal_append_slash`, `splitAtWildcard_slash`,
`dropDeep_slash`, `filesDeep_slash`, `sources_alike`, `liesIn_slash`, `trailing_slash`.
-/
import GoSchema.Proofs.NamedDirectories

namespace GoSchema

open Unicode

namespace Pattern

theorem head?_append_slash {s : List Char} {c : Char} (h : ∀ rest, s = c :: rest → False)
    (hc : c ≠ '/') (t : List Char) : (s ++ '/' :: t).head? ≠ some c := by
  intro hhead
  cases s with
  | nil => exact hc (Option.some.inj hhead).symm
  | cons d s => exact h s (congrArg (· :: s) (Option.some.inj hhead))

/-- Behind a slash, `**` and `**/` at the end are the same. -/
theorem compileFrom_deep (pos : Nat) (done : List Part) :
    compileFrom pos (some '/') done ['*', '*', '/'] =
      compileFrom pos (some '/') done ['*', '*'] := by
  rw [compileFrom_stars (by decide), if_pos (by simp), if_pos rfl, compileFrom, compileFrom]
  rfl

/-- A slash behind `**` does not matter. -/
theorem compileFrom_slash (s : List Char) (pos : Nat) (prev : Option Char) (done : List Part) :
    compileFrom pos prev done (s ++ ['/', '*', '*', '/']) =
      compileFrom pos prev done (s ++ ['/', '*', '*']) := by
  have hbracketed : ∀ (s : List Char), bracketed (s ++ ['/', '*', '*', '/']) = _ :=
    bracketed_append (by decide)
  have hbracketed' : ∀ (s : List Char), bracketed (s ++ ['/', '*', '*']) = _ :=
    bracketed_append (by decide)
  fun_induction compileFrom pos prev done s with
  | case1 pos prev done =>
    have hchar : ∀ u, compileFrom pos prev done ('/' :: u) = _ := compileFrom_char (by decide)
    rw [List.nil_append, List.nil_append, hchar, hchar, compileFrom_deep]
  | case2 pos prev done rest ih =>
    rw [List.cons_append, List.cons_append, compileFrom, compileFrom, ih]
  | case3 pos prev done tail =>
    simp only [List.cons_append, compileFrom]
  | case4 pos prev done hprev hx =>
    have hstars : ∀ u, compileFrom pos prev done ('*' :: '*' :: '/' :: u) = _ :=
      compileFrom_stars (by decide)
    simp only [List.cons_append, List.nil_append]
    rw [hstars, hstars, compileFrom_deep]
  | case5 pos prev done hprev left hx ih =>
    have hstars : ∀ u, compileFrom pos prev done ('*' :: '*' :: '/' :: u) = _ :=
      compileFrom_stars (by decide)
    simp only [List.cons_append]
    rw [hstars, hstars, ih]
  | case6 pos prev done hprev c left hc hx =>
    have hstar : c ≠ '*' := fun h => hx left (h ▸ rfl)
    simp only [List.cons_append, compileFrom_stars hstar, if_neg hc]
  | case7 pos prev done rest hx hprev =>
    cases rest with
    | nil =>
      have hstars : ∀ u, compileFrom pos prev done ('*' :: '*' :: '/' :: u) = _ :=
        compileFrom_stars (by decide)
      simp only [List.cons_append, List.nil_append]
      rw [hstars, hstars, if_neg hprev, if_neg hprev]
    | cons c rest =>
      have hstar : c ≠ '*' := fun h => hx rest (h ▸ rfl)
      simp only [List.cons_append, compileFrom_stars hstar, if_neg hprev]
  | case8 pos prev done rest hxx hx ih =>
    have hhead := head?_append_slash hx (by decide)
    rw [List.cons_append, List.cons_append, compileFrom_run (hhead _),
      compileFrom_run (hhead _), ih]
  | case9 pos prev done rest hnone =>
    simp only [List.cons_append, compileFrom_except, hbracketed, hbracketed', hnone]
    rfl
  | case10 pos prev done rest set left hsome ih =>
    simp only [List.cons_append, compileFrom_except, hbracketed, hbracketed', hsome]
    exact ih
  | case11 pos prev done rest hx hnone =>
    have hhead := head?_append_slash hx (by decide)
    rw [List.cons_append, List.cons_append, compileFrom_among (hhead _),
      compileFrom_among (hhead _), hbracketed, hbracketed', hnone]
    rfl
  | case12 pos prev done rest hx set left hsome ih =>
    have hhead := head?_append_slash hx (by decide)
    rw [List.cons_append, List.cons_append, compileFrom_among (hhead _),
      compileFrom_among (hhead _), hbracketed, hbracketed', hsome]
    exact ih
  | case13 pos prev done c rest hany _ _ hstar _ hopen ih =>
    have hchar : ∀ u, compileFrom pos prev done (c :: u) = _ :=
      compileFrom_char ⟨hany, hstar, hopen⟩
    rw [List.cons_append, List.cons_append, hchar, hchar, ih]

end Pattern

namespace Text

theorem trim_eq_trimStart {s : List Char} (h : trimEnd s = s) : trim s = trimStart s := by
  refine List.rdropWhile_eq_self_iff.2 fun hl => ?_
  have hsuffix : trimStart s <:+ s := List.dropWhile_suffix isBlank
  rw [hsuffix.getLast hl]
  exact List.rdropWhile_eq_self_iff.1 h (hsuffix.ne_nil hl)

theorem trim_append {t : List Char} (hne : t ≠ []) (hstart : trimStart t = t)
    (hend : trimEnd t = t) (s : List Char) : trim (s ++ t) = trimStart s ++ t := by
  have hend' : trimEnd (s ++ t) = s ++ t := by
    refine List.rdropWhile_eq_self_iff.2 fun hl => ?_
    rw [List.getLast_append_of_ne_nil hl hne]
    exact List.rdropWhile_eq_self_iff.1 hend hne
  rw [trim_eq_trimStart hend', trimStart, List.dropWhile_append]
  split
  · rename_i hblank
    rw [trimStart, List.isEmpty_iff.1 hblank]
    exact hstart
  · rfl

/-- Occurrences of a part do not go beyond a character that it lacks. -/
theorem replaceAfter_append {part : List Char} {c : Char} (hpart : part ≠ []) (hc : c ∉ part)
    (new t : List Char) : ∀ {s : List Char} {n : Nat}, n ≤ s.length →
      replaceAfter part new n (s ++ c :: t) = replaceAfter part new n s ++ c :: replace part new t
  | [], n, hn => by
    obtain rfl := Nat.le_zero.1 hn
    have hno : startsWith part (c :: t) = false := by
      obtain ⟨l, part, rfl⟩ := List.exists_cons_of_ne_nil hpart
      exact startsWith_append_cons t (s := []) hc
    simp [replaceAfter, hno, replace]
  | a :: s, n + 1, hn => by
    rw [List.cons_append, replaceAfter, replaceAfter]
    exact replaceAfter_append hpart hc new t (Nat.le_of_succ_le_succ hn)
  | a :: s, 0, _ => by
    have hsame := startsWith_append_cons t (s := a :: s) hc
    rw [List.cons_append] at hsame
    rw [List.cons_append, replaceAfter, replaceAfter, hsame]
    split
    · rename_i hstart
      obtain ⟨rest, hrest⟩ := startsWith_iff.1 hstart
      have hlen := congrArg List.length hrest
      rw [List.length_cons, List.length_append] at hlen
      rw [replaceAfter_append hpart hc new t (by omega), List.append_assoc]
    · rw [replaceAfter_append hpart hc new t (Nat.zero_le _), List.cons_append]

theorem replace_append {part : List Char} {c : Char} (hpart : part ≠ []) (hc : c ∉ part)
    (new s t : List Char) :
    replace part new (s ++ c :: t) = replace part new s ++ c :: replace part new t :=
  replaceAfter_append hpart hc new t (Nat.zero_le _)

end Text

namespace RootSpec

variable {t : FileTree} {a : AbsolutePath} {b p q : Path} {names : List String} {spec : String}
  {base name : String} {pattern : List Char} {ps : List Path}

/-! ### How a root is read -/

/-- A slash behind a root without a blank at its end stays where it is. -/
theorem normal_append_slash (h : Text.trimEnd spec.toList = spec.toList) :
    normal (spec ++ "/") = normal spec ++ ['/'] := by
  have htrim : Text.trim (spec ++ "/").toList = Text.trim spec.toList ++ '/' :: [] := by
    rw [String.toList_append, Text.trim_eq_trimStart h]
    exact Text.trim_append (by decide) (by decide) (by decide) _
  rw [normal, htrim, Text.replace_append (by decide) (by decide)]
  rfl

theorem exists_normal_eq (h : spec = base ++ "/**" ∨ spec = base ++ "/...") :
    ∃ front, normal spec = front ++ ['/', '*', '*'] := by
  refine ⟨Text.replace "...".toList "**".toList (Text.trimStart base.toList), ?_⟩
  rcases h with rfl | rfl
  · rw [normal, String.toList_append, Text.trim_append (by decide) (by decide) (by decide)]
    exact Text.replace_append (by decide) (by decide) _ _ ['*', '*']
  · rw [normal, String.toList_append, Text.trim_append (by decide) (by decide) (by decide)]
    exact Text.replace_append (by decide) (by decide) _ _ ['.', '.', '.']

theorem isWild_slash (s : List Char) : isWild (s ++ ['/']) = isWild s := by
  simp [isWild]

theorem exists_splitAtWildcard {s : List Char} (h : isWild s = true) :
    ∃ b pattern, splitAtWildcard s = (b, some pattern) := by
  cases hdrop : (Text.splitAt '/' s).dropWhile (!isWild ·) with
  | nil =>
    rw [isWild_eq_any, List.any_eq_true] at h
    obtain ⟨piece, hpiece, hwild⟩ := h
    have hplain := List.dropWhile_eq_nil_iff.1 hdrop piece hpiece
    rw [hwild] at hplain
    cases hplain
  | cons first more =>
    refine ⟨(splitAtWildcard s).1, Text.joinWith ['/'] (first :: more), Prod.ext rfl ?_⟩
    simp only [splitAtWildcard, hdrop]

/-- What follows a slash behind a root with a wildcard belongs to its pattern. -/
theorem splitAtWildcard_slash {s : List Char} (h : splitAtWildcard s = (b, some pattern))
    (tail : List Char) :
    splitAtWildcard (s ++ '/' :: tail) = (b, some (pattern ++ '/' :: tail)) := by
  cases hdrop : (Text.splitAt '/' s).dropWhile (!isWild ·) with
  | nil =>
    simp only [splitAtWildcard, hdrop] at h
    cases h
  | cons first more =>
    have hdrop' : (Text.splitAt '/' (s ++ '/' :: tail)).dropWhile (!isWild ·) =
        first :: more ++ Text.splitAt '/' tail := by
      rw [Text.splitAt_append, List.dropWhile_append, hdrop]
      rfl
    have htake : (Text.splitAt '/' (s ++ '/' :: tail)).takeWhile (!isWild ·) =
        (Text.splitAt '/' s).takeWhile (!isWild ·) := by
      rw [Text.splitAt_append, List.takeWhile_append, if_neg]
      intro hlen
      have hall := congrArg List.length
        (List.takeWhile_append_dropWhile (p := (!isWild ·)) (l := Text.splitAt '/' s))
      rw [List.length_append, hlen, hdrop, List.length_cons] at hall
      omega
    have hhead : (s ++ '/' :: tail).head? = s.head? := by
      cases s with
      | nil => cases hdrop
      | cons c s => rfl
    have hjoin : Text.joinWith ['/'] (first :: more ++ Text.splitAt '/' tail) =
        Text.joinWith ['/'] (first :: more) ++ '/' :: tail := by
      rw [Text.joinWith_append (List.cons_ne_nil _ _) (Text.splitAt_ne_nil '/' tail),
        Text.joinWith_splitAt]
    simp only [splitAtWildcard, hdrop, Prod.mk.injEq, Option.some.injEq] at h
    rw [List.cons_append] at hdrop' hjoin
    simp only [splitAtWildcard, hdrop', htake, hjoin, hhead, h.1, h.2]

/-- Whether the last part of a pattern is `**`. -/
def EndsDeep (s : List Char) : Prop := s = ['*', '*'] ∨ ∃ front, s = front ++ ['/', '*', '*']

/-- A root whose last part is `**` has a pattern whose last part is `**`. -/
theorem splitAtWildcard_deep (front : List Char) : ∃ b pattern, EndsDeep pattern ∧
    splitAtWildcard (front ++ ['/', '*', '*']) = (b, some pattern) := by
  cases hwild : isWild front with
  | false =>
    have hpieces : Text.splitAt '/' ['*', '*'] = ['*', '*'] :: [] := rfl
    exact ⟨_, _, .inl rfl, splitAtWildcard_append hwild hpieces rfl⟩
  | true =>
    obtain ⟨b, pattern, hsplit⟩ := exists_splitAtWildcard hwild
    exact ⟨b, _, .inr ⟨pattern, rfl⟩, splitAtWildcard_slash hsplit ['*', '*']⟩

/-! ### Any depth -/

/-- A text that starts with `**/` and has `/**` behind its front starts so in front, or has nothing
else there. -/
theorem deep_front_cases {u rest : List Char} : ∀ {front : List Char},
    front ++ '/' :: '*' :: '*' :: u = '*' :: '*' :: '/' :: rest →
      front = ['*', '*'] ∧ rest = '*' :: '*' :: u ∨
        ∃ more, front = '*' :: '*' :: '/' :: more ∧ rest = more ++ '/' :: '*' :: '*' :: u
  | [], h => by simp at h
  | [_], h => by simp at h
  | [_, _], h => by
    obtain ⟨rfl, rfl, rfl⟩ : _ ∧ _ ∧ '*' :: '*' :: u = rest := by simpa using h
    exact .inl ⟨rfl, rfl⟩
  | _ :: _ :: _ :: more, h => by
    obtain ⟨rfl, rfl, rfl, rfl⟩ : _ ∧ _ ∧ _ ∧ more ++ '/' :: '*' :: '*' :: u = rest := by
      simpa using h
    exact .inr ⟨more, rfl, rfl⟩

/-- Either the whole pattern is any depth, or a part stands in front of the last `**`. -/
theorem dropDeep_slash (h : EndsDeep pattern) :
    dropDeep pattern = ['*', '*'] ∧ dropDeep (pattern ++ ['/']) = [] ∨
      ∃ front, dropDeep pattern = front ++ ['/', '*', '*'] ∧
        dropDeep (pattern ++ ['/']) = front ++ ['/', '*', '*', '/'] := by
  fun_induction dropDeep pattern with
  | case1 rest ih =>
    refine ih ?_
    rcases h with h | ⟨front, h⟩
    · cases h
    · rcases deep_front_cases h.symm with ⟨-, hrest⟩ | ⟨more, -, hrest⟩
      · exact .inl hrest
      · exact .inr ⟨more, hrest⟩
  | case2 s hno =>
    rcases h with rfl | ⟨front, rfl⟩
    · exact .inl ⟨rfl, rfl⟩
    · refine .inr ⟨front, rfl, ?_⟩
      rw [List.append_assoc]
      unfold dropDeep
      split
      · rename_i rest hrest
        rcases deep_front_cases hrest with ⟨rfl, -⟩ | ⟨more, rfl, -⟩
        · exact (hno _ rfl).elim
        · exact (hno _ rfl).elim
      · rfl

theorem readPattern_eq_ok_iff {pat : Pattern} :
    readPattern spec pattern = .ok pat ↔ Pattern.compile (String.ofList pattern) = .ok pat := by
  rw [readPattern]
  cases Pattern.compile (String.ofList pattern) with
  | error e => simp [Except.mapError]
  | ok pat' => simp [Except.mapError]

/-- **A slash behind `**`** changes nothing. -/
theorem filesDeep_slash (h : EndsDeep pattern) {spec' : String} :
    filesDeep t spec' b (pattern ++ ['/']) = .ok ps ↔ filesDeep t spec b pattern = .ok ps := by
  rcases dropDeep_slash h with ⟨hdeep, hdeep'⟩ | ⟨front, hdeep, hdeep'⟩
  · simp only [filesDeep, hdeep, hdeep']
  · have hwild : ∀ more, isWild (front ++ '/' :: '*' :: more) = true := by
      intro more
      simp [isWild]
    have hstars : ∀ more, front ++ '/' :: more ≠ ['*', '*'] := by
      intro more heq
      have hmem : '/' ∈ ['*', '*'] := heq ▸ List.mem_append_right _ List.mem_cons_self
      simp at hmem
    have hcompile : Pattern.compile (String.ofList (front ++ ['/', '*', '*', '/'])) =
        Pattern.compile (String.ofList (front ++ ['/', '*', '*'])) := by
      rw [Pattern.compile, Pattern.compile, String.toList_ofList, String.toList_ofList,
        Pattern.compileFrom_slash]
    rw [filesDeep_of_isWild b hdeep (hwild _) (hstars _),
      filesDeep_of_isWild b hdeep' (hwild _) (hstars _)]
    simp only [Outcome.map_eq_ok_iff, readPattern_eq_ok_iff, hcompile]

theorem EndsDeep.infix (h : EndsDeep pattern) : "**".toList <:+: pattern := by
  rcases h with rfl | ⟨front, rfl⟩
  · exact List.infix_refl _
  · exact ⟨front ++ ['/'], [], by simp⟩

/-- A root whose last part is `**` finds the same with a slash behind it. -/
theorem filesOf_slash_of_deep {front : List Char} {spec' : String}
    (h : normal spec = front ++ ['/', '*', '*']) (h' : normal spec' = normal spec ++ ['/']) :
    filesOf t spec' = .ok ps ↔ filesOf t spec = .ok ps := by
  obtain ⟨b, pattern, hdeep, hsplit⟩ := splitAtWildcard_deep front
  have hparts : parts spec = (b, some pattern) := by rw [parts_eq, h, hsplit]
  have hparts' : parts spec' = (b, some (pattern ++ ['/'])) := by
    rw [parts_eq, h', h]
    exact splitAtWildcard_slash hsplit []
  cases hcontains : t.contains b with
  | false =>
    have hno : t.contains (baseOf spec) = false := by rw [baseOf, hparts, hcontains]
    have hno' : t.contains (baseOf spec') = false := by rw [baseOf, hparts', hcontains]
    rw [filesOf_of_not_contains hno', filesOf_of_not_contains hno]
  | true =>
    have hinfix : "**".toList <:+: pattern ++ ['/'] :=
      hdeep.infix.trans (List.prefix_append _ _).isInfix
    rw [filesOf_eq_filesDeep hparts' hcontains hinfix,
      filesOf_eq_filesDeep hparts hcontains hdeep.infix, filesDeep_slash hdeep]

/-! ### Directories -/

/-- Two paths of one file that are the same step by step. -/
def Same (t : FileTree) (p q : Path) : Prop :=
  p.components = q.components ∧ t.realPath p = t.realPath q

/-- Paths to one directory that are the same step by step find the same sources in it. -/
theorem sources_alike (ht : t.IsListing) (hp : t.realPath p = .ok a) (hq : t.realPath q = .ok a)
    (hc : p.components = q.components) (maxDepth : Option Nat) :
    List.Forall₂ (Same t) (sources (entriesUnder t p maxDepth))
      (sources (entriesUnder t q maxDepth)) := by
  have hentries : List.Forall₂ (fun f g => Same t f.path g.path ∧ f.isDirectory = g.isDirectory)
      (entriesUnder t p maxDepth) (entriesUnder t q maxDepth) := by
    have hdir : t.isDir p = t.isDir q := by
      rw [Bool.eq_iff_iff, FileTree.isDir_iff hp, FileTree.isDir_iff hq]
    simp only [entriesUnder, hp, hq]
    refine .cons ⟨⟨hc, hp.trans hq.symm⟩, hdir⟩ ?_
    rw [List.forall₂_map_left_iff, List.forall₂_map_right_iff, List.forall₂_same]
    rintro ⟨names, n⟩ hmem
    obtain ⟨-, hn⟩ := ht.mem_below_iff.1 (List.mem_filter.1 hmem).1
    have hnames := ht.isName_of_mem hn
    refine ⟨⟨?_, ?_⟩, rfl⟩
    · rw [Path.components_foldl_names hnames (FileTree.text_ne_of_realPath hp),
        Path.components_foldl_names hnames (FileTree.text_ne_of_realPath hq), hc]
    · rw [FileTree.realPath_foldl_child ht.toIsTree hnames hp hn,
        FileTree.realPath_foldl_child ht.toIsTree hnames hq hn]
  unfold sources
  rw [List.forall₂_map_left_iff, List.forall₂_map_right_iff]
  refine (Pointwise.filter hentries fun f g hfg => ?_).imp fun f g hfg => hfg.1
  rw [hfg.2, isSource, isSource, Path.fileName?, Path.fileName?, hfg.1.1]

theorem realPath_slash (ht : t.IsListing) (hp : t.realPath p = .ok a)
    (hdir : t.nodeAt? a = some .directory) :
    t.realPath ⟨p.text ++ "/"⟩ = .ok a ∧ (Path.mk (p.text ++ "/")).components = p.components := by
  have hne := FileTree.text_ne_of_realPath hp
  have hcomponents : (Path.mk (p.text ++ "/")).components = p.components := by
    rw [Path.components_append (p := p) (s := []) (by simpa using hne) (by simp), Path.steps_nil,
      List.append_nil]
  obtain ⟨hentered, htarget⟩ := FileTree.entered_of_realPath ht.toIsTree hp
  have htarget' : t.target ⟨p.text ++ "/"⟩ = a := by
    rw [FileTree.target_eq, hcomponents, ← FileTree.target_eq, htarget]
  refine ⟨FileTree.realPath_eq_ok_iff.2 ⟨?_, _, hdir⟩, hcomponents⟩
  rw [FileTree.locate_eq ht.toIsTree (by simp), FileTree.passing_eq_ok_iff]
  refine ⟨fun c hc => ?_, htarget'⟩
  rcases List.mem_append.1 hc with hc | hc
  · refine hentered c (List.mem_append_left _ ?_)
    rwa [FileTree.way, hcomponents] at hc
  · split at hc
    · exact absurd hc List.not_mem_nil
    · rw [List.mem_singleton.1 hc, htarget']
      exact hdir

theorem filesOf_directory (hparts : parts spec = (b, none)) (hb : t.realPath b = .ok a)
    (hdir : t.nodeAt? a = some .directory) : filesOf t spec = .ok (sourcesIn t b) := by
  obtain ⟨n, hn, hnode⟩ := FileTree.node_of_realPath hb
  obtain rfl := Option.some.inj (hn.symm.trans hdir)
  unfold filesOf
  simp [hparts, FileTree.contains, FileTree.isFile, hnode]

/-- A plain directory with a slash behind it stands for the same sources. -/
theorem filesOf_slash_of_directory (ht : t.IsListing) (hwild : isWild (normal spec) = false)
    (hb : t.realPath ⟨String.ofList (normal spec)⟩ = .ok a)
    (hdir : t.nodeAt? a = some .directory) {spec' : String}
    (h' : normal spec' = normal spec ++ ['/']) :
    ∃ ps qs, filesOf t spec = .ok ps ∧ filesOf t spec' = .ok qs ∧ List.Forall₂ (Same t) ps qs := by
  have hwild' : isWild (normal spec') = false := by rw [h', isWild_slash, hwild]
  obtain ⟨hb', hcomponents⟩ := realPath_slash ht hb hdir
  have htext : String.ofList (normal spec') = String.ofList (normal spec) ++ "/" := by
    rw [h', String.ofList_append]
  rw [← htext] at hb' hcomponents
  exact ⟨_, _, filesOf_directory (splitAtWildcard_of_not_isWild hwild) hb hdir,
    filesOf_directory (splitAtWildcard_of_not_isWild hwild') hb' hdir,
    sources_alike ht hb hb' hcomponents.symm (some 1)⟩

/-- No directory has an empty name. -/
theorem liesIn_slash (hp : p.text ≠ "") (hnames : ∀ s ∈ names, Path.IsName s) (hne : names ≠ [])
    (hname : Path.IsName name) :
    liesIn p (name.toList ++ ['/']) (names.foldl Path.child p) = false := by
  have hdirs : ∀ s ∈ names.dropLast, Path.IsName s :=
    fun s hs => hnames s (List.mem_of_mem_dropLast hs)
  have hpieces : ∀ piece ∈ [name.toList, []], '/' ∉ piece := by simpa using hname.single
  have hiff := liesIn_iff hp hnames hne (List.cons_ne_nil _ _) hpieces
  have hjoin : Text.joinWith ['/'] [name.toList, []] = name.toList ++ ['/'] := by
    simp [Text.joinWith]
  rw [hjoin, splitAt_names hdirs] at hiff
  rw [← Bool.not_eq_true, hiff]
  intro hinfix
  split at hinfix
  · have hlen := hinfix.length_le
    simp at hlen
  · have hmem : [] ∈ names.dropLast.map String.toList := hinfix.subset (by simp)
    obtain ⟨s, hs, hnil⟩ := List.mem_map.1 hmem
    exact (hdirs s hs).toList_ne_nil hnil

/-- A root that names directories finds nothing with a slash behind it. -/
theorem filesOf_slash_of_named (ht : t.IsListing) (h : NamesDirectories spec base name)
    (hbase : t.realPath ⟨base⟩ = .ok a) (hdir : t.nodeAt? a = some .directory) {spec' : String}
    (h' : normal spec' = normal spec ++ ['/']) : filesOf t spec' = .ok [] := by
  have hne := FileTree.text_ne_of_realPath hbase
  have hname := Path.isName_of_undotted h.nonempty h.single h.undotted
  have hparts : parts spec' = (⟨base⟩, some ("**/".toList ++ (name.toList ++ ['/']))) := by
    rw [parts_eq, h']
    exact splitAtWildcard_slash (h.parts_eq hne) []
  have hcontains : t.contains ⟨base⟩ = true := FileTree.contains_iff.2 ⟨a, hbase⟩
  have hwild : isWild (name.toList ++ ['/']) = false := by rw [isWild_slash, h.plain]
  have hextension : (Path.mk (String.ofList (name.toList ++ ['/']))).extension? = none := by
    refine Path.extension?_eq_none (s := name) ?_ h.undotted
    rw [String.toList_ofList, Path.steps_append, hname.steps_eq]
    rfl
  rw [filesOf_eq_filesDeep hparts hcontains ⟨[], '/' :: (name.toList ++ ['/']), rfl⟩,
    filesDeep_of_not_isWild _ (by simp) hwild hextension, Except.ok.injEq, List.filter_eq_nil_iff]
  intro p hp
  obtain ⟨names, hreach, -, rfl⟩ := (mem_sources_iff ht hbase).1 hp
  rw [liesIn_slash hne (hreach.isName ht) (hreach.ne_nil hdir) hname]
  exact Bool.false_ne_true

/-- **A slash at the end of a root.** -/
theorem trailing_slash (ht : t.IsListing) (hend : Text.trimEnd spec.toList = spec.toList) :
    (∀ a, isWild (normal spec) = false → t.realPath ⟨String.ofList (normal spec)⟩ = .ok a →
      t.nodeAt? a = some .directory → ∃ ps qs, filesOf t spec = .ok ps ∧
        filesOf t (spec ++ "/") = .ok qs ∧ List.Forall₂ (Same t) ps qs) ∧
    (∀ base, spec = base ++ "/**" ∨ spec = base ++ "/..." →
      ∀ ps, filesOf t (spec ++ "/") = .ok ps ↔ filesOf t spec = .ok ps) ∧
    (∀ base name a, NamesDirectories spec base name → t.realPath ⟨base⟩ = .ok a →
      t.nodeAt? a = some .directory → filesOf t (spec ++ "/") = .ok [] ∧
        (filesOf t (spec ++ "/") = filesOf t spec ↔
          ∀ names, Reaches t a names → name ∉ names.dropLast)) := by
  have hslash := normal_append_slash hend
  refine ⟨fun a hwild hb hdir => filesOf_slash_of_directory ht hwild hb hdir hslash,
    fun base hspec ps => ?_, fun base name a hnamed hbase hdir => ?_⟩
  · obtain ⟨front, hfront⟩ := exists_normal_eq hspec
    exact filesOf_slash_of_deep hfront hslash
  · have hnone := filesOf_slash_of_named ht hnamed hbase hdir hslash
    obtain ⟨ps, hfiles, hmem⟩ := filesOf_named ht hnamed hbase hdir
    refine ⟨hnone, ?_⟩
    rw [hnone, hfiles, Except.ok.injEq, eq_comm, List.eq_nil_iff_forall_not_mem]
    constructor
    · intro hall names hreach hname
      exact hall _ ((hmem _).2 ⟨names, hreach, hname, rfl⟩)
    · intro hall p hp
      obtain ⟨names, hreach, hname, -⟩ := (hmem p).1 hp
      exact hall names hreach hname

theorem dtoTree_trailing_slash :
    (∃ ps qs, filesOf dtoTree "m" = .ok ps ∧ filesOf dtoTree "m/" = .ok qs ∧
      List.Forall₂ (Same dtoTree) ps qs) ∧
    (∀ ps, filesOf dtoTree "m/.../" = .ok ps ↔ filesOf dtoTree "m/..." = .ok ps) ∧
    filesOf dtoTree "m/**/dto/" = .ok [] ∧
    filesOf dtoTree "m/**/dto/" ≠ filesOf dtoTree "m/**/dto" := by
  have hnames : NamesDirectories "m/**/dto" "m" "dto" :=
    ⟨by decide, by decide, by decide, by decide, by decide, by decide⟩
  have hreach : Reaches dtoTree ["m"] ["dto", "a.go"] :=
    ⟨⟨_, rfl⟩, ⟨"a.go", rfl, by decide, by decide⟩, by decide⟩
  have hend : Text.trimEnd "m".toList = "m".toList := by decide
  have hend' : Text.trimEnd "m/...".toList = "m/...".toList := by decide
  have hend'' : Text.trimEnd "m/**/dto".toList = "m/**/dto".toList := by decide
  have hplain := (trailing_slash dtoTree_isListing hend).1
  have hdeep := (trailing_slash dtoTree_isListing hend').2.1
  obtain ⟨hnone, hagree⟩ := (trailing_slash dtoTree_isListing hend'').2.2 _ _ _ hnames rfl rfl
  exact ⟨hplain _ (by decide) rfl rfl, hdeep "m" (.inr rfl), hnone,
    fun h => hagree.1 h _ hreach (by decide)⟩

/-- The slash hides a source that the root finds without it. -/
theorem dtoTree_slash_hides : filesOf dtoTree "m/**/dto" = .ok [⟨"m/dto/a.go"⟩] ∧
    filesOf dtoTree "m/**/dto/" = .ok [] := by
  have hparts : parts "m/**/dto" = (⟨"m"⟩, some "**/dto".toList) := rfl
  have hparts' : parts "m/**/dto/" = (⟨"m"⟩, some "**/dto/".toList) := rfl
  have hwithout : filesDeep dtoTree "m/**/dto" ⟨"m"⟩ ("**/".toList ++ "dto".toList) = _ :=
    filesDeep_of_not_isWild ⟨"m"⟩ (by decide) (by decide) (by decide)
  have hwith : filesDeep dtoTree "m/**/dto/" ⟨"m"⟩ ("**/".toList ++ "dto/".toList) = _ :=
    filesDeep_of_not_isWild ⟨"m"⟩ (by decide) (by decide) (by decide)
  constructor
  · rw [filesOf_eq_filesDeep hparts rfl (by decide)]
    exact hwithout.trans (by rw [dtoTree_sources]; rfl)
  · rw [filesOf_eq_filesDeep hparts' rfl (by decide)]
    exact hwith.trans (by rw [dtoTree_sources]; rfl)

end RootSpec

end GoSchema
