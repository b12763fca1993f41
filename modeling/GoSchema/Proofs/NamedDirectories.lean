/-
# Roots that name directories

A root `base/**/name` finds what lies below the base in a directory called `name`: its text occurs
between slashes in the text of a directory exactly when the directories on the way to it are called
so one after the other. What counts is the root as it is read, which is without the blanks at its
ends and with stars for three dots. So a name that ends in a blank is never found by this root, and
a base with three dots or with a bracket in its text is not read as a base.

Key definitions: `normal`, `NamesDirectories`, `FindsIn`.
Key theorems: `occursIn_iff`, `infix_between_slashes_iff`, `splitAtWildcard_append`, `liesIn_iff`,
`filesOf_named`, `roots_expanded`, `odd_roots_miss`.
-/
import Mathlib.Data.List.Infix
import GoSchema.Proofs.FencedTexts
import GoSchema.Proofs.FoundFiles
import GoSchema.Proofs.ReadPatterns
import GoSchema.Proofs.WrittenScopes

namespace GoSchema

namespace Text

theorem occursIn_iff {part s : List Char} : occursIn part s = true ↔ part <:+: s := by
  induction s with
  | nil => simp [occursIn]
  | cons c s ih =>
    rw [occursIn, Bool.or_eq_true, ih, startsWith_iff, List.infix_cons_iff]
    exact or_congr_left ⟨fun ⟨rest, h⟩ => ⟨rest, h.symm⟩, fun ⟨rest, h⟩ => ⟨rest, h.symm⟩⟩

theorem any_eq_any_splitAt {sep : Char} {f : Char → Bool} (hsep : f sep = false) (s : List Char) :
    s.any f = (splitAt sep s).any (List.any · f) := by
  induction s with
  | nil => rfl
  | cons c s ih =>
    obtain ⟨first, more, hs⟩ := List.exists_cons_of_ne_nil (splitAt_ne_nil sep s)
    rw [hs] at ih
    by_cases hc : c = sep
    · simp [splitAt, hc, hs, hsep, ih]
    · simp [splitAt, hc, hs, ih, Bool.or_assoc]

/-- **Pieces occur between slashes** exactly when they are pieces one after the other. -/
theorem infix_between_slashes_iff {q : List (List Char)} (hq : q ≠ []) (hslash : ∀ w ∈ q, '/' ∉ w)
    (s : List Char) : '/' :: joinWith ['/'] q ++ ['/'] <:+: '/' :: s ++ ['/'] ↔
      q <:+: splitAt '/' s := by
  have hends : ∀ u : List Char, splitAt '/' ('/' :: u ++ ['/']) = [] :: (splitAt '/' u ++ [[]]) :=
    fun u => (splitAt_append [] (u ++ ['/'])).trans (by simp [splitAt_append, splitAt])
  constructor
  · rintro ⟨x, y, h⟩
    have hpieces := congrArg (splitAt '/') h
    have hx : x ++ ('/' :: joinWith ['/'] q ++ ['/']) ++ y =
        x ++ '/' :: (joinWith ['/'] q ++ '/' :: y) := by simp
    rw [hends, hx, splitAt_append, splitAt_append, splitAt_joinWith hq hslash] at hpieces
    obtain ⟨first, front, hfront⟩ := List.exists_cons_of_ne_nil (splitAt_ne_nil '/' x)
    obtain ⟨back, last, hback⟩ :=
      (List.eq_nil_or_concat' (splitAt '/' y)).resolve_left (splitAt_ne_nil '/' y)
    rw [hfront, hback, List.cons_append, List.cons.injEq, ← List.append_assoc, ← List.append_assoc]
      at hpieces
    exact ⟨front, back, (List.append_inj' hpieces.2 rfl).1⟩
  · rintro ⟨front, back, h⟩
    refine ⟨joinWith ['/'] ([] :: front), joinWith ['/'] (back ++ [[]]), ?_⟩
    have hs : '/' :: s ++ ['/'] = joinWith ['/'] ([] :: (splitAt '/' s ++ [[]])) := by
      rw [← hends, joinWith_splitAt]
    have hsplit : [] :: (splitAt '/' s ++ [[]]) = ([] :: front) ++ (q ++ (back ++ [[]])) := by
      rw [← h]
      simp
    rw [hs, hsplit, joinWith_append (List.cons_ne_nil _ _) (by simp [hq]),
      joinWith_append hq (by simp)]
    simp

end Text

namespace Path

theorem isName_of_undotted {s : String} (hne : s ≠ "") (hslash : '/' ∉ s.toList)
    (hdot : '.' ∉ s.toList) : IsName s := by
  have hidle : isIdle s.toList = false := by
    have hnodot : s.toList ≠ ['.'] := fun h => hdot (h ▸ List.mem_singleton.2 rfl)
    have hnil : s.toList ≠ [] := by simpa using hne
    simp [isIdle, hnodot, hnil]
  have hup : s.toList ≠ ['.', '.'] := fun h => hdot (h ▸ List.mem_cons_self)
  exact ⟨hslash, by simp [component?, hidle, hup]⟩

theorem extension?_eq_none {p : Path} {s : String}
    (h : (steps p.text.toList).getLast? = some (.name s)) (hdot : '.' ∉ s.toList) :
    p.extension? = none := by
  have hname : p.fileName? = some s := by
    rw [fileName?, components_eq, List.getLast?_append, h]
    rfl
  have hsplit : Text.splitAtLast? '.' s.toList = none := by
    simp only [Text.splitAtLast?, Text.dropWhile_ne_eq_nil (mt List.mem_reverse.1 hdot)]
  simp only [extension?, hname, hsplit]

end Path

namespace RootSpec

variable {t : FileTree} {a : AbsolutePath} {p q : Path} {names : List String} {spec : String}
  {base name : String}

/-! ### Bases and patterns -/

/-- A root as it is read: without blanks at its ends and with stars for three dots. -/
def normal (spec : String) : List Char :=
  Text.replace "...".toList "**".toList (Text.trim spec.toList)

theorem parts_eq (spec : String) : parts spec = splitAtWildcard (normal spec) := rfl

theorem isWild_eq_any (s : List Char) : isWild s = (Text.splitAt '/' s).any isWild :=
  Text.any_eq_any_splitAt rfl s

theorem isWild_of_mem_splitAt {s piece : List Char} (h : isWild s = false)
    (hpiece : piece ∈ Text.splitAt '/' s) : isWild piece = false := by
  rw [isWild_eq_any, List.any_eq_false] at h
  simpa using h piece hpiece

theorem splitAtWildcard_of_not_isWild {s : List Char} (h : isWild s = false) :
    splitAtWildcard s = (⟨String.ofList s⟩, none) := by
  have hdrop : (Text.splitAt '/' s).dropWhile (!isWild ·) = [] :=
    List.dropWhile_eq_nil_iff.2 fun piece hpiece => by simp [isWild_of_mem_splitAt h hpiece]
  simp only [splitAtWildcard, hdrop]

/-- A root is cut in front of the first part with a wildcard. -/
theorem splitAtWildcard_append {front back first : List Char} {more : List (List Char)}
    (hfront : isWild front = false) (hback : Text.splitAt '/' back = first :: more)
    (hfirst : isWild first = true) : splitAtWildcard (front ++ '/' :: back) =
      (⟨String.ofList (if front = [] then ['/'] else front)⟩, some back) := by
  have hplain : ∀ piece ∈ Text.splitAt '/' front, (!isWild piece) = true := fun piece hpiece => by
    simp [isWild_of_mem_splitAt hfront hpiece]
  have hdrop : (Text.splitAt '/' (front ++ '/' :: back)).dropWhile (!isWild ·) = first :: more := by
    rw [Text.splitAt_append, List.dropWhile_append_of_pos hplain, hback]
    simp [hfirst]
  have htake : (Text.splitAt '/' (front ++ '/' :: back)).takeWhile (!isWild ·) =
      Text.splitAt '/' front := by
    rw [Text.splitAt_append, List.takeWhile_append_of_pos hplain, hback]
    simp [hfirst]
  have hjoin : Text.joinWith ['/'] (first :: more) = back := by rw [← hback, Text.joinWith_splitAt]
  simp only [splitAtWildcard, hdrop, htake, Text.joinWith_splitAt, hjoin]
  by_cases hnil : front = []
  · simp [hnil]
  · simp [hnil]

theorem filesOf_of_not_contains (h : t.contains (baseOf spec) = false) :
    filesOf t spec = .ok [] := by
  unfold filesOf
  unfold baseOf at h
  simp [h]

/-- A pattern with `**` names sources at any depth. -/
theorem filesOf_eq_filesDeep {b : Path} {pattern : List Char}
    (hparts : parts spec = (b, some pattern)) (hb : t.contains b = true)
    (hstars : "**".toList <:+: pattern) : filesOf t spec = filesDeep t spec b pattern := by
  have hoccurs := Text.occursIn_iff.2 hstars
  unfold filesOf
  simp only [hparts, hb, hoccurs]
  rfl

/-! ### Directories with a name -/

theorem pathFrom_of_components (h : q.components = p.components ++ names.map .name) :
    pathFrom p q = Text.joinWith ['/'] (names.map String.toList) := by
  have hbelow : Path.componentsBelow p q = names.map .name := by
    rw [Path.componentsBelow, h, if_pos (List.isPrefixOf_iff_prefix.2 (List.prefix_append _ _)),
      List.drop_left]
  have htext : (names.map Path.Component.name).map Path.Component.text = names := by
    simp [Function.comp_def, Path.Component.text]
  rw [pathFrom, hbelow, Path.joined, htext]
  exact Text.toList_intercalate '/' names

/-- **What a file lies in.** Pieces are found on the way to a file exactly when directories are
called so one after the other. -/
theorem liesIn_iff (hp : p.text ≠ "") (hnames : ∀ s ∈ names, Path.IsName s) (hne : names ≠ [])
    {w : List (List Char)} (hw : w ≠ []) (hslash : ∀ piece ∈ w, '/' ∉ piece) :
    liesIn p (Text.joinWith ['/'] w) (names.foldl Path.child p) = true ↔
      w <:+: Text.splitAt '/' (Text.joinWith ['/'] (names.dropLast.map String.toList)) := by
  obtain ⟨dirs, last, rfl⟩ := (List.eq_nil_or_concat' names).resolve_left hne
  have hcomponents := Path.components_foldl_names hnames hp
  rw [List.map_append, ← List.append_assoc] at hcomponents
  obtain ⟨dir, hdir⟩ : ∃ dir, ((dirs ++ [last]).foldl Path.child p).parent? = some dir := by
    rw [List.foldl_append]
    have hlast := hnames last (List.mem_append_right _ (List.mem_singleton.2 rfl))
    exact Path.exists_parent? (hlast.endsInStep_child (Path.text_foldl_child_ne dirs hp))
  obtain ⟨c, hparent, -⟩ := Path.components_of_parent? hdir
  have hdirs : dir.components = p.components ++ dirs.map .name :=
    (List.append_inj' (hparent.symm.trans hcomponents) rfl).1
  rw [liesIn, hdir, Option.map_some, Option.getD_some, pathFrom_of_components hdirs,
    Text.occursIn_iff, Text.infix_between_slashes_iff hw hslash, List.dropLast_concat]

theorem splitAt_names (hnames : ∀ s ∈ names, Path.IsName s) :
    Text.splitAt '/' (Text.joinWith ['/'] (names.map String.toList)) =
      if names = [] then [[]] else names.map String.toList := by
  by_cases hne : names = []
  · simp [hne, Text.joinWith, Text.splitAt]
  · rw [if_neg hne, Text.splitAt_joinWith (by simpa using hne)]
    intro piece hpiece
    obtain ⟨s, hs, rfl⟩ := List.mem_map.1 hpiece
    exact (hnames s hs).single

/-- A name is found on the way to a file exactly when a directory has it. -/
theorem liesIn_name_iff (hp : p.text ≠ "") (hnames : ∀ s ∈ names, Path.IsName s) (hne : names ≠ [])
    (hname : Path.IsName name) :
    liesIn p name.toList (names.foldl Path.child p) = true ↔ name ∈ names.dropLast := by
  have hdirs : ∀ s ∈ names.dropLast, Path.IsName s :=
    fun s hs => hnames s (List.mem_of_mem_dropLast hs)
  have hpiece : ∀ piece ∈ [name.toList], '/' ∉ piece := by simpa using hname.single
  have hiff := liesIn_iff hp hnames hne (List.cons_ne_nil _ _) hpiece
  rw [Text.joinWith, splitAt_names hdirs, List.singleton_infix_iff] at hiff
  rw [hiff]
  split
  · rename_i hempty
    simp [hempty, hname.toList_ne_nil]
  · exact List.mem_map_of_injective fun _ _ => String.toList_injective

/-- A root that names the directories called `name` at any depth below a base. -/
structure NamesDirectories (spec base name : String) : Prop where
  text : normal spec = base.toList ++ "/**/".toList ++ name.toList
  literal : isWild base.toList = false
  plain : isWild name.toList = false
  single : '/' ∉ name.toList
  undotted : '.' ∉ name.toList
  nonempty : name ≠ ""

theorem dropDeep_of_not_isWild {s : List Char} (h : isWild s = false) : dropDeep s = s := by
  unfold dropDeep
  split
  · simp [isWild] at h
  · rfl

/-- Behind `**/`, a text without wildcards and without an extension stands for directories. -/
theorem filesDeep_of_not_isWild (b : Path) {rest : List Char} (hne : rest ≠ [])
    (hwild : isWild rest = false) (hextension : (Path.mk (String.ofList rest)).extension? = none) :
    filesDeep t spec b ("**/".toList ++ rest) =
      .ok ((sources (entriesUnder t b none)).filter (liesIn b rest)) := by
  have hdeep : dropDeep ("**/".toList ++ rest) = rest := dropDeep_of_not_isWild hwild
  rw [filesDeep, hdeep]
  split
  · exact absurd rfl hne
  · cases hwild
  · rw [if_pos (by simp [hwild, hextension])]

/-- A text with wildcards is a pattern for the ends of paths. -/
theorem filesDeep_of_isWild (b : Path) {pattern rest : List Char} (hdeep : dropDeep pattern = rest)
    (hwild : isWild rest = true) (hstars : rest ≠ ['*', '*']) :
    filesDeep t spec b pattern = (readPattern spec rest).map fun pat =>
      (sources (entriesUnder t b none)).filter fun file => matchesEnd pat (pathFrom b file) := by
  rw [filesDeep, hdeep]
  split
  · cases hwild
  · exact absurd rfl hstars
  · rw [if_neg (by simp [hwild])]

theorem NamesDirectories.parts_eq (h : NamesDirectories spec base name) (hbase : base ≠ "") :
    parts spec = (⟨base⟩, some ("**/".toList ++ name.toList)) := by
  have hpieces : Text.splitAt '/' ("**/".toList ++ name.toList) = ['*', '*'] :: [name.toList] := by
    rw [← Text.splitAt_of_not_mem h.single]
    exact Text.splitAt_append ['*', '*'] name.toList
  have hsplit := splitAtWildcard_append h.literal hpieces rfl
  rw [if_neg (by simpa using hbase), String.ofList_toList] at hsplit
  rw [← hsplit, RootSpec.parts_eq, h.text]
  simp

/-- **A root that names directories** finds what names reach through a directory called so. -/
theorem filesOf_named (ht : t.IsListing) (h : NamesDirectories spec base name)
    (hbase : t.realPath ⟨base⟩ = .ok a) (hdir : t.nodeAt? a = some .directory) :
    ∃ ps, filesOf t spec = .ok ps ∧ ∀ p, p ∈ ps ↔ ∃ names, Reaches t a names ∧
      name ∈ names.dropLast ∧ p = names.foldl Path.child ⟨base⟩ := by
  have hne : base ≠ "" := FileTree.text_ne_of_realPath hbase
  have hcontains : t.contains ⟨base⟩ = true := FileTree.contains_iff.2 ⟨a, hbase⟩
  have hname := Path.isName_of_undotted h.nonempty h.single h.undotted
  have hextension : (Path.mk (String.ofList name.toList)).extension? = none :=
    Path.extension?_eq_none (s := name) (by simp [hname.steps_eq]) h.undotted
  have hlies_iff : ∀ {names}, Reaches t a names →
      (liesIn ⟨base⟩ name.toList (names.foldl Path.child ⟨base⟩) = true ↔ name ∈ names.dropLast) :=
    fun {names} hreach => liesIn_name_iff hne (hreach.isName ht) (hreach.ne_nil hdir) hname
  refine ⟨(sources (entriesUnder t ⟨base⟩ none)).filter (liesIn ⟨base⟩ name.toList), ?_,
    fun p => ?_⟩
  · rw [filesOf_eq_filesDeep (h.parts_eq hne) hcontains ⟨[], '/' :: name.toList, rfl⟩,
      filesDeep_of_not_isWild _ (by simpa using h.nonempty) h.plain hextension]
  · rw [List.mem_filter, mem_sources_iff ht hbase]
    constructor
    · rintro ⟨⟨names, hreach, -, rfl⟩, hlies⟩
      exact ⟨names, hreach, (hlies_iff hreach).1 hlies, rfl⟩
    · rintro ⟨names, hreach, hmem, rfl⟩
      exact ⟨⟨names, hreach, by simp, rfl⟩, (hlies_iff hreach).2 hmem⟩

/-- A root that finds exactly what names reach from a place through a directory called `name`. -/
def FindsIn (t : FileTree) (spec : String) (a : AbsolutePath) (name : String) : Prop :=
  ∃ ps, filesOf t spec = .ok ps ∧ ∀ x, (∃ p ∈ ps, t.realPath p = .ok x) ↔
    ∃ names, x = a ++ names ∧ Reaches t a names ∧ name ∈ names.dropLast

theorem findsIn_of_namesDirectories (ht : t.IsListing) (h : NamesDirectories spec base name)
    (hbase : t.realPath ⟨base⟩ = .ok a) (hdir : t.nodeAt? a = some .directory) :
    FindsIn t spec a name := by
  obtain ⟨ps, hfiles, hmem⟩ := filesOf_named ht h hbase hdir
  refine ⟨ps, hfiles, fun x => ⟨?_, ?_⟩⟩
  · rintro ⟨p, hp, hreal⟩
    obtain ⟨names, hreach, hname, rfl⟩ := (hmem p).1 hp
    exact ⟨names, Except.ok.inj (hreal.symm.trans (hreach.realPath ht hbase)), hreach, hname⟩
  · rintro ⟨names, rfl, hreach, hname⟩
    exact ⟨_, (hmem _).2 ⟨names, hreach, hname, rfl⟩, hreach.realPath ht hbase⟩

/-- **Roots are expanded soundly, and each file once.** All that roots find is reached from their
bases, and a root that names directories finds all that is in them. -/
theorem roots_expanded (ht : t.IsListing) :
    (∀ specs ps, allFiles t specs = .ok ps → Expansion t specs ps) ∧
      ∀ spec base name a, NamesDirectories spec base name → t.realPath ⟨base⟩ = .ok a →
        t.nodeAt? a = some .directory → FindsIn t spec a name :=
  ⟨fun _ _ h => expansion ht h, fun _ _ _ _ h hbase hdir =>
    findsIn_of_namesDirectories ht h hbase hdir⟩

/-- Directories called `dto`, one of them in a directory that is passed over. -/
def dtoTree : FileTree where
  nodes := [
    (["m"], .directory), (["m", "dto"], .directory), (["m", "dto", "a.go"], .file (some "")),
    (["m", "dto", "a_test.go"], .file (some "")), (["m", "vendor"], .directory),
    (["m", "vendor", "dto"], .directory), (["m", "vendor", "dto", "v.go"], .file (some "")),
    (["m", "x.go"], .file (some ""))]

theorem dtoTree_isListing : dtoTree.IsListing where
  toIsTree := FileTree.isTree_of_all (by decide) (by decide)
  keys := by decide
  listed := by decide
  names := by decide

theorem dtoTree_sources :
    sources (entriesUnder dtoTree ⟨"m"⟩ none) = [⟨"m/dto/a.go"⟩, ⟨"m/x.go"⟩] := by
  have hbelow : dtoTree.below ["m"] = [(["dto"], .directory), (["dto", "a.go"], .file (some "")),
      (["dto", "a_test.go"], .file (some "")), (["vendor"], .directory),
      (["vendor", "dto"], .directory), (["vendor", "dto", "v.go"], .file (some "")),
      (["x.go"], .file (some ""))] := List.mergeSort_of_pairwise (by decide)
  have hreal : dtoTree.realPath ⟨"m"⟩ = .ok ["m"] := rfl
  rw [entriesUnder, hreal]
  dsimp only
  rw [hbelow]
  rfl

theorem dtoTree_roots :
    allFiles dtoTree ["m/x.go", "m/..."] = .ok [⟨"m/x.go"⟩, ⟨"m/dto/a.go"⟩] := by
  have hparts : parts "m/..." = (⟨"m"⟩, some "**".toList) := rfl
  have hall : filesOf dtoTree "m/..." = .ok [⟨"m/dto/a.go"⟩, ⟨"m/x.go"⟩] := by
    rw [filesOf_eq_filesDeep hparts rfl (List.infix_refl _), filesDeep, dtoTree_sources]
    rfl
  rw [allFiles, List.mapM_cons, List.mapM_cons, hall]
  rfl

theorem dtoTree_expanded :
    dtoTree.IsListing ∧ Expansion dtoTree ["m/x.go", "m/..."] [⟨"m/x.go"⟩, ⟨"m/dto/a.go"⟩] ∧
      NamesDirectories "m/.../dto " "m" "dto" ∧ FindsIn dtoTree "m/.../dto " ["m"] "dto" := by
  have hnames : NamesDirectories "m/.../dto " "m" "dto" :=
    ⟨by decide, by decide, by decide, by decide, by decide, by decide⟩
  obtain ⟨hall, hnamed⟩ := roots_expanded dtoTree_isListing
  exact ⟨dtoTree_isListing, hall _ _ dtoTree_roots, hnames, hnamed _ _ _ _ hnames rfl rfl⟩

/-- Directories whose texts are not read as they stand: one ends in a blank, one holds brackets, and
one three dots. -/
def oddTree : FileTree where
  nodes := [
    (["[m]"], .directory), (["[m]", "dto"], .directory), (["[m]", "dto", "b.go"], .file (some "")),
    (["m"], .directory), (["m", "dto "], .directory), (["m", "dto ", "a.go"], .file (some "")),
    (["v1..."], .directory), (["v1...", "dto"], .directory),
    (["v1...", "dto", "c.go"], .file (some ""))]

theorem not_findsIn {ps : List Path} (h : filesOf t spec = .ok ps) (hreach : Reaches t a names)
    (hname : name ∈ names.dropLast) (hno : ∀ p ∈ ps, t.realPath p ≠ .ok (a ++ names)) :
    ¬ FindsIn t spec a name := by
  rintro ⟨qs, hqs, hiff⟩
  obtain rfl := Except.ok.inj (h.symm.trans hqs)
  obtain ⟨p, hp, hreal⟩ := (hiff (a ++ names)).2 ⟨names, rfl, hreach, hname⟩
  exact hno p hp hreal

theorem oddTree_blank : filesOf oddTree "m/**/dto " = .ok [] := by
  have hbelow : oddTree.below ["m"] = [(["dto "], .directory),
      (["dto ", "a.go"], .file (some ""))] := List.mergeSort_of_pairwise (by decide)
  have hreal : oddTree.realPath ⟨"m"⟩ = .ok ["m"] := rfl
  have hparts : parts "m/**/dto " = (⟨"m"⟩, some "**/dto".toList) := rfl
  rw [filesOf_eq_filesDeep hparts rfl (by decide), filesDeep, entriesUnder, hreal]
  dsimp only
  rw [hbelow]
  rfl

theorem oddTree_brackets : filesOf oddTree "[m]/**/dto" = .ok [] := by
  have hbelow : oddTree.below [] = oddTree.nodes := List.mergeSort_of_pairwise (by decide)
  have hreal : oddTree.realPath ⟨"."⟩ = .ok [] := rfl
  have hparts : parts "[m]/**/dto" = (⟨"."⟩, some "[m]/**/dto".toList) := rfl
  have hdeep : dropDeep "[m]/**/dto".toList = "[m]/**/dto".toList := rfl
  have hpattern : Pattern.compile "[m]/**/dto" = .ok
      ⟨[.among [⟨'m', 'm'⟩], .char '/', .deep, .char 'd', .char 't', .char 'o']⟩ := by
    have hset : Pattern.bracketed "m]/**/dto".toList = some (['m'], "/**/dto".toList) := rfl
    have hopen : "[m]/**/dto".toList = '[' :: "m]/**/dto".toList := rfl
    rw [Pattern.compile, hopen, Pattern.compileFrom_among (by decide), hset]
    simp [Pattern.compileFrom, Pattern.withDeep, Pattern.ranges, Except.map]
  rw [filesOf_eq_filesDeep hparts rfl (by decide), filesDeep_of_isWild _ hdeep rfl (by decide),
    readPattern, String.ofList_toList, hpattern, entriesUnder, hreal]
  dsimp only
  rw [hbelow]
  rfl

theorem oddTree_dots : (filesOf oddTree "v1.../**/dto").toOption = none := by
  have hparts : parts "v1.../**/dto" = (⟨"."⟩, some "v1**/**/dto".toList) := rfl
  have hdeep : dropDeep "v1**/**/dto".toList = "v1**/**/dto".toList := rfl
  have hpattern : Pattern.compile "v1**/**/dto" = .error ⟨1, .starsInName⟩ := by
    simp [Pattern.compile, Pattern.compileFrom, Except.map]
  rw [filesOf_eq_filesDeep hparts rfl (by decide), filesDeep_of_isWild _ hdeep rfl (by decide),
    readPattern, String.ofList_toList, hpattern]
  rfl

/-- **Odd texts.** The blank is no part of the root, the brackets make the base a pattern, and so do
the dots, of which the pattern has a fault. -/
theorem odd_roots_miss :
    (oddTree.realPath ⟨"m"⟩ = .ok ["m"] ∧ ¬ FindsIn oddTree "m/**/dto " ["m"] "dto ") ∧
      (oddTree.realPath ⟨"[m]"⟩ = .ok ["[m]"] ∧ ¬ FindsIn oddTree "[m]/**/dto" ["[m]"] "dto") ∧
      (oddTree.realPath ⟨"v1..."⟩ = .ok ["v1..."] ∧
        ¬ FindsIn oddTree "v1.../**/dto" ["v1..."] "dto") := by
  have hblank : Reaches oddTree ["m"] ["dto ", "a.go"] :=
    ⟨⟨_, rfl⟩, ⟨"a.go", rfl, by decide, by decide⟩, by decide⟩
  have hbrackets : Reaches oddTree ["[m]"] ["dto", "b.go"] :=
    ⟨⟨_, rfl⟩, ⟨"b.go", rfl, by decide, by decide⟩, by decide⟩
  refine ⟨⟨rfl, not_findsIn oddTree_blank hblank (by decide) nofun⟩,
    ⟨rfl, not_findsIn oddTree_brackets hbrackets (by decide) nofun⟩, rfl, ?_⟩
  rintro ⟨ps, hps, -⟩
  have hfault := oddTree_dots
  rw [hps] at hfault
  cases hfault

end RootSpec

end GoSchema
