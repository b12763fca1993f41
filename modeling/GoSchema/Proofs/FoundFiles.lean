/-
# What roots find

Whatever a root finds is reached from its base by names: a file called like a source and not like a
test, with no directory in between that is passed over. A directory that a pattern names stands for
the sources in it, so the names to them are those to the directory and one more. The sources of
several roots are those of each one in turn without the files that came before, so every file is
found once, and the files of the first roots come first.

Key definitions: `Reaches`, `Expansion`.
Key theorems: `mem_sources_iff`, `exists_reaches_of_mem`, `firsts_append`, `pairwise_firsts`,
`exists_mem_firsts`, `expansion`.
-/
import GoSchema.Files.Scan
import GoSchema.Proofs.NamedPlaces
import GoSchema.Proofs.Outcome

namespace GoSchema

theorem Text.endsWith_iff {tail s : List Char} : Text.endsWith tail s = true ↔ tail <:+ s := by
  rw [Text.endsWith, Option.isSome_iff_exists]
  simp only [Text.dropTrailing?_eq_some_iff]
  exact ⟨fun ⟨rest, h⟩ => ⟨rest, h.symm⟩, fun ⟨rest, h⟩ => ⟨rest, h.symm⟩⟩

theorem FileNode.exists_file {n : FileNode} (h : n ≠ .directory) : ∃ text, n = .file text := by
  cases n with
  | directory => exact absurd rfl h
  | file text => exact ⟨text, rfl⟩

namespace FileTree

variable {t : FileTree} {p : Path} {a : AbsolutePath}

theorem node_of_realPath (h : t.realPath p = .ok a) :
    ∃ n, t.nodeAt? a = some n ∧ t.node p = .ok n := by
  obtain ⟨hl, n, hn⟩ := realPath_eq_ok_iff.1 h
  exact ⟨n, hn, by simp [node, hl, hn]⟩

theorem contains_iff : t.contains p = true ↔ ∃ a, t.realPath p = .ok a := by
  simp only [realPath_eq_ok_iff, contains, node]
  cases t.locate p with
  | error e => simp
  | ok a =>
    cases hn : t.nodeAt? a with
    | none => simp [hn]
    | some n => simp [hn]

theorem isDir_iff (h : t.realPath p = .ok a) :
    t.isDir p = true ↔ t.nodeAt? a = some .directory := by
  obtain ⟨n, hn, hnode⟩ := node_of_realPath h
  rw [hn]
  cases n <;> simp [isDir, hnode]

end FileTree

namespace RootSpec

variable {t : FileTree} {a : AbsolutePath} {base p : Path} {names : List String}
  {maxDepth : Option Nat} {spec : String} {ps qs : List Path}

/-- Names that lead from a place to a source which is not passed over. -/
structure Reaches (t : FileTree) (a : AbsolutePath) (names : List String) : Prop where
  file : ∃ text, t.nodeAt? (a ++ names) = some (.file text)
  source : ∃ name, (a ++ names).getLast? = some name ∧
    ".go".toList <:+ name.toList ∧ ¬ "_test.go".toList <:+ name.toList
  passed : ∀ s ∈ names.dropLast, s.toList.head? ≠ some '.' ∧ s ≠ "vendor" ∧ s ≠ "testdata"

theorem isSourceName_iff {name : String} : isSourceName name = true ↔
    ".go".toList <:+ name.toList ∧ ¬ "_test.go".toList <:+ name.toList := by
  rw [isSourceName, Bool.and_eq_true, Text.endsWith_iff, Bool.not_eq_true', ← Bool.not_eq_true,
    Text.endsWith_iff]

theorem isSkippedName_eq_false_iff {s : String} : isSkippedName s = false ↔
    s.toList.head? ≠ some '.' ∧ s ≠ "vendor" ∧ s ≠ "testdata" := by
  simp [isSkippedName, and_assoc]

theorem isSource_iff : isSource p = true ↔
    ∃ name, p.fileName? = some name ∧ isSourceName name = true := by
  unfold isSource
  cases p.fileName? with
  | none => simp
  | some name => simp

theorem reaches_iff (ht : t.IsListing) (hp : t.realPath p = .ok (a ++ names)) {text : Option String}
    (hn : t.nodeAt? (a ++ names) = some (.file text)) : Reaches t a names ↔
      isSource p = true ∧ names.dropLast.any isSkippedName = false := by
  rw [isSource_iff, FileTree.fileName?_of_file ht.toIsTree hp hn, List.any_eq_false]
  simp only [isSourceName_iff, Bool.not_eq_true, isSkippedName_eq_false_iff]
  exact ⟨fun h => ⟨h.source, h.passed⟩, fun h => ⟨⟨text, hn⟩, h.1, h.2⟩⟩

theorem Reaches.isName (h : Reaches t a names) (ht : t.IsListing) : ∀ s ∈ names, Path.IsName s := by
  obtain ⟨text, hn⟩ := h.file
  exact ht.isName_of_mem hn

theorem Reaches.ne_nil (h : Reaches t a names) (hdir : t.nodeAt? a = some .directory) :
    names ≠ [] := by
  rintro rfl
  obtain ⟨text, hn⟩ := h.file
  rw [List.append_nil, hdir] at hn
  cases hn

/-- Names to a source go through directories. -/
theorem Reaches.append {front back : List String} (h : Reaches t (a ++ front) back)
    (hback : back ≠ []) (hfront : ∀ s ∈ front, isSkippedName s = false) :
    Reaches t a (front ++ back) := by
  obtain ⟨hfile, hsource, hpassed⟩ := h
  refine ⟨by rwa [← List.append_assoc], by rwa [← List.append_assoc], fun s hs => ?_⟩
  rw [List.dropLast_append_of_ne_nil hback] at hs
  rcases List.mem_append.1 hs with hs | hs
  · exact isSkippedName_eq_false_iff.1 (hfront s hs)
  · exact hpassed s hs

/-! ### What is found below a base -/

theorem mem_entriesUnder_iff (ht : t.IsListing) (hbase : t.realPath base = .ok a) {f : Found} :
    f ∈ entriesUnder t base maxDepth ↔ f = ⟨base, 0, t.isDir base⟩ ∨
      ∃ names n, (names ≠ [] ∧ t.nodeAt? (a ++ names) = some n) ∧
        (isSkipped names n = false ∧ ∀ d ∈ maxDepth, names.length ≤ d) ∧
        f = ⟨names.foldl Path.child base, names.length, n = .directory⟩ := by
  have hdepth : ∀ k, ((maxDepth.map fun d => decide (k ≤ d)).getD true = true) ↔
      ∀ d ∈ maxDepth, k ≤ d := by
    intro k
    cases maxDepth with
    | none => simp
    | some d => simp
  simp only [entriesUnder, hbase, List.mem_cons, List.mem_map, List.mem_filter, Prod.exists,
    ht.mem_below_iff, Bool.and_eq_true, Bool.not_eq_true', hdepth, and_assoc, eq_comm (a := f)]

/-- The files below a base are those that names lead to, with no directory in between that is passed
over. -/
theorem exists_file_iff (ht : t.IsListing) (hbase : t.realPath base = .ok a) :
    (∃ f ∈ entriesUnder t base maxDepth, f.isDirectory = false ∧ f.path = p) ↔
      ∃ names text, t.nodeAt? (a ++ names) = some (.file text) ∧
        names.dropLast.any isSkippedName = false ∧ (∀ d ∈ maxDepth, names.length ≤ d) ∧
        p = names.foldl Path.child base := by
  constructor
  · rintro ⟨f, hf, hfile, rfl⟩
    rcases (mem_entriesUnder_iff ht hbase).1 hf with rfl | ⟨names, n, ⟨-, hn⟩, ⟨hskip, hdepth⟩, rfl⟩
    · obtain ⟨n, hn⟩ := (FileTree.realPath_eq_ok_iff.1 hbase).2
      have hdir : n ≠ .directory := by
        rintro rfl
        simp [(FileTree.isDir_iff hbase).2 hn] at hfile
      obtain ⟨text, rfl⟩ := FileNode.exists_file hdir
      exact ⟨[], text, by simpa using hn, rfl, by simp, rfl⟩
    · obtain ⟨text, rfl⟩ := FileNode.exists_file (of_decide_eq_false hfile)
      exact ⟨names, text, hn, by simpa [isSkipped] using hskip, hdepth, rfl⟩
  · rintro ⟨names, text, hn, hskip, hdepth, rfl⟩
    by_cases hnames : names = []
    · subst hnames
      rw [List.append_nil] at hn
      refine ⟨_, (mem_entriesUnder_iff ht hbase).2 (.inl rfl), ?_, rfl⟩
      rw [Bool.eq_false_iff, ne_eq, FileTree.isDir_iff hbase, hn]
      nofun
    · exact ⟨_, (mem_entriesUnder_iff ht hbase).2 (.inr ⟨names, _, ⟨hnames, hn⟩,
        ⟨by simpa [isSkipped] using hskip, hdepth⟩, rfl⟩), by simp, rfl⟩

/-- **The sources below a base** are those that names reach from there. -/
theorem mem_sources_iff (ht : t.IsListing) (hbase : t.realPath base = .ok a) :
    p ∈ sources (entriesUnder t base maxDepth) ↔
      ∃ names, Reaches t a names ∧ (∀ d ∈ maxDepth, names.length ≤ d) ∧
        p = names.foldl Path.child base := by
  have hmem : p ∈ sources (entriesUnder t base maxDepth) ↔ isSource p = true ∧
      ∃ f ∈ entriesUnder t base maxDepth, f.isDirectory = false ∧ f.path = p := by
    unfold sources
    simp only [List.mem_map, List.mem_filter, Bool.and_eq_true, Bool.not_eq_true']
    constructor
    · rintro ⟨f, ⟨hf, hfile, hsource⟩, rfl⟩
      exact ⟨hsource, f, hf, hfile, rfl⟩
    · rintro ⟨hsource, f, hf, hfile, rfl⟩
      exact ⟨f, ⟨hf, hfile, hsource⟩, rfl⟩
  rw [hmem, exists_file_iff ht hbase]
  constructor
  · rintro ⟨hsource, names, text, hn, hskip, hdepth, rfl⟩
    have hp := FileTree.realPath_foldl_child ht.toIsTree (ht.isName_of_mem hn) hbase hn
    exact ⟨names, (reaches_iff ht hp hn).2 ⟨hsource, hskip⟩, hdepth, rfl⟩
  · rintro ⟨names, hreach, hdepth, rfl⟩
    obtain ⟨text, hn⟩ := hreach.file
    have hp := FileTree.realPath_foldl_child ht.toIsTree (ht.isName_of_mem hn) hbase hn
    obtain ⟨hsource, hskip⟩ := (reaches_iff ht hp hn).1 hreach
    exact ⟨hsource, names, text, hn, hskip, hdepth, rfl⟩

theorem exists_reaches_of_mem_filesOnLevel (ht : t.IsListing) (hbase : t.realPath base = .ok a)
    {pattern : List Char} (h : filesOnLevel t spec base pattern = .ok ps) (hp : p ∈ ps) :
    ∃ names, Reaches t a names ∧ p = names.foldl Path.child base := by
  obtain ⟨pat, -, rfl⟩ := Outcome.map_eq_ok_iff.1 h
  obtain ⟨f, hf, hp⟩ := List.mem_flatMap.1 hp
  obtain ⟨hf, hmatch⟩ := List.mem_filter.1 hf
  rcases (mem_entriesUnder_iff ht hbase).1 hf with rfl | ⟨names, n, ⟨hne, hn⟩, ⟨hskip, -⟩, rfl⟩
  · simp at hmatch
  · have hreal := FileTree.realPath_foldl_child ht.toIsTree (ht.isName_of_mem hn) hbase hn
    cases n with
    | directory =>
      -- the second walk starts from the directory and adds one name
      rw [if_pos (by simp), sourcesIn, mem_sources_iff ht hreal] at hp
      obtain ⟨more, hmore, -, rfl⟩ := hp
      have hmorepath : more.foldl Path.child (names.foldl Path.child base) =
          (names ++ more).foldl Path.child base := by rw [List.foldl_append]
      refine ⟨names ++ more, hmore.append (hmore.ne_nil hn) fun s hs => ?_, hmorepath⟩
      obtain ⟨front, last, rfl⟩ := (List.eq_nil_or_concat' names).resolve_left hne
      simp only [isSkipped, List.dropLast_concat, List.getLast?_concat, Option.map_some,
        Option.getD_some, decide_true, Bool.true_and, Bool.or_eq_false_iff, List.any_eq_false,
        Bool.not_eq_true] at hskip
      rcases List.mem_append.1 hs with hs | hs
      · exact hskip.1 s hs
      · rw [List.mem_singleton.1 hs]
        exact hskip.2
    | file text =>
      rw [if_neg (by simp)] at hp
      split at hp
      · rename_i hsource
        rw [List.mem_singleton.1 hp]
        exact ⟨names, (reaches_iff ht hreal hn).2 ⟨hsource, by simpa [isSkipped] using hskip⟩, rfl⟩
      · exact absurd hp List.not_mem_nil

theorem subset_of_filesDeep {pattern : List Char} (h : filesDeep t spec base pattern = .ok ps)
    (hp : p ∈ ps) : p ∈ sources (entriesUnder t base none) := by
  unfold filesDeep at h
  dsimp only at h
  split at h
  · exact Except.ok.inj h ▸ hp
  · exact Except.ok.inj h ▸ hp
  · split at h
    · exact List.mem_of_mem_filter (Except.ok.inj h ▸ hp)
    · obtain ⟨pat, -, rfl⟩ := Outcome.map_eq_ok_iff.1 h
      exact List.mem_of_mem_filter hp

/-- **Whatever a root finds** is reached from its base. -/
theorem exists_reaches_of_mem (ht : t.IsListing) (h : filesOf t spec = .ok ps) (hp : p ∈ ps) :
    ∃ a names, t.realPath (baseOf spec) = .ok a ∧ Reaches t a names ∧
      p = names.foldl Path.child (baseOf spec) := by
  unfold filesOf at h
  unfold baseOf
  generalize parts spec = r at h ⊢
  obtain ⟨base, pattern⟩ := r
  dsimp only at h ⊢
  cases hcontains : t.contains base with
  | false =>
    rw [hcontains] at h
    obtain rfl := Except.ok.inj h
    exact absurd hp List.not_mem_nil
  | true =>
    obtain ⟨a, hbase⟩ := FileTree.contains_iff.1 hcontains
    rw [hcontains, Bool.not_true, if_neg (by simp)] at h
    refine ⟨a, ?_⟩
    suffices hnames : ∃ names, Reaches t a names ∧ p = names.foldl Path.child base by
      obtain ⟨names, hreach, hp⟩ := hnames
      exact ⟨names, hbase, hreach, hp⟩
    cases pattern with
    | none =>
      dsimp only at h
      split at h
      · -- a file stands for itself
        rename_i hfile
        obtain rfl := Except.ok.inj h
        obtain ⟨n, hn, hnode⟩ := FileTree.node_of_realPath hbase
        cases n with
        | directory => simp [FileTree.isFile, hnode] at hfile
        | file text =>
          split at hp
          · rename_i hsource
            rw [List.mem_singleton.1 hp]
            exact ⟨[], (reaches_iff ht (by simpa using hbase) (by simpa using hn)).2 ⟨hsource, rfl⟩,
              rfl⟩
          · exact absurd hp List.not_mem_nil
      · obtain rfl := Except.ok.inj h
        obtain ⟨names, hreach, -, hp⟩ := (mem_sources_iff ht hbase).1 hp
        exact ⟨names, hreach, hp⟩
    | some pattern =>
      dsimp only at h
      split at h
      · obtain ⟨names, hreach, -, hp⟩ := (mem_sources_iff ht hbase).1 (subset_of_filesDeep h hp)
        exact ⟨names, hreach, hp⟩
      · exact exists_reaches_of_mem_filesOnLevel ht hbase h hp

theorem Reaches.realPath (h : Reaches t a names) (ht : t.IsListing)
    (hbase : t.realPath base = .ok a) :
    t.realPath (names.foldl Path.child base) = .ok (a ++ names) := by
  obtain ⟨text, hn⟩ := h.file
  exact FileTree.realPath_foldl_child ht.toIsTree (ht.isName_of_mem hn) hbase hn

/-! ### Each file once -/

/-- Things of two kinds are compared within their kinds. -/
instance lawfulBEq_sum {α β : Type} [BEq α] [BEq β] [LawfulBEq α] [LawfulBEq β] :
    LawfulBEq (α ⊕ β) where
  eq_of_beq {x y} h := by
    cases x with
    | inl a =>
      cases y with
      | inl b => exact congrArg Sum.inl (eq_of_beq h)
      | inr b => cases h
    | inr a =>
      cases y with
      | inl b => cases h
      | inr b => exact congrArg Sum.inr (eq_of_beq h)
  rfl {x} := by
    cases x with
    | inl a => exact beq_self_eq_true a
    | inr a => exact beq_self_eq_true a

theorem sublist_firsts (t : FileTree) : ∀ (ps : List Path) (seen : List (AbsolutePath ⊕ Path)),
    (firsts t seen ps).Sublist ps
  | [], _ => .slnil
  | p :: ps, seen => by
    rw [firsts]
    split
    · exact (sublist_firsts t ps seen).cons p
    · exact (sublist_firsts t ps _).cons_cons p

/-- What is seen is not found again. -/
theorem denoted_not_mem_seen : ∀ {ps : List Path} {seen : List (AbsolutePath ⊕ Path)},
    ∀ p ∈ firsts t seen ps, denoted t p ∉ seen
  | p :: ps, seen, q, hq => by
    rw [firsts] at hq
    split at hq
    · exact denoted_not_mem_seen q hq
    · rename_i hp
      rcases List.mem_cons.1 hq with rfl | hq
      · exact fun h => hp (List.contains_iff_mem.2 h)
      · exact fun h => denoted_not_mem_seen q hq (List.mem_cons_of_mem _ h)

theorem pairwise_firsts : ∀ {ps : List Path} {seen : List (AbsolutePath ⊕ Path)},
    (firsts t seen ps).Pairwise fun p q => denoted t p ≠ denoted t q
  | [], _ => .nil
  | p :: ps, seen => by
    rw [firsts]
    split
    · exact pairwise_firsts
    · refine List.pairwise_cons.2 ⟨fun q hq heq => ?_, pairwise_firsts⟩
      exact denoted_not_mem_seen q hq (heq ▸ List.mem_cons_self)

/-- Every file is seen or found. -/
theorem exists_mem_firsts : ∀ (ps : List Path) (seen : List (AbsolutePath ⊕ Path)),
    ∀ p ∈ ps, denoted t p ∈ seen ∨ ∃ q ∈ firsts t seen ps, denoted t q = denoted t p
  | p :: ps, seen, q, hq => by
    rw [firsts]
    split
    · rename_i hp
      rcases List.mem_cons.1 hq with rfl | hq
      · exact .inl (List.contains_iff_mem.1 hp)
      · exact exists_mem_firsts ps seen q hq
    · rcases List.mem_cons.1 hq with rfl | hq
      · exact .inr ⟨q, List.mem_cons_self, rfl⟩
      · rcases exists_mem_firsts ps (denoted t p :: seen) q hq with hseen | ⟨r, hr, heq⟩
        · rcases List.mem_cons.1 hseen with heq | hseen
          · exact .inr ⟨p, List.mem_cons_self, heq.symm⟩
          · exact .inl hseen
        · exact .inr ⟨r, List.mem_cons_of_mem _ hr, heq⟩

/-- **What is found first comes first**, and none of it comes again. -/
theorem firsts_append : ∀ (ps qs : List Path) (seen : List (AbsolutePath ⊕ Path)),
    ∃ rest, firsts t seen (ps ++ qs) = firsts t seen ps ++ rest ∧
      ∀ r ∈ rest, denoted t r ∉ seen ∧ ∀ p ∈ ps, denoted t p ≠ denoted t r
  | [], qs, seen => ⟨firsts t seen qs, rfl, fun r hr => ⟨denoted_not_mem_seen r hr, nofun⟩⟩
  | p :: ps, qs, seen => by
    rw [List.cons_append, firsts, firsts]
    split
    · rename_i hp
      obtain ⟨rest, heq, hrest⟩ := firsts_append ps qs seen
      refine ⟨rest, heq, fun r hr => ⟨(hrest r hr).1, fun q hq => ?_⟩⟩
      rcases List.mem_cons.1 hq with rfl | hq
      · intro hsame
        exact (hrest r hr).1 (hsame ▸ List.contains_iff_mem.1 hp)
      · exact (hrest r hr).2 q hq
    · obtain ⟨rest, heq, hrest⟩ := firsts_append ps qs (denoted t p :: seen)
      refine ⟨rest, by rw [heq, List.cons_append], fun r hr => ?_⟩
      obtain ⟨hseen, hother⟩ := hrest r hr
      rw [List.mem_cons, not_or] at hseen
      refine ⟨hseen.2, fun q hq => ?_⟩
      rcases List.mem_cons.1 hq with rfl | hq
      · exact Ne.symm hseen.1
      · exact hother q hq

/-! ### All roots -/

/-- What the sources of several roots are: each is reached from the base of a root, none is there
twice, those of the first roots come first, and every source of a root is there. -/
structure Expansion (t : FileTree) (specs : List String) (ps : List Path) : Prop where
  reached : ∀ p ∈ ps, ∃ spec ∈ specs, (∃ qs, filesOf t spec = .ok qs ∧ p ∈ qs) ∧
    ∃ a names, t.realPath (baseOf spec) = .ok a ∧ t.realPath p = .ok (a ++ names) ∧
      Reaches t a names
  once : ps.Pairwise fun p q => t.realPath p ≠ t.realPath q
  ordered : ∀ early late, specs = early ++ late → ∃ first rest, ps = first ++ rest ∧
    allFiles t early = .ok first ∧ ∀ p ∈ rest, ∀ spec ∈ early, ∀ qs, filesOf t spec = .ok qs →
      ∀ q ∈ qs, t.realPath q ≠ t.realPath p
  complete : ∀ spec ∈ specs, ∃ qs, filesOf t spec = .ok qs ∧
    ∀ q ∈ qs, ∃ p ∈ ps, t.realPath p = t.realPath q

variable {specs : List String} {found : List (List Path)}

theorem reached_of_mapM (ht : t.IsListing) (h : specs.mapM (filesOf t) = .ok found)
    (hp : p ∈ found.flatten) : ∃ spec ∈ specs, (∃ qs, filesOf t spec = .ok qs ∧ p ∈ qs) ∧
      ∃ a names, t.realPath (baseOf spec) = .ok a ∧ t.realPath p = .ok (a ++ names) ∧
        Reaches t a names := by
  obtain ⟨qs, hqs, hp⟩ := List.mem_flatten.1 hp
  obtain ⟨spec, hspec, hfiles⟩ := Pointwise.exists_left (Outcome.forall₂_of_mapM h) hqs
  obtain ⟨a, names, hbase, hreach, rfl⟩ := exists_reaches_of_mem ht hfiles hp
  exact ⟨spec, hspec, ⟨qs, hfiles, hp⟩, a, names, hbase, hreach.realPath ht hbase, hreach⟩

theorem mem_flatten_of_mapM (h : specs.mapM (filesOf t) = .ok found) (hspec : spec ∈ specs)
    (hfiles : filesOf t spec = .ok qs) (hp : p ∈ qs) : p ∈ found.flatten := by
  obtain ⟨rs, hrs, hfiles'⟩ := Pointwise.exists_right (Outcome.forall₂_of_mapM h) hspec
  obtain rfl := Except.ok.inj (hfiles.symm.trans hfiles')
  exact List.mem_flatten.2 ⟨qs, hrs, hp⟩

theorem denoted_eq_iff (ht : t.IsListing) (h : specs.mapM (filesOf t) = .ok found) {q : Path}
    (hp : p ∈ found.flatten) (hq : q ∈ found.flatten) :
    denoted t p = denoted t q ↔ t.realPath p = t.realPath q := by
  obtain ⟨-, -, -, a, names, -, hp, -⟩ := reached_of_mapM ht h hp
  obtain ⟨-, -, -, b, more, -, hq, -⟩ := reached_of_mapM ht h hq
  simp [denoted, hp, hq]

/-- **The sources of roots** are an expansion of them. -/
theorem expansion (ht : t.IsListing) (h : allFiles t specs = .ok ps) : Expansion t specs ps := by
  obtain ⟨found, hfound, rfl⟩ := Outcome.map_eq_ok_iff.1 h
  have hmem : ∀ p ∈ firsts t [] found.flatten, p ∈ found.flatten :=
    fun p hp => (sublist_firsts t _ _).subset hp
  refine ⟨fun p hp => reached_of_mapM ht hfound (hmem p hp), ?once, ?ordered, ?complete⟩
  case once =>
    refine pairwise_firsts.imp_of_mem fun {p q} hp hq hne heq => ?_
    exact hne ((denoted_eq_iff ht hfound (hmem p hp) (hmem q hq)).2 heq)
  case ordered =>
    rintro early late rfl
    obtain ⟨front, hfront, hrest⟩ := Outcome.bind_eq_ok_iff.1 (List.mapM_append.symm.trans hfound)
    obtain ⟨back, -, hback⟩ := Outcome.bind_eq_ok_iff.1 hrest
    obtain rfl := Except.ok.inj hback
    obtain ⟨rest, heq, hnew⟩ := firsts_append (t := t) front.flatten back.flatten []
    rw [← List.flatten_append] at heq
    refine ⟨firsts t [] front.flatten, rest, heq, by rw [allFiles, hfront]; rfl, ?_⟩
    intro p hp spec hspec qs hqs q hq hsame
    have hpmem : p ∈ (front ++ back).flatten := hmem p (heq ▸ List.mem_append_right _ hp)
    have hqfront : q ∈ front.flatten := mem_flatten_of_mapM hfront hspec hqs hq
    have hqmem : q ∈ (front ++ back).flatten := by
      rw [List.flatten_append]
      exact List.mem_append_left _ hqfront
    exact (hnew p hp).2 q hqfront ((denoted_eq_iff ht hfound hqmem hpmem).2 hsame)
  case complete =>
    intro spec hspec
    obtain ⟨qs, -, hfiles⟩ := Pointwise.exists_right (Outcome.forall₂_of_mapM hfound) hspec
    refine ⟨qs, hfiles, fun q hq => ?_⟩
    have hq : q ∈ found.flatten := mem_flatten_of_mapM hfound hspec hfiles hq
    obtain ⟨p, hp, heq⟩ := (exists_mem_firsts _ _ q hq).resolve_left List.not_mem_nil
    exact ⟨p, hp, (denoted_eq_iff ht hfound (hmem p hp) hq).1 heq⟩

end RootSpec

end GoSchema
