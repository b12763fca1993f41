/-
# Parsing directives

A text is scanned for `@` signs that do not follow a letter, a digit or an underscore. A word of one
of the known kinds is a directive, with the parameters that follow it in parentheses. A word that
only looks like one is an error, and any other word is prose. The scan returns the directives in
order and the text around them.

Key definitions: `readParams`, `bindAll`, `scan`, `inText`.
Key theorems: `readParams_length`, `readDirective_length`.
-/
import GoSchema.Directive.Basic
import GoSchema.Directive.Reader
import GoSchema.Unicode.Alphanumeric

namespace GoSchema.Directive

open Reader Unicode

/-- A parameter as written, before it is bound to a key of a kind. -/
structure WrittenParam where
  key : Option (List Char)
  value : Value
  raw : List Char

/-- The characters of keys and of directive names. -/
def isIdentChar (c : Char) : Bool := isAsciiAlphanumeric c || c = '_'

/-- Reads one parameter: a key with a value after a colon, or a value alone. -/
def readParam (s : List Char) : Except ValueFault (WrittenParam × List Char) :=
  let key := s.takeWhile isIdentChar
  match key, skipBlank (s.dropWhile isIdentChar) with
  | _ :: _, ':' :: rest =>
    (readValue [',', ')'] rest).map fun r => (⟨some key, r.value, r.raw⟩, r.left)
  | _, _ => (readValue [',', ')'] s).map fun r => (⟨none, r.value, r.raw⟩, r.left)

theorem readParam_length {s left : List Char} {p : WrittenParam}
    (h : readParam s = .ok (p, left)) : left.length ≤ s.length := by
  simp only [readParam] at h
  split at h
  · rename_i rest _ heq
    cases hr : readValue [',', ')'] rest with
    | error e => simp [hr, Except.map] at h
    | ok r =>
      rw [hr] at h
      cases h
      have h1 := readValue_length hr
      have h2 := skipBlank_length (s.dropWhile isIdentChar)
      have h3 := (List.dropWhile_suffix (l := s) isIdentChar).length_le
      rw [heq] at h2
      simp only [List.length_cons] at h2
      omega
  · cases hr : readValue [',', ')'] s with
    | error e => simp [hr, Except.map] at h
    | ok r =>
      rw [hr] at h
      cases h
      exact readValue_length hr

/-- Reads parameters up to the closing parenthesis; the opening one is already read. -/
def readParams (s : List Char) : Except DirectiveCause (List WrittenParam × List Char) :=
  match _hs : skipBlank s with
  | [] => .error .unbalancedParenthesis
  | c :: rest =>
    if c = ')' then .ok ([], rest)
    else
      match _hp : readParam (c :: rest) with
      | .error fault => .error (.value fault)
      | .ok (param, left) =>
        match _hl : skipBlank left with
        | [] => .error .unbalancedParenthesis
        | d :: more =>
          if d = ',' then (readParams more).map fun (others, left) => (param :: others, left)
          else if d = ')' then .ok ([param], more)
          else .error (.expectedInParams d)
termination_by s.length
decreasing_by
  have h1 := skipBlank_length s
  have h2 := readParam_length _hp
  have h3 := skipBlank_length left
  rw [_hs] at h1
  rw [_hl] at h3
  simp only [List.length_cons] at h1 h2 h3
  omega

/-- Whether a source text opens with a quote or a bracket. -/
def isMarked (raw : List Char) : Bool :=
  match raw with
  | [] => false
  | c :: _ => isQuote c || c = '['

/-- Binds one parameter. A key must be known; a bare word may be a flag; the first value without a
key is the name. -/
def bindParam (kind : Directive.Kind) (isFirst : Bool) (p : WrittenParam) :
    Except DirectiveCause Param :=
  let raw := String.ofList p.raw
  match p.key with
  | some written =>
    let key := String.ofList (normalKey written)
    if kind.keys.contains key then .ok ⟨key, p.value, raw⟩ else .error (.unknownParameter key)
  | none =>
    let word := String.ofList (normalKey p.raw)
    if !isMarked p.raw && kind.flagKeys.contains word then .ok ⟨word, .flag, raw⟩
    else if isFirst && kind.keys.contains "name" then .ok ⟨"name", p.value, raw⟩
    else .error (.unexpectedPositional raw)

/-- Binds parameters in order after those of `bound`; no key may be bound twice. -/
def bindFrom (kind : Directive.Kind) (bound : List Param) :
    List WrittenParam → Except DirectiveCause (List Param)
  | [] => .ok bound
  | p :: ps =>
    match bindParam kind bound.isEmpty p with
    | .error cause => .error cause
    | .ok param =>
      if bound.any (·.key = param.key) then .error (.duplicateParameter param.key)
      else bindFrom kind (bound ++ [param]) ps

/-- Whether a key is bound to a text that is not blank. -/
def isGiven (params : List Param) (key : String) : Bool :=
  params.any fun p =>
    p.key = key && (p.value.toText?.map fun t => !Text.isBlankText t.toList).getD false

/-- Binds all parameters of a directive and checks that the required ones are given. -/
def bindAll (kind : Directive.Kind) (ps : List WrittenParam) : Except DirectiveCause (List Param) :=
  match bindFrom kind [] ps with
  | .error cause => .error cause
  | .ok params =>
    match kind.requiredKeys.find? fun key => !isGiven params key with
    | some key => .error (.missingParameter key)
    | none => .ok params

/-- Reads what follows the name of a directive: parameters in parentheses, or nothing. -/
def readDirective (kind : Directive.Kind) (s : List Char) :
    Except DirectiveCause (List Param × List Char) :=
  match s with
  | '(' :: rest =>
    match readParams rest with
    | .error cause => .error cause
    | .ok (ps, left) => (bindAll kind ps).map fun params => (params, left)
  | _ => (bindAll kind []).map fun params => (params, s)

/-- Whether an unknown word after an `@` has the look of a directive: `gql` in any case and then a
capital. -/
def seemsDirective (name : List Char) : Bool :=
  match name with
  | g :: q :: l :: c :: _ => asciiLowerText [g, q, l] == "gql".toList && isAsciiUpper c
  | _ => false

/-- Whether a directive may begin after the character `prev`. -/
def atBoundary (prev : Option Char) : Bool :=
  match prev with
  | none => true
  | some c => !(isAlphanumeric c || c = '_')

theorem readParams_length {s left : List Char} {ps : List WrittenParam}
    (h : readParams s = .ok (ps, left)) : left.length ≤ s.length := by
  fun_induction readParams s generalizing ps left with
  | case1 => simp at h
  | case2 s rest hs =>
    cases h
    have := skipBlank_length s
    simp only [hs, List.length_cons] at this
    omega
  | case3 => simp at h
  | case4 => simp at h
  | case5 s c rest hs hc param left' hp more hl ih =>
    cases hr : readParams more with
    | error e => simp [hr, Except.map] at h
    | ok p =>
      rw [hr] at h
      obtain ⟨others, left''⟩ := p
      cases h
      have h0 := ih hr
      have h1 := skipBlank_length s
      have h2 := readParam_length hp
      have h3 := skipBlank_length left'
      simp only [hs, hl, List.length_cons] at h1 h2 h3
      omega
  | case6 s c rest hs hc param left' hp more hl =>
    cases h
    have h1 := skipBlank_length s
    have h2 := readParam_length hp
    have h3 := skipBlank_length left'
    simp only [hs, hl, List.length_cons] at h1 h2 h3
    omega
  | case7 => simp at h

theorem readDirective_length {kind : Directive.Kind} {s left : List Char} {params : List Param}
    (h : readDirective kind s = .ok (params, left)) : left.length ≤ s.length := by
  unfold readDirective at h
  split at h
  · rename_i rest
    split at h
    · simp at h
    · rename_i ps left' hp
      cases hb : bindAll kind ps with
      | error e => simp [hb, Except.map] at h
      | ok params' =>
        rw [hb] at h
        cases h
        have := readParams_length hp
        simp only [List.length_cons]
        omega
  · cases hb : bindAll kind [] with
    | error e => simp [hb, Except.map] at h
    | ok params' =>
      rw [hb] at h
      cases h
      exact Nat.le_refl _

/-- Scans a text that begins at byte `pos` after the character `prev`. Returns the directives in
order and the text without them. -/
def scan (pos : Nat) (prev : Option Char) (s : List Char) :
    Except DirectiveFault (List Directive × List Char) :=
  match s with
  | [] => .ok ([], [])
  | c :: rest =>
    if c = '@' && atBoundary prev then
      let name := rest.takeWhile isIdentChar
      let after := rest.dropWhile isIdentChar
      match Directive.Kind.ofName? name with
      | none =>
        if seemsDirective name then
          .error ⟨String.ofList (c :: name), pos, .unknownDirective⟩
        else
          (scan (pos + Text.byteLength (c :: name)) (some (name.getLast?.getD c)) after).map
            fun (ds, text) => (ds, c :: name ++ text)
      | some kind =>
        match _hd : readDirective kind after with
        | .error cause => .error ⟨kind.word, pos, cause⟩
        | .ok (params, left) =>
          let stop := pos + Text.byteLength (consumed s left)
          (scan stop (some ')') left).map fun (ds, text) => (⟨kind, params, pos, stop⟩ :: ds, text)
    else
      (scan (pos + c.utf8Size) (some c) rest).map fun (ds, text) => (ds, c :: text)
termination_by s.length
decreasing_by
  · have h1 := (List.dropWhile_suffix (l := rest) isIdentChar).length_le
    simp only [List.length_cons]
    omega
  · have h1 : after.length ≤ rest.length := (List.dropWhile_suffix _).length_le
    have h2 := readDirective_length _hd
    simp only [List.length_cons]
    omega
  · simp

/-- The directives of a text, in order. -/
def inText (s : String) : Except DirectiveFault (List Directive) :=
  (scan 0 none s.toList).map Prod.fst

end GoSchema.Directive
