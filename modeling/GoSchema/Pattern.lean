/-
# Patterns

Patterns over names and paths: `?` is any character, `*` any run of characters, `**` as a whole path
component any number of components, and brackets hold characters and ranges, or after `!` the
characters that are not meant. Whether a slash and a leading dot must be written out is an option of
the match.

A failed match tells whether a longer run for an earlier `*` could help: the text may be at its end
too early, and then nothing can.

Key definitions: `Pattern`, `Pattern.compile`, `Pattern.matchesText`, `Pattern.Rules`.
-/
import GoSchema.Fault

namespace GoSchema

namespace Pattern

/-- Characters from `first` to `last`. -/
structure Range where
  first : Char
  last : Char
  deriving DecidableEq, Repr

def Range.holds (r : Range) (c : Char) : Bool := r.first ≤ c && c ≤ r.last

/-- A part of a pattern. -/
inductive Part
  | char (c : Char)
  | anyChar
  /-- Any run of characters. -/
  | run
  /-- Any number of path components. -/
  | deep
  | among (set : List Range)
  | except (set : List Range)
  deriving DecidableEq, Repr

/-- The ranges between brackets. -/
def ranges : List Char → List Range
  | a :: '-' :: b :: rest => ⟨a, b⟩ :: ranges rest
  | a :: rest => ⟨a, a⟩ :: ranges rest
  | [] => []

/-- The parts with one more `**`; next to another one it adds nothing, except to a pattern of one
part. -/
def withDeep (done : List Part) : List Part :=
  if done.length > 1 && done.getLast? = some .deep then done else done ++ [.deep]

/-- The characters between brackets and what follows them; the opening bracket is already read. The
first character may be a closing bracket. -/
def bracketed (s : List Char) : Option (List Char × List Char) :=
  match s with
  | [] => none
  | a :: rest =>
    match rest.dropWhile (· ≠ ']') with
    | [] => none
    | _ :: left => some (a :: rest.takeWhile (· ≠ ']'), left)

theorem bracketed_length {s set left : List Char} (h : bracketed s = some (set, left)) :
    left.length < s.length := by
  unfold bracketed at h
  split at h
  · simp at h
  · rename_i a rest
    split at h
    · simp at h
    · rename_i c more heq
      cases h
      have := (List.dropWhile_suffix (l := rest) (· ≠ ']')).length_le
      rw [heq] at this
      simp only [List.length_cons] at this ⊢
      omega

/-- Reads the parts that are left. The text begins at character `pos`, after the character `prev`;
`done` are the parts before it. -/
def compileFrom (pos : Nat) (prev : Option Char) (done : List Part) (s : List Char) :
    Except PatternFault (List Part) :=
  match s with
  | [] => .ok done
  | '?' :: rest => compileFrom (pos + 1) (some '?') (done ++ [.anyChar]) rest
  | '*' :: '*' :: '*' :: _ => .error ⟨pos + 2, .starRun⟩
  | '*' :: '*' :: rest =>
    if prev.isNone || prev = some '/' then
      match rest with
      | [] => .ok (withDeep done)
      | c :: more =>
        if c = '/' then compileFrom (pos + 3) (some '/') (withDeep done) more
        else .error ⟨pos + 2, .starsInName⟩
    else .error ⟨pos - 1, .starsInName⟩
  | '*' :: rest => compileFrom (pos + 1) (some '*') (done ++ [.run]) rest
  | '[' :: '!' :: rest =>
    match h : bracketed rest with
    | none => .error ⟨pos, .openRange⟩
    | some (set, left) =>
      compileFrom (pos + set.length + 3) (some ']') (done ++ [.except (ranges set)]) left
  | '[' :: rest =>
    match h : bracketed rest with
    | none => .error ⟨pos, .openRange⟩
    | some (set, left) =>
      compileFrom (pos + set.length + 2) (some ']') (done ++ [.among (ranges set)]) left
  | c :: rest => compileFrom (pos + 1) (some c) (done ++ [.char c]) rest
termination_by s.length
decreasing_by
  · simp
  · simp only [List.length_cons]
    omega
  · simp
  · have := bracketed_length h
    simp only [List.length_cons]
    omega
  · have := bracketed_length h
    simp only [List.length_cons]
    omega
  · simp

/-- What must be written out in a pattern. -/
structure Rules where
  /-- A slash. -/
  slash : Bool := false
  /-- A dot at the start of a path component. -/
  dot : Bool := false

/-- The rules for matching paths. -/
def Rules.path : Rules := ⟨true, true⟩

/-- The outcome of a match. -/
inductive Outcome
  | hit
  | miss
  /-- The text is at its end too early. -/
  | dead
  deriving DecidableEq, Repr

/-- Whether a part matches one character; `atStart` tells whether a path component starts there. -/
def admits (rules : Rules) (atStart : Bool) (part : Part) (c : Char) : Bool :=
  let barred := (rules.slash && c = '/') || (atStart && rules.dot && c = '.')
  match part with
  | .char d => c = d
  | .anyChar => !barred
  | .among set => !barred && set.any (·.holds c)
  | .except set => !barred && !set.any (·.holds c)
  | .run | .deep => false

/-- Tries `next` behind longer and longer runs. -/
def lengthen (rules : Rules) (isDeep : Bool) (next : Bool → List Char → Outcome) :
    Bool → List Char → Outcome
  | atStart, [] => next atStart []
  | atStart, c :: rest =>
    if atStart && rules.dot && c = '.' then .miss
    else if isDeep && c ≠ '/' then lengthen rules isDeep next false rest
    else if !isDeep && rules.slash && c = '/' then .miss
    else
      match next (c = '/') rest with
      | .miss => lengthen rules isDeep next (c = '/') rest
      | outcome => outcome

/-- Matches parts against a text. -/
def matchParts (rules : Rules) : List Part → Bool → List Char → Outcome
  | [], _, [] => .hit
  | [], _, _ :: _ => .miss
  | part :: parts, atStart, s =>
    let next := matchParts rules parts
    match part with
    | .run | .deep =>
      match next atStart s with
      | .miss => lengthen rules (part = .deep) next atStart s
      | outcome => outcome
    | _ =>
      match s with
      | [] => .dead
      | c :: rest => if admits rules atStart part c then next (c = '/') rest else .miss

end Pattern

/-- A pattern. -/
structure Pattern where
  parts : List Pattern.Part
  deriving DecidableEq, Repr

namespace Pattern

/-- Reads a pattern. -/
def compile (s : String) : Except PatternFault Pattern :=
  (compileFrom 0 none [] s.toList).map Pattern.mk

/-- Whether a pattern matches all of a text. -/
def matchesText (p : Pattern) (rules : Rules) (s : List Char) : Bool :=
  matchParts rules p.parts true s = .hit

end Pattern

end GoSchema
