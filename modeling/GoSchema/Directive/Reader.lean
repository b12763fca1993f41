/-
# Reading values

Values are read from the front of a text; each reader returns what it read and what is left. A value
is a quoted string with backslash escapes, a list in brackets, or a bare run of characters in which
brackets balance. The source text of a value is kept beside it, so that `[String!]!` survives as it
is written.

Key definitions: `readQuoted`, `readList`, `readBare`, `readValue`.
Key theorems: `readQuoted_length`, `readList_length`, `readValue_length`: what is left is never
longer than what was given.
-/
import GoSchema.Directive.Fault
import GoSchema.Directive.Value

namespace GoSchema.Reader

open Unicode

/-- The characters that open and close a string. -/
def isQuote (c : Char) : Bool := c = '"' || c = '\''

/-- The character that a backslash and `c` stand for. -/
def unescape (c : Char) : Char := if c = 'n' then '\n' else if c = 't' then '\t' else c

/-- The text without leading white space. -/
def skipBlank (s : List Char) : List Char := s.dropWhile isBlank

/-- The beginning of `s` that is no longer there in its end `rest`. -/
def consumed (s rest : List Char) : List Char := s.take (s.length - rest.length)

/-- Reads a string up to its closing quote; the opening one is already read. -/
def readQuoted (quote : Char) : List Char → Option (List Char × List Char)
  | [] => none
  | '\\' :: [] => none
  | '\\' :: c :: rest => (readQuoted quote rest).map fun (s, left) => (unescape c :: s, left)
  | c :: rest =>
    if c = quote then some ([], rest)
    else (readQuoted quote rest).map fun (s, left) => (c :: s, left)

/-- Reads an unquoted list item at bracket depth `depth`, up to a comma or bracket that ends it. -/
def readListItem (depth : Nat) : List Char → Except ValueFault (List Char × List Char)
  | [] => .ok ([], [])
  | c :: rest =>
    if depth = 0 && (c = ',' || c = ']') then .ok ([], c :: rest)
    else if isQuote c then .error .quoteInListItem
    else
      (readListItem (if c = '[' then depth + 1 else if c = ']' then depth - 1 else depth) rest).map
        fun (item, left) => (c :: item, left)

/-- Reads one list item, which may be missing. -/
def readItem (s : List Char) : Except ValueFault (List String × List Char) :=
  match s with
  | [] => .error .unterminatedList
  | c :: rest =>
    if isQuote c then
      match readQuoted c rest with
      | none => .error .unterminatedString
      | some (item, left) => .ok ([String.ofList item], left)
    else
      (readListItem 0 (c :: rest)).map fun (item, left) =>
        (if (Text.trim item).isEmpty then [] else [String.ofList (Text.trim item)], left)

theorem skipBlank_length (s : List Char) : (skipBlank s).length ≤ s.length :=
  (List.dropWhile_suffix _).length_le

theorem readQuoted_length {quote : Char} {s t left : List Char}
    (h : readQuoted quote s = some (t, left)) : left.length < s.length := by
  fun_induction readQuoted quote s generalizing t left with
  | case1 => simp at h
  | case2 => simp at h
  | case3 c rest ih =>
    obtain ⟨⟨s', left'⟩, h', heq⟩ := Option.map_eq_some_iff.1 h
    obtain ⟨-, rfl⟩ := Prod.mk.inj heq
    have := ih h'
    simp only [List.length_cons]
    omega
  | case4 c rest => simp_all
  | case5 c rest _ _ _ ih =>
    obtain ⟨⟨s', left'⟩, h', heq⟩ := Option.map_eq_some_iff.1 h
    obtain ⟨-, rfl⟩ := Prod.mk.inj heq
    have := ih h'
    simp only [List.length_cons]
    omega

theorem readListItem_length {depth : Nat} {s t left : List Char}
    (h : readListItem depth s = .ok (t, left)) : left.length ≤ s.length := by
  induction s generalizing depth t left with
  | nil => simp_all [readListItem]
  | cons c rest ih =>
    rw [readListItem] at h
    split at h
    · cases h; simp
    · split at h
      · simp at h
      · cases hr : readListItem
          (if c = '[' then depth + 1 else if c = ']' then depth - 1 else depth) rest with
        | error e => simp [hr, Except.map] at h
        | ok p =>
          rw [hr] at h
          obtain ⟨t', left'⟩ := p
          cases h
          have := ih hr
          simp only [List.length_cons]
          omega

theorem readItem_length {s left : List Char} {items : List String}
    (h : readItem s = .ok (items, left)) : left.length ≤ s.length := by
  unfold readItem at h
  split at h
  · simp at h
  · rename_i c rest
    split at h
    · split at h
      · simp at h
      · rename_i hq
        cases h
        have := readQuoted_length hq
        simp only [List.length_cons]
        omega
    · cases hr : readListItem 0 (c :: rest) with
      | error e => simp [hr, Except.map] at h
      | ok p =>
        rw [hr] at h
        obtain ⟨t', left'⟩ := p
        cases h
        exact readListItem_length hr

/-- Reads the items of a list up to its closing bracket; the opening one is already read. Items that
are empty do not count. -/
def readList (s : List Char) : Except ValueFault (List String × List Char) :=
  match _hs : skipBlank s with
  | [] => .error .unterminatedList
  | c :: rest =>
    if c = ']' then .ok ([], rest)
    else
      match _hi : readItem (c :: rest) with
      | .error e => .error e
      | .ok (items, left) =>
        match _hl : skipBlank left with
        | [] => .error .unterminatedList
        | d :: more =>
          if d = ',' then (readList more).map fun (others, left) => (items ++ others, left)
          else if d = ']' then .ok (items, more)
          else .error (.expectedInList d)
termination_by s.length
decreasing_by
  have h1 := skipBlank_length s
  have h2 := readItem_length _hi
  have h3 := skipBlank_length left
  rw [_hs] at h1
  rw [_hl] at h3
  simp only [List.length_cons] at h1 h2 h3
  omega

/-- Passes over the text that follows a list, up to one of `stops`. -/
def skipTrailing (stops : List Char) : List Char → Except ValueFault (List Char)
  | [] => .ok []
  | c :: rest =>
    if stops.contains c then .ok (c :: rest)
    else if isQuote c || c = '[' || c = '(' then .error .bracketAfterList
    else skipTrailing stops rest

/-- Reads an unquoted value at bracket depth `depth`, up to one of `stops` outside brackets. -/
def readBare (stops : List Char) (depth : Nat) :
    List Char → Except ValueFault (List Char × List Char)
  | [] => if depth = 0 then .ok ([], []) else .error .unbalancedBrackets
  | c :: rest =>
    if depth = 0 && stops.contains c then .ok ([], c :: rest)
    else if c = '(' || c = '[' then
      (readBare stops (depth + 1) rest).map fun (s, left) => (c :: s, left)
    else if c = ')' || c = ']' then
      if depth = 0 then .error (.unbalanced c)
      else (readBare stops (depth - 1) rest).map fun (s, left) => (c :: s, left)
    else if isQuote c then .error .quoteInBareValue
    else (readBare stops depth rest).map fun (s, left) => (c :: s, left)

/-- A value, its source text, and what is left of the text it was read from. -/
structure Reading where
  value : Value
  raw : List Char
  left : List Char

/-- Reads the value that `s` begins with; `s` starts with no white space. -/
def readValueAt (stops s : List Char) : Except ValueFault (Value × List Char) :=
  match s with
  | [] =>
    (readBare stops 0 s).map fun (text, left) =>
      (.text (String.ofList (Text.trim text)), left)
  | c :: rest =>
    if isQuote c then
      match readQuoted c rest with
      | none => .error .unterminatedString
      | some (text, left) => .ok (.text (String.ofList text), left)
    else if c = '[' then
      match readList rest with
      | .error e => .error e
      | .ok (items, left) => (skipTrailing stops left).map fun left => (.list items, left)
    else
      (readBare stops 0 s).map fun (text, left) =>
        (.text (String.ofList (Text.trim text)), left)

/-- Reads one value, up to one of `stops` outside brackets, and the white space around it. -/
def readValue (stops s : List Char) : Except ValueFault Reading :=
  let start := skipBlank s
  (readValueAt stops start).map fun (value, left) =>
    ⟨value, Text.trim (consumed start left), skipBlank left⟩

theorem readList_length {s left : List Char} {items : List String}
    (h : readList s = .ok (items, left)) : left.length ≤ s.length := by
  fun_induction readList s generalizing items left with
  | case1 => simp at h
  | case2 s rest hs =>
    cases h
    have := skipBlank_length s
    simp only [hs, List.length_cons] at this
    omega
  | case3 => simp at h
  | case4 => simp at h
  | case5 s c rest hs hc items' left' hi more hl ih =>
    cases hr : readList more with
    | error e => simp [hr, Except.map] at h
    | ok p =>
      rw [hr] at h
      obtain ⟨others, left''⟩ := p
      cases h
      have h0 := ih hr
      have h1 := skipBlank_length s
      have h2 := readItem_length hi
      have h3 := skipBlank_length left'
      simp only [hs, hl, List.length_cons] at h1 h2 h3
      omega
  | case6 s c rest hs hc items' left' hi more hl =>
    cases h
    have h1 := skipBlank_length s
    have h2 := readItem_length hi
    have h3 := skipBlank_length left'
    simp only [hs, hl, List.length_cons] at h1 h2 h3
    omega
  | case7 => simp at h

theorem skipTrailing_length {stops s left : List Char} (h : skipTrailing stops s = .ok left) :
    left.length ≤ s.length := by
  induction s with
  | nil => cases h; simp
  | cons c rest ih =>
    rw [skipTrailing] at h
    split at h
    · cases h; simp
    · split at h
      · simp at h
      · have := ih h
        simp only [List.length_cons]
        omega

theorem readBare_length {stops s t left : List Char} {depth : Nat}
    (h : readBare stops depth s = .ok (t, left)) : left.length ≤ s.length := by
  induction s generalizing depth t left with
  | nil =>
    rw [readBare] at h
    split at h
    · cases h; simp
    · simp at h
  | cons c rest ih =>
    have step : ∀ d, (readBare stops d rest).map (fun (s, left) => (c :: s, left)) = .ok (t, left) →
        left.length ≤ (c :: rest).length := by
      intro d hd
      cases hr : readBare stops d rest with
      | error e => simp [hr, Except.map] at hd
      | ok p =>
        rw [hr] at hd
        obtain ⟨t', left'⟩ := p
        cases hd
        have := ih hr
        simp only [List.length_cons]
        omega
    rw [readBare] at h
    split at h
    · cases h; simp
    · split at h
      · exact step _ h
      · split at h
        · split at h
          · simp at h
          · exact step _ h
        · split at h
          · simp at h
          · exact step _ h

theorem readValueAt_length {stops s left : List Char} {v : Value}
    (h : readValueAt stops s = .ok (v, left)) : left.length ≤ s.length := by
  have bare : (readBare stops 0 s).map
      (fun (text, left) => ((.text (String.ofList (Text.trim text)) : Value), left)) =
        .ok (v, left) → left.length ≤ s.length := by
    intro hb
    cases hr : readBare stops 0 s with
    | error e => simp [hr, Except.map] at hb
    | ok p =>
      rw [hr] at hb
      obtain ⟨t', left'⟩ := p
      cases hb
      exact readBare_length hr
  unfold readValueAt at h
  split at h
  · exact bare h
  · rename_i c rest
    split at h
    · split at h
      · simp at h
      · rename_i hq
        cases h
        have := readQuoted_length hq
        simp only [List.length_cons]
        omega
    · split at h
      · split at h
        · simp at h
        · rename_i items left' hl
          cases hr : skipTrailing stops left' with
          | error e => simp [hr, Except.map] at h
          | ok p =>
            rw [hr] at h
            cases h
            have h1 := readList_length hl
            have h2 := skipTrailing_length hr
            simp only [List.length_cons]
            omega
      · exact bare h

/-- What is left after a value is no longer than what it was read from. -/
theorem readValue_length {stops s : List Char} {r : Reading}
    (h : readValue stops s = .ok r) : r.left.length ≤ s.length := by
  simp only [readValue] at h
  cases hr : readValueAt stops (skipBlank s) with
  | error e => simp [hr, Except.map] at h
  | ok p =>
    obtain ⟨v, left⟩ := p
    rw [hr] at h
    cases h
    have h1 := skipBlank_length s
    have h2 := readValueAt_length hr
    have h3 := skipBlank_length left
    simp only
    omega

/-- The source text read is what precedes the rest. -/
theorem consumed_append (s rest : List Char) : consumed (s ++ rest) rest = s := by
  simp [consumed]

end GoSchema.Reader
