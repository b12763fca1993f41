/-
# Text

Cutting and joining of text as lists of characters: trimming, lines, splitting at a character,
removing a leading or trailing part. Everything is structural recursion on the list.

Two ways of cutting into lines are used. `rows` keeps each line feed with its line, so the rows
concatenate to the text; `lines` drops the line ends, a carriage return before a line feed included.

Key definitions: `trim`, `lines`, `rows`, `splitAt`, `joinWith`, `dropLeading?`, `dropTrailing?`.
Key theorems: `rows_flatten`, `splitAt_ne_nil`, `joinWith_splitAt`.
-/
import GoSchema.Unicode.Blank

namespace GoSchema.Text

open Unicode

/-- The text without leading white space. -/
def trimStart (s : List Char) : List Char := s.dropWhile isBlank

/-- The text without trailing white space. -/
def trimEnd (s : List Char) : List Char := (s.reverse.dropWhile isBlank).reverse

/-- The text without white space at either end. -/
def trim (s : List Char) : List Char := trimEnd (trimStart s)

/-- The pieces between the occurrences of `sep`; there is always at least one. -/
def splitAt (sep : Char) : List Char → List (List Char)
  | [] => [[]]
  | c :: rest =>
    if c = sep then [] :: splitAt sep rest
    else
      match splitAt sep rest with
      | [] => [[c]]
      | piece :: pieces => (c :: piece) :: pieces

/-- The pieces with `sep` between each two. -/
def joinWith (sep : List Char) : List (List Char) → List Char
  | [] => []
  | [piece] => piece
  | piece :: next :: pieces => piece ++ sep ++ joinWith sep (next :: pieces)

/-- The lines of a text, each with its line feed. -/
def rows : List Char → List (List Char)
  | [] => []
  | c :: rest =>
    if c = '\n' then [c] :: rows rest
    else
      match rows rest with
      | [] => [[c]]
      | row :: more => (c :: row) :: more

/-- A row without its line end, which is a line feed or a carriage return and a line feed. -/
def withoutLineEnd (row : List Char) : List Char :=
  match row.reverse with
  | '\n' :: '\r' :: rest => rest.reverse
  | '\n' :: rest => rest.reverse
  | _ => row

/-- The lines of a text without their line ends; a line feed at the end starts no further line. -/
def lines (s : List Char) : List (List Char) := (rows s).map withoutLineEnd

/-- What follows `lead`, if the text starts with it. -/
def dropLeading? : (lead s : List Char) → Option (List Char)
  | [], s => some s
  | _ :: _, [] => none
  | l :: lead, c :: s => if l = c then dropLeading? lead s else none

/-- What precedes `tail`, if the text ends with it. -/
def dropTrailing? (tail s : List Char) : Option (List Char) :=
  (dropLeading? tail.reverse s.reverse).map List.reverse

/-- Whether the text starts with `lead`. -/
def startsWith (lead s : List Char) : Bool := (dropLeading? lead s).isSome

/-- Whether the text ends with `tail`. -/
def endsWith (tail s : List Char) : Bool := (dropTrailing? tail s).isSome

/-- The part before and the part after the last occurrence of `sep`. -/
def splitAtLast? (sep : Char) (s : List Char) : Option (List Char × List Char) :=
  let after := s.reverse.takeWhile (· ≠ sep)
  match s.reverse.dropWhile (· ≠ sep) with
  | [] => none
  | _ :: before => some (before.reverse, after.reverse)

/-- Whether `part` occurs in the text. -/
def occursIn (part : List Char) : List Char → Bool
  | [] => part.isEmpty
  | c :: rest => startsWith part (c :: rest) || occursIn part rest

/-- Every occurrence of `part`, left to right and without overlap, replaced by `new`. The number
`skip` counts the characters of an occurrence that are still to be passed over. -/
def replaceAfter (part new : List Char) (skip : Nat) : List Char → List Char
  | [] => []
  | c :: rest =>
    match skip with
    | n + 1 => replaceAfter part new n rest
    | 0 =>
      if startsWith part (c :: rest) then new ++ replaceAfter part new (part.length - 1) rest
      else c :: replaceAfter part new 0 rest

/-- The text with every occurrence of a non-empty `part` replaced by `new`. -/
def replace (part new s : List Char) : List Char := replaceAfter part new 0 s

/-- The length in bytes of the UTF-8 encoding. -/
def byteLength : List Char → Nat
  | [] => 0
  | c :: s => c.utf8Size + byteLength s

/-- Whether the text holds nothing but white space. -/
def isBlankText (s : List Char) : Bool := s.all isBlank

@[simp] theorem trimStart_nil : trimStart [] = [] := rfl

@[simp] theorem byteLength_nil : byteLength [] = 0 := rfl

@[simp] theorem byteLength_cons (c : Char) (s : List Char) :
    byteLength (c :: s) = c.utf8Size + byteLength s := rfl

@[simp] theorem byteLength_append (s t : List Char) :
    byteLength (s ++ t) = byteLength s + byteLength t := by
  induction s with
  | nil => simp
  | cons c s ih => simp [ih, Nat.add_assoc]

/-- Cutting into rows loses nothing. -/
theorem rows_flatten (s : List Char) : (rows s).flatten = s := by
  induction s with
  | nil => rfl
  | cons c rest ih =>
    by_cases hc : c = '\n'
    · simp [rows, hc, ih]
    · cases hr : rows rest with
      | nil => simpa [rows, hc, hr] using ih
      | cons row more => simpa [rows, hc, hr] using ih

theorem splitAt_ne_nil (sep : Char) (s : List Char) : splitAt sep s ≠ [] := by
  cases s with
  | nil => simp [splitAt]
  | cons c rest =>
    by_cases hc : c = sep
    · simp [splitAt, hc]
    · cases h : splitAt sep rest <;> simp [splitAt, hc, h]

/-- Joining the pieces with the character that was cut at gives the text back. -/
theorem joinWith_splitAt (sep : Char) (s : List Char) : joinWith [sep] (splitAt sep s) = s := by
  induction s with
  | nil => rfl
  | cons c rest ih =>
    by_cases hc : c = sep
    · subst hc
      cases h : splitAt c rest with
      | nil => exact absurd h (splitAt_ne_nil c rest)
      | cons piece pieces =>
        rw [h] at ih
        simp [splitAt, h, joinWith, ih]
    · cases h : splitAt sep rest with
      | nil => exact absurd h (splitAt_ne_nil sep rest)
      | cons piece pieces =>
        rw [h] at ih
        cases pieces with
        | nil => simpa [splitAt, hc, h, joinWith] using ih
        | cons next more => simpa [splitAt, hc, h, joinWith] using ih

theorem dropLeading?_eq_some_iff {lead s rest : List Char} :
    dropLeading? lead s = some rest ↔ s = lead ++ rest := by
  induction lead generalizing s with
  | nil => simp [dropLeading?]
  | cons l lead ih =>
    cases s with
    | nil => simp [dropLeading?]
    | cons c s =>
      by_cases h : l = c
      · simp [dropLeading?, h, ih]
      · simp [dropLeading?, h, Ne.symm h]

theorem dropTrailing?_eq_some_iff {tail s rest : List Char} :
    dropTrailing? tail s = some rest ↔ s = rest ++ tail := by
  simp only [dropTrailing?, Option.map_eq_some_iff, dropLeading?_eq_some_iff]
  constructor
  · rintro ⟨a, h, rfl⟩
    rw [← List.reverse_inj]
    simpa using h
  · rintro rfl
    exact ⟨rest.reverse, by simp, by simp⟩

end GoSchema.Text
