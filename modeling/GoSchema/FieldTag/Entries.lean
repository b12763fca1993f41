/-
# Entries of a tag

A tag is a list of entries `key:"value"` with spaces between them. In a value a backslash stands
before a character that is taken as it is.

Key definitions: `TagEntries.split`, `TagEntries.readEscaped`.
Key theorems: `readEscaped_length`.
-/
import GoSchema.FieldTag.Fault

namespace GoSchema.TagEntries

/-- Whether a character may stand in a key: it is above the space, no colon and no quote. -/
def isKeyChar (c : Char) : Bool := c ≠ ':' && c ≠ '"' && 32 < c.toNat

/-- Reads a value up to its closing quote; the opening one is already read. -/
def readEscaped : List Char → Option (List Char × List Char)
  | [] => none
  | '\\' :: [] => none
  | '\\' :: c :: rest => (readEscaped rest).map fun (s, left) => (c :: s, left)
  | c :: rest =>
    if c = '"' then some ([], rest)
    else (readEscaped rest).map fun (s, left) => (c :: s, left)

theorem readEscaped_length {s t left : List Char} (h : readEscaped s = some (t, left)) :
    left.length < s.length := by
  fun_induction readEscaped s generalizing t left with
  | case1 => simp at h
  | case2 => simp at h
  | case3 c rest ih =>
    obtain ⟨⟨s', left'⟩, h', heq⟩ := Option.map_eq_some_iff.1 h
    obtain ⟨-, rfl⟩ := Prod.mk.inj heq
    have := ih h'
    simp only [List.length_cons]
    omega
  | case4 c rest => simp_all
  | case5 c rest _ _ _ ih =>
    obtain ⟨⟨s', left'⟩, h', heq⟩ := Option.map_eq_some_iff.1 h
    obtain ⟨-, rfl⟩ := Prod.mk.inj heq
    have := ih h'
    simp only [List.length_cons]
    omega

/-- Reads the entries that are left in the tag `tag`. -/
def splitFrom (tag : String) (s : List Char) : Except TagFault (List (String × String)) :=
  match _hs : s.dropWhile (· = ' ') with
  | [] => .ok []
  | c :: rest =>
    let key := (c :: rest).takeWhile isKeyChar
    if key.isEmpty then .error (.emptyKey tag)
    else
      match _hr : (c :: rest).dropWhile isKeyChar with
      | ':' :: '"' :: quoted =>
        match _hv : readEscaped quoted with
        | none => .error (.unterminatedValue tag)
        | some (value, left) =>
          (splitFrom tag left).map ((String.ofList key, String.ofList value) :: ·)
      | _ => .error (.expectedQuoted tag (String.ofList key))
termination_by s.length
decreasing_by
  have h1 := (List.dropWhile_suffix (l := s) (· = ' ')).length_le
  have h2 := (List.dropWhile_suffix (l := c :: rest) isKeyChar).length_le
  have h3 := readEscaped_length _hv
  rw [_hs] at h1
  rw [_hr] at h2
  simp only [List.length_cons] at h1 h2
  omega

/-- The entries of a tag in order. -/
def split (tag : String) : Except TagFault (List (String × String)) := splitFrom tag tag.toList

end GoSchema.TagEntries
