/-
# Parsing field tags

The `gql` part of a tag is a list of items with commas between them. An item is a key with a value
after a colon, a flag that stands alone, or, in first place only, the name of the field. A lone `-`
hides the field. Items take effect in order.

Key definitions: `Setting`, `GqlPart.set`, `GqlPart.parse`, `JsonPart.parse`,
`FieldTag.parse`.
-/
import GoSchema.Directive.Reader
import GoSchema.FieldTag.Basic
import GoSchema.FieldTag.Entries
import GoSchema.Unicode.Alphanumeric

namespace GoSchema

open Reader Unicode

/-- Parses the `json` part of a tag. -/
def JsonPart.parse (value : String) : JsonPart :=
  if value = "-" then ⟨none, true⟩
  else
    match value.toList.takeWhile (· ≠ ',') with
    | [] => {}
    | name => ⟨some (String.ofList name), false⟩

/-- One item of the `gql` part: a key in normal form, its value, and the source text of the
value. -/
structure Setting where
  key : String
  value : Value
  raw : List Char

namespace GqlPart

/-- The keys that may stand alone. -/
def flagKeys : List String :=
  ["ro", "wo", "rw", "ignore", "omit", "include", "deprecated", "forceresolver", "optional",
    "required"]

/-- The type text that a setting gives: a quoted text, or the source text as it is written. -/
def writtenType (s : Setting) : String :=
  match s.raw with
  | '"' :: _ | '\'' :: _ => s.value.toText?.getD ""
  | raw => String.ofList raw

/-- The options after one more setting. -/
def set (o : GqlPart) (s : Setting) : Except TagFault GqlPart :=
  match s.key with
  | "name" => .ok { o with name := s.value.toText? }
  | "type" =>
    if Text.isBlankText (writtenType s).toList then .error .blankType
    else .ok { o with typeText := some (writtenType s) }
  | "description" => .ok { o with description := s.value.toText? }
  | "deprecated" => .ok { o with deprecated := s.value.toDeprecation? }
  | "ignore" | "omit" => .ok { o with ignoredIn := some s.value.toScope }
  | "include" => .ok { o with includedIn := some s.value.toScope }
  | "ro" => .ok { o with readOnly := s.value.truth }
  | "wo" => .ok { o with writeOnly := s.value.truth }
  | "rw" => .ok (if s.value.truth then { o with readOnly := false, writeOnly := false } else o)
  | "forceresolver" => .ok { o with forceResolver := s.value.truth }
  | "optional" => .ok (if s.value.truth then { o with nullability := some .optional } else o)
  | "required" => .ok (if s.value.truth then { o with nullability := some .required } else o)
  | key => .error (.unknownOption key)

/-- The characters of words. -/
def isWordChar (c : Char) : Bool := isAlphanumeric c || c = '_' || c = '-'

/-- Reads one item. A word that is no flag, or a value without a key, names the field if the item is
the first. -/
def readSetting (isFirst : Bool) (s : List Char) : Except TagFault (Setting × List Char) :=
  let word := s.takeWhile isWordChar
  let key := String.ofList (normalKey word)
  match skipBlank (s.dropWhile isWordChar) with
  | ':' :: rest =>
    match readValue [','] rest with
    | .error fault => .error (.value fault)
    | .ok r => .ok (⟨key, r.value, r.raw⟩, r.left)
  | left =>
    if word.isEmpty then
      match readValue [','] s with
      | .error fault => .error (.value fault)
      | .ok r =>
        if isFirst then .ok (⟨"name", r.value, r.raw⟩, r.left)
        else .error (.unexpectedValue (String.ofList r.raw))
    else if flagKeys.contains key then .ok (⟨key, .flag, word⟩, left)
    else if isFirst then .ok (⟨"name", .text (String.ofList word), word⟩, left)
    else .error (.unknownOption (String.ofList word))

theorem readSetting_length {isFirst : Bool} {s left : List Char} {setting : Setting}
    (h : readSetting isFirst s = .ok (setting, left)) : left.length ≤ s.length := by
  have h1 := skipBlank_length (s.dropWhile isWordChar)
  have h2 := (List.dropWhile_suffix (l := s) isWordChar).length_le
  simp only [readSetting] at h
  split at h
  · rename_i rest heq
    rw [heq] at h1
    simp only [List.length_cons] at h1
    split at h
    · simp at h
    · rename_i r hr
      cases h
      have := readValue_length hr
      omega
  · split at h
    · split at h
      · simp at h
      · rename_i r hr
        split at h
        · cases h
          exact readValue_length hr
        · simp at h
    · split at h
      · cases h
        omega
      · split at h
        · cases h
          omega
        · simp at h

/-- Reads the items that are left and lets them take effect on `o`. Items that are missing count as
items. -/
def setAll (isFirst : Bool) (o : GqlPart) (s : List Char) : Except TagFault GqlPart :=
  match _hs : skipBlank s with
  | [] => .ok o
  | c :: rest =>
    if c = ',' then setAll false o rest
    else
      match _hi : readSetting isFirst (c :: rest) with
      | .error fault => .error fault
      | .ok (setting, left) =>
        match o.set setting with
        | .error fault => .error fault
        | .ok next =>
          match _hl : skipBlank left with
          | [] => .ok next
          | d :: more => if d = ',' then setAll false next more else .error (.expectedComma d)
termination_by s.length
decreasing_by
  · have h1 := skipBlank_length s
    rw [_hs] at h1
    simp only [List.length_cons] at h1
    omega
  · have h1 := skipBlank_length s
    have h2 := readSetting_length _hi
    have h3 := skipBlank_length left
    rw [_hs] at h1
    rw [_hl] at h3
    simp only [List.length_cons] at h1 h2 h3
    omega

/-- Parses the `gql` part of a tag. -/
def parse (value : String) : Except TagFault GqlPart :=
  if Text.trim value.toList = ['-'] then .ok { hidden := true }
  else
    match setAll true {} value.toList with
    | .error fault => .error fault
    | .ok o => if o.readOnly && o.writeOnly then .error .readOnlyAndWriteOnly else .ok o

end GqlPart

namespace FieldTag

/-- The parts after one more entry; an entry of another key is passed over. -/
def withEntry (tag : FieldTag) (entry : String × String) : Except TagFault FieldTag :=
  match entry.1 with
  | "json" => .ok { tag with json := JsonPart.parse entry.2 }
  | "gql" => (GqlPart.parse entry.2).map fun o => { tag with options := o }
  | _ => .ok tag

/-- Parses a tag; the last entry of a key counts. -/
def parse (raw : String) : Except TagFault FieldTag :=
  match TagEntries.split raw with
  | .error fault => .error fault
  | .ok entries => entries.foldlM withEntry {}

/-- The parts of a tag that may be missing. -/
def ofRaw? : Option String → Except TagFault FieldTag
  | none => .ok {}
  | some raw => parse raw

end FieldTag

end GoSchema
