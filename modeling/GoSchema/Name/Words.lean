/-
# Words of an identifier

An identifier is cut into words at `_`, `-` and white space, before a capital that follows a small
letter or a digit, and before the last capital of a run of capitals that a small letter follows:
`HTTPServer` is `HTTP`, `Server`. The case styles are ways of joining the words again.

Key definitions: `words`, `camelCase`, `pascalCase`, `snakeCase`, `upperSnakeCase`, `capitalized`.
-/
import GoSchema.Text
import GoSchema.Unicode.CaseMap

namespace GoSchema.Name

open Unicode

/-- The characters that separate words and belong to none. -/
def isSeparator (c : Char) : Bool := c = '_' || c = '-' || isBlank c

/-- Whether the word that `carry` holds, last character first, ends before `c`. -/
def endsBefore (carry : List Char) (c : Char) (rest : List Char) : Bool :=
  match carry with
  | [] => false
  | prev :: _ =>
    isUpper c &&
      (isLower prev || isAsciiDigit prev || (isUpper prev && (rest.head?.map isLower).getD false))

/-- The word that `carry` holds, last character first; an empty carry is no word. -/
def closeWord : List Char → List (List Char)
  | [] => []
  | carry => [carry.reverse]

/-- The words of `s` when the open word is `carry`, last character first. -/
def wordsFrom (carry : List Char) : List Char → List (List Char)
  | [] => closeWord carry
  | c :: rest =>
    if isSeparator c then closeWord carry ++ wordsFrom [] rest
    else if endsBefore carry c rest then closeWord carry ++ wordsFrom [c] rest
    else wordsFrom (c :: carry) rest

/-- The words of an identifier. -/
def words (s : List Char) : List (List Char) := wordsFrom [] s

/-- The first letter in upper case and the rest in lower case. -/
def titled : List Char → List Char
  | [] => []
  | c :: rest => upperOf c ++ rest.flatMap lowerOf

/-- The first letter in upper case and the rest as it is. -/
def capitalized : List Char → List Char
  | [] => []
  | c :: rest => upperOf c ++ rest

/-- `lowerCamelCase`. -/
def camelCase (s : List Char) : List Char :=
  match words s with
  | [] => []
  | first :: others => lowerText first ++ others.flatMap titled

/-- `UpperCamelCase`. -/
def pascalCase (s : List Char) : List Char := (words s).flatMap titled

/-- `snake_case`. -/
def snakeCase (s : List Char) : List Char := Text.joinWith ['_'] ((words s).map lowerText)

/-- `UPPER_SNAKE_CASE`. -/
def upperSnakeCase (s : List Char) : List Char := Text.joinWith ['_'] ((words s).map upperText)

theorem closeWord_flatten (carry : List Char) : (closeWord carry).flatten = carry.reverse := by
  cases carry <;> simp [closeWord]

/-- **Nothing but separators is lost.** The words concatenate to the text without its separators. -/
theorem wordsFrom_flatten (carry s : List Char) :
    (wordsFrom carry s).flatten = carry.reverse ++ s.filter (fun c => !isSeparator c) := by
  induction s generalizing carry with
  | nil => simp [wordsFrom, closeWord_flatten]
  | cons c rest ih =>
    by_cases hs : isSeparator c = true
    · simp [wordsFrom, hs, ih, closeWord_flatten]
    · by_cases he : endsBefore carry c rest = true <;>
        simp [wordsFrom, hs, he, ih, closeWord_flatten]

end GoSchema.Name
