import TypeRecords.Text.Unprintable

/-!
Texts inside generated output.

Owns the two written forms a text takes: between double quotes in a listing, and inside a comment
of a source file. Both name a character by number as `\u`, then its code point in lower-case
hexadecimal between braces.
-/

namespace TypeRecords.Text

/-- A character named by its code point. -/
def byNumber (character : Char) : List Char :=
  ['\\', 'u', '\x7b'] ++ Nat.toDigits 16 character.toNat ++ ['\x7d']

/-- A character as it stands between double quotes. -/
def quotedCharacter (character : Char) : List Char :=
  match character with
  | '\x00' => ['\\', '0']
  | '\t' => ['\\', 't']
  | '\r' => ['\\', 'r']
  | '\n' => ['\\', 'n']
  | '"' => ['\\', '"']
  | '\\' => ['\\', '\\']
  | other => if isUnprintable other then byNumber other else [other]

/-- A text between double quotes, with quotes, backslashes and unprintable characters escaped. -/
def quoted (text : String) : String :=
  String.ofList ('"' :: (text.toList.flatMap quotedCharacter ++ ['"']))

/-- A character by printable ASCII alone. -/
def asciiCharacter (character : Char) : List Char :=
  match character with
  | '\t' => ['\\', 't']
  | '\r' => ['\\', 'r']
  | '\n' => ['\\', 'n']
  | '\'' => ['\\', '\'']
  | '"' => ['\\', '"']
  | '\\' => ['\\', '\\']
  | other => if ' ' ≤ other ∧ other ≤ '~' then [other] else byNumber other

/-- Sets a space between every star and the slash behind it, so no comment ends early. -/
def separateCommentEnds : List Char → List Char
  | [] => []
  | '*' :: '/' :: rest => '*' :: ' ' :: '/' :: separateCommentEnds rest
  | character :: rest => character :: separateCommentEnds rest

/-- A text that may stand in a comment: printable ASCII on one line, without a comment end. -/
def commentText (text : String) : String :=
  String.ofList (separateCommentEnds (text.toList.flatMap asciiCharacter))

end TypeRecords.Text
