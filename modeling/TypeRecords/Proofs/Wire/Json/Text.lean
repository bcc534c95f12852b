import TypeRecords.Proofs.Outcome
import TypeRecords.Proofs.Wire.Utf8
import TypeRecords.Wire.Json.Token
import TypeRecords.Wire.Json.Writer

/-!
Reading texts between quotes back.

Owns that the reader takes exactly what the writer puts between quotes, whatever comes behind it.
The reader counts its steps, so the statements say how many of them are enough; an escape takes
fewer steps than it has bytes.
-/

namespace TypeRecords.Wire.Json

/-! ## Blanks -/

/-- A byte behind the space is no blank. -/
theorem skipBlanks_cons {byte : UInt8} (isBlack : 0x20 < byte.toNat) (rest : List UInt8) :
    skipBlanks (byte :: rest) = byte :: rest := by
  have differs (blank : UInt8) (le : blank.toNat ≤ 0x20) : byte ≠ blank := by
    rintro rfl
    omega
  simp [skipBlanks, differs 0x20 (by decide), differs 0x0a (by decide), differs 0x09 (by decide),
    differs 0x0d (by decide)]

theorem startsWith_cons (character : Char) (byte : UInt8) (rest : List UInt8) :
    startsWith character (byte :: rest) = decide (byte = ascii character) := by
  simp [startsWith]

theorem startsWith_self (character : Char) (rest : List UInt8) :
    startsWith character (ascii character :: rest) = true := by
  rw [startsWith_cons, decide_eq_true rfl]

/-! ## Bytes of characters -/

theorem utf8EncodeChar_of_small {character : Char} (small : character.toNat < 0x80) :
    String.utf8EncodeChar character = [ascii character] := by
  have inRange : character.val.toNat ≤ 127 := Nat.le_of_lt_succ small
  simp only [String.utf8EncodeChar, inRange, if_true]
  rfl

theorem high_of_mem_utf8EncodeChar {character : Char} (large : 0x80 ≤ character.toNat)
    {byte : UInt8} (member : byte ∈ String.utf8EncodeChar character) : 0x80 ≤ byte.toNat := by
  have outOfRange : ¬ character.val.toNat ≤ 127 := by
    have : character.toNat = character.val.toNat := rfl
    omega
  simp only [String.utf8EncodeChar, outOfRange, if_false] at member
  split at member
  · simp only [List.mem_cons, List.not_mem_nil, or_false] at member
    rcases member with rfl | rfl <;> simp <;> omega
  · split at member
    · simp only [List.mem_cons, List.not_mem_nil, or_false] at member
      rcases member with rfl | rfl | rfl <;> simp <;> omega
    · simp only [List.mem_cons, List.not_mem_nil, or_false] at member
      rcases member with rfl | rfl | rfl | rfl <;> simp <;> omega

/-- Whether a byte between quotes stands for itself. -/
def isPlain (byte : UInt8) : Bool := byte ≠ ascii '"' && byte ≠ ascii '\\' && !(byte < 0x20)

/-- Whether the bytes of a text are taken off up to the closing quote in so many steps. -/
def Closes (steps : Nat) (bytes content rest : List UInt8) : Prop :=
  ∀ bound, steps ≤ bound → readTextBytes bound bytes = .ok (content, rest)

theorem closes_quote (rest : List UInt8) : Closes 1 (ascii '"' :: rest) [] rest := by
  intro bound enough
  obtain ⟨inner, rfl⟩ : ∃ inner, bound = inner + 1 := ⟨bound - 1, by omega⟩
  rfl

theorem Closes.plain {steps : Nat} {bytes content rest : List UInt8}
    (closes : Closes steps bytes content rest) {byte : UInt8} (plain : isPlain byte) :
    Closes (steps + 1) (byte :: bytes) (byte :: content) rest := by
  intro bound enough
  obtain ⟨inner, rfl⟩ : ∃ inner, bound = inner + 1 := ⟨bound - 1, by omega⟩
  simp only [isPlain, Bool.and_eq_true, decide_eq_true_eq, Bool.not_eq_true',
    decide_eq_false_iff_not] at plain
  rw [readTextBytes, if_neg plain.1.1, if_neg plain.1.2, if_neg plain.2,
    closes inner (by omega), Outcome.ok_bind]
  rfl

theorem Closes.plains {steps : Nat} {bytes content rest : List UInt8}
    (closes : Closes steps bytes content rest) {front : List UInt8}
    (plain : ∀ byte ∈ front, isPlain byte) :
    Closes (steps + front.length) (front ++ bytes) (front ++ content) rest := by
  induction front with
  | nil => exact closes
  | cons byte front inductionHypothesis =>
    rw [List.forall_mem_cons] at plain
    exact (inductionHypothesis plain.2).plain plain.1

theorem Closes.escape {steps : Nat} {bytes content rest : List UInt8}
    (closes : Closes steps bytes content rest) {front escaped : List UInt8}
    (taken : readEscape (front ++ bytes) = .ok (escaped, bytes)) :
    Closes (steps + 1) (ascii '\\' :: (front ++ bytes)) (escaped ++ content) rest := by
  intro bound enough
  obtain ⟨inner, rfl⟩ : ∃ inner, bound = inner + 1 := ⟨bound - 1, by omega⟩
  rw [readTextBytes, if_neg (by decide), if_pos rfl, taken, Outcome.ok_bind]
  show (readTextBytes inner bytes >>= _) = _
  rw [closes inner (by omega), Outcome.ok_bind]
  rfl

/-- The bytes of a character as it stands between quotes. -/
def escapedBytes (character : Char) : List UInt8 :=
  (escapedCharacter character).flatMap String.utf8EncodeChar

theorem hexValueOfFour?_control : ∀ number < 32,
    hexValueOfFour? (ascii '0') (ascii '0') (ascii (Nat.digitChar (number / 16)))
      (ascii (Nat.digitChar (number % 16))) = some number := by
  decide

theorem digitChar_small : ∀ digit < 16, (Nat.digitChar digit).toNat < 0x80 := by
  decide

theorem Closes.mono {steps more : Nat} {bytes content rest : List UInt8}
    (closes : Closes steps bytes content rest) (le : steps ≤ more) :
    Closes more bytes content rest :=
  fun bound enough => closes bound (Nat.le_trans le enough)

/-- An escape by letter stands for a character of its own. -/
theorem Closes.letter {steps : Nat} {bytes content rest : List UInt8}
    (closes : Closes steps bytes content rest) {letter character : Char}
    (small : letter.toNat < 0x80) (smallCharacter : character.toNat < 0x80)
    (escapes : escapedByLetter? (ascii letter) = some character) :
    Closes (steps + (['\\', letter].flatMap String.utf8EncodeChar).length)
      (['\\', letter].flatMap String.utf8EncodeChar ++ bytes)
      (String.utf8EncodeChar character ++ content) rest := by
  have written : ['\\', letter].flatMap String.utf8EncodeChar =
      [ascii '\\', ascii letter] := by
    rw [List.flatMap_cons, List.flatMap_singleton, utf8EncodeChar_of_small small]
    rfl
  have taken : readEscape ([ascii letter] ++ bytes) = .ok ([ascii character], bytes) := by
    rw [List.singleton_append, readEscape, escapes]
  rw [written, utf8EncodeChar_of_small smallCharacter]
  exact (closes.escape taken).mono (Nat.add_le_add_left (by simp) steps)

theorem readEscape_number {a b c d : UInt8} {number : Nat}
    (reads : hexValueOfFour? a b c d = some number) (small : number < 0xd800)
    (bytes : List UInt8) :
    readEscape (ascii 'u' :: a :: b :: c :: d :: bytes) =
      .ok (String.utf8EncodeChar (Char.ofNat number), bytes) := by
  have noLow : ¬ (0xdc00 ≤ number ∧ number ≤ 0xdfff) := by omega
  have noHigh : number < 0xd800 ∨ 0xdbff < number := .inl small
  have digits : readHexDigits (a :: b :: c :: d :: bytes) = .ok (number, bytes) := by
    rw [readHexDigits, reads]
  have character : readEscapedCharacter (a :: b :: c :: d :: bytes) =
      .ok (Char.ofNat number, bytes) := by
    rw [readEscapedCharacter, digits, Outcome.ok_bind]
    simp only [if_neg noLow, if_pos noHigh]
    rfl
  show (readEscapedCharacter (a :: b :: c :: d :: bytes) >>= _) = _
  rw [character, Outcome.ok_bind]
  show Except.ok _ = _
  rw [String.singleton_eq_ofList, Text.utf8_ofList, List.flatMap_singleton]

/-- The characters without a letter of their own are escaped by number. -/
theorem Closes.control {steps : Nat} {bytes content rest : List UInt8}
    (closes : Closes steps bytes content rest) {character : Char} (small : character.toNat < 32) :
    Closes (steps + (['\\', 'u', '0', '0', Nat.digitChar (character.toNat / 16),
        Nat.digitChar (character.toNat % 16)].flatMap String.utf8EncodeChar).length)
      (['\\', 'u', '0', '0', Nat.digitChar (character.toNat / 16),
        Nat.digitChar (character.toNat % 16)].flatMap String.utf8EncodeChar ++ bytes)
      (String.utf8EncodeChar character ++ content) rest := by
  have written : ['\\', 'u', '0', '0', Nat.digitChar (character.toNat / 16),
        Nat.digitChar (character.toNat % 16)].flatMap String.utf8EncodeChar =
      ascii '\\' :: [ascii 'u', ascii '0', ascii '0', ascii (Nat.digitChar (character.toNat / 16)),
        ascii (Nat.digitChar (character.toNat % 16))] := by
    simp only [List.flatMap_cons, List.flatMap_nil,
      utf8EncodeChar_of_small (digitChar_small (character.toNat / 16) (by omega)),
      utf8EncodeChar_of_small (digitChar_small (character.toNat % 16) (by omega))]
    rfl
  have taken : readEscape ([ascii 'u', ascii '0', ascii '0',
        ascii (Nat.digitChar (character.toNat / 16)),
        ascii (Nat.digitChar (character.toNat % 16))] ++ bytes) =
      .ok (String.utf8EncodeChar (Char.ofNat character.toNat), bytes) :=
    readEscape_number (hexValueOfFour?_control _ small) (by omega) bytes
  rw [Char.ofNat_toNat] at taken
  rw [written]
  exact (closes.escape taken).mono (Nat.add_le_add_left (by simp) steps)

theorem isPlain_of_high {byte : UInt8} (high : 0x80 ≤ byte.toNat) : isPlain byte := by
  have noQuote : byte ≠ ascii '"' := fun same => absurd high (by rw [same]; decide)
  have noBackslash : byte ≠ ascii '\\' := fun same => absurd high (by rw [same]; decide)
  have noControl : ¬ byte < 0x20 := by
    rw [UInt8.lt_iff_toNat_lt]
    simp
    omega
  simp [isPlain, noQuote, noBackslash, noControl]

theorem toNat_ascii {character : Char} (small : character.toNat < 0x80) :
    (ascii character).toNat = character.toNat := by
  rw [ascii, UInt8.toNat_ofNat']
  omega

theorem ascii_ne_ascii {character other : Char} (small : character.toNat < 0x80)
    (otherSmall : other.toNat < 0x80) (differs : character ≠ other) :
    ascii character ≠ ascii other := by
  intro same
  have sameNumber := congrArg UInt8.toNat same
  rw [toNat_ascii small, toNat_ascii otherSmall] at sameNumber
  exact differs (Char.toNat_inj.mp sameNumber)

theorem isPlain_ascii {character : Char} (small : character.toNat < 0x80)
    (noQuote : character ≠ '"') (noBackslash : character ≠ '\\') (noControl : ¬ character < ' ') :
    isPlain (ascii character) := by
  have noControlByte : ¬ ascii character < 0x20 := by
    rw [UInt8.lt_iff_toNat_lt, toNat_ascii small]
    exact noControl
  simp [isPlain, ascii_ne_ascii small (by decide) noQuote,
    ascii_ne_ascii small (by decide) noBackslash, noControlByte]

theorem Closes.character {steps : Nat} {bytes content rest : List UInt8}
    (closes : Closes steps bytes content rest) (character : Char) :
    Closes (steps + (escapedBytes character).length) (escapedBytes character ++ bytes)
      (String.utf8EncodeChar character ++ content) rest := by
  unfold escapedBytes escapedCharacter
  split
  · exact closes.letter (by decide) (by decide) (by decide)
  · exact closes.letter (by decide) (by decide) (by decide)
  · exact closes.letter (by decide) (by decide) (by decide)
  · exact closes.letter (by decide) (by decide) (by decide)
  · exact closes.letter (by decide) (by decide) (by decide)
  · exact closes.letter (by decide) (by decide) (by decide)
  · exact closes.letter (by decide) (by decide) (by decide)
  · rename_i noQuote noBackslash _ _ _ _ _
    split
    · rename_i isControl
      exact closes.control isControl
    · rename_i noControl
      rw [List.flatMap_singleton]
      refine closes.plains fun byte member => ?_
      by_cases small : character.toNat < 0x80
      · rw [utf8EncodeChar_of_small small, List.mem_singleton] at member
        rw [member]
        exact isPlain_ascii small noQuote noBackslash noControl
      · exact isPlain_of_high (high_of_mem_utf8EncodeChar (Nat.not_lt.mp small) member)

theorem Closes.characters {steps : Nat} {bytes content rest : List UInt8}
    (closes : Closes steps bytes content rest) (characters : List Char) :
    Closes (steps + (characters.flatMap escapedBytes).length)
      (characters.flatMap escapedBytes ++ bytes)
      (characters.flatMap String.utf8EncodeChar ++ content) rest := by
  induction characters with
  | nil => exact closes
  | cons character others inductionHypothesis =>
    simp only [List.flatMap_cons, List.append_assoc]
    refine (inductionHypothesis.character character).mono ?_
    rw [List.length_append]
    omega

/-- The bytes of a text between quotes. -/
theorem utf8_writeText (text : String) : Text.utf8 (writeText text) =
    ascii '"' :: (text.toList.flatMap escapedBytes ++ [ascii '"']) := by
  rw [writeText, Text.utf8_ofList, List.flatMap_cons, List.flatMap_append, List.flatMap_assoc]
  rfl

theorem readText_writeText (text : String) (rest : List UInt8) :
    readText ((Text.utf8 (writeText text)).drop 1 ++ rest) = .ok (text, rest) := by
  have closes := (closes_quote rest).characters text.toList
  have taken := closes ((Text.utf8 (writeText text)).drop 1 ++ rest).length.succ (by
    rw [utf8_writeText]
    simp
    omega)
  have written : (Text.utf8 (writeText text)).drop 1 ++ rest =
      text.toList.flatMap escapedBytes ++ ascii '"' :: rest := by
    rw [utf8_writeText]
    simp
  have content : text.toList.flatMap String.utf8EncodeChar ++ [] = Text.utf8 text := by
    rw [List.append_nil, ← Text.utf8_ofList, String.ofList_toList]
  rw [← written, content] at taken
  rw [readText, taken, Outcome.ok_bind]
  simp only [Text.ofUtf8?_utf8]
  rfl

end TypeRecords.Wire.Json
