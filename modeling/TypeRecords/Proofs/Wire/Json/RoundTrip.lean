import TypeRecords.Proofs.Wire.Json.Nesting
import TypeRecords.Proofs.Wire.Json.Structure
import TypeRecords.Proofs.Wire.Shape

/-!
Reading JSON texts back.

Owns the proof that a value of a readable shape is read back from its text as long as the text nests
less deep than lists and objects may. A recursive type comes to itself inside an object only, so
following its name as often as objects are opened is enough.
-/

namespace TypeRecords.Wire.Json

/-! ## Written parts -/

/-- The bytes of the text of a value. -/
def written (shape : Shape) (value : Value) : List UInt8 := Text.utf8 (write shape value)

theorem writeItems_eq (shape : Shape) (items : List Value) :
    writeItems shape items = items.map (write shape) := by
  induction items with
  | nil => rfl
  | cons item items inductionHypothesis => rw [writeItems, inductionHypothesis, List.map_cons]

theorem writeFields_eq (fields : List (String × Shape)) (values : List Value) :
    writeFields fields values =
      (fields.zip values).map fun pair => writeText pair.1.1 ++ ":" ++ write pair.1.2 pair.2 := by
  induction fields generalizing values with
  | nil => simp [writeFields]
  | cons field fields inductionHypothesis =>
    cases values with
    | nil => rfl
    | cons value values =>
      rw [writeFields, inductionHypothesis, List.zip_cons_cons, List.map_cons]

theorem writePayload_eq (shapes : List Shape) (values : List Value) :
    writePayload shapes values =
      (shapes.zip values).map fun pair => write pair.1 pair.2 := by
  induction shapes generalizing values with
  | nil => simp [writePayload]
  | cons shape shapes inductionHypothesis =>
    cases values with
    | nil => rfl
    | cons value values =>
      rw [writePayload, inductionHypothesis, List.zip_cons_cons, List.map_cons]

theorem writeEntries_eq (shape : Shape) (entries : List (Value × Value)) :
    writeEntries shape (entries.map fun entry => .record [entry.1, entry.2]) =
      entries.map fun entry => writeKey entry.1 ++ ":" ++ write shape entry.2 := by
  induction entries with
  | nil => rfl
  | cons entry entries inductionHypothesis =>
    rw [List.map_cons, writeEntries, inductionHypothesis, List.map_cons]

theorem utf8_bracketed {opening closing : String} {first last : UInt8}
    (opens : Text.utf8 opening = [first]) (closes : Text.utf8 closing = [last])
    (parts : List String) : Text.utf8 (bracketed opening closing parts) =
      first :: (separated true (parts.map Text.utf8) ++ [last]) := by
  rw [bracketed, Text.utf8_append, Text.utf8_append, utf8_intercalate, opens, closes]
  rfl

theorem utf8_list (parts : List String) : Text.utf8 (bracketed "[" "]" parts) =
    ascii '[' :: (separated true (parts.map Text.utf8) ++ [ascii ']']) :=
  utf8_bracketed (Text.utf8_ofList ['[']) (Text.utf8_ofList [']']) parts

theorem utf8_object (parts : List String) : Text.utf8 (bracketed "\x7b" "\x7d" parts) =
    ascii '\x7b' :: (separated true (parts.map Text.utf8) ++ [ascii '\x7d']) :=
  utf8_bracketed (Text.utf8_ofList ['\x7b']) (Text.utf8_ofList ['\x7d']) parts

theorem utf8_keyed (key value : String) :
    Text.utf8 (key ++ ":" ++ value) = keyed (Text.utf8 key) (Text.utf8 value) := by
  have colon : Text.utf8 ":" = [ascii ':'] := Text.utf8_ofList [':']
  rw [Text.utf8_append, Text.utf8_append, colon, keyed, List.append_assoc]
  rfl

/-- An object with one key is an object of one part. -/
theorem utf8_tagged (name content : String) :
    Text.utf8 ("\x7b" ++ writeText name ++ ":" ++ content ++ "\x7d") =
      ascii '\x7b' :: (fieldText name (Text.utf8 content) ++ [ascii '\x7d']) := by
  have whole : "\x7b" ++ writeText name ++ ":" ++ content ++ "\x7d" =
      bracketed "\x7b" "\x7d" [writeText name ++ ":" ++ content] := by
    simp only [bracketed, String.intercalate_singleton, String.append_assoc]
  rw [whole, utf8_object, List.map_singleton, utf8_keyed, separated, separated, List.append_nil]
  rfl

theorem written_true :
    written .flag (.flag true) = [ascii 't', ascii 'r', ascii 'u', ascii 'e'] :=
  Text.utf8_ofList ['t', 'r', 'u', 'e']

theorem written_false :
    written .flag (.flag false) = [ascii 'f', ascii 'a', ascii 'l', ascii 's', ascii 'e'] :=
  Text.utf8_ofList ['f', 'a', 'l', 's', 'e']

theorem written_absent (item : Shape) :
    written (.optional item) .absent = [ascii 'n', ascii 'u', ascii 'l', ascii 'l'] :=
  Text.utf8_ofList ['n', 'u', 'l', 'l']

theorem written_sequence (item : Shape) (items : List Value) :
    written (.sequence item) (.sequence items) =
      ascii '[' :: (separated true (items.map (written item)) ++ [ascii ']']) := by
  show Text.utf8 (bracketed "[" "]" (writeItems item items)) = _
  rw [utf8_list, writeItems_eq, List.map_map]
  rfl

theorem written_mapping (key value : Shape) (entries : List (Value × Value)) :
    written (.mapping key value) (.sequence (entries.map fun entry => .record [entry.1, entry.2])) =
      ascii '\x7b' :: (separated true (entries.map fun entry =>
        keyed (Text.utf8 (writeKey entry.1)) (written value entry.2)) ++ [ascii '\x7d']) := by
  show Text.utf8 (bracketed "\x7b" "\x7d" (writeEntries value _)) = _
  rw [utf8_object, writeEntries_eq, List.map_map]
  simp only [Function.comp_def, utf8_keyed]
  rfl

theorem written_record (typeName : String) (fields : List (String × Shape))
    (values : List Value) :
    written (.record typeName fields) (.record values) =
      ascii '\x7b' :: (separated true ((fields.zip values).map fun pair =>
        fieldText pair.1.1 (written pair.1.2 pair.2)) ++ [ascii '\x7d']) := by
  show Text.utf8 (bracketed "\x7b" "\x7d" (writeFields fields values)) = _
  rw [utf8_object, writeFields_eq, List.map_map]
  simp only [Function.comp_def, utf8_keyed]
  rfl

/-! ## Choices -/

section Variant

variable {shape : Shape} {typeName name : String} {variants : List (String × List Shape)}
  {index : Nat} {shapes : List Shape}

theorem variantShape_eq (isChoice : shape.unfolded = .choice typeName variants)
    (located : variants[index]? = some (name, shapes)) :
    variantShape shape index = (name, shapes) := by
  rw [variantShape, isChoice]
  simp only [located, Option.getD_some]

theorem nesting_variant_single (isChoice : shape.unfolded = .choice typeName variants)
    {item : Shape} (located : variants[index]? = some (name, [item])) (value : Value) :
    nesting shape (.variant index [value]) = nesting item value + 1 := by
  rw [nesting, variantShape_eq isChoice located]
  rfl

theorem nesting_variant_several (isChoice : shape.unfolded = .choice typeName variants)
    (located : variants[index]? = some (name, shapes)) {payload : List Value}
    (several : 1 < payload.length) :
    nesting shape (.variant index payload) = payloadNesting shapes payload + 2 := by
  rcases payload with _ | ⟨first, _ | ⟨second, others⟩⟩
  · cases several
  · exact absurd several (Nat.lt_irrefl 1)
  · rw [nesting, variantShape_eq isChoice located]

/-- What stands in an alternative behind its name. -/
def writtenPayload : List Shape → List Value → List UInt8
  | [shape], [value] => written shape value
  | shapes, values =>
    ascii '[' :: (separated true ((shapes.zip values).map fun pair => written pair.1 pair.2) ++
      [ascii ']'])

theorem written_variant_nil (isChoice : shape.unfolded = .choice typeName variants)
    (located : variants[index]? = some (name, shapes)) :
    written shape (.variant index []) = Text.utf8 (writeText name) := by
  rw [written, write, variantShape_eq isChoice located]

theorem written_variant_cons (isChoice : shape.unfolded = .choice typeName variants)
    (located : variants[index]? = some (name, shapes)) {payload : List Value}
    (sameLength : shapes.length = payload.length) (nonempty : payload ≠ []) :
    written shape (.variant index payload) =
      ascii '\x7b' :: (fieldText name (writtenPayload shapes payload) ++ [ascii '\x7d']) := by
  rcases payload with _ | ⟨first, _ | ⟨second, others⟩⟩
  · exact absurd rfl nonempty
  · obtain ⟨item, rfl⟩ := List.length_eq_one_iff.mp sameLength
    rw [written, write, variantShape_eq isChoice located]
    exact utf8_tagged name (write item first)
  · rcases shapes with _ | ⟨item, _ | ⟨next, items⟩⟩
    · cases sameLength
    · cases sameLength
    rw [written, write, variantShape_eq isChoice located]
    simp only [utf8_tagged, utf8_list, writePayload_eq, List.map_map]
    rfl

end Variant

/-! ## First bytes -/

/-- Whether bytes start as a value does that is not null. -/
def StartsPresent (text : List UInt8) : Prop :=
  ∃ byte rest, text = byte :: rest ∧ 0x20 < byte.toNat ∧ byte ≠ ascii ']' ∧ byte ≠ ascii 'n'

theorem StartsPresent.startsValue {text : List UInt8} (starts : StartsPresent text) :
    StartsValue text := by
  obtain ⟨byte, rest, rfl, isBlack, notEnd, _⟩ := starts
  exact ⟨byte, rest, rfl, isBlack, notEnd⟩

theorem startsPresent_digitBytes (number : Nat) : StartsPresent (digitBytes number) := by
  obtain ⟨byte, others, written⟩ := List.exists_cons_of_ne_nil (digitBytes_ne_nil number)
  have digit := isDigit_of_digitBytes_eq written
  refine ⟨byte, others, written, digit_black digit, ?_, ?_⟩
  · rintro rfl
    cases digit
  · rintro rfl
    cases digit

theorem startsPresent_int (number : Int) : StartsPresent (Text.utf8 (toString number)) := by
  rcases Int.lt_or_le number 0 with negative | natural
  · obtain ⟨size, rfl⟩ : ∃ size : Nat, number = -(size : Int) := ⟨number.natAbs, by omega⟩
    rw [utf8_toString_neg (by omega)]
    exact ⟨_, _, rfl, by decide, by decide, by decide⟩
  · obtain ⟨size, rfl⟩ : ∃ size : Nat, number = (size : Int) := ⟨number.natAbs, by omega⟩
    have same : toString (size : Int) = toString size := rfl
    rw [same, utf8_toString_nat]
    exact startsPresent_digitBytes size

theorem startsPresent_text (text : String) : StartsPresent (Text.utf8 (writeText text)) := by
  rw [utf8_writeText]
  exact ⟨_, _, rfl, by decide, by decide, by decide⟩

theorem startsPresent_written {shape : Shape} {value : Value} (fits : HasShape shape value)
    (present : shape.isOptional = false) : StartsPresent (written shape value) := by
  cases fits with
  | @flag value =>
    cases value with
    | true =>
      rw [written_true]
      exact ⟨_, _, rfl, by decide, by decide, by decide⟩
    | false =>
      rw [written_false]
      exact ⟨_, _, rfl, by decide, by decide, by decide⟩
  | @word number =>
    show StartsPresent (Text.utf8 (toString number))
    rw [utf8_toString_nat]
    exact startsPresent_digitBytes number
  | @int32 number => exact startsPresent_int number.toInt
  | @int64 number => exact startsPresent_int number.toInt
  | @text text => exact startsPresent_text text
  | absent => cases present
  | present => cases present
  | sequence =>
    rw [written_sequence]
    exact ⟨_, _, rfl, by decide, by decide, by decide⟩
  | mapping =>
    rw [written_mapping]
    exact ⟨_, _, rfl, by decide, by decide, by decide⟩
  | record =>
    rw [written_record]
    exact ⟨_, _, rfl, by decide, by decide, by decide⟩
  | @variant _ _ name _ index _ payload isChoice located _ sameLength =>
    cases payload with
    | nil =>
      rw [written_variant_nil isChoice located]
      exact startsPresent_text name
    | cons first others =>
      rw [written_variant_cons isChoice located sameLength (List.cons_ne_nil first others)]
      exact ⟨_, _, rfl, by decide, by decide, by decide⟩

theorem startsValue_written {shape : Shape} {value : Value} (fits : HasShape shape value) :
    StartsValue (written shape value) := by
  induction fits with
  | @absent item =>
    rw [written_absent]
    exact ⟨_, _, rfl, by decide, by decide⟩
  | present _ inductionHypothesis => exact inductionHypothesis
  | flag => exact (startsPresent_written .flag rfl).startsValue
  | word => exact (startsPresent_written .word rfl).startsValue
  | int32 => exact (startsPresent_written .int32 rfl).startsValue
  | int64 => exact (startsPresent_written .int64 rfl).startsValue
  | text => exact (startsPresent_written .text rfl).startsValue
  | sequence each => exact (startsPresent_written (.sequence each) rfl).startsValue
  | mapping small keys values =>
    exact (startsPresent_written (.mapping small keys values) rfl).startsValue
  | record sameLength each =>
    exact (startsPresent_written (.record sameLength each) rfl).startsValue
  | @variant shape _ _ _ _ _ _ isChoice located small sameLength each =>
    have present : shape.isOptional = false := by
      cases shape with
      | optional => cases isChoice
      | _ => rfl
    exact (startsPresent_written (.variant isChoice located small sameLength each)
      present).startsValue

/-! ## Readers of a shape -/

section Readers

variable (named : TypeName → Nat → Reader Value)

/-- How a field is read. -/
def fieldReader (depth : Nat) (field : String × Shape) : FieldReader :=
  ⟨field.1, field.2.isOptional, readWith named field.2 depth⟩

theorem fieldReaders_eq (fields : List (String × Shape)) (depth : Nat) :
    fieldReaders named fields depth = fields.map (fieldReader named depth) := by
  induction fields with
  | nil => rfl
  | cons field fields inductionHypothesis =>
    rw [fieldReaders, inductionHypothesis, List.map_cons]
    rfl

/-- How one of several values of a payload is read. -/
def payloadReader (depth : Nat) (shape : Shape) : FieldReader :=
  ⟨"", false, readWith named shape depth⟩

theorem payloadReaders_eq (shapes : List Shape) (depth : Nat) :
    payloadReaders named shapes depth = shapes.map (payloadReader named depth) := by
  induction shapes with
  | nil => rfl
  | cons shape shapes inductionHypothesis =>
    rw [payloadReaders, inductionHypothesis, List.map_cons]
    rfl

/-- How the payload of an alternative is read. -/
def payloadRead (typeName name : String) (depth : Nat) : List Shape → Reader (List Value)
  | [] => readUnit
  | [shape] => fun bytes => do
    let (value, rest) ← readWith named shape depth bytes
    return ([value], rest)
  | shapes => fun bytes => do
    let expected := countedElements s!"tuple variant {typeName}::{name}" shapes.length
    let rest ← toValue bytes
    if startsWith '[' rest then
      readList depth
        (readListedFields expected (shapes.map (payloadReader named (depth - 1))) 0 true) rest
    else failType expected rest

/-- How an alternative is read. -/
def variantReader (typeName : String) (depth : Nat) (variant : String × List Shape) :
    VariantReader :=
  ⟨variant.1, variant.2.length, payloadRead named typeName variant.1 depth variant.2⟩

theorem variantReaders_eq (typeName : String) (variants : List (String × List Shape))
    (depth : Nat) :
    variantReaders named typeName variants depth =
      variants.map (variantReader named typeName depth) := by
  induction variants with
  | nil => rfl
  | cons variant variants inductionHypothesis =>
    obtain ⟨name, payload⟩ := variant
    rw [variantReaders, inductionHypothesis, List.map_cons]
    match payload with
    | [] => rfl
    | [shape] => rfl
    | first :: second :: others =>
      have several : ¬ (first :: second :: others).length ≤ 1 := by simp
      simp only [if_neg several, payloadReaders_eq, List.map_cons, variantReader, payloadRead]
      simp

end Readers

theorem map_zip_fst {α β γ : Type} (change : α → γ) {left : List α} {right : List β}
    (sameLength : left.length = right.length) :
    ((left.zip right).map fun pair => change pair.1) = left.map change := by
  conv_rhs => rw [← List.map_fst_zip (Nat.le_of_eq sameLength), List.map_map]
  rfl

/-- A single value of a payload is read as itself. -/
theorem reads_payload_single {named : TypeName → Nat → Reader Value} {typeName name : String}
    {depth : Nat} {shape : Shape} {value : Value}
    (reads : Reads (readWith named shape depth) (written shape value) value) :
    Reads (payloadRead named typeName name depth [shape]) (writtenPayload [shape] [value])
      [value] := by
  intro rest ends
  show (readWith named shape depth (written shape value ++ rest) >>= _) = _
  rw [reads rest ends]
  rfl

/-- Several values of a payload are read as a list. -/
theorem reads_payload_several {named : TypeName → Nat → Reader Value} {typeName name : String}
    {depth : Nat} {shapes : List Shape} {payload : List Value} (several : 1 < shapes.length)
    (sameLength : shapes.length = payload.length) (deep : 1 < depth)
    (each : ∀ pair ∈ shapes.zip payload,
      Reads (readWith named pair.1 (depth - 1)) (written pair.1 pair.2) pair.2 ∧
        StartsValue (written pair.1 pair.2)) :
    Reads (payloadRead named typeName name depth shapes) (writtenPayload shapes payload)
      payload := by
  intro rest _
  let expected := countedElements s!"tuple variant {typeName}::{name}" shapes.length
  have itemsTaken : readListedFields expected
        ((shapes.zip payload).map fun pair => payloadReader named (depth - 1) pair.1) 0 true
        (separated true ((shapes.zip payload).map fun pair => written pair.1 pair.2) ++
          ascii ']' :: rest) =
      .ok ((shapes.zip payload).map Prod.snd, ascii ']' :: rest) :=
    readListedFields_separated each 0 true rest
  rw [map_zip_fst (payloadReader named (depth - 1)) sameLength,
    List.map_snd_zip (Nat.le_of_eq sameLength.symm)] at itemsTaken
  have listTaken := readList_brackets deep itemsTaken
  rcases shapes with _ | ⟨first, _ | ⟨second, others⟩⟩
  · cases several
  · exact absurd several (Nat.lt_irrefl 1)
  · show (toValue (ascii '[' :: (separated true _ ++ [ascii ']']) ++ rest) >>= _) = _
    rw [List.cons_append, List.append_assoc, toValue_cons (by decide), Outcome.ok_bind]
    simp only [startsWith_self, if_true]
    exact listTaken

/-! ## Values -/

theorem readWord_digitBytes {number : Nat} (small : number < 2 ^ 64) {rest : List UInt8}
    (ends : EndsNumber rest) : readWord (digitBytes number ++ rest) = .ok (.word number, rest) := by
  rw [readWord, readInteger_natural small (by omega) ends]
  rfl

theorem reads_key_word {number : Nat} (small : number < 2 ^ 64) :
    Reads (readKey .word) (Text.utf8 (writeKey (.word number))) (.word number) := by
  intro rest _
  have taken := readWord_digitBytes small (endsNumber_ascii '"' (by decide) rest)
  obtain ⟨byte, others, digits⟩ := List.exists_cons_of_ne_nil (digitBytes_ne_nil number)
  have digit : startsWithDigit (byte :: (others ++ ascii '"' :: rest)) = true :=
    isDigit_of_digitBytes_eq digits
  rw [writeKey, utf8_writeText_toString, List.cons_append, List.append_assoc, readKey]
  rw [digits, List.cons_append] at taken
  simp only [digits, List.drop_one, List.tail_cons, List.cons_append, digit, Bool.not_true,
    Bool.and_false, Bool.false_eq_true, if_false, List.nil_append, taken, Outcome.ok_bind,
    startsWith_self, if_true]
  rfl

theorem reads_key_text (text : String) :
    Reads (readKey .text) (Text.utf8 (writeKey (.text text))) (.text text) := by
  intro rest _
  have taken := readText_writeText text rest
  rw [utf8_writeText, List.drop_one, List.tail_cons] at taken
  rw [writeKey, utf8_writeText, List.cons_append, readKey, List.drop_one, List.tail_cons, taken]
  rfl

theorem reads_key {key : Shape} {value : Value} (isKey : key.isKey = true)
    (fits : HasShape key value) (bounded : value.Bounded) :
    Reads (readKey key) (Text.utf8 (writeKey value)) value := by
  cases key with
  | word =>
    cases fits with
    | word => exact reads_key_word bounded
    | variant isChoice => cases isChoice
  | text =>
    cases fits with
    | @text text => exact reads_key_text text
    | variant isChoice => cases isChoice
  | _ => cases isKey

theorem exists_writeKey_eq (value : Value) :
    ∃ inner, Text.utf8 (writeKey value) = ascii '"' :: inner := by
  cases value with
  | word number => exact ⟨_, utf8_writeText (toString number)⟩
  | text text => exact ⟨_, utf8_writeText text⟩
  | _ => exact ⟨_, utf8_writeText ""⟩

section Shapes

variable {named : TypeName → Nat → Reader Value} {depth : Nat}

theorem reads_flag (value : Bool) :
    Reads (readWith named .flag depth) (written .flag (.flag value)) (.flag value) := by
  intro rest _
  cases value with
  | true =>
    rw [written_true]
    rfl
  | false =>
    rw [written_false]
    rfl

theorem reads_word {number : Nat} (small : number < 2 ^ 64) :
    Reads (readWith named .word depth) (written .word (.word number)) (.word number) := by
  intro rest ends
  show readWord (Text.utf8 (toString number) ++ rest) = _
  rw [utf8_toString_nat]
  exact readWord_digitBytes small ends

theorem reads_int32 (number : Int32) :
    Reads (readWith named .int32 depth) (written .int32 (.int32 number)) (.int32 number) := by
  intro rest ends
  have least := Int32.le_toInt number
  have most := Int32.toInt_lt number
  show (readInteger "i32" _ _ (Text.utf8 (toString number.toInt) ++ rest) >>= _) = _
  rw [readInteger_toString (by omega) (by omega) (by omega) (by omega) ends, Outcome.ok_bind]
  show Except.ok _ = _
  rw [Int32.ofInt_toInt]

theorem reads_int64 (number : Int64) :
    Reads (readWith named .int64 depth) (written .int64 (.int64 number)) (.int64 number) := by
  intro rest ends
  have least := Int64.le_toInt number
  have most := Int64.toInt_lt number
  show (readInteger "i64" _ _ (Text.utf8 (toString number.toInt) ++ rest) >>= _) = _
  rw [readInteger_toString (by omega) (by omega) (by omega) (by omega) ends, Outcome.ok_bind]
  show Except.ok _ = _
  rw [Int64.ofInt_toInt]

theorem reads_text (text : String) :
    Reads (readWith named .text depth) (written .text (.text text)) (.text text) := by
  intro rest _
  show (readTextOf "a string" (Text.utf8 (writeText text) ++ rest) >>= _) = _
  rw [readTextOf_writeText, Outcome.ok_bind]
  rfl

theorem reads_absent (item : Shape) :
    Reads (readWith named (.optional item) depth) (written (.optional item) .absent) .absent := by
  intro rest _
  rw [written_absent]
  rfl

theorem reads_present {item : Shape} {value : Value} (starts : StartsPresent (written item value))
    (reads : Reads (readWith named item depth) (written item value) value) :
    Reads (readWith named (.optional item) depth) (written (.optional item) (.present value))
      (.present value) := by
  intro rest ends
  have taken := reads rest ends
  obtain ⟨byte, others, text, isBlack, _, notNull⟩ := starts
  have same : written (.optional item) (.present value) = written item value := rfl
  rw [text, List.cons_append] at taken
  rw [same, text, List.cons_append, readWith]
  simp only [skipBlanks_cons isBlack, startsWith_cons, decide_eq_false notNull,
    Bool.false_eq_true, if_false, taken, Outcome.ok_bind]
  rfl

theorem reads_sequence {item : Shape} {items : List Value} (deep : 1 < depth)
    (each : ∀ value ∈ items, Reads (readWith named item (depth - 1)) (written item value) value ∧
      StartsValue (written item value)) :
    Reads (readWith named (.sequence item) depth) (written (.sequence item) (.sequence items))
      (.sequence items) := by
  intro rest _
  have nonempty : ∀ value ∈ items, written item value ≠ [] := by
    intro value listed
    obtain ⟨byte, others, text, _⟩ := (each value listed).2
    rw [text]
    exact List.cons_ne_nil byte others
  have enough : items.length < (ascii '[' :: (separated true (items.map (written item)) ++
      ascii ']' :: rest)).length + 1 := by
    have counted := length_le_separated nonempty true
    rw [List.length_cons, List.length_append]
    omega
  have listTaken := readList_brackets deep (readItems_separated enough each true rest)
  rw [written_sequence, List.cons_append, List.append_assoc, List.singleton_append]
  show (toValue _ >>= _) = _
  rw [toValue_cons (by decide), Outcome.ok_bind]
  simp only [startsWith_self, if_true]
  show (readList depth _ (ascii '[' :: (separated true _ ++ ascii ']' :: rest)) >>= _) = _
  rw [listTaken]
  rfl

theorem reads_mapping {key value : Shape} {entries : List (Value × Value)} (deep : 1 < depth)
    (each : ∀ entry ∈ entries, Reads (readKey key) (Text.utf8 (writeKey entry.1)) entry.1 ∧
      Reads (readWith named value (depth - 1)) (written value entry.2) entry.2) :
    Reads (readWith named (.mapping key value) depth)
      (written (.mapping key value)
        (.sequence (entries.map fun entry => .record [entry.1, entry.2])))
      (.sequence (entries.map fun entry => .record [entry.1, entry.2])) := by
  intro rest _
  have nonempty : ∀ entry ∈ entries,
      keyed (Text.utf8 (writeKey entry.1)) (written value entry.2) ≠ [] := by
    intro entry _
    obtain ⟨inner, quoted⟩ := exists_writeKey_eq entry.1
    rw [keyed, quoted]
    exact List.cons_ne_nil _ _
  have enough : entries.length < (ascii '\x7b' :: (separated true (entries.map fun entry =>
      keyed (Text.utf8 (writeKey entry.1)) (written value entry.2)) ++
        ascii '\x7d' :: rest)).length + 1 := by
    have counted := length_le_separated nonempty true
    rw [List.length_cons, List.length_append]
    omega
  have entriesTaken := readEntries_separated (fun key => Text.utf8 (writeKey key)) (written value)
    enough (fun entry listed =>
      ⟨(each entry listed).1, exists_writeKey_eq entry.1, (each entry listed).2⟩) true rest
  have objectTaken := readObject_brackets deep entriesTaken
  rw [written_mapping, List.cons_append, List.append_assoc, List.singleton_append]
  show (toValue _ >>= _) = _
  rw [toValue_cons (by decide), Outcome.ok_bind]
  simp only [startsWith_self, if_true]
  show (readObject depth _ (ascii '\x7b' :: (separated true _ ++ ascii '\x7d' :: rest)) >>= _) = _
  rw [objectTaken]
  rfl

theorem reads_fields {typeName : String} {fields : List (String × Shape)} {values : List Value}
    (deep : 1 < depth) (distinct : (fields.map Prod.fst).Nodup)
    (sameLength : fields.length = values.length)
    (each : ∀ pair ∈ fields.zip values,
      Reads (readWith named pair.1.2 (depth - 1)) (written pair.1.2 pair.2) pair.2) :
    Reads (readWith named (.record typeName fields) depth)
      (written (.record typeName fields) (.record values)) (.record values) := by
  intro rest ends
  have names : ((fields.zip values).map fun pair =>
      (fieldReader named (depth - 1) pair.1).name).Nodup := by
    rwa [map_zip_fst (fun field => (fieldReader named (depth - 1) field).name) sameLength]
  have recordTaken : readRecord typeName
        ((fields.zip values).map fun pair => fieldReader named (depth - 1) pair.1) depth
        (written (.record typeName fields) (.record values) ++ rest) =
      .ok ((fields.zip values).map Prod.snd, rest) := by
    rw [written_record]
    exact reads_record deep names each rest ends
  rw [map_zip_fst (fieldReader named (depth - 1)) sameLength,
    List.map_snd_zip (Nat.le_of_eq sameLength.symm)] at recordTaken
  show (readRecord typeName (fieldReaders named fields (depth - 1)) depth _ >>= _) = _
  rw [fieldReaders_eq, recordTaken]
  rfl

theorem reads_variant {shape : Shape} {typeName name : String}
    {variants : List (String × List Shape)} {index : Nat} {shapes : List Shape}
    {payload : List Value} (isChoice : shape.unfolded = .choice typeName variants)
    (located : variants[index]? = some (name, shapes))
    (distinct : (variants.map Prod.fst).Nodup) (sameLength : shapes.length = payload.length)
    (reads : payload ≠ [] → 1 < depth ∧
      Reads (payloadRead named typeName name (depth - 1) shapes) (writtenPayload shapes payload)
        payload) :
    Reads (readWith named (.choice typeName variants) depth)
      (written shape (.variant index payload)) (.variant index payload) := by
  intro rest ends
  show readChoice (variantReaders named typeName variants (depth - 1)) depth _ = _
  rw [variantReaders_eq]
  have distinctNames : ((variants.map (variantReader named typeName (depth - 1))).map
      VariantReader.name).Nodup := by
    rw [List.map_map]
    exact distinct
  have found : (variants.map (variantReader named typeName (depth - 1)))[index]? =
      some (variantReader named typeName (depth - 1) (name, shapes)) := by
    rw [List.getElem?_map, located]
    rfl
  cases payload with
  | nil =>
    rw [written_variant_nil isChoice located]
    exact reads_choice_name distinctNames found sameLength rest ends
  | cons first others =>
    obtain ⟨deep, payloadReads⟩ := reads (List.cons_ne_nil first others)
    rw [written_variant_cons isChoice located sameLength (List.cons_ne_nil first others)]
    exact reads_choice_payload deep distinctNames found payloadReads rest ends

/-- A choice opens an object around a payload of one value, and a list inside it around several. -/
theorem reads_choice {shape : Shape} {typeName name : String}
    {variants : List (String × List Shape)} {index : Nat} {shapes : List Shape}
    {payload : List Value} (isChoice : shape.unfolded = .choice typeName variants)
    (located : variants[index]? = some (name, shapes))
    (distinct : (variants.map Prod.fst).Nodup) (sameLength : shapes.length = payload.length)
    (fits : ∀ pair ∈ shapes.zip payload, HasShape pair.1 pair.2)
    (shallow : nesting shape (.variant index payload) < depth)
    (each : ∀ pair ∈ shapes.zip payload, ∀ inner < depth, nesting pair.1 pair.2 < inner →
      Reads (readWith named pair.1 inner) (written pair.1 pair.2) pair.2) :
    Reads (readWith named (.choice typeName variants) depth)
      (written shape (.variant index payload)) (.variant index payload) := by
  refine reads_variant isChoice located distinct sameLength fun nonempty => ?_
  rcases Nat.lt_or_ge 1 shapes.length with several | single
  · rw [nesting_variant_several isChoice located (sameLength ▸ several)] at shallow
    refine ⟨by omega, reads_payload_several several sameLength (by omega) ?_⟩
    intro pair member
    have pairShallow := payloadNesting_le.mp (Nat.le_refl (payloadNesting shapes payload)) pair
      member
    exact ⟨each pair member (depth - 1 - 1) (by omega) (by omega),
      startsValue_written (fits pair member)⟩
  · obtain ⟨value, rfl⟩ : ∃ value, payload = [value] := by
      have := List.length_pos_iff.mpr nonempty
      exact List.length_eq_one_iff.mp (by omega)
    obtain ⟨item, rfl⟩ := List.length_eq_one_iff.mp sameLength
    rw [nesting_variant_single isChoice located] at shallow
    have itemReads := each (item, value) List.mem_cons_self (depth - 1) (by omega)
      (show nesting item value < depth - 1 by omega)
    exact ⟨by omega, reads_payload_single itemReads⟩

end Shapes

/-- A value is read back by its shape where its text nests less deep than it may. -/
theorem reads_written {shape : Shape} {value : Value} (fits : HasShape shape value)
    (readable : shape.readable = true) (bounded : value.Bounded) {depth bound : Nat}
    (shallow : nesting shape value < depth) (enough : depth ≤ bound) :
    Reads (readWith (readNamed bound) shape depth) (written shape value) value := by
  induction fits generalizing depth bound with
  | @flag value => exact reads_flag value
  | word => exact reads_word bounded
  | @int32 number => exact reads_int32 number
  | @int64 number => exact reads_int64 number
  | @text text => exact reads_text text
  | @absent item => exact reads_absent item
  | @present item value inner inductionHypothesis =>
    rw [Shape.readable, Bool.and_eq_true, Bool.not_eq_true'] at readable
    exact reads_present (startsPresent_written inner readable.1)
      (inductionHypothesis readable.2 bounded shallow enough)
  | @sequence item items each inductionHypothesis =>
    have inside : itemsNesting item items + 1 < depth := shallow
    refine reads_sequence (by omega) fun value member =>
      ⟨?_, startsValue_written (each value member)⟩
    have itemShallow := itemsNesting_le.mp (Nat.le_refl (itemsNesting item items)) value member
    exact inductionHypothesis value member readable
      (Value.allBounded_iff.mp bounded.2 value member) (by omega) (by omega)
  | @mapping key value entries small keys values _ inductionHypothesis =>
    have inside : entriesNesting value (entries.map fun entry => .record [entry.1, entry.2]) + 1 <
        depth := shallow
    rw [Shape.readable, Bool.and_eq_true] at readable
    refine reads_mapping (by omega) fun entry member => ?_
    have entryBounded := Value.allBounded_iff.mp bounded.2 _ (List.mem_map_of_mem member)
    have entryShallow := entriesNesting_le.mp (Nat.le_refl (entriesNesting value _)) entry member
    exact ⟨reads_key readable.1 (keys entry member) entryBounded.1,
      inductionHypothesis entry member readable.2 entryBounded.2.1 (by omega) (by omega)⟩
  | @record typeName fields values sameLength each inductionHypothesis =>
    have inside : fieldsNesting fields values + 1 < depth := shallow
    rw [Shape.readable, Bool.and_eq_true, decide_eq_true_eq] at readable
    refine reads_fields (by omega) readable.1 sameLength fun pair member => ?_
    have fieldShallow := fieldsNesting_le.mp (Nat.le_refl (fieldsNesting fields values)) pair
      member
    exact inductionHypothesis pair member
      (Shape.fieldsReadable_iff.mp readable.2 _ (List.of_mem_zip member).1)
      (Value.allBounded_iff.mp bounded _ (List.of_mem_zip member).2) (by omega) (by omega)
  | @variant shape typeName name variants index shapes payload isChoice located small sameLength
      each inductionHypothesis =>
    have choiceReadable := Shape.unfolded_readable readable
    rw [isChoice, Shape.readable, Bool.and_eq_true, decide_eq_true_eq] at choiceReadable
    have shapesReadable := Shape.variantsReadable_iff.mp choiceReadable.2 _
      (List.mem_of_getElem? located)
    have payloadReads {bound : Nat} (enough : depth ≤ bound + 1) :
        ∀ pair ∈ shapes.zip payload, ∀ inner < depth, nesting pair.1 pair.2 < inner →
          Reads (readWith (readNamed bound) pair.1 inner) (written pair.1 pair.2) pair.2 :=
      fun pair member inner less pairShallow => inductionHypothesis pair member
        (Shape.allReadable_iff.mp shapesReadable pair.1 (List.of_mem_zip member).1)
        (Value.allBounded_iff.mp bounded pair.2 (List.of_mem_zip member).2) pairShallow (by omega)
    cases shape with
    | choice =>
      cases isChoice
      exact reads_choice rfl located choiceReadable.1 sameLength each shallow
        (payloadReads (by omega))
    | named typeName =>
      -- Following the name uses up one step of the bound, which the object around the payload pays.
      obtain ⟨inner, rfl⟩ : ∃ inner, bound = inner + 1 := ⟨bound - 1, by omega⟩
      intro rest ends
      show readWith (readNamed inner) typeName.shape depth _ = _
      rw [show typeName.shape = _ from isChoice]
      exact reads_choice isChoice located choiceReadable.1 sameLength each shallow
        (payloadReads enough) rest ends
    | _ => cases isChoice

/-- A value is read back from the whole of its text. -/
theorem read_written {shape : Shape} {value : Value} (fits : HasShape shape value)
    (readable : shape.readable = true) (bounded : value.Bounded)
    (shallow : nesting shape value < depthLimit) :
    read shape (written shape value) = .ok value := by
  have taken := reads_written fits readable bounded shallow (Nat.le_refl depthLimit) [] rfl
  rw [List.append_nil] at taken
  rw [read, taken, Outcome.ok_bind]
  rfl

end TypeRecords.Wire.Json
