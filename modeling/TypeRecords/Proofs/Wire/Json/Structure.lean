import TypeRecords.Proofs.Wire.Json.Number

/-!
Reading lists, objects, records and choices back.

Owns one law for every way in which readers are put together: a reader of the whole takes exactly
what the parts were written as, with commas between them, if the readers of the parts do. Each law
is about readers of any kind; which of them belong to a shape is left to the round trip.
-/

namespace TypeRecords.Wire.Json

/-- Whether a reader takes exactly some bytes as a value, whatever comes behind them that does not
continue a number. -/
def Reads {α : Type} (reader : Reader α) (text : List UInt8) (value : α) : Prop :=
  ∀ rest, EndsNumber rest → reader (text ++ rest) = .ok (value, rest)

/-- Whether bytes start as a value does: not with a blank, and not with the end of a list. -/
def StartsValue (text : List UInt8) : Prop :=
  ∃ byte rest, text = byte :: rest ∧ 0x20 < byte.toNat ∧ byte ≠ ascii ']'

theorem endsNumber_ascii (character : Char) (ends : continuesNumber (ascii character) = false)
    (rest : List UInt8) : EndsNumber (ascii character :: rest) := ends

theorem readTextOf_writeText (expected text : String) (rest : List UInt8) :
    readTextOf expected (Text.utf8 (writeText text) ++ rest) = .ok (text, rest) := by
  have taken := readText_writeText text rest
  rw [utf8_writeText] at taken ⊢
  rw [readTextOf, List.cons_append, toValue_cons (by decide), Outcome.ok_bind]
  simp only [startsWith_self, if_true]
  exact taken

/-! ## Parts with commas between them -/

/-- Parts with commas between them, and one in front unless the first of them is the first. -/
def separated : Bool → List (List UInt8) → List UInt8
  | _, [] => []
  | first, part :: parts => (if first then [] else [ascii ',']) ++ part ++ separated false parts

theorem utf8_intercalate (parts : List String) :
    Text.utf8 (",".intercalate parts) = separated true (parts.map Text.utf8) := by
  have comma : Text.utf8 "," = [ascii ','] := Text.utf8_ofList [',']
  induction parts with
  | nil =>
    rw [String.intercalate_nil]
    exact Text.utf8_ofList []
  | cons part parts inductionHypothesis =>
    cases parts with
    | nil =>
      rw [String.intercalate_singleton]
      simp [separated]
    | cons next others =>
      rw [String.intercalate_cons_cons, Text.utf8_append, Text.utf8_append, inductionHypothesis,
        comma]
      simp [separated]

/-- There are no more parts than bytes. -/
theorem length_le_separated {ι : Type} {items : List ι} {text : ι → List UInt8}
    (nonempty : ∀ item ∈ items, text item ≠ []) (first : Bool) :
    items.length ≤ (separated first (items.map text)).length := by
  induction items generalizing first with
  | nil => exact Nat.zero_le _
  | cons item items inductionHypothesis =>
    rw [List.forall_mem_cons] at nonempty
    have ofItem := List.length_pos_iff.mpr nonempty.1
    have ofOthers := inductionHypothesis nonempty.2 false
    simp only [List.map_cons, separated, List.length_cons, List.length_append]
    omega

/-- Behind a part stands a comma or the closing bracket. -/
theorem endsNumber_separated (closing : Char) (ends : continuesNumber (ascii closing) = false)
    (parts : List (List UInt8)) (rest : List UInt8) :
    EndsNumber (separated false parts ++ ascii closing :: rest) := by
  cases parts with
  | nil => exact ends
  | cons part parts => exact endsNumber_ascii ',' (by decide) _

/-! ## Brackets -/

theorem openNested_of_lt {depth : Nat} (deep : 1 < depth) (rest : List UInt8) :
    openNested depth rest = .ok (rest.drop 1) := by
  rw [openNested, if_neg (by omega)]

theorem closeList_bracket (rest : List UInt8) : closeList (ascii ']' :: rest) = .ok rest := by
  simp only [closeList, skipBlanks_cons (show 0x20 < (ascii ']').toNat by decide), startsWith_self]
  rfl

theorem closeObject_bracket (rest : List UInt8) :
    closeObject (ascii '\x7d' :: rest) = .ok rest := by
  simp only [closeObject, skipBlanks_cons (show 0x20 < (ascii '\x7d').toNat by decide),
    startsWith_self]
  rfl

theorem readList_brackets {α : Type} {depth : Nat} {contents : Reader α} {body rest : List UInt8}
    {value : α} (deep : 1 < depth)
    (taken : contents (body ++ ascii ']' :: rest) = .ok (value, ascii ']' :: rest)) :
    readList depth contents (ascii '[' :: (body ++ ascii ']' :: rest)) = .ok (value, rest) := by
  have settled : settle listEndSought (contents (body ++ ascii ']' :: rest)) =
      .ok (value, ascii ']' :: rest) := by
    rw [taken]
    rfl
  rw [readList, openNested_of_lt deep, Outcome.ok_bind, List.drop_one, List.tail_cons, settled,
    Outcome.ok_bind]
  show (closeList (ascii ']' :: rest) >>= _) = _
  rw [closeList_bracket]
  rfl

theorem readObject_brackets {α : Type} {depth : Nat} {contents : Reader α}
    {body rest : List UInt8} {value : α} (deep : 1 < depth)
    (taken : contents (body ++ ascii '\x7d' :: rest) = .ok (value, ascii '\x7d' :: rest)) :
    readObject depth contents (ascii '\x7b' :: (body ++ ascii '\x7d' :: rest)) =
      .ok (value, rest) := by
  have settled : settle objectEndSought (contents (body ++ ascii '\x7d' :: rest)) =
      .ok (value, ascii '\x7d' :: rest) := by
    rw [taken]
    rfl
  rw [readObject, openNested_of_lt deep, Outcome.ok_bind, List.drop_one, List.tail_cons, settled,
    Outcome.ok_bind]
  show (closeObject (ascii '\x7d' :: rest) >>= _) = _
  rw [closeObject_bracket]
  rfl

/-! ## Items -/

theorem nextItem_part {first : Bool} {part : List UInt8} (starts : StartsValue part)
    (rest : List UInt8) :
    nextItem first ((if first then [] else [ascii ',']) ++ part ++ rest) =
      .ok (some (part ++ rest)) := by
  obtain ⟨byte, others, rfl, isBlack, notEnd⟩ := starts
  have noEnd : startsWith ']' (byte :: (others ++ rest)) = false := by
    rw [startsWith_cons, decide_eq_false notEnd]
  cases first with
  | true =>
    simp [nextItem, skipBlanks_cons isBlack, noEnd]
  | false =>
    simp [nextItem, skipBlanks_cons (show 0x20 < (ascii ',').toNat by decide), startsWith_cons,
      skipBlanks_cons isBlack, noEnd, show ascii ',' ≠ ascii ']' by decide]

theorem nextItem_end (first : Bool) (rest : List UInt8) :
    nextItem first (ascii ']' :: rest) = .ok none := by
  simp [nextItem, skipBlanks_cons (show 0x20 < (ascii ']').toNat by decide), startsWith_self]

theorem readItems_separated {item : Reader Value} {text : Value → List UInt8}
    {items : List Value} {bound : Nat} (enough : items.length < bound)
    (each : ∀ value ∈ items, Reads item (text value) value ∧ StartsValue (text value))
    (first : Bool) (rest : List UInt8) :
    readItems item bound first (separated first (items.map text) ++ ascii ']' :: rest) =
      .ok (items, ascii ']' :: rest) := by
  induction items generalizing bound first with
  | nil =>
    obtain ⟨inner, rfl⟩ : ∃ inner, bound = inner + 1 := ⟨bound - 1, by omega⟩
    rw [List.map_nil, separated, List.nil_append, readItems, nextItem_end, Outcome.ok_bind]
    simp only [skipBlanks_cons (show 0x20 < (ascii ']').toNat by decide)]
    rfl
  | cons value others inductionHypothesis =>
    obtain ⟨inner, rfl⟩ : ∃ inner, bound = inner + 1 := ⟨bound - 1, by omega⟩
    rw [List.forall_mem_cons] at each
    rw [List.length_cons] at enough
    rw [List.map_cons, separated, List.append_assoc _ (separated _ _), readItems,
      nextItem_part each.1.2, Outcome.ok_bind]
    have taken := each.1.1 (separated false (others.map text) ++ ascii ']' :: rest)
      (endsNumber_separated ']' (by decide) _ _)
    have othersTaken := inductionHypothesis (show others.length < inner by omega) each.2 false
    simp only [taken, othersTaken, Outcome.ok_bind]
    rfl

/-! ## Entries -/

theorem nextKey_part {first : Bool} {part inner : List UInt8} (quoted : part = ascii '"' :: inner)
    (rest : List UInt8) :
    nextKey first ((if first then [] else [ascii ',']) ++ part ++ rest) =
      .ok (some (part ++ rest)) := by
  subst quoted
  have quoteBlack : 0x20 < (ascii '"').toNat := by decide
  have noEnd : ascii '"' ≠ ascii '\x7d' := by decide
  cases first with
  | true => simp [nextKey, skipBlanks_cons quoteBlack, startsWith_cons, noEnd]
  | false =>
    simp [nextKey, skipBlanks_cons (show 0x20 < (ascii ',').toNat by decide), startsWith_cons,
      skipBlanks_cons quoteBlack, show ascii ',' ≠ ascii '\x7d' by decide]

theorem nextKey_end (first : Bool) (rest : List UInt8) :
    nextKey first (ascii '\x7d' :: rest) = .ok none := by
  simp [nextKey, skipBlanks_cons (show 0x20 < (ascii '\x7d').toNat by decide), startsWith_self]

theorem passColon_colon (rest : List UInt8) : passColon (ascii ':' :: rest) = .ok rest := by
  simp [passColon, skipBlanks_cons (show 0x20 < (ascii ':').toNat by decide), startsWith_self]

/-- An entry of a map or of a record: a quoted key, a colon and a value. -/
def keyed (key value : List UInt8) : List UInt8 := key ++ ascii ':' :: value

theorem readEntries_separated {key value : Reader Value} (keyText valueText : Value → List UInt8)
    {entries : List (Value × Value)} {bound : Nat} (enough : entries.length < bound)
    (each : ∀ entry ∈ entries, Reads key (keyText entry.1) entry.1 ∧
      (∃ inner, keyText entry.1 = ascii '"' :: inner) ∧ Reads value (valueText entry.2) entry.2)
    (first : Bool) (rest : List UInt8) :
    readEntries key value bound first
        (separated first (entries.map fun entry => keyed (keyText entry.1) (valueText entry.2)) ++
          ascii '\x7d' :: rest) =
      .ok (entries.map fun entry => .record [entry.1, entry.2], ascii '\x7d' :: rest) := by
  induction entries generalizing bound first with
  | nil =>
    obtain ⟨inner, rfl⟩ : ∃ inner, bound = inner + 1 := ⟨bound - 1, by omega⟩
    rw [List.map_nil, separated, List.nil_append, readEntries, nextKey_end, Outcome.ok_bind]
    simp only [skipBlanks_cons (show 0x20 < (ascii '\x7d').toNat by decide)]
    rfl
  | cons entry others inductionHypothesis =>
    obtain ⟨inner, rfl⟩ : ∃ inner, bound = inner + 1 := ⟨bound - 1, by omega⟩
    rw [List.forall_mem_cons] at each
    obtain ⟨⟨keyReads, ⟨keyInner, quoted⟩, valueReads⟩, othersRead⟩ := each
    rw [List.length_cons] at enough
    have keyedQuoted : keyed (keyText entry.1) (valueText entry.2) =
        ascii '"' :: (keyInner ++ ascii ':' :: valueText entry.2) := by
      rw [keyed, quoted, List.cons_append]
    have othersTaken := inductionHypothesis (show others.length < inner by omega) othersRead false
    have valueTaken := valueReads _ (endsNumber_separated '\x7d' (by decide)
      (others.map fun entry => keyed (keyText entry.1) (valueText entry.2)) rest)
    have keyTaken := keyReads (ascii ':' :: (valueText entry.2 ++
      (separated false (others.map fun entry => keyed (keyText entry.1) (valueText entry.2)) ++
        ascii '\x7d' :: rest))) (endsNumber_ascii ':' (by decide) _)
    rw [List.map_cons, separated, List.append_assoc _ (separated _ _), readEntries,
      nextKey_part keyedQuoted, Outcome.ok_bind]
    simp only [keyed, List.append_assoc, List.cons_append] at keyTaken valueTaken othersTaken ⊢
    simp only [keyTaken, passColon_colon, valueTaken, othersTaken, Outcome.ok_bind]
    rfl

/-! ## Fields -/

/-- Among distinct names the search by name comes to the place of the name. -/
theorem find?_zipIdx_of_getElem? {α : Type} {name : α → String} {items : List α} {place : Nat}
    {item : α} (distinct : (items.map name).Nodup) (located : items[place]? = some item)
    (start : Nat) :
    (items.zipIdx start).find? (fun entry => name entry.1 = name item) =
      some (item, start + place) := by
  induction items generalizing place start with
  | nil => simp at located
  | cons first others inductionHypothesis =>
    rw [List.map_cons, List.nodup_cons] at distinct
    rw [List.zipIdx_cons]
    cases place with
    | zero =>
      simp only [List.getElem?_cons_zero, Option.some.injEq] at located
      rw [located, List.find?_cons_of_pos (by simp), Nat.add_zero]
    | succ place =>
      rw [List.getElem?_cons_succ] at located
      have differs : name first ≠ name item := by
        intro same
        rw [same] at distinct
        exact distinct.1 (List.mem_map_of_mem (List.mem_of_getElem? located))
      rw [List.find?_cons_of_neg (by simpa using differs),
        inductionHypothesis distinct.2 located (start + 1), Nat.add_assoc, Nat.add_comm 1 place]

section Fields

variable {ι : Type} {reader : ι → FieldReader} {value : ι → Value} {text : ι → List UInt8}

theorem readListedFields_separated {expected : String} {items : List ι}
    (each : ∀ item ∈ items,
      Reads (reader item).read (text item) (value item) ∧ StartsValue (text item))
    (index : Nat) (first : Bool) (rest : List UInt8) :
    readListedFields expected (items.map reader) index first
        (separated first (items.map text) ++ ascii ']' :: rest) =
      .ok (items.map value, ascii ']' :: rest) := by
  induction items generalizing index first with
  | nil => rfl
  | cons item others inductionHypothesis =>
    rw [List.forall_mem_cons] at each
    have taken := each.1.1 (separated false (others.map text) ++ ascii ']' :: rest)
      (endsNumber_separated ']' (by decide) _ _)
    have othersTaken := inductionHypothesis each.2 (index + 1) false
    rw [List.map_cons, List.map_cons, List.map_cons, separated,
      List.append_assoc _ (separated _ _), readListedFields, nextItem_part each.1.2,
      Outcome.ok_bind]
    simp only [taken, othersTaken, Outcome.ok_bind]
    rfl

/-- A field as it stands in an object. -/
def fieldText (name : String) (value : List UInt8) : List UInt8 :=
  keyed (Text.utf8 (writeText name)) value

/-- One field of an object is read by what reads the fields of its name. -/
theorem readNamedFields_field {fields : List FieldReader} {field : FieldReader} {place : Nat}
    {found : List (Option Value)} {valueText remaining : List UInt8} {fieldValue : Value}
    (distinct : (fields.map FieldReader.name).Nodup) (located : fields[place]? = some field)
    (missing : found[place]?.join = none) (reads : Reads field.read valueText fieldValue)
    (ends : EndsNumber remaining) (bound : Nat) (first : Bool) :
    readNamedFields fields (bound + 1) first found
        ((if first then [] else [ascii ',']) ++ fieldText field.name valueText ++ remaining) =
      readNamedFields fields bound false (found.set place (some fieldValue)) remaining := by
  have quoted : fieldText field.name valueText = ascii '"' ::
      ((field.name.toList.flatMap escapedBytes ++ [ascii '"']) ++ ascii ':' :: valueText) := by
    rw [fieldText, keyed, utf8_writeText, List.cons_append]
  have nameTaken : readText ((fieldText field.name valueText ++ remaining).drop 1) =
      .ok (field.name, ascii ':' :: (valueText ++ remaining)) := by
    have taken := readText_writeText field.name (ascii ':' :: (valueText ++ remaining))
    rw [utf8_writeText, List.drop_one, List.tail_cons] at taken
    rw [quoted, List.cons_append, List.drop_one, List.tail_cons, List.append_assoc]
    exact taken
  have searched := find?_zipIdx_of_getElem? distinct located 0
  rw [Nat.zero_add] at searched
  rw [readNamedFields, nextKey_part quoted, Outcome.ok_bind]
  simp only [nameTaken, Outcome.ok_bind, searched, missing, Option.isSome_none, passColon_colon,
    reads remaining ends]
  rfl

/-- The fields of an object are read in the order they stand in; those passed have their values. -/
theorem readNamedFields_separated (before after : List ι)
    (distinct : ((before ++ after).map fun item => (reader item).name).Nodup)
    (each : ∀ item ∈ after, Reads (reader item).read (text item) (value item))
    {bound : Nat} (enough : after.length < bound) (first : Bool) (rest : List UInt8) :
    readNamedFields ((before ++ after).map reader) bound first
        (before.map (fun item => some (value item)) ++ after.map fun _ => none)
        (separated first (after.map fun item => fieldText (reader item).name (text item)) ++
          ascii '\x7d' :: rest) =
      .ok ((before ++ after).map fun item => some (value item), ascii '\x7d' :: rest) := by
  induction after generalizing before bound first with
  | nil =>
    obtain ⟨inner, rfl⟩ : ∃ inner, bound = inner + 1 := ⟨bound - 1, by omega⟩
    simp only [List.map_nil, separated, List.nil_append, List.append_nil]
    rw [readNamedFields, nextKey_end, Outcome.ok_bind]
    simp only [skipBlanks_cons (show 0x20 < (ascii '\x7d').toNat by decide)]
    rfl
  | cons item others inductionHypothesis =>
    obtain ⟨inner, rfl⟩ : ∃ inner, bound = inner + 1 := ⟨bound - 1, by omega⟩
    rw [List.forall_mem_cons] at each
    rw [List.length_cons] at enough
    have distinctNames : (((before ++ item :: others).map reader).map FieldReader.name).Nodup := by
      rw [List.map_map]
      exact distinct
    have located : ((before ++ item :: others).map reader)[before.length]? =
        some (reader item) := by
      simp
    have missing : (before.map (fun item => some (value item)) ++
        (item :: others).map fun _ => (none : Option Value))[before.length]?.join = none := by
      simp
    have placed : (before.map (fun item => some (value item)) ++
          (item :: others).map fun _ => (none : Option Value)).set before.length
            (some (value item)) =
        (before ++ [item]).map (fun item => some (value item)) ++ others.map fun _ => none := by
      simp
    have ends := endsNumber_separated '\x7d' (by decide)
      (others.map fun item => fieldText (reader item).name (text item)) rest
    have othersTaken := inductionHypothesis (before ++ [item])
      (by rwa [List.append_cons] at distinct) each.2 (show others.length < inner by omega) false
    have whole : separated first
          ((item :: others).map fun item => fieldText (reader item).name (text item)) ++
            ascii '\x7d' :: rest =
        (if first then [] else [ascii ',']) ++ fieldText (reader item).name (text item) ++
          (separated false (others.map fun item => fieldText (reader item).name (text item)) ++
            ascii '\x7d' :: rest) := List.append_assoc _ _ _
    rw [whole, readNamedFields_field distinctNames located missing each.1 ends, placed,
      List.append_cons before item others]
    exact othersTaken

theorem completeFields_found (items : List ι) (rest : List UInt8) :
    completeFields rest (items.map reader) (items.map fun item => some (value item)) =
      .ok (items.map value) := by
  induction items with
  | nil => rfl
  | cons item others inductionHypothesis =>
    show (completeFields rest (others.map reader) (others.map fun item => some (value item)) >>=
      _) = _
    rw [inductionHypothesis]
    rfl

/-- A record is read from the object of its fields. -/
theorem reads_record {typeName : String} {depth : Nat} {items : List ι} (deep : 1 < depth)
    (distinct : (items.map fun item => (reader item).name).Nodup)
    (each : ∀ item ∈ items, Reads (reader item).read (text item) (value item)) :
    Reads (readRecord typeName (items.map reader) depth)
      (ascii '\x7b' ::
        (separated true (items.map fun item => fieldText (reader item).name (text item)) ++
          [ascii '\x7d']))
      (items.map value) := by
  intro rest _
  have nonempty : ∀ item ∈ items, fieldText (reader item).name (text item) ≠ [] := by
    intro item _
    rw [fieldText, keyed, utf8_writeText]
    exact List.cons_ne_nil _ _
  have enough : items.length < (separated true
      (items.map fun item => fieldText (reader item).name (text item)) ++
        ascii '\x7d' :: rest).length + 1 := by
    have counted := length_le_separated nonempty true
    rw [List.length_append]
    omega
  have fieldsTaken := readNamedFields_separated [] items distinct each enough true rest
  rw [List.map_nil, List.nil_append, List.nil_append] at fieldsTaken
  have noList : ascii '\x7b' ≠ ascii '[' := by decide
  rw [List.cons_append, List.append_assoc, List.singleton_append, readRecord,
    toValue_cons (by decide), Outcome.ok_bind]
  simp only [startsWith_cons, decide_eq_false noList, Bool.false_eq_true, if_false]
  refine readObject_brackets deep ?_
  simp only [List.map_map, Function.comp_def, fieldsTaken, Outcome.ok_bind, completeFields_found]
  rfl

end Fields

/-! ## Choices -/

section Choices

variable {variants : List VariantReader} {variant : VariantReader} {index : Nat}

theorem readVariantName_name (distinct : (variants.map VariantReader.name).Nodup)
    (located : variants[index]? = some variant) (rest : List UInt8) :
    readVariantName variants (Text.utf8 (writeText variant.name) ++ rest) =
      .ok ((variant, index), rest) := by
  have searched := find?_zipIdx_of_getElem? distinct located 0
  rw [Nat.zero_add] at searched
  rw [readVariantName, readTextOf_writeText, Outcome.ok_bind]
  simp only [searched]
  rfl

/-- An alternative without payload is read from its name. -/
theorem reads_choice_name {depth : Nat} (distinct : (variants.map VariantReader.name).Nodup)
    (located : variants[index]? = some variant) (noPayload : variant.arity = 0) :
    Reads (readChoice variants depth) (Text.utf8 (writeText variant.name))
      (.variant index []) := by
  intro rest _
  have named := readVariantName_name distinct located rest
  rw [utf8_writeText, List.cons_append] at named ⊢
  rw [readChoice, toValue_cons (by decide), Outcome.ok_bind]
  have noObject : ascii '"' ≠ ascii '\x7b' := by decide
  simp only [startsWith_cons, decide_eq_false noObject, Bool.false_eq_true, if_false, named,
    Outcome.ok_bind, noPayload]
  rfl

/-- An alternative with payload is read from an object with its name as the one key. -/
theorem reads_choice_payload {depth : Nat} {body : List UInt8} {payload : List Value}
    (deep : 1 < depth) (distinct : (variants.map VariantReader.name).Nodup)
    (located : variants[index]? = some variant) (reads : Reads variant.read body payload) :
    Reads (readChoice variants depth)
      (ascii '\x7b' :: (fieldText variant.name body ++ [ascii '\x7d']))
      (.variant index payload) := by
  intro rest _
  have named := readVariantName_name distinct located
    (ascii ':' :: (body ++ ascii '\x7d' :: rest))
  have payloadTaken := reads (ascii '\x7d' :: rest) (endsNumber_ascii '\x7d' (by decide) rest)
  have toName : toVariantName (Text.utf8 (writeText variant.name) ++
        ascii ':' :: (body ++ ascii '\x7d' :: rest)) =
      .ok (Text.utf8 (writeText variant.name) ++ ascii ':' :: (body ++ ascii '\x7d' :: rest)) := by
    have noEnd : ascii '"' ≠ ascii '\x7d' := by decide
    rw [utf8_writeText, List.cons_append]
    simp [toVariantName, skipBlanks_cons (show 0x20 < (ascii '"').toNat by decide),
      startsWith_cons, noEnd]
  have whole : ascii '\x7b' :: (fieldText variant.name body ++ [ascii '\x7d']) ++ rest =
      ascii '\x7b' :: (Text.utf8 (writeText variant.name) ++
        ascii ':' :: (body ++ ascii '\x7d' :: rest)) := by
    simp [fieldText, keyed]
  rw [whole, readChoice, toValue_cons (by decide), Outcome.ok_bind]
  simp only [startsWith_self, if_true, openNested_of_lt deep, Outcome.ok_bind, List.drop_one,
    List.tail_cons, toName, named, passColon_colon, payloadTaken,
    skipBlanks_cons (show 0x20 < (ascii '\x7d').toNat by decide)]
  rfl

end Choices

end TypeRecords.Wire.Json
