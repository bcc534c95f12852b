import TypeRecords.Proofs.Outcome
import TypeRecords.Proofs.Wire.Shape
import TypeRecords.Proofs.Wire.Utf8

/-!
Reading the binary form back.

Owns the proof that a value is restored from its binary form and that no front of the form will do.
Both are statements about decoders: what one takes off the front of any bytes, and that more bytes
behind change nothing about what is taken. The second needs the decoders of recursive types for two
depths at once, since the depth allowed grows with the number of bytes.
-/

namespace TypeRecords.Wire

namespace Binary

/-! ## What is taken -/

/-- Whether a decoder takes exactly some bytes, whatever comes behind them, as a value. -/
def Takes {α : Type} (decoder : Decoder α) (front : List UInt8) (value : α) : Prop :=
  ∀ rest, decoder (front ++ rest) = .ok (value, rest)

theorem length_littleEndian (width number : Nat) : (littleEndian width number).length = width := by
  induction width generalizing number with
  | zero => rfl
  | succ width inductionHypothesis => rw [littleEndian, List.length_cons, inductionHypothesis]

theorem takes_number {width number : Nat} (fits : number < 256 ^ width) :
    Takes (decodeNumber width) (littleEndian width number) number := by
  induction width generalizing number with
  | zero =>
    intro rest
    rw [Nat.lt_one_iff.mp fits]
    rfl
  | succ width inductionHypothesis =>
    intro rest
    have highFits : number / 256 < 256 ^ width := by
      rw [Nat.pow_succ] at fits
      exact Nat.div_lt_of_lt_mul (by omega)
    have low : (UInt8.ofNat (number % 256)).toNat = number % 256 := by
      simp
    rw [littleEndian, List.cons_append, decodeNumber, inductionHypothesis highFits rest,
      Outcome.ok_bind]
    show Except.ok _ = _
    rw [low, Nat.mod_add_div]

theorem takes_text {text : String} (short : text.utf8ByteSize < 2 ^ 64) :
    Takes decodeText (littleEndian 8 (Text.utf8 text).length ++ Text.utf8 text) text := by
  intro rest
  have enough : ¬ (Text.utf8 text ++ rest).length < (Text.utf8 text).length := by
    rw [List.length_append]
    omega
  rw [← Text.length_utf8] at short
  rw [decodeText, List.append_assoc, takes_number short, Outcome.ok_bind]
  simp only [List.splitAt_eq, List.take_left, List.drop_left, Text.ofUtf8?_utf8, if_neg enough]
  rfl

theorem takes_times {decoder : Decoder Value} {items : List Value}
    (each : ∀ item ∈ items, Takes decoder (encode item) item) :
    Takes (decodeTimes decoder items.length) (encodeAll items) items := by
  intro rest
  induction items with
  | nil => rfl
  | cons item others inductionHypothesis =>
    rw [List.forall_mem_cons] at each
    rw [encodeAll, List.append_assoc, List.length_cons, decodeTimes, each.1, Outcome.ok_bind]
    show (decodeTimes decoder others.length (encodeAll others ++ rest) >>= _) = _
    rw [inductionHypothesis each.2, Outcome.ok_bind]
    rfl

/-- The fields of a record stand one after the other like any values. -/
theorem decodeFieldsWith_eq (named : TypeName → Decoder Value) (fields : List (String × Shape)) :
    decodeFieldsWith named fields = decodeAllWith named (fields.map Prod.snd) := by
  funext bytes
  induction fields generalizing bytes with
  | nil => rfl
  | cons field others inductionHypothesis =>
    simp only [decodeFieldsWith, List.map_cons, decodeAllWith, inductionHypothesis]

/-- The shape of an entry of a map. -/
def entryShape (key value : Shape) : Shape := .record "entry" [("key", key), ("value", value)]

/-- The entries of a map are taken like records of key and value. -/
theorem decodeWith_mapping (named : TypeName → Decoder Value) (key value : Shape)
    (bytes : List UInt8) :
    decodeWith named (.mapping key value) bytes = (do
      let (length, bytes) ← decodeNumber 8 bytes
      if mapLimit < length then throw (.mapTooLarge length)
      let (entries, bytes) ← decodeTimes (decodeWith named (entryShape key value)) length bytes
      return (.sequence entries, bytes)) := by
  have entryTaken : decodeWith named (entryShape key value) = fun bytes =>
      decodeWith named key bytes >>= fun keyTaken =>
        decodeWith named value keyTaken.2 >>= fun valueTaken =>
          .ok (.record [keyTaken.1, valueTaken.1], valueTaken.2) := by
    funext bytes
    simp only [entryShape, decodeWith, decodeFieldsWith, bind_assoc]
    rfl
  rw [decodeWith, entryTaken]
  rfl

/-- An alternative is found by its position. -/
theorem decodePayloadWith_eq (named : TypeName → Decoder Value)
    (variants : List (String × List Shape)) (index : Nat) :
    decodePayloadWith named variants index =
      variants[index]?.map fun variant => decodeAllWith named variant.2 := by
  induction variants generalizing index with
  | nil => rfl
  | cons variant others inductionHypothesis =>
    cases index with
    | zero => rfl
    | succ index => rw [decodePayloadWith, inductionHypothesis, List.getElem?_cons_succ]

theorem takes_all {named : TypeName → Decoder Value} {shapes : List Shape} {values : List Value}
    (each : List.Forall₂ (fun shape value => Takes (decodeWith named shape) (encode value) value)
      shapes values) :
    Takes (decodeAllWith named shapes) (encodeAll values) values := by
  intro rest
  induction each with
  | nil => rfl
  | cons taken _ inductionHypothesis =>
    rw [encodeAll, List.append_assoc, decodeAllWith, taken, Outcome.ok_bind]
    show (decodeAllWith named _ _ >>= _) = _
    rw [inductionHypothesis, Outcome.ok_bind]
    rfl

theorem takes_record {named : TypeName → Decoder Value} {typeName : String}
    {fields : List (String × Shape)} {values : List Value}
    (each : List.Forall₂
      (fun field value => Takes (decodeWith named field.2) (encode value) value) fields values) :
    Takes (decodeWith named (.record typeName fields)) (encode (.record values))
      (.record values) := by
  intro rest
  rw [encode, decodeWith, decodeFieldsWith_eq,
    takes_all (List.forall₂_map_left_iff.mpr each), Outcome.ok_bind]
  rfl

theorem takes_choice {named : TypeName → Decoder Value} {typeName name : String}
    {variants : List (String × List Shape)} {index : Nat} {shapes : List Shape}
    {payload : List Value} (located : variants[index]? = some (name, shapes))
    (small : index < 2 ^ 32)
    (each : List.Forall₂ (fun shape value => Takes (decodeWith named shape) (encode value) value)
      shapes payload) :
    Takes (decodeWith named (.choice typeName variants)) (encode (.variant index payload))
      (.variant index payload) := by
  intro rest
  rw [encode, List.append_assoc, decodeWith, takes_number small, Outcome.ok_bind]
  simp only [decodePayloadWith_eq, located, Option.map_some, takes_all each rest, Outcome.ok_bind]
  rfl

theorem length_encode_le {value : Value} {values : List Value} (member : value ∈ values) :
    (encode value).length ≤ (encodeAll values).length := by
  induction values with
  | nil => cases member
  | cons first others inductionHypothesis =>
    rw [encodeAll, List.length_append]
    rcases List.mem_cons.mp member with rfl | later
    · omega
    · have := inductionHypothesis later
      omega

/-- What a shape takes off the front of any bytes that a value of the shape was put in front of is
that value. Names are followed at least as deep as the value has bytes. -/
theorem takes_encode {shape : Shape} {value : Value} (fits : HasShape shape value)
    (bounded : value.Bounded) {depth : Nat} (enough : (encode value).length ≤ depth) :
    Takes (decodeWith (decodeNamed depth) shape) (encode value) value := by
  induction fits generalizing depth with
  | @flag value => cases value <;> exact fun _ => rfl
  | @word number =>
    intro rest
    rw [encode, decodeWith, takes_number bounded]
    rfl
  | @int32 number =>
    intro rest
    rw [encode, decodeWith, takes_number number.toUInt32.toNat_lt, Outcome.ok_bind]
    show Except.ok _ = _
    rw [UInt32.ofNat_toNat]
    rfl
  | @int64 number =>
    intro rest
    rw [encode, decodeWith, takes_number number.toUInt64.toNat_lt, Outcome.ok_bind]
    show Except.ok _ = _
    rw [UInt64.ofNat_toNat]
    rfl
  | @text text =>
    intro rest
    rw [encode, decodeWith, takes_text bounded]
    rfl
  | absent => exact fun _ => rfl
  | @present item value inner inductionHypothesis =>
    intro rest
    have enoughInside : (encode value).length ≤ depth := by
      rw [encode, List.length_cons] at enough
      omega
    show (decodeWith _ item (encode value ++ rest) >>= _) = _
    rw [inductionHypothesis bounded enoughInside rest]
    rfl
  | @sequence item items each inductionHypothesis =>
    intro rest
    rw [encode, List.length_append, length_littleEndian] at enough
    have taken : ∀ value ∈ items,
        Takes (decodeWith (decodeNamed depth) item) (encode value) value :=
      fun value member => inductionHypothesis value member
        (Value.allBounded_iff.mp bounded.2 value member)
        (by have := length_encode_le member; omega)
    rw [encode, List.append_assoc, decodeWith, takes_number bounded.1, Outcome.ok_bind]
    show (decodeTimes _ items.length (encodeAll items ++ rest) >>= _) = _
    rw [takes_times taken, Outcome.ok_bind]
    rfl
  | @mapping key value entries small keys values keysHypothesis valuesHypothesis =>
    intro rest
    rw [encode, List.length_append, length_littleEndian] at enough
    have taken : ∀ item ∈ entries.map fun entry => Value.record [entry.1, entry.2],
        Takes (decodeWith (decodeNamed depth) (entryShape key value)) (encode item) item := by
      intro item member
      have short := length_encode_le member
      have bothBounded := Value.allBounded_iff.mp bounded.2 item member
      obtain ⟨entry, listed, rfl⟩ := List.mem_map.mp member
      rw [encode, encodeAll, encodeAll, List.length_append, List.length_append] at short
      refine takes_record (.cons ?_ (.cons ?_ .nil))
      · exact keysHypothesis entry listed bothBounded.1 (by omega)
      · exact valuesHypothesis entry listed bothBounded.2.1 (by omega)
    have few : ¬ mapLimit < (entries.map fun entry => Value.record [entry.1, entry.2]).length := by
      rw [List.length_map]
      omega
    rw [encode, List.append_assoc, decodeWith_mapping, takes_number bounded.1, Outcome.ok_bind]
    simp only [if_neg few, takes_times taken rest, Outcome.ok_bind]
    rfl
  | @record typeName fields values sameLength each inductionHypothesis =>
    rw [encode] at enough
    refine takes_record (List.forall₂_iff_zip.mpr ⟨sameLength, fun member => ?_⟩)
    have listed := (List.of_mem_zip member).2
    exact inductionHypothesis _ member (Value.allBounded_iff.mp bounded _ listed)
      (Nat.le_trans (length_encode_le listed) enough)
  | @variant shape typeName name variants index shapes payload isChoice located small sameLength
      each inductionHypothesis =>
    rw [encode, List.length_append, length_littleEndian] at enough
    have taken {inside : Nat} (enoughInside : (encodeAll payload).length ≤ inside) : List.Forall₂
        (fun shape value => Takes (decodeWith (decodeNamed inside) shape) (encode value) value)
        shapes payload := by
      refine List.forall₂_iff_zip.mpr ⟨sameLength, fun member => ?_⟩
      have listed := (List.of_mem_zip member).2
      exact inductionHypothesis _ member (Value.allBounded_iff.mp bounded _ listed)
        (Nat.le_trans (length_encode_le listed) enoughInside)
    cases shape with
    | choice =>
      cases isChoice
      exact takes_choice located small (taken (by omega))
    | named typeName =>
      obtain ⟨inside, rfl⟩ : ∃ inside, depth = inside + 1 := ⟨depth - 1, by omega⟩
      intro rest
      rw [decodeWith, decodeNamed, show typeName.shape = _ from isChoice]
      exact takes_choice located small (taken (by omega)) rest
    | _ => cases isChoice

/-! ## Longer inputs -/

/-- Whether a success carries over to another result, with more bytes left. -/
def CarriesOver {α : Type} (extra : List UInt8)
    (first second : Except DecodeError (α × List UInt8)) : Prop :=
  ∀ value rest, first = .ok (value, rest) → second = .ok (value, rest ++ extra)

namespace CarriesOver

variable {α β : Type} {extra : List UInt8}

theorem ok {value : α} {rest : List UInt8} :
    CarriesOver extra (.ok (value, rest)) (.ok (value, rest ++ extra)) := by
  intro _ _ succeeded
  cases succeeded
  rfl

theorem error {failure : DecodeError} {second : Except DecodeError (α × List UInt8)} :
    CarriesOver extra (.error failure) second := by
  intro _ _ succeeded
  cases succeeded

theorem bind {first second : Except DecodeError (α × List UInt8)}
    {next following : α × List UInt8 → Except DecodeError (β × List UInt8)}
    (carried : CarriesOver extra first second)
    (each : ∀ value rest,
      CarriesOver extra (next (value, rest)) (following (value, rest ++ extra))) :
    CarriesOver extra (first >>= next) (second >>= following) := by
  intro value rest succeeded
  obtain ⟨⟨taken, left⟩, start, remaining⟩ := Outcome.bind_eq_ok.mp succeeded
  rw [carried taken left start, Outcome.ok_bind]
  exact each taken left value rest remaining

end CarriesOver

/-- Whether the second decoder takes, with more bytes behind, all that the first one takes. -/
def Prolonged {α : Type} (first second : Decoder α) : Prop :=
  ∀ bytes extra, CarriesOver extra (first bytes) (second (bytes ++ extra))

theorem prolonged_number (width : Nat) : Prolonged (decodeNumber width) (decodeNumber width) := by
  intro bytes extra
  induction width generalizing bytes with
  | zero => exact .ok
  | succ width inductionHypothesis =>
    cases bytes with
    | nil => exact .error
    | cons byte bytes => exact (inductionHypothesis bytes).bind fun _ _ => .ok

theorem prolonged_text : Prolonged decodeText decodeText := by
  intro bytes extra
  refine (prolonged_number 8 bytes extra).bind fun length rest => ?_
  by_cases short : rest.length < length
  · simp only [if_pos short]
    exact .error
  · have stillShort : ¬ (rest ++ extra).length < length := by
      rw [List.length_append]
      omega
    have sameFront : (rest ++ extra).take length = rest.take length :=
      List.take_append_of_le_length (by omega)
    have sameEnd : (rest ++ extra).drop length = rest.drop length ++ extra :=
      List.drop_append_of_le_length (by omega)
    simp only [if_neg short, if_neg stillShort, List.splitAt_eq, sameFront, sameEnd]
    cases Text.ofUtf8? (rest.take length) with
    | some text => exact .ok
    | none => exact .error

theorem prolonged_times {α : Type} {first second : Decoder α} (each : Prolonged first second)
    (count : Nat) : Prolonged (decodeTimes first count) (decodeTimes second count) := by
  intro bytes extra
  induction count generalizing bytes with
  | zero => exact .ok
  | succ count inductionHypothesis =>
    exact (each bytes extra).bind fun _ rest => (inductionHypothesis rest).bind fun _ _ => .ok

section Shapes

variable {first second : TypeName → Decoder Value}

mutual

theorem prolonged_decodeWith (named : ∀ name, Prolonged (first name) (second name)) :
    (shape : Shape) → Prolonged (decodeWith first shape) (decodeWith second shape)
  | .flag, bytes, extra => by
    rw [decodeWith, decodeWith]
    refine (prolonged_number 1 bytes extra).bind fun byte rest => ?_
    match byte with
    | 0 | 1 => exact .ok
    | other + 2 => exact .error
  | .word, bytes, extra => by
    rw [decodeWith, decodeWith]
    exact (prolonged_number 8 bytes extra).bind fun _ _ => .ok
  | .int32, bytes, extra => by
    rw [decodeWith, decodeWith]
    exact (prolonged_number 4 bytes extra).bind fun _ _ => .ok
  | .int64, bytes, extra => by
    rw [decodeWith, decodeWith]
    exact (prolonged_number 8 bytes extra).bind fun _ _ => .ok
  | .text, bytes, extra => by
    rw [decodeWith, decodeWith]
    exact (prolonged_text bytes extra).bind fun _ _ => .ok
  | .optional item, bytes, extra => by
    rw [decodeWith, decodeWith]
    refine (prolonged_number 1 bytes extra).bind fun tag rest => ?_
    match tag with
    | 0 => exact .ok
    | 1 => exact (prolonged_decodeWith named item rest extra).bind fun _ _ => .ok
    | other + 2 => exact .error
  | .sequence item, bytes, extra => by
    rw [decodeWith, decodeWith]
    refine (prolonged_number 8 bytes extra).bind fun length rest => ?_
    exact (prolonged_times (prolonged_decodeWith named item) length rest extra).bind
      fun _ _ => .ok
  | .mapping key value, bytes, extra => by
    rw [decodeWith, decodeWith]
    refine (prolonged_number 8 bytes extra).bind fun length rest => ?_
    by_cases many : mapLimit < length
    · simp only [if_pos many]
      exact .error
    · simp only [if_neg many]
      refine (prolonged_times ?_ length rest extra).bind fun _ _ => .ok
      intro bytes extra
      exact (prolonged_decodeWith named key bytes extra).bind fun _ rest =>
        (prolonged_decodeWith named value rest extra).bind fun _ _ => .ok
  | .record _ fields, bytes, extra => by
    rw [decodeWith, decodeWith]
    exact (prolonged_fields named fields bytes extra).bind fun _ _ => .ok
  | .choice _ variants, bytes, extra => by
    rw [decodeWith, decodeWith]
    refine (prolonged_number 4 bytes extra).bind fun index rest => ?_
    simp only [decodePayloadWith_eq]
    match located : variants[index]? with
    | none => exact .error
    | some variant =>
      have listed := List.mem_of_getElem? located
      exact (prolonged_variants named variants variant listed rest extra).bind fun _ _ => .ok
  | .named name, bytes, extra => by
    rw [decodeWith, decodeWith]
    exact named name bytes extra

theorem prolonged_fields (named : ∀ name, Prolonged (first name) (second name)) :
    (fields : List (String × Shape)) →
      Prolonged (decodeFieldsWith first fields) (decodeFieldsWith second fields)
  | [], _, _ => .ok
  | (_, shape) :: fields, bytes, extra => by
    rw [decodeFieldsWith, decodeFieldsWith]
    exact (prolonged_decodeWith named shape bytes extra).bind fun _ rest =>
      (prolonged_fields named fields rest extra).bind fun _ _ => .ok

theorem prolonged_variants (named : ∀ name, Prolonged (first name) (second name)) :
    (variants : List (String × List Shape)) → ∀ variant ∈ variants,
      Prolonged (decodeAllWith first variant.2) (decodeAllWith second variant.2)
  | [], _, member => nomatch member
  | (_, payload) :: variants, variant, member => by
    rcases List.mem_cons.mp member with rfl | later
    · exact prolonged_all named payload
    · exact prolonged_variants named variants variant later

theorem prolonged_all (named : ∀ name, Prolonged (first name) (second name)) :
    (shapes : List Shape) → Prolonged (decodeAllWith first shapes) (decodeAllWith second shapes)
  | [], _, _ => .ok
  | shape :: shapes, bytes, extra => by
    rw [decodeAllWith, decodeAllWith]
    exact (prolonged_decodeWith named shape bytes extra).bind fun _ rest =>
      (prolonged_all named shapes rest extra).bind fun _ _ => .ok

end

/-- Following names deeper does not undo what was taken. -/
theorem prolonged_decodeNamed {depth deeper : Nat} (le : depth ≤ deeper) (name : TypeName) :
    Prolonged (decodeNamed depth name) (decodeNamed deeper name) := by
  induction depth generalizing deeper name with
  | zero => exact fun _ _ => .error
  | succ depth inductionHypothesis =>
    obtain ⟨inside, rfl⟩ : ∃ inside, deeper = inside + 1 := ⟨deeper - 1, by omega⟩
    exact prolonged_decodeWith (inductionHypothesis (by omega)) name.shape

/-- Bytes behind those that a value was taken off are left alone. -/
theorem prolonged_decode (shape : Shape) : Prolonged (decode shape) (decode shape) := by
  intro bytes extra
  refine prolonged_decodeWith (prolonged_decodeNamed ?_) shape bytes extra
  rw [List.length_append]
  omega

end Shapes

end Binary

/-! ## Files -/

namespace Storable

open Binary

/-- Whether a value is restored from its binary form, all of which it takes. -/
structure Restored {α : Type} [Storable α] (value : α) : Prop where
  ofBinary_toBinary : ofBinary α (toBinary value) = .ok value
  ofBinary_front {front : List UInt8} (isFront : front <+: toBinary value)
    (proper : front ≠ toBinary value) : ∃ failure, ofBinary α front = .error (.binary failure)

variable {α : Type} [Storable α]

theorem decode_toBinary {value : α} (fits : HasShape (shape α) (toValue value))
    (bounded : (toValue value).Bounded) :
    decode (shape α) (toBinary value) = .ok (toValue value, []) := by
  have taken := takes_encode fits bounded (Nat.le_succ (encode (toValue value)).length) []
  rwa [List.append_nil] at taken

/-- Had a proper front been enough, the bytes behind it would be left over from the whole. -/
theorem decode_front {value : α} (fits : HasShape (shape α) (toValue value))
    (bounded : (toValue value).Bounded) {front : List UInt8} (isFront : front <+: toBinary value)
    (proper : front ≠ toBinary value) : ∃ failure, decode (shape α) front = .error failure := by
  obtain ⟨extra, whole⟩ := isFront
  cases taken : decode (shape α) front with
  | error failure => exact ⟨failure, rfl⟩
  | ok result =>
    have wholeTaken := prolonged_decode (shape α) front extra result.1 result.2 taken
    rw [whole, decode_toBinary fits bounded] at wholeTaken
    injection wholeTaken with same
    have noExtra : extra = [] := by
      have leftOver : [] = result.2 ++ extra := congrArg Prod.snd same
      exact (List.append_eq_nil_iff.mp leftOver.symm).2
    rw [noExtra, List.append_nil] at whole
    exact absurd whole proper

theorem restored {value : α} (fits : HasShape (shape α) (toValue value))
    (bounded : (toValue value).Bounded) : Restored value where
  ofBinary_toBinary := by
    simp only [ofBinary, decode_toBinary fits bounded, ofValue?_toValue]
  ofBinary_front isFront proper := by
    obtain ⟨failure, failed⟩ := decode_front fits bounded isFront proper
    exact ⟨failure, by simp only [ofBinary, failed]⟩

/-- Every segment and every catalog is read back from its binary form with the order of all its
maps, and no front of the form is read as anything. -/
theorem binary_restored :
    (∀ segment : Segment, segment.Representable → Restored segment) ∧
      ∀ catalog : Catalog, catalog.Representable → Restored catalog :=
  ⟨fun _ fits => restored fits.hasShape fits.bounded,
    fun _ fits => restored fits.hasShape fits.bounded⟩

/-- A table of structures that refers to a text, in a segment that names the text first. -/
def tableSegment : Segment where
  globals := [
    ⟨"table", .array (.struct [.i32, .ptr]) 2,
      some (.array (.struct [.i32, .ptr])
        [.struct [.i32 (-1), .globalAddress ⟨1⟩], .zero (.struct [.i32, .ptr])]),
      true, .exported⟩,
    ⟨"text", .array .u16 1, some (.utf16 "é"), false, .internal⟩]
  names := .ofList [("text", ⟨1⟩), ("table", ⟨0⟩)]
  used := [⟨0⟩]
  strings := .ofList [("é", ⟨1⟩)]

/-- A nested class with a pointer to pointers and a box, known before the class it is nested in. -/
def nestedCatalog : Catalog where
  classes := .ofList [
    (⟨7⟩, .defined {
      name := ⟨["outer", "Inner"]⟩, kind := .proper, modality := .final, scope := .nested ⟨3⟩,
      superclass := some ⟨0⟩, interfaces := [⟨5⟩],
      fields := [⟨"cells", .pointer (.pointer (.object ⟨7⟩))⟩],
      methods := [⟨"get", .concrete, some ⟨2⟩, true⟩, ⟨"put", .abstract, none, true⟩],
      exportSymbol := some "inner" }),
    (⟨3⟩, .declared ⟨["outer"]⟩)]
  functions := .ofList [(⟨2⟩, some ⟨["outer", "get"]⟩), (⟨0⟩, none)]
  valueBoxes := .ofList [(⟨7⟩, ⟨3⟩)]

theorem tableSegment_nestedCatalog_restored :
    (tableSegment.Representable ∧ Restored tableSegment) ∧
      nestedCatalog.Representable ∧ Restored nestedCatalog :=
  have segmentFits : tableSegment.Representable := ⟨by decide, by decide, by decide⟩
  have catalogFits : nestedCatalog.Representable := ⟨by decide, by decide, by decide, by decide⟩
  ⟨⟨segmentFits, binary_restored.1 tableSegment segmentFits⟩, catalogFits,
    binary_restored.2 nestedCatalog catalogFits⟩

end Storable

end TypeRecords.Wire
