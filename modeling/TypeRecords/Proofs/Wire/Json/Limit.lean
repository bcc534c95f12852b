import TypeRecords.Proofs.Wire.Json.RoundTrip

/-!
Reading with a higher limit.

Owns the proof that a limit to the depth of lists and objects changes nothing but what is refused
as too deep: with a limit, a text is read as it is with any higher one, or the error is about the
depth. Together with the round trip this tells all that can come of reading the text of a value,
whatever the limit.
-/

namespace TypeRecords.Wire.Json

theorem cause_placeAt (rest : List UInt8) (error : Error) :
    (error.placeAt rest).cause = error.cause := by
  unfold Error.placeAt
  split <;> rfl

/-- Whether the first result is the second one, or an error about the depth. -/
def Limits {α : Type} (first second : Except Error α) : Prop :=
  first = second ∨ ∃ error, first = .error error ∧ error.cause = .tooDeep

namespace Limits

variable {α β : Type}

theorem refl (result : Except Error α) : Limits result result := .inl rfl

theorem tooDeep {failure : Error} {second : Except Error α} (isDepth : failure.cause = .tooDeep) :
    Limits (.error failure) second :=
  .inr ⟨failure, rfl, isDepth⟩

theorem bind_of_ok {first second : Except Error α} {next following : α → Except Error β}
    (limits : Limits first second)
    (each : ∀ value, first = .ok value → Limits (next value) (following value)) :
    Limits (first >>= next) (second >>= following) := by
  rcases limits with rfl | ⟨error, rfl, isDepth⟩
  · cases first with
    | error failure => exact .refl _
    | ok value => exact each value rfl
  · exact .tooDeep isDepth

theorem bind {first second : Except Error α} {next following : α → Except Error β}
    (limits : Limits first second) (each : ∀ value, Limits (next value) (following value)) :
    Limits (first >>= next) (second >>= following) :=
  limits.bind_of_ok fun value _ => each value

theorem ite {condition : Prop} [Decidable condition] {first second third fourth : Except Error α}
    (whenTrue : condition → Limits first third)
    (whenFalse : ¬ condition → Limits second fourth) :
    Limits (if condition then first else second) (if condition then third else fourth) := by
  by_cases holds : condition
  · rw [if_pos holds, if_pos holds]
    exact whenTrue holds
  · rw [if_neg holds, if_neg holds]
    exact whenFalse holds

theorem settle {endSought : List UInt8 → List UInt8} {first second : Except Error α}
    (limits : Limits first second) :
    Limits (settle endSought first) (settle endSought second) := by
  rcases limits with rfl | ⟨error, rfl, isDepth⟩
  · exact .refl _
  · exact .tooDeep ((cause_placeAt _ error).trans isDepth)

end Limits

/-- Whether the first reader is the second one with a limit. -/
def LimitsReading {α : Type} (first second : Reader α) : Prop :=
  ∀ bytes, Limits (first bytes) (second bytes)

theorem limits_openNested {depth deeper : Nat} (le : depth ≤ deeper) (rest : List UInt8) :
    Limits (openNested depth rest) (openNested deeper rest) := by
  by_cases isFull : depth ≤ 1
  · rw [openNested, if_pos isFull]
    exact .tooDeep rfl
  · rw [openNested, openNested, if_neg isFull, if_neg (by omega)]
    exact .refl _

theorem limits_readList {α : Type} {depth deeper : Nat} (le : depth ≤ deeper)
    {first second : Reader α} (contents : LimitsReading first second) :
    LimitsReading (readList depth first) (readList deeper second) := fun bytes =>
  (limits_openNested le bytes).bind fun opened => (contents opened).settle.bind fun _ => .refl _

theorem limits_readObject {α : Type} {depth deeper : Nat} (le : depth ≤ deeper)
    {first second : Reader α} (contents : LimitsReading first second) :
    LimitsReading (readObject depth first) (readObject deeper second) := fun bytes =>
  (limits_openNested le bytes).bind fun opened => (contents opened).settle.bind fun _ => .refl _

theorem limits_readItems {first second : Reader Value} (item : LimitsReading first second)
    (bound : Nat) (isFirst : Bool) :
    LimitsReading (readItems first bound isFirst) (readItems second bound isFirst) := by
  induction bound generalizing isFirst with
  | zero => exact fun _ => .refl _
  | succ bound inductionHypothesis =>
    refine fun bytes => (Limits.refl (nextItem isFirst bytes)).bind fun next => ?_
    cases next with
    | none => exact .refl _
    | some rest =>
      exact (item rest).bind fun taken => (inductionHypothesis false taken.2).bind fun _ => .refl _

theorem limits_readEntries {key first second : Reader Value} (value : LimitsReading first second)
    (bound : Nat) (isFirst : Bool) :
    LimitsReading (readEntries key first bound isFirst) (readEntries key second bound isFirst) := by
  induction bound generalizing isFirst with
  | zero => exact fun _ => .refl _
  | succ bound inductionHypothesis =>
    refine fun bytes => (Limits.refl (nextKey isFirst bytes)).bind fun next => ?_
    cases next with
    | none => exact .refl _
    | some rest =>
      exact (Limits.refl (key rest)).bind fun keyTaken =>
        (Limits.refl (passColon keyTaken.2)).bind fun behind => (value behind).bind fun taken =>
          (inductionHypothesis false taken.2).bind fun _ => .refl _

/-! ## Fields -/

section Fields

variable {ι : Type} {first second : ι → FieldReader}

theorem limits_readListedFields {expected : String} {items : List ι}
    (each : ∀ item ∈ items, LimitsReading (first item).read (second item).read) (index : Nat)
    (isFirst : Bool) :
    LimitsReading (readListedFields expected (items.map first) index isFirst)
      (readListedFields expected (items.map second) index isFirst) := by
  induction items generalizing index isFirst with
  | nil => exact fun _ => .refl _
  | cons item others inductionHypothesis =>
    rw [List.forall_mem_cons] at each
    refine fun bytes => (Limits.refl (nextItem isFirst bytes)).bind fun next => ?_
    cases next with
    | none => exact .refl _
    | some rest =>
      exact (each.1 rest).bind fun taken =>
        (inductionHypothesis each.2 (index + 1) false taken.2).bind fun _ => .refl _

/-- The search for a field by name depends on the names only. -/
theorem find?_zipIdx_map {α : Type} (name : α → String) (reader : ι → α) (items : List ι)
    (wanted : String) :
    (items.map reader).zipIdx.find? (fun entry => name entry.1 = wanted) =
      (items.zipIdx.find? fun entry => name (reader entry.1) = wanted).map
        fun entry => (reader entry.1, entry.2) := by
  rw [List.zipIdx_map, List.find?_map]
  rfl

theorem limits_readNamedFields {items : List ι}
    (sameName : ∀ item, (first item).name = (second item).name)
    (each : ∀ item ∈ items, LimitsReading (first item).read (second item).read) (bound : Nat)
    (isFirst : Bool) (found : List (Option Value)) :
    LimitsReading (readNamedFields (items.map first) bound isFirst found)
      (readNamedFields (items.map second) bound isFirst found) := by
  induction bound generalizing isFirst found with
  | zero => exact fun _ => .refl _
  | succ bound inductionHypothesis =>
    refine fun bytes => (Limits.refl (nextKey isFirst bytes)).bind fun next => ?_
    cases next with
    | none => exact .refl _
    | some rest =>
      refine (Limits.refl (readText (rest.drop 1))).bind fun name => ?_
      dsimp only
      simp only [find?_zipIdx_map FieldReader.name, sameName]
      cases searched : items.zipIdx.find? fun entry => (second entry.1).name = name.1 with
      | none =>
        exact (Limits.refl _).bind fun behind => (Limits.refl (skipValue behind)).bind
          fun rest => inductionHypothesis false found rest
      | some entry =>
        have listed := List.mem_zipIdx_iff_getElem?.mp (List.mem_of_find?_eq_some searched)
        refine .ite (fun _ => .refl _) fun _ => (Limits.refl _).bind fun behind => ?_
        exact (each _ (List.mem_of_getElem? listed) behind).bind fun taken =>
          inductionHypothesis false _ taken.2

theorem completeFields_congr {items : List ι}
    (sameName : ∀ item, (first item).name = (second item).name)
    (sameOptional : ∀ item, (first item).optional = (second item).optional) (rest : List UInt8)
    (found : List (Option Value)) :
    completeFields rest (items.map first) found = completeFields rest (items.map second) found := by
  induction items generalizing found with
  | nil => rfl
  | cons item others inductionHypothesis =>
    simp only [List.map_cons, completeFields, sameName, sameOptional, inductionHypothesis]

theorem limits_readRecord {typeName : String} {depth deeper : Nat} (le : depth ≤ deeper)
    {items : List ι} (sameName : ∀ item, (first item).name = (second item).name)
    (sameOptional : ∀ item, (first item).optional = (second item).optional)
    (each : ∀ item ∈ items, LimitsReading (first item).read (second item).read) :
    LimitsReading (readRecord typeName (items.map first) depth)
      (readRecord typeName (items.map second) deeper) := by
  refine fun bytes => (Limits.refl (toValue bytes)).bind fun rest => ?_
  refine .ite (fun _ => ?_) fun _ => .ite (fun _ => ?_) fun _ => .refl _
  · simp only [List.length_map]
    exact limits_readList le (limits_readListedFields each 0 true) rest
  · refine limits_readObject le (fun bytes => ?_) rest
    simp only [List.map_map, Function.comp_def, completeFields_congr sameName sameOptional]
    exact (limits_readNamedFields sameName each _ true _ bytes).bind fun _ => .refl _

end Fields

/-! ## Choices -/

section Choices

variable {named deeperNamed : TypeName → Nat → Reader Value} {depth deeper : Nat}

/-- Whether other readers of names and a higher limit change nothing about how a shape is read but
what is refused for its depth. -/
def Prolongs (named deeperNamed : TypeName → Nat → Reader Value) (shape : Shape) : Prop :=
  ∀ {depth deeper}, depth ≤ deeper →
    LimitsReading (readWith named shape depth) (readWith deeperNamed shape deeper)

theorem limits_payloadRead {typeName name : String} (le : depth ≤ deeper) {shapes : List Shape}
    (each : ∀ shape ∈ shapes, Prolongs named deeperNamed shape) :
    LimitsReading (payloadRead named typeName name depth shapes)
      (payloadRead deeperNamed typeName name deeper shapes) := by
  rcases shapes with _ | ⟨only, _ | ⟨second, others⟩⟩
  · exact fun _ => .refl _
  · exact fun bytes => (each only (by simp) le bytes).bind fun _ => .refl _
  · refine fun bytes => (Limits.refl (toValue bytes)).bind fun rest =>
      .ite (fun _ => ?_) fun _ => .refl _
    exact limits_readList le (limits_readListedFields
      (fun shape member => each shape member (Nat.sub_le_sub_right le 1)) 0 true) rest

/-- The search for an alternative depends on the names only. -/
def findVariant (variants : List (String × List Shape)) :
    Reader ((String × List Shape) × Nat) := fun bytes => do
  let (name, rest) ← readTextOf "variant identifier" bytes
  match variants.zipIdx.find? fun variant => variant.1.1 = name with
  | some found => return (found, rest)
  | none => failAt (.unknownVariant name (variants.map Prod.fst)) rest

theorem readVariantName_map {typeName : String} (variants : List (String × List Shape))
    (bytes : List UInt8) :
    readVariantName (variants.map (variantReader named typeName depth)) bytes = (do
      let ((variant, index), rest) ← findVariant variants bytes
      return ((variantReader named typeName depth variant, index), rest)) := by
  simp only [readVariantName, findVariant, bind_assoc]
  congr 1
  funext taken
  have sameName (variant : String × List Shape) :
      (variantReader named typeName depth variant).name = variant.1 := rfl
  simp only [find?_zipIdx_map VariantReader.name, sameName, List.map_map]
  cases variants.zipIdx.find? fun variant => variant.1.1 = taken.1 with
  | none => rfl
  | some found => rfl

theorem mem_of_findVariant {variants : List (String × List Shape)} {bytes : List UInt8}
    {found : ((String × List Shape) × Nat) × List UInt8}
    (taken : findVariant variants bytes = .ok found) : found.1.1 ∈ variants := by
  obtain ⟨named, _, remaining⟩ := Outcome.bind_eq_ok.mp taken
  dsimp only at remaining
  split at remaining
  · rename_i entry searched
    cases Outcome.pure_eq_ok.mp remaining
    have listed := List.mem_zipIdx_iff_getElem?.mp (List.mem_of_find?_eq_some searched)
    exact List.mem_of_getElem? listed
  · cases remaining

theorem prolongs_choice {typeName : String} {variants : List (String × List Shape)}
    (each : ∀ variant ∈ variants, ∀ shape ∈ variant.2, Prolongs named deeperNamed shape) :
    Prolongs named deeperNamed (.choice typeName variants) := by
  intro depth deeper le bytes
  show Limits (readChoice (variantReaders named typeName variants (depth - 1)) depth bytes)
    (readChoice (variantReaders deeperNamed typeName variants (deeper - 1)) deeper bytes)
  simp only [variantReaders_eq, readChoice, readVariantName_map, bind_assoc]
  refine (Limits.refl (toValue bytes)).bind fun rest => .ite (fun _ => ?_) fun _ => ?_
  · refine (limits_openNested le rest).bind fun opened => ?_
    refine (Limits.refl (toVariantName opened)).bind fun toName => ?_
    refine (Limits.refl (findVariant variants toName)).bind_of_ok fun found taken => ?_
    refine (Limits.refl (passColon found.2)).bind fun behind => ?_
    exact (limits_payloadRead (Nat.sub_le_sub_right le 1)
      (each found.1.1 (mem_of_findVariant taken)) behind).bind fun _ => .refl _
  · exact .ite (fun _ => .refl _) fun _ => .refl _

end Choices

/-! ## Shapes -/

section Shapes

variable {named deeperNamed : TypeName → Nat → Reader Value}

mutual

theorem prolongs (namesProlonged : ∀ name, Prolongs named deeperNamed (.named name)) :
    (shape : Shape) → Prolongs named deeperNamed shape
  | .flag, _, _, _, _ => .refl _
  | .word, _, _, _, _ => .refl _
  | .int32, _, _, _, _ => .refl _
  | .int64, _, _, _, _ => .refl _
  | .text, _, _, _, _ => .refl _
  | .optional item, depth, deeper, le, bytes => by
    rw [readWith, readWith]
    exact .ite (fun _ => .refl _) fun _ =>
      (prolongs namesProlonged item le (skipBlanks bytes)).bind fun _ => .refl _
  | .sequence item, depth, deeper, le, bytes => by
    refine (Limits.refl (toValue bytes)).bind fun rest => .ite (fun _ => ?_) fun _ => .refl _
    have itemProlonged := prolongs namesProlonged item (Nat.sub_le_sub_right le 1)
    exact (limits_readList le (limits_readItems itemProlonged _ true) rest).bind
      fun _ => .refl _
  | .mapping key value, depth, deeper, le, bytes => by
    refine (Limits.refl (toValue bytes)).bind fun rest => .ite (fun _ => ?_) fun _ => .refl _
    have valueProlonged := prolongs namesProlonged value (Nat.sub_le_sub_right le 1)
    exact (limits_readObject le (limits_readEntries valueProlonged _ true) rest).bind
      fun _ => .refl _
  | .record typeName fields, depth, deeper, le, bytes => by
    have sameName (field : String × Shape) : (fieldReader named (depth - 1) field).name =
        (fieldReader deeperNamed (deeper - 1) field).name := rfl
    have sameOptional (field : String × Shape) : (fieldReader named (depth - 1) field).optional =
        (fieldReader deeperNamed (deeper - 1) field).optional := rfl
    rw [readWith, readWith, fieldReaders_eq, fieldReaders_eq]
    exact (limits_readRecord le sameName sameOptional (fun field member =>
      prolongs_fields namesProlonged fields field member (Nat.sub_le_sub_right le 1)) bytes).bind
        fun _ => .refl _
  | .choice _ variants, _, _, le, bytes =>
    prolongs_choice (prolongs_variants namesProlonged variants) le bytes
  | .named name, _, _, le, bytes => namesProlonged name le bytes

theorem prolongs_fields (namesProlonged : ∀ name, Prolongs named deeperNamed (.named name)) :
    (fields : List (String × Shape)) → ∀ field ∈ fields, Prolongs named deeperNamed field.2
  | [] => by simp
  | (_, shape) :: fields => List.forall_mem_cons.mpr
    ⟨prolongs namesProlonged shape, prolongs_fields namesProlonged fields⟩

theorem prolongs_variants (namesProlonged : ∀ name, Prolongs named deeperNamed (.named name)) :
    (variants : List (String × List Shape)) →
      ∀ variant ∈ variants, ∀ shape ∈ variant.2, Prolongs named deeperNamed shape
  | [] => by simp
  | (_, payload) :: variants => List.forall_mem_cons.mpr
    ⟨prolongs_all namesProlonged payload, prolongs_variants namesProlonged variants⟩

theorem prolongs_all (namesProlonged : ∀ name, Prolongs named deeperNamed (.named name)) :
    (shapes : List Shape) → ∀ shape ∈ shapes, Prolongs named deeperNamed shape
  | [] => by simp
  | shape :: shapes => List.forall_mem_cons.mpr
    ⟨prolongs namesProlonged shape, prolongs_all namesProlonged shapes⟩

end

end Shapes

theorem prolongs_readNamed {bound higher : Nat} (le : bound ≤ higher) (name : TypeName) :
    Prolongs (readNamed bound) (readNamed higher) (.named name) := by
  induction bound generalizing higher name with
  | zero => exact fun _ _ => .tooDeep rfl
  | succ bound inductionHypothesis =>
    obtain ⟨inner, rfl⟩ : ∃ inner, higher = inner + 1 := ⟨higher - 1, by omega⟩
    exact fun depthLe bytes => prolongs (inductionHypothesis (by omega)) name.shape depthLe bytes

/-- The text of a value is read as that value, or refused for its depth. -/
theorem limits_read_written {shape : Shape} {value : Value} (fits : HasShape shape value)
    (readable : shape.readable = true) (bounded : value.Bounded) :
    Limits (read shape (written shape value)) (.ok value) := by
  let limit := max depthLimit (nesting shape value + 1)
  have limitLe : depthLimit ≤ limit := Nat.le_max_left _ _
  have shallow : nesting shape value < limit :=
    Nat.lt_of_lt_of_le (Nat.lt_succ_self _) (Nat.le_max_right _ _)
  have limited := prolongs (prolongs_readNamed limitLe) shape limitLe (written shape value)
  have whole := reads_written fits readable bounded shallow (Nat.le_refl limit) [] rfl
  rw [List.append_nil] at whole
  rw [whole] at limited
  exact limited.bind fun _ => .refl _

end TypeRecords.Wire.Json
