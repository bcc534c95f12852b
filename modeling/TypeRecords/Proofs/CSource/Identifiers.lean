import TypeRecords.Proofs.CSource.Translation
import TypeRecords.Proofs.Segment.Requests

/-!
The names of a unit.

Owns which names of a unit are the same. Internal globals and functions are named by their numbers
and exported globals by the symbols they are exported as. The numbers tell globals apart, the
segment does so with the symbols, but nothing keeps a symbol from being the name that a number
gives.
-/

namespace TypeRecords

namespace Segment

/-- Whether a segment exports a global under a symbol. -/
def Exports (segment : Segment) (id : GlobalId) (symbol : String) : Prop :=
  ∃ global, segment.get? id = some global ∧ global.isExported = true ∧ global.name = symbol

/-- Whether a segment has a global that it does not export. -/
def HasInternal (segment : Segment) (id : GlobalId) : Prop :=
  ∃ global, segment.get? id = some global ∧ global.isExported = false

variable {segment : Segment} {id other : GlobalId} {symbol : String}

theorem exports_or_hasInternal {global : Global} (found : segment.get? id = some global) :
    segment.Exports id global.name ∨ segment.HasInternal id := by
  cases exported : global.isExported with
  | true => exact .inl ⟨global, found, exported, rfl⟩
  | false => exact .inr ⟨global, found, exported⟩

theorem HasInternal.not_exports (hasInternal : segment.HasInternal id) :
    ¬segment.Exports id symbol := by
  rintro ⟨global, found, exported, _⟩
  obtain ⟨same, located, isInternal⟩ := hasInternal
  rw [found] at located
  cases located
  simp [exported] at isInternal

/-- A symbol belongs to one global. -/
theorem Indexed.eq_of_exports (indexed : segment.Indexed) (exports : segment.Exports id symbol)
    (otherExports : segment.Exports other symbol) : id = other := by
  obtain ⟨global, found, _, named⟩ := exports
  obtain ⟨otherGlobal, otherFound, _, otherNamed⟩ := otherExports
  have known : segment.findByName? symbol = some id := indexed.names.mpr ⟨global, found, named⟩
  have otherKnown : segment.findByName? symbol = some other :=
    indexed.names.mpr ⟨otherGlobal, otherFound, otherNamed⟩
  exact Option.some.inj (known.symm.trans otherKnown)

/-- Whether a global is exported under the name that the number of an internal one gives. -/
def TakesName (segment : Segment) (id other : GlobalId) : Prop :=
  segment.Exports id (CSource.GlobalName.number other).display ∧ segment.HasInternal other

end Segment

namespace CSource

variable {segment : Segment} {id other : GlobalId} {symbol : String}

namespace GlobalName

/-! ## Names by number -/

theorem display_number_injective
    (same : (number id).display = (number other).display) : id = other := by
  have sameNumber := Segment.eq_of_repr_eq (String.append_right_inj (s := "Global_") |>.mp same)
  exact congrArg GlobalId.mk sameNumber

theorem display_number_ne_functionName (id : GlobalId) (function : FunctionId) :
    (number id).display ≠ functionName function := by
  intro same
  have sameFirst := congrArg (fun text => text.toList.head?) same
  simp [display, functionName, toString] at sameFirst

/-! ## Names in a segment -/

theorem display_of_exports (exports : segment.Exports id symbol) :
    (of segment id).display = symbol := by
  obtain ⟨global, found, exported, rfl⟩ := exports
  simp [of, found, exported, display]

theorem display_of_hasInternal (hasInternal : segment.HasInternal id) :
    (of segment id).display = (number id).display := by
  obtain ⟨global, found, isInternal⟩ := hasInternal
  simp [of, found, isInternal]

/-- Two globals have one name only where one of them is exported under the name by number of the
other, which is not exported. -/
theorem display_of_eq_iff (indexed : segment.Indexed) (apart : id ≠ other)
    {global otherGlobal : Global} (found : segment.get? id = some global)
    (otherFound : segment.get? other = some otherGlobal) :
    (of segment id).display = (of segment other).display ↔
      segment.TakesName id other ∨ segment.TakesName other id := by
  constructor
  · intro same
    rcases Segment.exports_or_hasInternal found with exports | hasInternal <;>
      rcases Segment.exports_or_hasInternal otherFound with otherExports | otherInternal
    · -- The segment tells two symbols apart.
      rw [display_of_exports exports, display_of_exports otherExports] at same
      rw [same] at exports
      exact absurd (indexed.eq_of_exports exports otherExports) apart
    · rw [display_of_exports exports, display_of_hasInternal otherInternal] at same
      exact .inl ⟨same ▸ exports, otherInternal⟩
    · rw [display_of_hasInternal hasInternal, display_of_exports otherExports] at same
      exact .inr ⟨same ▸ otherExports, hasInternal⟩
    · -- The numbers tell two internal globals apart.
      rw [display_of_hasInternal hasInternal, display_of_hasInternal otherInternal] at same
      exact absurd (display_number_injective same) apart
  · rintro (⟨exports, otherInternal⟩ | ⟨otherExports, hasInternal⟩)
    · rw [display_of_exports exports, display_of_hasInternal otherInternal]
    · rw [display_of_hasInternal hasInternal, display_of_exports otherExports]

/-- A global has the name of a function only where it is exported under it. -/
theorem display_of_eq_functionName_iff {global : Global} (found : segment.get? id = some global)
    (function : FunctionId) :
    (of segment id).display = functionName function ↔
      segment.Exports id (functionName function) := by
  constructor
  · intro same
    rcases Segment.exports_or_hasInternal found with exports | hasInternal
    · rw [display_of_exports exports] at same
      exact same ▸ exports
    · rw [display_of_hasInternal hasInternal] at same
      exact absurd same (display_number_ne_functionName id function)
  · exact display_of_exports

end GlobalName

namespace SourceUnit

/-! ## Names of a unit -/

/-- Whether no two variables of a unit have one name, and none has the name of a function. -/
structure NamesApart (unit : SourceUnit) : Prop where
  globals : ∀ {first second : Nat} {declared other : GlobalVariable}, first ≠ second →
    unit.globals[first]? = some declared → unit.globals[second]? = some other →
      declared.name.display ≠ other.name.display
  functions : ∀ declared ∈ unit.globals, ∀ function ∈ unit.functions,
    declared.name.display ≠ functionName function.id

/-- Whether a segment exports no symbol that the unit gives to something else by its number. -/
def SymbolsApart (segment : Segment) (unit : SourceUnit) : Prop :=
  ∀ id symbol, segment.Exports id symbol →
    (∀ other, segment.HasInternal other → symbol ≠ (GlobalName.number other).display) ∧
    ∀ function ∈ unit.functions, symbol ≠ functionName function.id

/-- Which names of the unit of a segment are the same. -/
structure NamesSettled (segment : Segment) (unit : SourceUnit) : Prop where
  globals : ∀ {first second : Nat} {declared other : GlobalVariable}, first ≠ second →
    unit.globals[first]? = some declared → unit.globals[second]? = some other →
      (declared.name.display = other.name.display ↔
        segment.TakesName ⟨first⟩ ⟨second⟩ ∨ segment.TakesName ⟨second⟩ ⟨first⟩)
  functions : ∀ {place : Nat} {declared : GlobalVariable}, unit.globals[place]? = some declared →
    ∀ function ∈ unit.functions, (declared.name.display = functionName function.id ↔
      segment.Exports ⟨place⟩ (functionName function.id))
  apart : unit.NamesApart ↔ SymbolsApart segment unit

variable {catalog : Catalog} {options : Options}

theorem display_globals_iff (indexed : segment.Indexed) {first second : Nat}
    (apart : first ≠ second) {declared other : GlobalVariable}
    (located : (ofSegment segment catalog options).globals[first]? = some declared)
    (otherLocated : (ofSegment segment catalog options).globals[second]? = some other) :
    declared.name.display = other.name.display ↔
      segment.TakesName ⟨first⟩ ⟨second⟩ ∨ segment.TakesName ⟨second⟩ ⟨first⟩ := by
  obtain ⟨global, found, isVariable⟩ := exists_get?_of_variable located
  obtain ⟨otherGlobal, otherFound, isOther⟩ := exists_get?_of_variable otherLocated
  rw [isVariable.name, isOther.name]
  apply GlobalName.display_of_eq_iff indexed _ found otherFound
  simpa using apart

theorem display_function_iff {place : Nat} {declared : GlobalVariable}
    (located : (ofSegment segment catalog options).globals[place]? = some declared)
    (function : FunctionId) :
    declared.name.display = functionName function ↔
      segment.Exports ⟨place⟩ (functionName function) := by
  obtain ⟨global, found, isVariable⟩ := exists_get?_of_variable located
  rw [isVariable.name]
  exact GlobalName.display_of_eq_functionName_iff found function

/-- The names are apart exactly if the symbols keep clear of the names by number. -/
theorem namesApart_iff (indexed : segment.Indexed) (catalog : Catalog) (options : Options) :
    (ofSegment segment catalog options).NamesApart ↔
      SymbolsApart segment (ofSegment segment catalog options) := by
  constructor
  · intro apart id symbol exports
    have ⟨global, found, _⟩ := exports
    obtain ⟨declared, located, _⟩ := exists_variableOf segment catalog options found
    constructor
    · rintro other hasInternal rfl
      have ⟨otherGlobal, otherFound, _⟩ := hasInternal
      obtain ⟨otherDeclared, otherLocated, _⟩ :=
        exists_variableOf segment catalog options otherFound
      have differ : id ≠ other := by
        rintro rfl
        exact hasInternal.not_exports exports
      have numbersDiffer : id.number ≠ other.number := differ ∘ congrArg GlobalId.mk
      apply apart.globals numbersDiffer located otherLocated
      exact (display_globals_iff indexed numbersDiffer located otherLocated).mpr
        (.inl ⟨exports, hasInternal⟩)
    · rintro function declares rfl
      apply apart.functions declared (List.mem_of_getElem? located) function declares
      exact (display_function_iff located function.id).mpr exports
  · intro symbolsApart
    constructor
    · intro first second declared other differ located otherLocated same
      rcases (display_globals_iff indexed differ located otherLocated).mp same with taken | taken
      · exact (symbolsApart _ _ taken.1).1 _ taken.2 rfl
      · exact (symbolsApart _ _ taken.1).1 _ taken.2 rfl
    · intro declared listed function declares same
      obtain ⟨place, located⟩ := List.mem_iff_getElem?.mp listed
      have exports := (display_function_iff located function.id).mp same
      exact (symbolsApart _ _ exports).2 function declares rfl

/-! ## Main result -/

/-- In the unit of a segment that requests lead to, names are the same only where an exported symbol
is the name by number of an internal global or of a function. -/
theorem namesSettled_ofSegment {requests : List Segment.Request}
    (ran : Segment.answerAll requests .empty = .ok segment) (catalog : Catalog)
    (options : Options) : NamesSettled segment (ofSegment segment catalog options) := by
  have indexed := Segment.indexed_of_answerAll ran
  exact {
    globals := fun differ located otherLocated =>
      display_globals_iff indexed differ located otherLocated
    functions := fun located function _ => display_function_iff located function.id
    apart := namesApart_iff indexed catalog options }

/-- An internal global that holds the address of a function, and two exported ones whose symbols
are the names by number of the two. -/
def numberSymbolRequests : List Segment.Request :=
  [.declareInternal "table" .ptr, .define ⟨0⟩ (.functionAddress ⟨7⟩),
    .declareExported "Global_0" .ptr, .declareExported "Function_7" .ptr]

theorem numberSymbolRequests_namesSettled :
    ∃ segment, Segment.answerAll numberSymbolRequests .empty = .ok segment ∧
      NamesSettled segment (ofSegment segment .empty .standard) ∧
      segment.TakesName ⟨1⟩ ⟨0⟩ ∧ segment.Exports ⟨2⟩ (functionName ⟨7⟩) := by
  have ran : ∃ segment, Segment.answerAll numberSymbolRequests .empty = .ok segment ∧
      segment.TakesName ⟨1⟩ ⟨0⟩ ∧ segment.Exports ⟨2⟩ (functionName ⟨7⟩) :=
    ⟨_, rfl, ⟨⟨_, rfl, rfl, by decide⟩, ⟨_, rfl, rfl⟩⟩, ⟨_, rfl, rfl, by decide⟩⟩
  obtain ⟨segment, ran, taken, exports⟩ := ran
  exact ⟨segment, ran, namesSettled_ofSegment ran .empty .standard, taken, exports⟩

/-- Requests can lead to a segment whose unit has a name twice. -/
theorem not_namesApart_ofSegment :
    ¬∀ requests segment catalog options, Segment.answerAll requests .empty = .ok segment →
      (ofSegment segment catalog options).NamesApart := by
  intro apart
  have sampleApart := apart numberSymbolRequests _ .empty .standard rfl
  have differ : 0 ≠ 1 := by decide
  exact sampleApart.globals differ rfl rfl (by decide)

end SourceUnit

end CSource

end TypeRecords
