import TypeRecords.Proofs.Record.Ending

/-!
The errors that questions about a class report.

Owns the bound on what can be reported before a record is placed: a field of an interface, a member
without its function, and two members with one hash. All of these say something of the members of
the class alone. That a symbol is taken depends on what has been placed before, and is reported at
the end only.
-/

namespace TypeRecords

/-- An error that is about the members of a class. -/
inductive MemberError : RecordError → Prop
  | interfaceWithField (interface : QualifiedName) (field : String) :
      MemberError (.interfaceWithField interface field)
  | unknownMethod (method : String) : MemberError (.unknownMethod method)
  | missingEntryPoint (method : String) : MemberError (.missingEntryPoint method)
  | duplicateHash (className : QualifiedName) (name : String) (hash : NameHash)
      (first second : String) : MemberError (.duplicateHash className name hash first second)

/-- Whether all that an operation may report is about members. -/
def ReportsMembers {α : Type} (result : Except Failure α) : Prop :=
  ∀ error, result = .error (.reported error) → MemberError error

namespace ReportsMembers

variable {α β : Type}

theorem ok (value : α) : ReportsMembers (.ok value) := by
  intro error failed
  cases failed

theorem error {reported : RecordError} (isMember : MemberError reported) :
    ReportsMembers (α := α) (.error (.reported reported)) := by
  intro error failed
  cases failed
  exact isMember

theorem bind {result : Except Failure α} {next : α → Except Failure β}
    (first : ReportsMembers result) (rest : ∀ value, ReportsMembers (next value)) :
    ReportsMembers (result >>= next) := by
  cases result with
  | error failure =>
    intro error failed
    exact first error (by cases failed; rfl)
  | ok value => exact rest value

/-- What can only be misused reports nothing. -/
theorem lift (result : Except Fault α) :
    ReportsMembers (liftM result : Except Failure α) := by
  intro error failed
  cases result with
  | error fault => cases failed
  | ok value => cases failed

theorem mapM {question : α → Except Failure β} (each : ∀ item, ReportsMembers (question item))
    (items : List α) : ReportsMembers (items.mapM question) := by
  induction items with
  | nil => exact ok []
  | cons item rest inductionHypothesis =>
    rw [List.mapM_cons]
    exact (each item).bind fun _ => inductionHypothesis.bind fun _ => ok _

end ReportsMembers

namespace Catalog

variable (catalog : Catalog) (id : ClassId)

theorem reportsMembers_instanceLayout (target : Target) :
    ReportsMembers (catalog.instanceLayout target id) := by
  unfold instanceLayout
  apply (ReportsMembers.lift _).bind
  intro definition
  have fields : ReportsMembers (checkInterfaceFields definition) := by
    unfold checkInterfaceFields
    split
    · exact .error (.interfaceWithField _ _)
    · exact .ok ()
  apply fields.bind
  intro _
  apply (ReportsMembers.lift _).bind
  intro _
  apply (ReportsMembers.lift _).bind
  intro _
  exact .ok _

theorem reportsMembers_declaredMethod (method : MethodRef) :
    ReportsMembers (catalog.declaredMethod method) := by
  unfold declaredMethod
  split
  · exact .ok _
  · exact .error (.unknownMethod _)

theorem reportsMembers_requiredFunction (method : MethodRef) (definition : MethodDefinition) :
    ReportsMembers (catalog.requiredFunction method definition) := by
  unfold requiredFunction
  split
  · exact .ok _
  · exact .error (.missingEntryPoint _)

theorem reportsMembers_methodRecord (entry : DispatchEntry) :
    ReportsMembers (catalog.methodRecord entry) := by
  unfold methodRecord entryPoint
  refine ReportsMembers.bind ?_ fun _ => .ok _
  apply (catalog.reportsMembers_declaredMethod _).bind
  intro definition
  split
  · exact .ok _
  · exact (catalog.reportsMembers_requiredFunction _ _).bind fun _ => .ok _
  · exact (catalog.reportsMembers_requiredFunction _ _).bind fun _ => .ok _

theorem reportsMembers_sortDistinct (className : QualifiedName) (records : List MethodRecord) :
    ReportsMembers (catalog.sortDistinct className records) := by
  unfold sortDistinct
  dsimp only
  split
  · exact .ok _
  · exact .error (.duplicateHash _ _ _ _ _)

theorem reportsMembers_methodTable : ReportsMembers (catalog.methodTable id) := by
  unfold methodTable
  apply (ReportsMembers.lift _).bind
  intro definition
  split
  · exact .ok []
  · apply (ReportsMembers.lift _).bind
    intro members
    apply (ReportsMembers.mapM catalog.reportsMembers_methodRecord members).bind
    intro records
    exact catalog.reportsMembers_sortDistinct _ records

theorem reportsMembers_virtualTable : ReportsMembers (catalog.virtualTable id) := by
  unfold virtualTable
  apply (ReportsMembers.lift _).bind
  intro slots
  refine ReportsMembers.mapM (fun slot => ?_) slots
  refine ReportsMembers.bind ?_ fun _ => .ok _
  unfold slotEntryPoint
  apply (catalog.reportsMembers_declaredMethod _).bind
  intro definition
  split
  · exact .ok _
  · exact .ok _
  · exact (catalog.reportsMembers_requiredFunction _ _).bind fun _ => .ok _

end Catalog

/-- A question about a class that is refused is so because of its members. -/
theorem Generator.Unanswered.memberError {generator : Generator} {id : ClassId}
    {error : RecordError} (why : generator.Unanswered id (.reported error)) :
    MemberError error := by
  have virtualTables : ∀ definition,
      ReportsMembers (generator.recordVirtualTable id definition) := by
    intro definition
    unfold recordVirtualTable
    split
    · exact .ok none
    · exact (generator.catalog.reportsMembers_virtualTable id).bind fun _ => .ok _
  cases why with
  | layout asked => exact generator.catalog.reportsMembers_instanceLayout id _ error asked
  | methods _ asked => exact generator.catalog.reportsMembers_methodTable id error asked
  | virtualTable _ _ _ asked => exact virtualTables _ error asked

end TypeRecords
