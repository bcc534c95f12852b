import TypeRecords.Proofs.Segment.Requests

/-!
Interned strings.

Owns when a string can be interned and what is kept of it. A string is placed under a name that is
made from the number of strings so far, and no other name is tried. So interning fails where the
string is new and another global has that name. Such a name cannot come about by itself: earlier
strings have lower numbers, and a name made unused by a suffix has a dot in it. Some request must
have asked for exactly it.
-/

namespace TypeRecords

namespace Segment

open Outcome

variable {segment before after : Segment} {request : Request} {requests : List Request}

/-! ## Names of strings -/

theorem dot_notMem_stringName (number : Nat) : '.' ∉ (stringName number).toList := by
  rw [show stringName number = "kstr:" ++ number.repr from rfl, String.toList_append,
    Nat.toList_repr, List.mem_append, not_or]
  refine ⟨by decide, fun member => ?_⟩
  have isDigit := Nat.isDigit_of_mem_toDigits (by decide) (by decide) member
  exact absurd isDigit (by decide)

theorem dot_mem_suffixedName (name : String) (suffix : Nat) :
    '.' ∈ (suffixedName name suffix).toList := by
  rw [show suffixedName name suffix = name ++ "." ++ suffix.repr from rfl, String.toList_append,
    String.toList_append]
  simp

/-- A request that may give the name of a string asks for it. -/
theorem Request.Gives.name?_eq_stringName {number : Nat}
    (gives : request.Gives (stringName number)) : request.name? = some (stringName number) := by
  obtain ⟨asked, asks, same | ⟨suffix, same⟩⟩ := gives
  · rw [asks, same]
  · have dotted := dot_mem_suffixedName asked suffix
    rw [← same] at dotted
    exact absurd dotted (dot_notMem_stringName number)

theorem Continues.size_strings_le (later : after.Continues before) :
    before.strings.size ≤ after.strings.size :=
  later.strings.length_le

/-- A request takes the name of a string by asking for it, or by placing the next string. -/
theorem Effect.stringName (effect : Effect request before after) {number : Nat} {id : GlobalId}
    (found : after.names.find? (stringName number) = some id) :
    before.names.find? (stringName number) = some id ∨
      request.name? = some (stringName number) ∨ number < after.strings.size := by
  cases effect with
  | kept => exact .inl found
  | @added global gives =>
    rw [find?_names_withGlobal] at found
    split at found
    · rename_i same
      exact .inr (.inl (same ▸ gives).name?_eq_stringName)
    · exact .inl found
  | changed => exact .inl found
  | @interned text isNew =>
    change (before.withGlobal _).names.find? _ = some id at found
    rw [find?_names_withGlobal] at found
    split at found
    · rename_i same
      refine .inr (.inr ?_)
      rw [stringName_injective same]
      exact (OrderedMap.size_insert isNew before.nextId).symm ▸ Nat.lt_succ_self _
    · exact .inl found
  | used => exact .inl found

/-- The name of a string that is not placed yet is only taken where a request asked for it. -/
theorem exists_request_of_stringName (ran : answerAll requests empty = .ok segment) {number : Nat}
    {id : GlobalId} (found : segment.names.find? (stringName number) = some id)
    (isLater : segment.strings.size ≤ number) :
    ∃ request ∈ requests, request.name? = some (stringName number) := by
  have origin := answerAll_preserves ran
    (fun done reached => ∀ id, reached.names.find? (stringName number) = some id →
      (∃ request ∈ done, request.name? = some (stringName number)) ∨ number < reached.strings.size)
    (fun _ found => by cases found)
    (fun {done request middle reached} known answered place taken => by
      have effect := effect_of_answer answered
      rcases effect.stringName taken with earlier | asks | placed
      · rcases known place earlier with ⟨other, member, asked⟩ | below
        · exact .inl ⟨other, List.mem_append_left _ member, asked⟩
        · exact .inr (Nat.lt_of_lt_of_le below effect.continues.size_strings_le)
      · exact .inl ⟨request, by simp, asks⟩
      · exact .inr placed)
  exact (origin id found).resolve_right (Nat.not_lt.mpr isLater)

/-! ## Interning -/

/-- A fault of interning a string after some requests: the string is new, and one of them asked for
the name it would get, which is taken. -/
inductive StringRefused (segment : Segment) (requests : List Request) (text : String) : Fault → Prop
  | nameTaken {request : Request} {existing : GlobalId}
      (isNew : segment.strings.find? text = none) (member : request ∈ requests)
      (asks : request.name? = some (stringName segment.strings.size))
      (taken : segment.findByName? (stringName segment.strings.size) = some existing) :
      StringRefused segment requests text
        (.globalNameTaken (stringName segment.strings.size) existing)

theorem stringRefused_iff (ran : answerAll requests empty = .ok segment) (text : String)
    (fault : Fault) :
    internString text segment = .error fault ↔ segment.StringRefused requests text fault := by
  constructor
  · intro failed
    obtain ⟨isNew, existing, taken, rfl⟩ := internString_eq_error failed
    obtain ⟨request, member, asks⟩ := exists_request_of_stringName ran taken (Nat.le_refl _)
    exact .nameTaken isNew member asks taken
  · rintro ⟨isNew, member, asks, taken⟩
    cases ended : internString text segment with
    | ok result =>
      rcases internString_eq_ok.mp ended with ⟨known, _⟩ | ⟨_, isFree, _⟩
      · cases isNew.symm.trans known
      · cases isFree.symm.trans taken
    | error other =>
      obtain ⟨_, present, found, rfl⟩ := internString_eq_error ended
      rw [Option.some.inj (taken.symm.trans found)]

/-- An interned string is found again in every later segment. -/
theorem Continues.internString_eq {text : String} {id : GlobalId} (later : after.Continues before)
    (known : before.strings.find? text = some id) :
    internString text after = .ok (id, after) :=
  internString_eq_ok.mpr (.inl ⟨later.find?_strings known, rfl⟩)

theorem find?_strings_of_internString {text : String} {id : GlobalId}
    (interned : internString text before = .ok (id, after)) :
    after.strings.find? text = some id := by
  rcases internString_eq_ok.mp interned with ⟨known, rfl⟩ | ⟨_, _, rfl, rfl⟩
  · exact known
  · exact (OrderedMap.find?_insert _ _ _ _).trans (if_pos rfl)

/-! ## Main result -/

/-- Interning a string fails only where its name was asked for before. Otherwise the answer is a
global that holds the string, and it stays the answer whatever is requested later. -/
theorem stringRefused_and_internString_eq (ran : answerAll requests empty = .ok segment)
    (text : String) :
    (∀ fault, internString text segment = .error fault ↔
      segment.StringRefused requests text fault) ∧
    ∀ id after, internString text segment = .ok (id, after) →
      ∀ further later, answerAll further after = .ok later →
        later.initial? id = some (.utf16 text) ∧ internString text later = .ok (id, later) := by
  refine ⟨stringRefused_iff ran text, fun id after interned further later continued => ?_⟩
  have known := find?_strings_of_internString interned
  have kept := continues_of_answerAll continued
  have effect : Effect (.internString text) segment after := effect_internString interned
  have indexed := (indexed_of_answerAll ran).effect effect
  exact ⟨kept.initial? (indexed.strings text id known), kept.internString_eq known⟩

/-- A global under the name of the first string. -/
def claimedName : List Request := [.declareInternal "kstr:0" .ptr]

theorem claimedName_stringRefused :
    ∃ segment, answerAll claimedName empty = .ok segment ∧
      internString "text" segment = .error (.globalNameTaken "kstr:0" ⟨0⟩) ∧
      segment.StringRefused claimedName "text" (.globalNameTaken "kstr:0" ⟨0⟩) := by
  obtain ⟨segment, ran, failed⟩ : ∃ segment, answerAll claimedName empty = .ok segment ∧
      internString "text" segment = .error (.globalNameTaken "kstr:0" ⟨0⟩) := ⟨_, rfl, rfl⟩
  exact ⟨segment, ran, failed, ((stringRefused_and_internString_eq ran "text").1 _).mp failed⟩

/-- Not every string can be interned in every segment that requests lead to. -/
theorem not_exists_internString :
    ¬ ∀ requests segment, answerAll requests empty = .ok segment →
      ∀ text, ∃ id after, internString text segment = .ok (id, after) := by
  intro total
  obtain ⟨id, after, interned⟩ := total claimedName _ rfl "text"
  cases interned

end Segment

end TypeRecords
