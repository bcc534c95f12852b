import Mathlib.Logic.Function.Basic
import TypeRecords.NameHash
import TypeRecords.Proofs.Wire.Utf8

/-!
Collisions of hashes.

Owns which byte strings can have one hash. For a fixed byte the step of the hash is a bijection of
words, because the prime is odd and so has an inverse among the 64-bit words. For a fixed word it
tells bytes apart. A common end of two byte strings is therefore of no account for a collision, and
a single byte that differs always shows in the hash.
-/

namespace TypeRecords

namespace NameHash

/-! ## One step -/

/-- The word whose product with the prime is one. -/
def primeInverse : UInt64 := 0xce965057aff6957b

theorem prime_mul_primeInverse : prime * primeInverse = 1 := by decide

theorem mul_prime_injective : Function.Injective fun word : UInt64 => word * prime := by
  intro first second same
  calc
    first = first * prime * primeInverse := by
      rw [UInt64.mul_assoc, prime_mul_primeInverse, UInt64.mul_one]
    _ = second * prime * primeInverse := congrArg (· * primeInverse) same
    _ = second := by rw [UInt64.mul_assoc, prime_mul_primeInverse, UInt64.mul_one]

/-- The step takes different words to different words, whatever the byte. -/
theorem step_word_injective (byte : UInt8) : Function.Injective fun word => step word byte := by
  intro first second same
  exact (UInt64.xor_left_inj _).mp (mul_prime_injective same)

/-- The step takes different bytes to different words, whatever the word before. -/
theorem step_byte_injective (word : UInt64) : Function.Injective (step word) := by
  intro first second same
  exact UInt8.toUInt64_inj.mp ((UInt64.xor_right_inj _).mp (mul_prime_injective same))

/-! ## Many steps -/

theorem foldl_step_injective (bytes : List UInt8) :
    Function.Injective fun word => bytes.foldl step word := by
  induction bytes with
  | nil => exact fun _ _ same => same
  | cons byte rest inductionHypothesis => exact inductionHypothesis.comp (step_word_injective byte)

theorem ofBytes_append_right_iff (first second shared : List UInt8) :
    ofBytes (first ++ shared) = ofBytes (second ++ shared) ↔ ofBytes first = ofBytes second := by
  simp only [ofBytes, List.foldl_append, NameHash.mk.injEq]
  exact (foldl_step_injective shared).eq_iff

theorem ofBytes_ne_of_byte {first second : UInt8} (differ : first ≠ second)
    (front back : List UInt8) :
    ofBytes (front ++ first :: back) ≠ ofBytes (front ++ second :: back) := by
  rw [List.append_cons front first, List.append_cons front second, Ne, ofBytes_append_right_iff]
  simp only [ofBytes, List.foldl_append, NameHash.mk.injEq]
  exact fun same => differ (step_byte_injective _ same)

/-! ## Places that differ -/

/-- Whether byte strings differ at a place. -/
def DifferAt (first second : List UInt8) (place : Nat) : Prop := first[place]? ≠ second[place]?

instance (first second : List UInt8) (place : Nat) : Decidable (DifferAt first second place) :=
  inferInstanceAs (Decidable (first[place]? ≠ second[place]?))

/-- Whether byte strings of one length differ at one place only. -/
def DifferOnce (first second : List UInt8) : Prop :=
  first.length = second.length ∧ ∃! place, DifferAt first second place

variable {first second : List UInt8}

theorem DifferOnce.exists_split (differ : DifferOnce first second) :
    ∃ front back left right, left ≠ right ∧ first = front ++ left :: back ∧
      second = front ++ right :: back := by
  obtain ⟨sameLength, place, differs, once⟩ := differ
  have same : ∀ other, other ≠ place → first[other]? = second[other]? := by
    intro other away
    by_contra also
    exact away (once other also)
  have inside : place < first.length := by
    by_contra outside
    rw [DifferAt, List.getElem?_eq_none (by omega), List.getElem?_eq_none (by omega)] at differs
    exact differs rfl
  have insideSecond : place < second.length := sameLength ▸ inside
  have sameFront : first.take place = second.take place := by
    refine List.ext_getElem? fun other => ?_
    rw [List.getElem?_take, List.getElem?_take]
    split
    · exact same other (by omega)
    · rfl
  have sameBack : first.drop (place + 1) = second.drop (place + 1) := by
    refine List.ext_getElem? fun other => ?_
    rw [List.getElem?_drop, List.getElem?_drop]
    exact same _ (by omega)
  refine ⟨first.take place, first.drop (place + 1), first[place], second[place], ?_, ?_, ?_⟩
  · rw [DifferAt, List.getElem?_eq_getElem inside, List.getElem?_eq_getElem insideSecond] at differs
    exact fun equal => differs (congrArg some equal)
  · rw [List.getElem_cons_drop, List.take_append_drop]
  · rw [sameFront, sameBack, List.getElem_cons_drop, List.take_append_drop]

theorem ofBytes_ne_of_differOnce (differ : DifferOnce first second) :
    ofBytes first ≠ ofBytes second := by
  obtain ⟨front, back, left, right, apart, rfl, rfl⟩ := differ.exists_split
  exact ofBytes_ne_of_byte apart front back

/-- Different byte strings of one length that share a hash differ at two places at least. -/
theorem exists_two_places (sameLength : first.length = second.length) (apart : first ≠ second)
    (collide : ofBytes first = ofBytes second) :
    ∃ place other, place ≠ other ∧ DifferAt first second place ∧ DifferAt first second other := by
  obtain ⟨place, differs⟩ : ∃ place, DifferAt first second place := by
    by_contra nowhere
    exact apart (List.ext_getElem? fun place => not_not.mp fun differs => nowhere ⟨place, differs⟩)
  by_contra notTwice
  refine ofBytes_ne_of_differOnce ⟨sameLength, place, differs, fun other also => ?_⟩ collide
  by_contra away
  exact notTwice ⟨place, other, fun same => away same.symm, differs, also⟩

/-! ## Names -/

theorem of_eq (name : String) : of name = ofBytes (Text.utf8 name) := rfl

/-- The signed form of a hash is another one's only if the hashes are the same. -/
theorem signed_injective : Function.Injective signed := by
  rintro ⟨first⟩ ⟨second⟩ same
  have sameWord : first.toInt64.toUInt64 = second.toInt64.toUInt64 := congrArg Int64.toUInt64 same
  exact congrArg NameHash.mk sameWord

/-! ## Main result -/

/-- A common end neither makes nor hides a collision, of byte strings as of names. Byte strings of
one length never collide if they differ at one place, so names that do, also in the signed form of
their hashes, differ in length or at two places. -/
theorem collisions_limited :
    (∀ first second shared : List UInt8,
      ofBytes (first ++ shared) = ofBytes (second ++ shared) ↔ ofBytes first = ofBytes second) ∧
    (∀ first second : List UInt8, DifferOnce first second → ofBytes first ≠ ofBytes second) ∧
    (∀ first second shared : String,
      of (first ++ shared) = of (second ++ shared) ↔ of first = of second) ∧
    ∀ first second : String, first ≠ second → (of first).signed = (of second).signed →
      (Text.utf8 first).length ≠ (Text.utf8 second).length ∨
      ∃ place other, place ≠ other ∧ DifferAt (Text.utf8 first) (Text.utf8 second) place ∧
        DifferAt (Text.utf8 first) (Text.utf8 second) other := by
  refine ⟨ofBytes_append_right_iff, fun _ _ => ofBytes_ne_of_differOnce, ?_, ?_⟩
  · intro first second shared
    rw [of_eq, of_eq, of_eq, of_eq, Text.utf8_append, Text.utf8_append, ofBytes_append_right_iff]
  · intro first second apart collide
    rw [or_iff_not_imp_left, not_not]
    intro sameLength
    refine exists_two_places sameLength (fun same => apart ?_) (signed_injective collide)
    -- A text is restored from its bytes.
    have restored := Text.ofUtf8?_utf8 first
    rw [same, Text.ofUtf8?_utf8] at restored
    exact (Option.some.inj restored).symm

/-- The bytes of two texts that differ at their third place. -/
theorem area_differOnce_aria : DifferOnce [97, 114, 101, 97] [97, 114, 105, 97] := by
  refine ⟨rfl, 2, show DifferAt _ _ 2 by decide, fun place differs => ?_⟩
  match place with
  | 0 | 1 | 3 => exact absurd rfl differs
  | 2 => rfl
  | _ + 4 => exact absurd rfl differs

/-- Two texts of one length with the same hash. -/
def collidingNames : String × String := ("8yn0iYCKYHlIj4-BwPqk", "GReLUrM4wMqfg9yzV3KQ")

theorem collidingNames_of_eq : of collidingNames.1 = of collidingNames.2 := by
  have first : collidingNames.1 = String.ofList "8yn0iYCKYHlIj4-BwPqk".toList := rfl
  have second : collidingNames.2 = String.ofList "GReLUrM4wMqfg9yzV3KQ".toList := rfl
  rw [of_eq, of_eq, first, second, Text.utf8_ofList, Text.utf8_ofList]
  decide +kernel

theorem collidingNames_limited :
    (DifferOnce [97, 114, 101, 97] [97, 114, 105, 97] ∧
      ofBytes [97, 114, 101, 97] ≠ ofBytes [97, 114, 105, 97]) ∧
    collidingNames.1 ≠ collidingNames.2 ∧
      (of collidingNames.1).signed = (of collidingNames.2).signed ∧
      ((Text.utf8 collidingNames.1).length ≠ (Text.utf8 collidingNames.2).length ∨
        ∃ place other, place ≠ other ∧
          DifferAt (Text.utf8 collidingNames.1) (Text.utf8 collidingNames.2) place ∧
          DifferAt (Text.utf8 collidingNames.1) (Text.utf8 collidingNames.2) other) := by
  have apart : collidingNames.1 ≠ collidingNames.2 := by decide
  have collide := congrArg signed collidingNames_of_eq
  exact ⟨⟨area_differOnce_aria, collisions_limited.2.1 _ _ area_differOnce_aria⟩, apart, collide,
    collisions_limited.2.2.2 _ _ apart collide⟩

end NameHash

end TypeRecords
