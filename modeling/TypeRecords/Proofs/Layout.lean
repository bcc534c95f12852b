import Mathlib.Algebra.Group.Nat.Defs
import Mathlib.Order.Bounds.Basic
import TypeRecords.Layout
import TypeRecords.Proofs.Outcome

/-!
Layouts of elements in order.

Owns the layout counted without words: each element stands at the least multiple of its alignment
behind the one before. `StructLayout.build` gives exactly this layout as long as no sum leaves the
64-bit word. The elements do not overlap, and those of a longer list stand where they stand in a
part of it that comes first. No layout of the elements in order is tighter, no other one is as
tight, and an alignment that is no power of two is all that a layout is refused for.
-/

namespace TypeRecords

/-! ## Rounding up -/

/-- The least multiple of an alignment from an offset on. -/
def roundUp (offset alignment : Nat) : Nat := (offset + alignment - 1) / alignment * alignment

section RoundUp

variable {offset alignment : Nat}

theorem dvd_roundUp (offset alignment : Nat) : alignment ∣ roundUp offset alignment :=
  Nat.dvd_mul_left _ _

theorem le_roundUp (positive : 0 < alignment) : offset ≤ roundUp offset alignment := by
  have division := Nat.div_add_mod (offset + alignment - 1) alignment
  have remainder := Nat.mod_lt (offset + alignment - 1) positive
  rw [Nat.mul_comm] at division
  unfold roundUp
  omega

theorem roundUp_le {bound : Nat} (positive : 0 < alignment) (isMultiple : alignment ∣ bound)
    (above : offset ≤ bound) : roundUp offset alignment ≤ bound := by
  obtain ⟨quotient, rfl⟩ := isMultiple
  have few : (offset + alignment - 1) / alignment ≤ quotient := by
    rw [Nat.div_le_iff_le_mul_add_pred positive]
    omega
  calc
    roundUp offset alignment ≤ quotient * alignment := Nat.mul_le_mul_right _ few
    _ = alignment * quotient := Nat.mul_comm _ _

theorem roundUp_isLeast (positive : 0 < alignment) :
    IsLeast {multiple | alignment ∣ multiple ∧ offset ≤ multiple} (roundUp offset alignment) :=
  ⟨⟨dvd_roundUp _ _, le_roundUp positive⟩,
    fun _ bound => roundUp_le positive bound.1 bound.2⟩

theorem roundUp_zero (positive : 0 < alignment) : roundUp 0 alignment = 0 :=
  Nat.le_zero.mp (roundUp_le positive (Nat.dvd_zero _) (Nat.le_refl 0))

theorem exists_eq_two_pow_of_isPowerOfTwo (isPower : isPowerOfTwo alignment = true) :
    ∃ exponent, alignment = 2 ^ exponent :=
  ⟨alignment.log2, of_decide_eq_true isPower⟩

theorem pos_of_isPowerOfTwo (isPower : isPowerOfTwo alignment = true) : 0 < alignment := by
  obtain ⟨exponent, rfl⟩ := exists_eq_two_pow_of_isPowerOfTwo isPower
  exact Nat.two_pow_pos exponent

/-- In a word, clearing the bits below a power of two leaves its multiple. -/
theorem and_two_pow_sub_two_pow {width exponent word : Nat} (fits : word < 2 ^ width)
    (small : exponent ≤ width) :
    word &&& (2 ^ width - 2 ^ exponent) = word / 2 ^ exponent * 2 ^ exponent := by
  have mask : 2 ^ width - 2 ^ exponent = (2 ^ (width - exponent) - 1) * 2 ^ exponent := by
    rw [Nat.sub_mul, ← Nat.pow_add, Nat.sub_add_cancel small, Nat.one_mul]
  refine Nat.eq_of_testBit_eq fun bit => ?_
  rw [mask, Nat.testBit_and, Nat.testBit_mul_two_pow, Nat.testBit_mul_two_pow,
    Nat.testBit_two_pow_sub_one, Nat.testBit_div_two_pow]
  by_cases above : exponent ≤ bit
  · by_cases inside : bit < width
    · have shifted : bit - exponent < width - exponent := by omega
      simp [above, shifted]
    · -- Beyond the width the word has no bits either.
      have noBit : word.testBit bit = false :=
        Nat.testBit_lt_two_pow (fits.trans_le (Nat.pow_le_pow_right (by decide) (by omega)))
      simp [above, noBit]
  · simp [above]

theorem alignUp_eq_roundUp (isPower : isPowerOfTwo alignment = true)
    (fits : offset + alignment ≤ 2 ^ 64) : alignUp offset alignment = roundUp offset alignment := by
  have positive := pos_of_isPowerOfTwo isPower
  obtain ⟨exponent, rfl⟩ := exists_eq_two_pow_of_isPowerOfTwo isPower
  have small : exponent ≤ 64 := by
    rw [← Nat.pow_le_pow_iff_right (a := 2) (by decide)]
    omega
  exact and_two_pow_sub_two_pow (by omega) small

end RoundUp

/-! ## Layouts without words -/

namespace StructLayout

/-- Where each of the elements stands that are laid out behind `finish`. -/
def offsetsFrom (finish : Nat) : List Element → List Nat
  | [] => []
  | element :: rest =>
    roundUp finish element.alignment ::
      offsetsFrom (roundUp finish element.alignment + element.size) rest

/-- Where the elements end. -/
def endFrom (finish : Nat) (elements : List Element) : Nat :=
  elements.foldl (fun finish element => roundUp finish element.alignment + element.size) finish

/-- The largest of some alignments and `alignment`. -/
def largestAlignment (alignment : Nat) (elements : List Element) : Nat :=
  elements.foldl (fun largest element => max largest element.alignment) alignment

/-- The bytes that elements take together, filled up to the largest alignment. -/
def storeSize (elements : List Element) : Nat :=
  roundUp (endFrom 0 elements) (largestAlignment 1 elements)

/-- Whether no sum leaves the word while the elements are laid out. -/
def FitsWord (finish alignment : Nat) : List Element → Prop
  | [] => finish + alignment ≤ 2 ^ 64
  | element :: rest => finish + element.alignment ≤ 2 ^ 64 ∧
    FitsWord (roundUp finish element.alignment + element.size)
      (max alignment element.alignment) rest

instance decidableFitsWord :
    ∀ (finish alignment : Nat) (elements : List Element),
      Decidable (FitsWord finish alignment elements)
  | finish, alignment, [] => inferInstanceAs (Decidable (finish + alignment ≤ 2 ^ 64))
  | finish, alignment, element :: rest =>
    have := decidableFitsWord (roundUp finish element.alignment + element.size)
      (max alignment element.alignment) rest
    inferInstanceAs (Decidable (finish + element.alignment ≤ 2 ^ 64 ∧ _))

variable {elements first second : List Element} {finish alignment : Nat}

/-- Whether elements can be laid out: each alignment is a power of two. -/
def Aligned (elements : List Element) : Prop :=
  ∀ element ∈ elements, isPowerOfTwo element.alignment = true

instance (elements : List Element) : Decidable (Aligned elements) :=
  inferInstanceAs (Decidable (∀ element ∈ elements, isPowerOfTwo element.alignment = true))

theorem isPowerOfTwo_max {left right : Nat} (leftPower : isPowerOfTwo left = true)
    (rightPower : isPowerOfTwo right = true) : isPowerOfTwo (max left right) = true := by
  rcases Nat.le_total left right with below | below
  · rw [Nat.max_eq_right below]
    exact rightPower
  · rw [Nat.max_eq_left below]
    exact leftPower

/-- Where no sum leaves the word, words make no difference. -/
theorem buildFrom_eq (aligned : Aligned elements) (isPower : isPowerOfTwo alignment = true)
    (fits : FitsWord finish alignment elements) :
    buildFrom finish alignment elements = .ok ⟨offsetsFrom finish elements,
      roundUp (endFrom finish elements) (largestAlignment alignment elements),
      largestAlignment alignment elements⟩ := by
  induction elements generalizing finish alignment with
  | nil =>
    rw [buildFrom, alignUp_eq_roundUp isPower fits]
    rfl
  | cons element rest inductionHypothesis =>
    have elementPower := aligned element List.mem_cons_self
    rw [buildFrom, if_pos elementPower]
    dsimp only
    rw [alignUp_eq_roundUp elementPower fits.1,
      inductionHypothesis (fun other member => aligned other (List.mem_cons_of_mem _ member))
        (isPowerOfTwo_max isPower elementPower) fits.2]
    rfl

theorem build_eq (aligned : Aligned elements) (fits : FitsWord 0 1 elements) :
    build elements =
      .ok ⟨offsetsFrom 0 elements, storeSize elements, largestAlignment 1 elements⟩ :=
  buildFrom_eq aligned (by decide) fits

/-! ### Where elements stand -/

theorem length_offsetsFrom (finish : Nat) (elements : List Element) :
    (offsetsFrom finish elements).length = elements.length := by
  induction elements generalizing finish with
  | nil => rfl
  | cons element rest inductionHypothesis => simp [offsetsFrom, inductionHypothesis]

theorem endFrom_append (finish : Nat) (first second : List Element) :
    endFrom finish (first ++ second) = endFrom (endFrom finish first) second :=
  List.foldl_append

/-- Elements that come first stand where they stand alone. -/
theorem offsetsFrom_append (finish : Nat) (first second : List Element) :
    offsetsFrom finish (first ++ second) =
      offsetsFrom finish first ++ offsetsFrom (endFrom finish first) second := by
  induction first generalizing finish with
  | nil => rfl
  | cons element rest inductionHypothesis =>
    rw [List.cons_append, offsetsFrom, inductionHypothesis]
    rfl

theorem le_endFrom (aligned : Aligned elements) (finish : Nat) :
    finish ≤ endFrom finish elements := by
  induction elements generalizing finish with
  | nil => exact Nat.le_refl finish
  | cons element rest inductionHypothesis =>
    rw [Aligned, List.forall_mem_cons] at aligned
    have above : finish ≤ roundUp finish element.alignment :=
      le_roundUp (pos_of_isPowerOfTwo aligned.1)
    exact (above.trans (Nat.le_add_right _ element.size)).trans (inductionHypothesis aligned.2 _)

/-- Every element stands at a multiple of its alignment, between the ends. -/
theorem bounds_of_mem_zip (aligned : Aligned elements) {place : Nat × Element}
    (member : place ∈ (offsetsFrom finish elements).zip elements) :
    place.2.alignment ∣ place.1 ∧ finish ≤ place.1 ∧
      place.1 + place.2.size ≤ endFrom finish elements := by
  induction elements generalizing finish with
  | nil => cases member
  | cons element rest inductionHypothesis =>
    rw [Aligned, List.forall_mem_cons] at aligned
    have above : finish ≤ roundUp finish element.alignment :=
      le_roundUp (pos_of_isPowerOfTwo aligned.1)
    rw [offsetsFrom, List.zip_cons_cons] at member
    rcases List.mem_cons.mp member with rfl | later
    · exact ⟨dvd_roundUp _ _, above, le_endFrom aligned.2 _⟩
    · obtain ⟨isMultiple, behind, before⟩ := inductionHypothesis aligned.2 later
      exact ⟨isMultiple, (above.trans (Nat.le_add_right _ element.size)).trans behind, before⟩

/-- Every element ends before the next ones begin. -/
theorem pairwise_zip (aligned : Aligned elements) (finish : Nat) :
    ((offsetsFrom finish elements).zip elements).Pairwise
      fun earlier later => earlier.1 + earlier.2.size ≤ later.1 := by
  induction elements generalizing finish with
  | nil => exact .nil
  | cons element rest inductionHypothesis =>
    rw [Aligned, List.forall_mem_cons] at aligned
    rw [offsetsFrom, List.zip_cons_cons, List.pairwise_cons]
    exact ⟨fun _ later => (bounds_of_mem_zip aligned.2 later).2.1, inductionHypothesis aligned.2 _⟩

/-- Elements fit into the word where their end and the largest alignment are well inside. -/
theorem fitsWord_of_endFrom_le (aligned : Aligned elements) {limit : Nat}
    (start : alignment ≤ limit)
    (limited : ∀ element ∈ elements, element.alignment ≤ limit)
    (inside : endFrom finish elements + limit ≤ 2 ^ 64) : FitsWord finish alignment elements := by
  induction elements generalizing finish alignment with
  | nil => exact (Nat.add_le_add_left start finish).trans inside
  | cons element rest inductionHypothesis =>
    have passed := le_endFrom aligned finish
    rw [Aligned, List.forall_mem_cons] at aligned
    rw [List.forall_mem_cons] at limited
    refine ⟨?_, inductionHypothesis aligned.2 (Nat.max_le.mpr ⟨start, limited.1⟩) limited.2 inside⟩
    omega

theorem alignment_le_largestAlignment (alignment : Nat) (elements : List Element) :
    alignment ≤ largestAlignment alignment elements := by
  induction elements generalizing alignment with
  | nil => exact Nat.le_refl alignment
  | cons element rest inductionHypothesis =>
    exact (Nat.le_max_left alignment element.alignment).trans (inductionHypothesis _)

theorem endFrom_le_storeSize (elements : List Element) : endFrom 0 elements ≤ storeSize elements :=
  le_roundUp (alignment_le_largestAlignment 1 elements)

/-! ### Layouts that can be made -/

/-- Elements cannot be laid out for one reason only. -/
theorem buildFrom_eq_error_iff {fault : Fault} :
    buildFrom finish alignment elements = .error fault ↔
      fault = .alignmentNotPowerOfTwo ∧ ¬ Aligned elements := by
  induction elements generalizing finish alignment with
  | nil => simp [buildFrom, Aligned]
  | cons element rest inductionHypothesis =>
    rw [buildFrom, Aligned, List.forall_mem_cons]
    by_cases isPower : isPowerOfTwo element.alignment = true
    · rw [if_pos isPower, and_iff_right isPower]
      constructor
      · intro failed
        rcases Outcome.bind_eq_error.mp failed with later | ⟨tail, _, made⟩
        · exact inductionHypothesis.mp later
        · cases made
      · intro refused
        exact Outcome.bind_eq_error.mpr (.inl (inductionHypothesis.mpr refused))
    · rw [if_neg isPower, Except.error.injEq]
      exact ⟨fun same => ⟨same.symm, fun aligned => isPower aligned.1⟩,
        fun refused => refused.1.symm⟩

/-- Elements whose alignments are powers of two can be laid out. -/
theorem exists_buildFrom (aligned : Aligned elements) (finish alignment : Nat) :
    ∃ layout, buildFrom finish alignment elements = .ok layout := by
  cases built : buildFrom finish alignment elements with
  | ok layout => exact ⟨layout, rfl⟩
  | error fault => exact absurd aligned (buildFrom_eq_error_iff.mp built).2

/-- Every element has an offset, also where sums leave the word. -/
theorem length_offsets_of_buildFrom {layout : StructLayout}
    (built : buildFrom finish alignment elements = .ok layout) :
    layout.offsets.length = elements.length := by
  induction elements generalizing finish alignment layout with
  | nil =>
    rw [← Except.ok.inj built]
    rfl
  | cons element rest inductionHypothesis =>
    rw [buildFrom] at built
    split_ifs at built
    obtain ⟨tail, tailBuilt, made⟩ := Outcome.bind_eq_ok.mp built
    rw [← Outcome.pure_eq_ok.mp made]
    exact congrArg Nat.succ (inductionHypothesis tailBuilt)

/-- What comes behind elements does not move them, in words either. -/
theorem exists_buildFrom_of_append {whole : StructLayout}
    (built : buildFrom finish alignment (first ++ second) = .ok whole) :
    ∃ front, buildFrom finish alignment first = .ok front ∧
      front.offsets = whole.offsets.take first.length := by
  induction first generalizing finish alignment whole with
  | nil => exact ⟨_, rfl, rfl⟩
  | cons element rest inductionHypothesis =>
    rw [List.cons_append, buildFrom] at built
    split_ifs at built with isPower
    obtain ⟨tail, tailBuilt, made⟩ := Outcome.bind_eq_ok.mp built
    obtain ⟨front, frontBuilt, leading⟩ := inductionHypothesis tailBuilt
    rw [← Outcome.pure_eq_ok.mp made]
    refine ⟨{ front with offsets := alignUp finish element.alignment :: front.offsets }, ?_, ?_⟩
    · rw [buildFrom, if_pos isPower]
      dsimp only
      rw [frontBuilt]
      rfl
    · rw [leading]
      rfl

/-! ### The tightest layout -/

/-- Whether each element stands at the least offset that its alignment allows from the end of the
element before it, the first one from `finish`. The last number is where the elements end. -/
inductive StandTight : Nat → List Element → List Nat → Nat → Prop
  | nil (finish : Nat) : StandTight finish [] [] finish
  | cons {finish offset last : Nat} {element : Element} {rest : List Element} {offsets : List Nat}
      (least : IsLeast {multiple | element.alignment ∣ multiple ∧ finish ≤ multiple} offset)
      (behind : StandTight (offset + element.size) rest offsets last) :
      StandTight finish (element :: rest) (offset :: offsets) last

/-- Whether a layout has elements in order without wasting a byte: each offset, the alignment and
the size are as small as they may be. -/
structure Tightest (elements : List Element) (layout : StructLayout) : Prop where
  alignment : IsGreatest (insert 1 {alignment | alignment ∈ elements.map Element.alignment})
    layout.alignment
  places : ∃ last, StandTight 0 elements layout.offsets last ∧
    IsLeast {multiple | layout.alignment ∣ multiple ∧ last ≤ multiple} layout.size

theorem standTight_offsetsFrom (aligned : Aligned elements) (finish : Nat) :
    StandTight finish elements (offsetsFrom finish elements) (endFrom finish elements) := by
  induction elements generalizing finish with
  | nil => exact .nil finish
  | cons element rest inductionHypothesis =>
    rw [Aligned, List.forall_mem_cons] at aligned
    exact .cons (roundUp_isLeast (pos_of_isPowerOfTwo aligned.1)) (inductionHypothesis aligned.2 _)

theorem StandTight.unique {offsets offsets' : List Nat} {last last' : Nat}
    (tight : StandTight finish elements offsets last)
    (again : StandTight finish elements offsets' last') : offsets = offsets' ∧ last = last' := by
  induction tight generalizing offsets' last' with
  | nil finish =>
    cases again
    exact ⟨rfl, rfl⟩
  | cons least _ inductionHypothesis =>
    cases again with
    | cons leastAgain behind =>
      obtain rfl := least.unique leastAgain
      obtain ⟨rfl, rfl⟩ := inductionHypothesis behind
      exact ⟨rfl, rfl⟩

theorem largestAlignment_isGreatest (alignment : Nat) (elements : List Element) :
    IsGreatest (insert alignment {other | other ∈ elements.map Element.alignment})
      (largestAlignment alignment elements) := by
  induction elements generalizing alignment with
  | nil => simp [largestAlignment, isGreatest_singleton]
  | cons element rest inductionHypothesis =>
    obtain ⟨listed, above⟩ := inductionHypothesis (max alignment element.alignment)
    rw [mem_upperBounds, Set.forall_mem_insert] at above
    refine ⟨?_, ?_⟩
    · rcases listed with isMax | later
      · show largestAlignment (max alignment element.alignment) rest ∈ _
        rw [isMax]
        rcases Nat.le_total alignment element.alignment with below | below
        · simp [Nat.max_eq_right below]
        · simp [Nat.max_eq_left below]
      · exact .inr (List.mem_cons_of_mem _ later)
    · rintro other (rfl | member)
      · exact (Nat.le_max_left _ _).trans above.1
      · rcases List.mem_cons.mp member with rfl | later
        · exact (Nat.le_max_right _ _).trans above.1
        · exact above.2 other later

theorem Tightest.unique {layout other : StructLayout} (tight : Tightest elements layout)
    (again : Tightest elements other) : layout = other := by
  obtain ⟨offsets, size, alignment⟩ := layout
  obtain ⟨offsets', size', alignment'⟩ := other
  obtain ⟨greatest, last, places, least⟩ := tight
  obtain ⟨greatestAgain, last', placesAgain, leastAgain⟩ := again
  obtain rfl : alignment = alignment' := greatest.unique greatestAgain
  obtain ⟨sameOffsets, rfl⟩ := places.unique placesAgain
  obtain rfl : offsets = offsets' := sameOffsets
  obtain rfl : size = size' := least.unique leastAgain
  rfl

/-- The layout counted without words is the tightest. -/
theorem tightest_offsetsFrom (aligned : Aligned elements) :
    Tightest elements
      ⟨offsetsFrom 0 elements, storeSize elements, largestAlignment 1 elements⟩ where
  alignment := largestAlignment_isGreatest 1 elements
  places := ⟨endFrom 0 elements, standTight_offsetsFrom aligned 0,
    roundUp_isLeast (alignment_le_largestAlignment 1 elements)⟩

/-! ## Main result -/

/-- Elements are laid out as tightly as their order and their alignments allow, if no sum leaves the
word. Elements that come first stand where they stand alone, and nothing but an alignment that is no
power of two keeps elements from being laid out. -/
theorem build_tightest (elements : List Element) :
    (Aligned elements → FitsWord 0 1 elements →
      ∃ layout, build elements = .ok layout ∧ layout.offsets.length = elements.length ∧
        ∀ other, Tightest elements other ↔ other = layout) ∧
    (∀ further whole, build (elements ++ further) = .ok whole →
      ∃ layout, build elements = .ok layout ∧
        layout.offsets = whole.offsets.take elements.length) ∧
    ∀ fault, build elements = .error fault ↔
      fault = .alignmentNotPowerOfTwo ∧ ¬ Aligned elements := by
  refine ⟨fun aligned fits => ?_, fun further whole => exists_buildFrom_of_append,
    fun fault => buildFrom_eq_error_iff⟩
  have tightest := tightest_offsetsFrom aligned
  refine ⟨_, build_eq aligned fits, length_offsetsFrom 0 elements, fun other => ⟨?_, ?_⟩⟩
  · exact fun again => again.unique tightest
  · rintro rfl
    exact tightest

/-- Elements that end just below the end of the word. -/
def highElements : List Element := [⟨0xffffffffffffffe5, 1⟩, ⟨5, 8⟩, ⟨2, 2⟩]

theorem highElements_tightest :
    build highElements =
        .ok ⟨[0, 0xffffffffffffffe8, 0xffffffffffffffee], 0xfffffffffffffff0, 8⟩ ∧
      ∀ other, Tightest highElements other ↔
        other = ⟨[0, 0xffffffffffffffe8, 0xffffffffffffffee], 0xfffffffffffffff0, 8⟩ := by
  have result : build highElements =
      .ok ⟨[0, 0xffffffffffffffe8, 0xffffffffffffffee], 0xfffffffffffffff0, 8⟩ := by
    decide +kernel
  obtain ⟨layout, built, _, tightest⟩ :=
    (build_tightest highElements).1 (by decide +kernel) (by decide +kernel)
  obtain rfl : _ = layout := Except.ok.inj (result.symm.trans built)
  exact ⟨result, tightest⟩

end StructLayout

end TypeRecords
