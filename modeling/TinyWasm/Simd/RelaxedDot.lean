import TinyWasm.Simd.LaneArithmetic

namespace TinyWasm

namespace Value128

def i16x8RelaxedDotI8x16I7x16S (lhs rhs : Value128) : Checked Value128 :=
  fromFn .i16 fun i => do
    let a₀ ← index (asLanes .i8 lhs) (i * 2)
    let b₀ ← index (asLanes .i8 rhs) (i * 2)
    let prod0 ← IntTy.i16.mul (IntTy.i8.cast .i16 a₀) (IntTy.i8.cast .i16 b₀)
    let a₁ ← index (asLanes .i8 lhs) (i * 2 + 1)
    let b₁ ← index (asLanes .i8 rhs) (i * 2 + 1)
    let prod1 ← IntTy.i16.mul (IntTy.i8.cast .i16 a₁) (IntTy.i8.cast .i16 b₁)
    .ok (IntTy.i16.wrappingAdd prod0 prod1)

-- The loop over the products of one lane, into 32 bits at once.
def addProducts (a b : List IntTy.i8.Num) (base : Nat) : List Nat → IntTy.i32.Num → Checked IntTy.i32.Num
  | [],sum => .ok sum
  | j :: rest,sum => do
    let x ← index a (base + j)
    let y ← index b (base + j)
    addProducts a b base rest (IntTy.i32.wrappingAdd sum (IntTy.i32.wrappingMul (IntTy.i8.cast .i32 x) (IntTy.i8.cast .i32 y)))

def i32x4RelaxedDotI8x16I7x16AddS (lhs rhs acc : Value128) : Checked Value128 :=
  fromFn .i32 fun i => do
    let sum ← index (asLanes .i32 acc) i
    addProducts (asLanes .i8 lhs) (asLanes .i8 rhs) (i * 4) (List.range 4) sum

-- What the relaxed instructions leave open: how the second operand's lanes are
-- read, and what becomes of a pair sum that does not fit in sixteen bits.
structure Relaxed where
  signed : Bool
  saturating : Bool

def Relaxed.second (choice : Relaxed) (v : Value128) (i : Nat) : Int := if choice.signed then at_ .i8 v i else at_ .u8 v i

def Relaxed.pair (choice : Relaxed) (a b : Value128) (k : Nat) : Int :=
  at_ .i8 a (k * 2) * choice.second b (k * 2) + at_ .i8 a (k * 2 + 1) * choice.second b (k * 2 + 1)

def Relaxed.narrowed (choice : Relaxed) (n : Int) : Int := if choice.saturating then IntTy.i16.clamp n else IntTy.i16.wrap n

def RelaxedDotAllowed (a b : Value128) (made : Checked Value128) : Prop :=
  ∃ choice : Relaxed, Exact .i16 made fun i => choice.narrowed (choice.pair a b i)

def RelaxedDotAddAllowed (a b c : Value128) (made : Checked Value128) : Prop :=
  ∃ choice : Relaxed, Exact .i32 made fun i => IntTy.i32.wrap
    (choice.narrowed (choice.pair a b (i * 2)) + choice.narrowed (choice.pair a b (i * 2 + 1)) + at_ .i32 c i)

-- The only pair whose sum is too large for sixteen bits, read signed.
def AllMinimal (a b : Value128) (k : Nat) : Prop :=
  (at_ .i8 a (k * 2) = -128 ∧ at_ .i8 b (k * 2) = -128) ∧ at_ .i8 a (k * 2 + 1) = -128 ∧ at_ .i8 b (k * 2 + 1) = -128

instance (a b : Value128) (k : Nat) : Decidable (AllMinimal a b k) := inferInstanceAs (Decidable (_ ∧ _))

def signedPair (a b : Value128) (k : Nat) : Int := (Relaxed.mk true false).pair a b k

theorem i8_product {x y : Int} (left : IntTy.i8.Fits x) (right : IntTy.i8.Fits y) :
    -16384 ≤ x * y ∧ x * y ≤ 16384 ∧ (x * y = 16384 ↔ x = -128 ∧ y = -128) := by
  simp only [IntTy.fits_i8] at left right
  have bounds := IntTy.mul_bounds (m := 128) (n := 128) (show -128 ≤ x ∧ x ≤ 128 by omega) (show -128 ≤ y ∧ y ≤ 128 by omega)
  refine ⟨by omega,by omega,fun full => ?_,fun both => by rw [both.1,both.2]; rfl⟩
  by_cases first : x = -128
  · rw [first] at full
    exact ⟨first,by omega⟩
  · have less := IntTy.mul_bounds (m := 127) (n := 128) (show -127 ≤ x ∧ x ≤ 127 by omega) (show -128 ≤ y ∧ y ≤ 128 by omega)
    omega

theorem signedPair_bounds (a b : Value128) (k : Nat) :
    -32768 ≤ signedPair a b k ∧ signedPair a b k ≤ 32768 ∧ (signedPair a b k = 32768 ↔ AllMinimal a b k) := by
  obtain ⟨low,high,full⟩ := i8_product (at_fits .i8 a (k * 2)) (at_fits .i8 b (k * 2))
  obtain ⟨low',high',full'⟩ := i8_product (at_fits .i8 a (k * 2 + 1)) (at_fits .i8 b (k * 2 + 1))
  have sum : signedPair a b k = at_ .i8 a (k * 2) * at_ .i8 b (k * 2) + at_ .i8 a (k * 2 + 1) * at_ .i8 b (k * 2 + 1) := rfl
  rw [AllMinimal,←full,←full']
  omega

-- Sixteen bits hold every other signed pair.
theorem narrowed_fits {choice : Relaxed} {n : Int} (fits : IntTy.i16.Fits n) : choice.narrowed n = n := by
  unfold Relaxed.narrowed
  split
  · exact IntTy.clamp_eq fits
  · exact IntTy.wrap_fits fits

theorem narrowed_bounds (choice : Relaxed) (n : Int) : -32768 ≤ choice.narrowed n ∧ choice.narrowed n ≤ 32767 := by
  unfold Relaxed.narrowed
  split
  · exact IntTy.clamp_fits n
  · exact IntTy.val_fits (IntTy.i16.ofInt n)

-- Read unsigned, the same four lanes make -2^15.
theorem pair_unsigned {a b : Value128} {k : Nat} (minimal : AllMinimal a b k) (saturating : Bool) :
    (Relaxed.mk false saturating).pair a b k = -32768 := by
  obtain ⟨⟨first,second⟩,first',second'⟩ := minimal
  have read (i : Nat) (least : at_ .i8 b i = -128) : at_ .u8 b i = 128 := by
    have bits : lane .i8 b i = BitVec.ofInt 8 (-128) := by
      rw [←IntTy.ofInt_val (lane .i8 b i)]
      exact congrArg (IntTy.ofInt .i8) least
    change IntTy.u8.val (lane .i8 b i) = 128
    rw [bits]
    rfl
  simp only [Relaxed.pair,Relaxed.second,Bool.false_eq_true,if_false,first,first',read _ second,read _ second']
  rfl

theorem narrowed_signed {choice : Relaxed} {a b : Value128} {k : Nat} (signed : choice.signed = true) (spread : ¬AllMinimal a b k) :
    choice.narrowed (choice.pair a b k) = signedPair a b k := by
  obtain ⟨low,high,full⟩ := signedPair_bounds a b k
  have same : choice.pair a b k = signedPair a b k := by
    simp only [Relaxed.pair,Relaxed.second,signedPair,signed]
  rw [same]
  apply narrowed_fits
  simp only [IntTy.fits_i16]
  have below : signedPair a b k ≠ 32768 := fun largest => spread (full.mp largest)
  omega

-- The larger the pair sum, the more narrowing takes from it.
theorem narrowed_le {choice : Relaxed} {a b : Value128} (k : Nat) (signed : choice.signed = true) :
    choice.narrowed (choice.pair a b k) ≤ signedPair a b k := by
  by_cases minimal : AllMinimal a b k
  · rw [(signedPair_bounds a b k).2.2.mpr minimal]
    have bounds := narrowed_bounds choice (choice.pair a b k)
    omega
  · exact Int.le_of_eq (narrowed_signed signed minimal)

-- No reading of a pair of minima agrees with the exact signed sum, whatever the
-- other pair of the lane is.
theorem minimal_differs (choice : Relaxed) {a b : Value128} {k : Nat} (other : Nat) (minimal : AllMinimal a b k) :
    choice.narrowed (choice.pair a b k) + choice.narrowed (choice.pair a b other) ≠ signedPair a b k + signedPair a b other := by
  have full := (signedPair_bounds a b k).2.2.mpr minimal
  have low := (signedPair_bounds a b other).1
  have high := narrowed_bounds choice (choice.pair a b k)
  have high' := narrowed_bounds choice (choice.pair a b other)
  obtain ⟨signed,saturating⟩ := choice
  cases signed with
  | true =>
    have less : Relaxed.narrowed ⟨true,saturating⟩ (Relaxed.pair ⟨true,saturating⟩ a b other) ≤ signedPair a b other :=
      narrowed_le other rfl
    omega
  | false =>
    have fits : IntTy.i16.Fits (-32768) := by decide
    rw [pair_unsigned minimal,narrowed_fits fits]
    omega

theorem i8_widens (v : Value128) (i : Nat) : IntTy.i16.val (IntTy.i8.cast .i16 (lane .i8 v i)) = at_ .i8 v i ∧
    IntTy.i32.val (IntTy.i8.cast .i32 (lane .i8 v i)) = at_ .i8 v i := by
  have fits := at_fits .i8 v i
  simp only [IntTy.fits_i8] at fits
  refine ⟨IntTy.val_cast ?_,IntTy.val_cast ?_⟩
  · change IntTy.i16.Fits (at_ .i8 v i)
    simp only [IntTy.fits_i16]
    omega
  · change IntTy.i32.Fits (at_ .i8 v i)
    simp only [IntTy.fits_i32]
    omega

section Code
variable {a b c : Value128}

-- The products fit; only their sum wraps, as in the first reading.
theorem relaxedDot_allowed : RelaxedDotAllowed a b (i16x8RelaxedDotI8x16I7x16S a b) := by
  refine ⟨⟨true,false⟩,fromFn_exact fun i inside => ?_⟩
  have half : laneCount .i8 = 2 * laneCount .i16 := rfl
  have product (j : Nat) : ∃ z, IntTy.i16.mul (IntTy.i8.cast .i16 (lane .i8 a j)) (IntTy.i8.cast .i16 (lane .i8 b j)) = .ok z ∧
      IntTy.i16.val z = at_ .i8 a j * at_ .i8 b j := by
    have bounds := i8_product (at_fits .i8 a j) (at_fits .i8 b j)
    rw [←(i8_widens a j).1,←(i8_widens b j).1] at bounds ⊢
    apply IntTy.mul_ok
    simp only [IntTy.fits_i16]
    omega
  obtain ⟨prod0,made0,value0⟩ := product (i * 2)
  obtain ⟨prod1,made1,value1⟩ := product (i * 2 + 1)
  refine ⟨IntTy.i16.wrappingAdd prod0 prod1,?_,?_⟩
  · simp only [index_asLanes _ (show i * 2 < laneCount .i8 by omega),index_asLanes _ (show i * 2 + 1 < laneCount .i8 by omega),
      ok_bind,made0,made1]
  · change IntTy.i16.wrap (IntTy.i16.val prod0 + IntTy.i16.val prod1) = _
    rw [value0,value1]
    rfl

-- The loop wraps at every step what the sum of all wraps once.
theorem addProducts_exact {base : Nat} {is : List Nat} (inside : ∀ j ∈ is, base + j < laneCount .i8) (sum : IntTy.i32.Num) :
    ∃ z, addProducts (asLanes .i8 a) (asLanes .i8 b) base is sum = .ok z ∧
      IntTy.i32.val z = IntTy.i32.wrap (IntTy.i32.val sum + (is.map fun j => at_ .i8 a (base + j) * at_ .i8 b (base + j)).sum) := by
  induction is generalizing sum with
  | nil => exact ⟨sum,rfl,by simp only [List.map_nil,List.sum_nil,Int.add_zero,IntTy.wrap_val]⟩
  | cons j rest ih =>
    have first := inside j List.mem_cons_self
    have bounds := i8_product (at_fits .i8 a (base + j)) (at_fits .i8 b (base + j))
    have product : IntTy.i32.val (IntTy.i32.wrappingMul (IntTy.i8.cast .i32 (lane .i8 a (base + j)))
        (IntTy.i8.cast .i32 (lane .i8 b (base + j)))) = at_ .i8 a (base + j) * at_ .i8 b (base + j) := by
      rw [IntTy.val_wrappingMul,(i8_widens a _).2,(i8_widens b _).2]
      rw [(i8_widens a _).2,(i8_widens b _).2]
      simp only [IntTy.fits_i32]
      omega
    obtain ⟨z,made,value⟩ := ih (fun i later => inside i (List.mem_cons_of_mem _ later)) (IntTy.i32.wrappingAdd sum
      (IntTy.i32.wrappingMul (IntTy.i8.cast .i32 (lane .i8 a (base + j))) (IntTy.i8.cast .i32 (lane .i8 b (base + j)))))
    refine ⟨z,?_,?_⟩
    · simp only [addProducts,index_asLanes _ first,ok_bind,made]
    · rw [value,IntTy.wrappingAdd,product,List.map_cons,List.sum_cons,←Int.add_assoc]
      exact congrArg IntTy.i32.val (IntTy.ofInt_wrap_add _ _)

theorem relaxedDotAdd_exact : Exact .i32 (i32x4RelaxedDotI8x16I7x16AddS a b c) fun i =>
    IntTy.i32.wrap (signedPair a b (i * 2) + signedPair a b (i * 2 + 1) + at_ .i32 c i) := by
  refine fromFn_exact fun i inside => ?_
  have quarter : laneCount .i8 = 4 * laneCount .i32 := rfl
  have within (j : Nat) (member : j ∈ List.range 4) : i * 4 + j < laneCount .i8 := by
    rw [List.mem_range] at member
    omega
  obtain ⟨z,made,value⟩ : ∃ z, addProducts (asLanes .i8 a) (asLanes .i8 b) (i * 4) (List.range 4) (lane .i32 c i) = .ok z ∧ _ :=
    addProducts_exact within (lane .i32 c i)
  refine ⟨z,?_,?_⟩
  · simp only [index_asLanes _ inside,ok_bind,made]
  · rw [value]
    congr 1
    have pairs : i * 2 * 2 = i * 4 ∧ (i * 2 + 1) * 2 = i * 4 + 2 ∧ i * 4 + 2 + 1 = i * 4 + 3 := by omega
    simp only [signedPair,Relaxed.pair,Relaxed.second,if_true,pairs,List.range_succ,List.range_zero,List.nil_append,
      List.cons_append,List.map_cons,List.map_nil,List.sum_cons,List.sum_nil,at_,Nat.add_zero,Int.add_zero]
    omega

-- Equal after wrapping, the two sums are equal: both are small, and the
-- accumulator is the same.
theorem lane_agrees {choice : Relaxed} {i : Nat}
    (same : IntTy.i32.wrap (signedPair a b (i * 2) + signedPair a b (i * 2 + 1) + at_ .i32 c i) = IntTy.i32.wrap
      (choice.narrowed (choice.pair a b (i * 2)) + choice.narrowed (choice.pair a b (i * 2 + 1)) + at_ .i32 c i)) :
    choice.narrowed (choice.pair a b (i * 2)) + choice.narrowed (choice.pair a b (i * 2 + 1)) =
      signedPair a b (i * 2) + signedPair a b (i * 2 + 1) := by
  have first := signedPair_bounds a b (i * 2)
  have second := signedPair_bounds a b (i * 2 + 1)
  have third := narrowed_bounds choice (choice.pair a b (i * 2))
  have fourth := narrowed_bounds choice (choice.pair a b (i * 2 + 1))
  have size : (2 : Int) ^ IntTy.i32.bits = 4294967296 := by decide
  have equal := IntTy.wrap_near same (by rw [size]; omega)
  omega

theorem relaxedDotAdd_allowed_iff :
    RelaxedDotAddAllowed a b c (i32x4RelaxedDotI8x16I7x16AddS a b c) ↔ ∀ k < 8, ¬AllMinimal a b k := by
  obtain ⟨r,made,exact⟩ := relaxedDotAdd_exact (a := a) (b := b) (c := c)
  constructor
  · rintro ⟨choice,r',made',allowed⟩ k inside minimal
    obtain rfl : r = r' := Except.ok.inj (made.symm.trans made')
    have lane : k / 2 < laneCount .i32 := by
      change k / 2 < 4
      omega
    have sum := lane_agrees ((exact _ lane).symm.trans (allowed _ lane))
    rcases Nat.mod_two_eq_zero_or_one k with even | odd
    · rw [show k / 2 * 2 = k by omega] at sum
      exact minimal_differs choice (k + 1) minimal sum
    · rw [show k / 2 * 2 + 1 = k by omega] at sum
      rw [Int.add_comm,Int.add_comm (signedPair a b _)] at sum
      exact minimal_differs choice _ minimal sum
  · intro spread
    refine ⟨⟨true,false⟩,r,made,fun i inside => ?_⟩
    have lanes : i < 4 := inside
    let choice : Relaxed := ⟨true,false⟩
    have signed (k : Nat) (spread : ¬AllMinimal a b k) : choice.narrowed (choice.pair a b k) = signedPair a b k :=
      narrowed_signed rfl spread
    have first := signed (i * 2) (spread (i * 2) (by omega))
    have second := signed (i * 2 + 1) (spread (i * 2 + 1) (by omega))
    rw [exact i inside]
    dsimp only
    rw [first,second]

end Code

-- What the instructions of one kind compute, for two operands and an
-- accumulator: every lane is there and holds the specified number.
structure LanesExact (a b c : Value128) : Prop where
  avgr8 : Exact .u8 (i8x16AvgrU a b) fun i => (at_ .u8 a i + at_ .u8 b i + 1) / 2
  avgr16 : Exact .u16 (i16x8AvgrU a b) fun i => (at_ .u16 a i + at_ .u16 b i + 1) / 2
  narrow8s : Exact .i8 (i8x16NarrowI16x8S a b) fun i => IntTy.i8.clamp (if i < 8 then at_ .i16 a i else at_ .i16 b (i - 8))
  narrow8u : Exact .u8 (i8x16NarrowI16x8U a b) fun i => IntTy.u8.clamp (if i < 8 then at_ .i16 a i else at_ .i16 b (i - 8))
  narrow16s : Exact .i16 (i16x8NarrowI32x4S a b) fun i => IntTy.i16.clamp (if i < 4 then at_ .i32 a i else at_ .i32 b (i - 4))
  narrow16u : Exact .u16 (i16x8NarrowI32x4U a b) fun i => IntTy.u16.clamp (if i < 4 then at_ .i32 a i else at_ .i32 b (i - 4))
  q15 : Exact .i16 (i16x8Q15mulrSatS a b) fun i => IntTy.i16.clamp ((at_ .i16 a i * at_ .i16 b i + 16384) / 32768)
  relaxedQ15 : Exact .i16 (i16x8RelaxedQ15mulrS a b) fun i => IntTy.i16.clamp ((at_ .i16 a i * at_ .i16 b i + 16384) / 32768)
  extadd8s : Exact .i16 (i16x8ExtaddPairwiseI8x16S a) fun i => at_ .i8 a (i * 2) + at_ .i8 a (i * 2 + 1)
  extadd8u : Exact .u16 (i16x8ExtaddPairwiseI8x16U a) fun i => at_ .u8 a (i * 2) + at_ .u8 a (i * 2 + 1)
  extadd16s : Exact .i32 (i32x4ExtaddPairwiseI16x8S a) fun i => at_ .i16 a (i * 2) + at_ .i16 a (i * 2 + 1)
  extadd16u : Exact .u32 (i32x4ExtaddPairwiseI16x8U a) fun i => at_ .u16 a (i * 2) + at_ .u16 a (i * 2 + 1)
  extmulLow8s : Exact .i16 (i16x8ExtmulLowI8x16S a b) fun i => at_ .i8 a (0 + i) * at_ .i8 b (0 + i)
  extmulLow8u : Exact .u16 (i16x8ExtmulLowI8x16U a b) fun i => at_ .u8 a (0 + i) * at_ .u8 b (0 + i)
  extmulHigh8s : Exact .i16 (i16x8ExtmulHighI8x16S a b) fun i => at_ .i8 a (8 + i) * at_ .i8 b (8 + i)
  extmulHigh8u : Exact .u16 (i16x8ExtmulHighI8x16U a b) fun i => at_ .u8 a (8 + i) * at_ .u8 b (8 + i)
  extmulLow16s : Exact .i32 (i32x4ExtmulLowI16x8S a b) fun i => at_ .i16 a (0 + i) * at_ .i16 b (0 + i)
  extmulLow16u : Exact .u32 (i32x4ExtmulLowI16x8U a b) fun i => at_ .u16 a (0 + i) * at_ .u16 b (0 + i)
  extmulHigh16s : Exact .i32 (i32x4ExtmulHighI16x8S a b) fun i => at_ .i16 a (4 + i) * at_ .i16 b (4 + i)
  extmulHigh16u : Exact .u32 (i32x4ExtmulHighI16x8U a b) fun i => at_ .u16 a (4 + i) * at_ .u16 b (4 + i)
  extmulLow32s : Exact .i64 (i64x2ExtmulLowI32x4S a b) fun i => at_ .i32 a (0 + i) * at_ .i32 b (0 + i)
  extmulLow32u : Exact .u64 (i64x2ExtmulLowI32x4U a b) fun i => at_ .u32 a (0 + i) * at_ .u32 b (0 + i)
  extmulHigh32s : Exact .i64 (i64x2ExtmulHighI32x4S a b) fun i => at_ .i32 a (2 + i) * at_ .i32 b (2 + i)
  extmulHigh32u : Exact .u64 (i64x2ExtmulHighI32x4U a b) fun i => at_ .u32 a (2 + i) * at_ .u32 b (2 + i)
  dot : Exact .i32 (i32x4DotI16x8S a b) fun i =>
    IntTy.i32.wrap (at_ .i16 a (i * 2) * at_ .i16 b (i * 2) + at_ .i16 a (i * 2 + 1) * at_ .i16 b (i * 2 + 1))
  relaxedDot : RelaxedDotAllowed a b (i16x8RelaxedDotI8x16I7x16S a b)
  relaxedDotAdd : RelaxedDotAddAllowed a b c (i32x4RelaxedDotI8x16I7x16AddS a b c)

-- A signed type has room for the products of one of half its width.
theorem signed_products {s t : IntTy} {m : Int} (source : s.minVal = -m ∧ s.maxVal = m - 1)
    (target : t.minVal ≤ -(m * m) ∧ m * m ≤ t.maxVal) (a b : Int) (left : s.Fits a) (right : s.Fits b) :
    t.Fits a ∧ t.Fits (a * b) := by
  unfold IntTy.Fits at *
  have positive : 0 < m := by omega
  have square : m ≤ m * m := by nlinarith
  have bounds := IntTy.mul_bounds (m := m) (n := m) (show -m ≤ a ∧ a ≤ m by omega) (show -m ≤ b ∧ b ≤ m by omega)
  omega

theorem unsigned_products {s t : IntTy} (source : s.minVal = 0) (target : t.minVal = 0 ∧ s.maxVal * s.maxVal ≤ t.maxVal)
    (a b : Int) (left : s.Fits a) (right : s.Fits b) : t.Fits a ∧ t.Fits (a * b) := by
  unfold IntTy.Fits at *
  have square : s.maxVal ≤ s.maxVal * s.maxVal := by nlinarith
  have bounds := IntTy.mul_bounds_unsigned (m := s.maxVal) (n := s.maxVal) (show 0 ≤ a ∧ a ≤ s.maxVal by omega)
    (show 0 ≤ b ∧ b ≤ s.maxVal by omega)
  omega

theorem lanes_exact_iff (a b c : Value128) : LanesExact a b c ↔ ∀ k < 8, ¬AllMinimal a b k := by
  refine ⟨fun exact => relaxedDotAdd_allowed_iff.mp exact.relaxedDotAdd,fun spread => ?_⟩
  have sums {s t : IntTy} (low : t.minVal ≤ s.minVal ∧ t.minVal ≤ s.minVal + s.minVal)
      (high : s.maxVal ≤ t.maxVal ∧ s.maxVal + s.maxVal ≤ t.maxVal) (x y : Int) (left : s.Fits x) (right : s.Fits y) :
      t.Fits x ∧ t.Fits (x + y) := by
    unfold IntTy.Fits at *
    omega
  exact {
    avgr8 := simdAvgrU_exact (by decide) (by decide)
    avgr16 := simdAvgrU_exact (by decide) (by decide)
    narrow8s := narrow_exact rfl saturateSigned_val
    narrow8u := narrow_exact rfl (saturateUnsigned_val (by decide))
    narrow16s := narrow_exact rfl saturateSigned_val
    narrow16u := narrow_exact rfl (saturateUnsigned_val (by decide))
    q15 := i16x8Q15mulrSatS_exact
    relaxedQ15 := i16x8Q15mulrSatS_exact
    extadd8s := extaddPairwise_exact rfl (sums (by decide) (by decide))
    extadd8u := extaddPairwise_exact rfl (sums (by decide) (by decide))
    extadd16s := extaddPairwise_exact rfl (sums (by decide) (by decide))
    extadd16u := extaddPairwise_exact rfl (sums (by decide) (by decide))
    extmulLow8s := simdExtmul_exact (by decide) (signed_products (m := 128) (by decide) (by decide))
    extmulLow8u := simdExtmul_exact (by decide) (unsigned_products (by decide) (by decide))
    extmulHigh8s := simdExtmul_exact (by decide) (signed_products (m := 128) (by decide) (by decide))
    extmulHigh8u := simdExtmul_exact (by decide) (unsigned_products (by decide) (by decide))
    extmulLow16s := simdExtmul_exact (by decide) (signed_products (m := 32768) (by decide) (by decide))
    extmulLow16u := simdExtmul_exact (by decide) (unsigned_products (by decide) (by decide))
    extmulHigh16s := simdExtmul_exact (by decide) (signed_products (m := 32768) (by decide) (by decide))
    extmulHigh16u := simdExtmul_exact (by decide) (unsigned_products (by decide) (by decide))
    extmulLow32s := simdExtmul_exact (by decide) (signed_products (m := 2147483648) (by decide) (by decide))
    extmulLow32u := simdExtmul_exact (by decide) (unsigned_products (by decide) (by decide))
    extmulHigh32s := simdExtmul_exact (by decide) (signed_products (m := 2147483648) (by decide) (by decide))
    extmulHigh32u := simdExtmul_exact (by decide) (unsigned_products (by decide) (by decide))
    dot := i32x4DotI16x8S_exact
    relaxedDot := relaxedDot_allowed
    relaxedDotAdd := relaxedDotAdd_allowed_iff.mpr spread }

-- Every lane of both operands at -2^7.
theorem lanes_differ_minimal : ¬LanesExact (fromLanes .i8 (List.replicate 16 (IntTy.i8.ofInt (-128))))
    (fromLanes .i8 (List.replicate 16 (IntTy.i8.ofInt (-128)))) 0 := by
  intro exact
  have spread := relaxedDotAdd_allowed_iff.mp exact.relaxedDotAdd
  exact spread 0 (by decide) (by decide)

end Value128

end TinyWasm
