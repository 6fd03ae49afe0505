import TinyWasm.Simd.Lanes

namespace TinyWasm

-- The bounds of the target are constants of the source's type there, compared
-- with `as`.
def saturateSigned (source target : IntTy) (x : source.Num) : target.Num :=
  if source.val x > target.maxVal then target.ofInt target.maxVal
  else if source.val x < target.minVal then target.ofInt target.minVal
  else source.cast target x

def saturateUnsigned (source target : IntTy) (x : source.Num) : target.Num :=
  if source.val x ≤ 0 then target.ofInt 0
  else if source.val x > target.maxVal then target.ofInt target.maxVal
  else source.cast target x

def saturateI16ToI8 : IntTy.i16.Num → IntTy.i8.Num := saturateSigned .i16 .i8
def saturateI16ToU8 : IntTy.i16.Num → IntTy.u8.Num := saturateUnsigned .i16 .u8
def saturateI32ToI16 : IntTy.i32.Num → IntTy.i16.Num := saturateSigned .i32 .i16
def saturateI32ToU16 : IntTy.i32.Num → IntTy.u16.Num := saturateUnsigned .i32 .u16

namespace Value128

-- simd_avgr_u
def simdAvgrU (lane wide : IntTy) (lhs rhs : Value128) : Checked Value128 :=
  fromFn lane fun i => do
    let a ← index (asLanes lane lhs) i
    let b ← index (asLanes lane rhs) i
    let sum ← wide.add (lane.cast wide a) (lane.cast wide b)
    let sum ← wide.add sum (wide.ofInt 1)
    .ok (wide.cast lane (wide.shr sum 1))

def i8x16AvgrU : Value128 → Value128 → Checked Value128 := simdAvgrU .u8 .u16
def i16x8AvgrU : Value128 → Value128 → Checked Value128 := simdAvgrU .u16 .u32

-- The lower half of the lanes is the first operand's.
def narrow (source target : IntTy) (saturate : source.Num → target.Num) (a b : Value128) : Checked Value128 :=
  .ok (fromLanes target ((asLanes source a).map saturate ++ (asLanes source b).map saturate))

def i8x16NarrowI16x8S : Value128 → Value128 → Checked Value128 := narrow .i16 .i8 saturateI16ToI8
def i8x16NarrowI16x8U : Value128 → Value128 → Checked Value128 := narrow .i16 .u8 saturateI16ToU8
def i16x8NarrowI32x4S : Value128 → Value128 → Checked Value128 := narrow .i32 .i16 saturateI32ToI16
def i16x8NarrowI32x4U : Value128 → Value128 → Checked Value128 := narrow .i32 .u16 saturateI32ToU16

def extaddPairwise (source target : IntTy) (v : Value128) : Checked Value128 :=
  fromFn target fun i => do
    let a ← index (asLanes source v) (i * 2)
    let b ← index (asLanes source v) (i * 2 + 1)
    target.add (source.cast target a) (source.cast target b)

def i16x8ExtaddPairwiseI8x16S : Value128 → Checked Value128 := extaddPairwise .i8 .i16
def i16x8ExtaddPairwiseI8x16U : Value128 → Checked Value128 := extaddPairwise .u8 .u16
def i32x4ExtaddPairwiseI16x8S : Value128 → Checked Value128 := extaddPairwise .i16 .i32
def i32x4ExtaddPairwiseI16x8U : Value128 → Checked Value128 := extaddPairwise .u16 .u32

-- simd_extmul
def simdExtmul (source target : IntTy) (offset : Nat) (lhs rhs : Value128) : Checked Value128 :=
  fromFn target fun i => do
    let a ← index (asLanes source lhs) (offset + i)
    let b ← index (asLanes source rhs) (offset + i)
    .ok (target.wrappingMul (source.cast target a) (source.cast target b))

def i16x8ExtmulLowI8x16S : Value128 → Value128 → Checked Value128 := simdExtmul .i8 .i16 0
def i16x8ExtmulLowI8x16U : Value128 → Value128 → Checked Value128 := simdExtmul .u8 .u16 0
def i16x8ExtmulHighI8x16S : Value128 → Value128 → Checked Value128 := simdExtmul .i8 .i16 8
def i16x8ExtmulHighI8x16U : Value128 → Value128 → Checked Value128 := simdExtmul .u8 .u16 8
def i32x4ExtmulLowI16x8S : Value128 → Value128 → Checked Value128 := simdExtmul .i16 .i32 0
def i32x4ExtmulLowI16x8U : Value128 → Value128 → Checked Value128 := simdExtmul .u16 .u32 0
def i32x4ExtmulHighI16x8S : Value128 → Value128 → Checked Value128 := simdExtmul .i16 .i32 4
def i32x4ExtmulHighI16x8U : Value128 → Value128 → Checked Value128 := simdExtmul .u16 .u32 4
def i64x2ExtmulLowI32x4S : Value128 → Value128 → Checked Value128 := simdExtmul .i32 .i64 0
def i64x2ExtmulLowI32x4U : Value128 → Value128 → Checked Value128 := simdExtmul .u32 .u64 0
def i64x2ExtmulHighI32x4S : Value128 → Value128 → Checked Value128 := simdExtmul .i32 .i64 2
def i64x2ExtmulHighI32x4U : Value128 → Value128 → Checked Value128 := simdExtmul .u32 .u64 2

def i16x8Q15mulrSatS (lhs rhs : Value128) : Checked Value128 :=
  fromFn .i16 fun i => do
    let a ← index (asLanes .i16 lhs) i
    let b ← index (asLanes .i16 rhs) i
    let product ← IntTy.i32.mul (IntTy.i16.cast .i32 a) (IntTy.i16.cast .i32 b)
    let rounded ← IntTy.i32.add product (IntTy.i32.ofInt (2 ^ 14))
    .ok (IntTy.i16.ofInt (IntTy.i16.clamp (IntTy.i32.val (IntTy.i32.shr rounded 15))))

def i16x8RelaxedQ15mulrS : Value128 → Value128 → Checked Value128 := i16x8Q15mulrSatS

def i32x4DotI16x8S (lhs rhs : Value128) : Checked Value128 :=
  fromFn .i32 fun i => do
    let a₀ ← index (asLanes .i16 lhs) (i * 2)
    let b₀ ← index (asLanes .i16 rhs) (i * 2)
    let a₁ ← index (asLanes .i16 lhs) (i * 2 + 1)
    let b₁ ← index (asLanes .i16 rhs) (i * 2 + 1)
    .ok (IntTy.i32.wrappingAdd (IntTy.i32.wrappingMul (IntTy.i16.cast .i32 a₀) (IntTy.i16.cast .i32 b₀))
      (IntTy.i32.wrappingMul (IntTy.i16.cast .i32 a₁) (IntTy.i16.cast .i32 b₁)))

-- A lane as a number.
def at_ (t : IntTy) (v : Value128) (i : Nat) : Int := t.val (lane t v i)

theorem at_fits (t : IntTy) (v : Value128) (i : Nat) : t.Fits (at_ t v i) := IntTy.val_fits _

section Exactness
variable {source target lane wide : IntTy} {lhs rhs v : Value128}

-- The rounded mean is never above the larger of the two.
theorem simdAvgrU_exact (unsigned : lane.minVal = 0) (room : wide.minVal = 0 ∧ 2 * lane.maxVal + 1 ≤ wide.maxVal) :
    Exact lane (simdAvgrU lane wide lhs rhs) fun i => (at_ lane lhs i + at_ lane rhs i + 1) / 2 := by
  refine fromFn_exact fun i inside => ?_
  obtain ⟨low,high⟩ := at_fits lane lhs i
  obtain ⟨low',high'⟩ := at_fits lane rhs i
  rw [unsigned] at low low'
  have fits {n : Int} (positive : 0 ≤ n) (small : n ≤ 2 * lane.maxVal + 1) : wide.Fits n := ⟨by omega,by omega⟩
  have a : wide.val (lane.cast wide (Value128.lane lane lhs i)) = at_ lane lhs i :=
    IntTy.val_cast (show wide.Fits (at_ lane lhs i) from fits low (by omega))
  have b : wide.val (lane.cast wide (Value128.lane lane rhs i)) = at_ lane rhs i :=
    IntTy.val_cast (show wide.Fits (at_ lane rhs i) from fits low' (by omega))
  have one : wide.val (wide.ofInt 1) = 1 := IntTy.val_ofInt (fits (by omega) (by omega))
  obtain ⟨sum,added,total⟩ := IntTy.add_ok (x := lane.cast wide (Value128.lane lane lhs i))
    (y := lane.cast wide (Value128.lane lane rhs i)) (by rw [a,b]; exact fits (by omega) (by omega))
  rw [a,b] at total
  obtain ⟨next,added',total'⟩ := IntTy.add_ok (x := sum) (y := wide.ofInt 1) (by rw [total,one]; exact fits (by omega) (by omega))
  rw [total,one] at total'
  have mean : wide.val (wide.shr next 1) = (at_ lane lhs i + at_ lane rhs i + 1) / 2 := by
    rw [IntTy.val_shr,total']
    · rfl
    · rw [total']
      exact fits (by omega) (by omega)
  refine ⟨wide.cast lane (wide.shr next 1),?_,?_⟩
  · simp only [index_asLanes _ inside,ok_bind,added,added']
  · rw [IntTy.val_cast,mean]
    rw [mean]
    exact ⟨by omega,by omega⟩

theorem saturateSigned_val (x : source.Num) : target.val (saturateSigned source target x) = target.clamp (source.val x) := by
  have ordered : target.minVal ≤ target.maxVal := Int.le_trans (IntTy.val_fits (0 : target.Num)).1 (IntTy.val_fits (0 : target.Num)).2
  by_cases above : source.val x > target.maxVal
  · rw [saturateSigned,if_pos above,IntTy.clamp,if_neg (by omega),if_pos above,IntTy.val_ofInt ⟨ordered,Int.le_refl _⟩]
  · rw [saturateSigned,if_neg above]
    by_cases below : source.val x < target.minVal
    · rw [if_pos below,IntTy.clamp,if_pos below,IntTy.val_ofInt ⟨Int.le_refl _,ordered⟩]
    · rw [if_neg below,IntTy.clamp_eq ⟨by omega,by omega⟩,IntTy.val_cast ⟨by omega,by omega⟩]

theorem saturateUnsigned_val (unsigned : target.minVal = 0) (x : source.Num) :
    target.val (saturateUnsigned source target x) = target.clamp (source.val x) := by
  have ordered : target.minVal ≤ target.maxVal := Int.le_trans (IntTy.val_fits (0 : target.Num)).1 (IntTy.val_fits (0 : target.Num)).2
  by_cases below : source.val x ≤ 0
  · have zero : target.clamp (source.val x) = 0 := by
      unfold IntTy.clamp
      split
      · exact unsigned
      · rw [if_neg (by omega)]
        omega
    rw [saturateUnsigned,if_pos below,zero,IntTy.val_ofInt ⟨by omega,by omega⟩]
  · rw [saturateUnsigned,if_neg below]
    by_cases above : source.val x > target.maxVal
    · rw [if_pos above,IntTy.clamp,if_neg (by omega),if_pos above,IntTy.val_ofInt ⟨ordered,Int.le_refl _⟩]
    · rw [if_neg above,IntTy.clamp_eq ⟨by omega,by omega⟩,IntTy.val_cast ⟨by omega,by omega⟩]

-- The low lanes come from the first operand, the high ones from the second.
theorem narrow_exact {saturate : source.Num → target.Num} {a b : Value128} (halved : laneCount target = 2 * laneCount source)
    (clamped : ∀ x, target.val (saturate x) = target.clamp (source.val x)) :
    Exact target (narrow source target saturate a b) fun i =>
      target.clamp (if i < laneCount source then at_ source a i else at_ source b (i - laneCount source)) := by
  refine fromLanes_exact (g := fun i => saturate (if i < laneCount source then Value128.lane source a i
    else Value128.lane source b (i - laneCount source))) (fun i inside => ?_) fun i inside => ?_
  · have size : ((asLanes source a).map saturate).length = laneCount source := by simp [asLanes]
    rw [List.getElem?_append,size]
    by_cases first : i < laneCount source
    · simp only [if_pos first,asLanes,List.map_map,List.getElem?_map,List.getElem?_range first]
      rfl
    · simp only [if_neg first,asLanes,List.map_map,List.getElem?_map,List.getElem?_range (show i - laneCount source < laneCount source by omega)]
      rfl
  · rw [clamped]
    split <;> rfl

theorem extaddPairwise_exact (doubled : laneCount source = 2 * laneCount target)
    (room : ∀ a b, source.Fits a → source.Fits b → target.Fits a ∧ target.Fits (a + b)) :
    Exact target (extaddPairwise source target v) fun i => at_ source v (i * 2) + at_ source v (i * 2 + 1) := by
  refine fromFn_exact fun i inside => ?_
  have first := at_fits source v (i * 2)
  have second := at_fits source v (i * 2 + 1)
  have a : target.val (source.cast target (Value128.lane source v (i * 2))) = at_ source v (i * 2) :=
    IntTy.val_cast (room _ _ first second).1
  have b : target.val (source.cast target (Value128.lane source v (i * 2 + 1))) = at_ source v (i * 2 + 1) :=
    IntTy.val_cast (room _ _ second first).1
  obtain ⟨sum,added,total⟩ := IntTy.add_ok (x := source.cast target (Value128.lane source v (i * 2)))
    (y := source.cast target (Value128.lane source v (i * 2 + 1))) (by rw [a,b]; exact (room _ _ first second).2)
  refine ⟨sum,?_,?_⟩
  · simp only [index_asLanes v (show i * 2 < laneCount source by omega),index_asLanes v (show i * 2 + 1 < laneCount source by omega),
      ok_bind,added]
  · rw [total,a,b]

theorem simdExtmul_exact {offset : Nat} (inside : offset + laneCount target ≤ laneCount source)
    (room : ∀ a b, source.Fits a → source.Fits b → target.Fits a ∧ target.Fits (a * b)) :
    Exact target (simdExtmul source target offset lhs rhs) fun i => at_ source lhs (offset + i) * at_ source rhs (offset + i) := by
  refine fromFn_exact fun i lower => ?_
  have first := at_fits source lhs (offset + i)
  have second := at_fits source rhs (offset + i)
  have a : target.val (source.cast target (Value128.lane source lhs (offset + i))) = at_ source lhs (offset + i) :=
    IntTy.val_cast (room _ _ first second).1
  have b : target.val (source.cast target (Value128.lane source rhs (offset + i))) = at_ source rhs (offset + i) :=
    IntTy.val_cast (room _ _ second first).1
  refine ⟨target.wrappingMul (source.cast target (Value128.lane source lhs (offset + i)))
    (source.cast target (Value128.lane source rhs (offset + i))),?_,?_⟩
  · simp only [index_asLanes _ (show offset + i < laneCount source by omega),ok_bind]
  · rw [IntTy.val_wrappingMul,a,b]
    rw [a,b]
    exact (room _ _ first second).2

theorem i16_room {a b : Int} (left : IntTy.i16.Fits a) (right : IntTy.i16.Fits b) : -1073741824 ≤ a * b ∧ a * b ≤ 1073741824 := by
  simp only [IntTy.fits_i16] at left right
  have bounds := IntTy.mul_bounds (m := 32768) (n := 32768) (show -32768 ≤ a ∧ a ≤ 32768 by omega) (show -32768 ≤ b ∧ b ≤ 32768 by omega)
  omega

theorem i16_widens (v : Value128) (i : Nat) : IntTy.i32.val (IntTy.i16.cast .i32 (Value128.lane .i16 v i)) = at_ .i16 v i := by
  have fits := at_fits .i16 v i
  simp only [IntTy.fits_i16] at fits
  apply IntTy.val_cast
  change IntTy.i32.Fits (at_ .i16 v i)
  simp only [IntTy.fits_i32]
  omega

-- Only the product of two minima rounds past the maximum.
theorem i16x8Q15mulrSatS_exact :
    Exact .i16 (i16x8Q15mulrSatS lhs rhs) fun i => IntTy.i16.clamp ((at_ .i16 lhs i * at_ .i16 rhs i + 16384) / 32768) := by
  refine fromFn_exact fun i inside => ?_
  have bounds := i16_room (at_fits .i16 lhs i) (at_fits .i16 rhs i)
  have half : IntTy.i32.val (IntTy.i32.ofInt (2 ^ 14)) = 16384 := by decide
  obtain ⟨product,multiplied,value⟩ := IntTy.mul_ok (t := .i32) (x := IntTy.i16.cast .i32 (Value128.lane .i16 lhs i))
    (y := IntTy.i16.cast .i32 (Value128.lane .i16 rhs i)) (by
      rw [i16_widens,i16_widens]
      simp only [IntTy.fits_i32]
      omega)
  rw [i16_widens,i16_widens] at value
  obtain ⟨rounded,added,total⟩ := IntTy.add_ok (x := product) (y := IntTy.i32.ofInt (2 ^ 14)) (by
    rw [value,half]
    simp only [IntTy.fits_i32]
    omega)
  rw [value,half] at total
  have shifted : IntTy.i32.val (IntTy.i32.shr rounded 15) = (at_ .i16 lhs i * at_ .i16 rhs i + 16384) / 32768 := by
    rw [IntTy.val_shr,total]
    · rfl
    · rw [total]
      simp only [IntTy.fits_i32]
      omega
  refine ⟨IntTy.i16.ofInt (IntTy.i16.clamp (IntTy.i32.val (IntTy.i32.shr rounded 15))),?_,?_⟩
  · simp only [index_asLanes _ inside,ok_bind,multiplied,added]
  · rw [IntTy.val_ofInt (IntTy.clamp_fits _),shifted]

-- Both products at their largest make 2^31, which wraps.
theorem i32x4DotI16x8S_exact :
    Exact .i32 (i32x4DotI16x8S lhs rhs) fun i =>
      IntTy.i32.wrap (at_ .i16 lhs (i * 2) * at_ .i16 rhs (i * 2) + at_ .i16 lhs (i * 2 + 1) * at_ .i16 rhs (i * 2 + 1)) := by
  refine fromFn_exact fun i inside => ?_
  have half : laneCount .i16 = 2 * laneCount .i32 := rfl
  have product (j : Nat) : IntTy.i32.val (IntTy.i32.wrappingMul (IntTy.i16.cast .i32 (Value128.lane .i16 lhs j))
      (IntTy.i16.cast .i32 (Value128.lane .i16 rhs j))) = at_ .i16 lhs j * at_ .i16 rhs j := by
    have bounds := i16_room (at_fits .i16 lhs j) (at_fits .i16 rhs j)
    rw [IntTy.val_wrappingMul,i16_widens,i16_widens]
    rw [i16_widens,i16_widens]
    simp only [IntTy.fits_i32]
    omega
  refine ⟨IntTy.i32.wrappingAdd (IntTy.i32.wrappingMul (IntTy.i16.cast .i32 (Value128.lane .i16 lhs (i * 2)))
      (IntTy.i16.cast .i32 (Value128.lane .i16 rhs (i * 2)))) (IntTy.i32.wrappingMul
      (IntTy.i16.cast .i32 (Value128.lane .i16 lhs (i * 2 + 1))) (IntTy.i16.cast .i32 (Value128.lane .i16 rhs (i * 2 + 1)))),?_,?_⟩
  · simp only [index_asLanes _ (show i * 2 < laneCount .i16 by omega),index_asLanes _ (show i * 2 + 1 < laneCount .i16 by omega),ok_bind]
  · rw [IntTy.wrappingAdd,product,product,IntTy.wrap]

end Exactness

end Value128

end TinyWasm
