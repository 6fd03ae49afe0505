import TinyWasm.Error

-- Integers of a fixed width as the host has them: operators that panic where
-- their result does not fit, and their wrapping forms.
namespace TinyWasm

structure IntTy where
  bits : Nat
  signed : Bool
  wide : 0 < bits

namespace IntTy

def i8 : IntTy := ⟨8,true,by decide⟩
def u8 : IntTy := ⟨8,false,by decide⟩
def i16 : IntTy := ⟨16,true,by decide⟩
def u16 : IntTy := ⟨16,false,by decide⟩
def i32 : IntTy := ⟨32,true,by decide⟩
def u32 : IntTy := ⟨32,false,by decide⟩
def i64 : IntTy := ⟨64,true,by decide⟩
def u64 : IntTy := ⟨64,false,by decide⟩

abbrev Num (t : IntTy) := BitVec t.bits

variable {t s : IntTy}

def val (t : IntTy) (x : t.Num) : Int := if t.signed then x.toInt else x.toNat

def minVal (t : IntTy) : Int := if t.signed then -2 ^ (t.bits - 1) else 0
def maxVal (t : IntTy) : Int := if t.signed then 2 ^ (t.bits - 1) - 1 else 2 ^ t.bits - 1

def Fits (t : IntTy) (n : Int) : Prop := t.minVal ≤ n ∧ n ≤ t.maxVal

instance (n : Int) : Decidable (t.Fits n) := inferInstanceAs (Decidable (_ ∧ _))

-- What wraps around to the width.
def ofInt (t : IntTy) (n : Int) : t.Num := BitVec.ofInt t.bits n

def wrap (t : IntTy) (n : Int) : Int := t.val (t.ofInt n)

def clamp (t : IntTy) (n : Int) : Int := if n < t.minVal then t.minVal else if t.maxVal < n then t.maxVal else n

-- `x as t`
def cast (s t : IntTy) (x : s.Num) : t.Num := t.ofInt (s.val x)

def checked (t : IntTy) (n : Int) : Checked t.Num := if t.Fits n then .ok (t.ofInt n) else .error .panic

def add (t : IntTy) (x y : t.Num) : Checked t.Num := t.checked (t.val x + t.val y)
def mul (t : IntTy) (x y : t.Num) : Checked t.Num := t.checked (t.val x * t.val y)
def wrappingAdd (t : IntTy) (x y : t.Num) : t.Num := t.ofInt (t.val x + t.val y)
def wrappingMul (t : IntTy) (x y : t.Num) : t.Num := t.ofInt (t.val x * t.val y)

-- `x >> k`, arithmetic on a signed type.
def shr (t : IntTy) (x : t.Num) (k : Nat) : t.Num := t.ofInt (t.val x / 2 ^ k)

theorem val_fits (x : t.Num) : t.Fits (t.val x) := by
  unfold Fits minVal maxVal val
  have wide := t.wide
  cases t.signed with
  | true =>
    have low := BitVec.le_toInt x
    have high := BitVec.toInt_lt (x := x)
    simp only [if_true]
    omega
  | false =>
    have high : (x.toNat : Int) < ((2 ^ t.bits : Nat) : Int) := Int.ofNat_lt.mpr x.isLt
    push_cast at high
    simp only [Bool.false_eq_true,if_false]
    omega

theorem wrap_fits {n : Int} (fits : t.Fits n) : t.wrap n = n := by
  unfold wrap ofInt val
  unfold Fits minVal maxVal at fits
  have wide := t.wide
  cases signed : t.signed with
  | true =>
    simp only [signed,if_true] at fits ⊢
    obtain ⟨w,size⟩ : ∃ w, t.bits = w + 1 := ⟨t.bits - 1,by omega⟩
    rw [size] at fits ⊢
    rw [BitVec.toInt_ofInt]
    apply Int.bmod_eq_of_le <;> rw [Nat.pow_succ] <;> push_cast <;> simp only [Nat.add_sub_cancel] at fits <;> omega
  | false =>
    simp only [signed,Bool.false_eq_true,if_false] at fits ⊢
    rw [BitVec.toNat_ofInt]
    have modulus : ((2 ^ t.bits : Nat) : Int) = 2 ^ t.bits := by push_cast; rfl
    rw [modulus,Int.emod_eq_of_lt fits.1 (by omega),Int.toNat_of_nonneg fits.1]

theorem ofInt_val (x : t.Num) : t.ofInt (t.val x) = x := by
  unfold ofInt val
  cases t.signed <;> simp

theorem wrap_val (x : t.Num) : t.wrap (t.val x) = t.val x := wrap_fits (val_fits x)

theorem clamp_fits (n : Int) : t.Fits (t.clamp n) := by
  have ordered : t.minVal ≤ t.maxVal := Int.le_trans (val_fits (0 : t.Num)).1 (val_fits (0 : t.Num)).2
  unfold Fits clamp
  split
  · exact ⟨Int.le_refl _,ordered⟩
  · split
    · exact ⟨ordered,Int.le_refl _⟩
    · omega

theorem clamp_eq {n : Int} (fits : t.Fits n) : t.clamp n = n := by
  unfold Fits at fits
  rw [clamp,if_neg (by omega),if_neg (by omega)]

theorem checked_ok {n : Int} (fits : t.Fits n) : t.checked n = .ok (t.ofInt n) := if_pos fits

theorem val_ofInt {n : Int} (fits : t.Fits n) : t.val (t.ofInt n) = n := wrap_fits fits

-- What each type holds.
@[simp] theorem fits_i8 (n : Int) : i8.Fits n ↔ -128 ≤ n ∧ n ≤ 127 := Iff.rfl
@[simp] theorem fits_u8 (n : Int) : u8.Fits n ↔ 0 ≤ n ∧ n ≤ 255 := Iff.rfl
@[simp] theorem fits_i16 (n : Int) : i16.Fits n ↔ -32768 ≤ n ∧ n ≤ 32767 := Iff.rfl
@[simp] theorem fits_u16 (n : Int) : u16.Fits n ↔ 0 ≤ n ∧ n ≤ 65535 := Iff.rfl
@[simp] theorem fits_i32 (n : Int) : i32.Fits n ↔ -2147483648 ≤ n ∧ n ≤ 2147483647 := Iff.rfl
@[simp] theorem fits_u32 (n : Int) : u32.Fits n ↔ 0 ≤ n ∧ n ≤ 4294967295 := Iff.rfl
@[simp] theorem fits_i64 (n : Int) : i64.Fits n ↔ -9223372036854775808 ≤ n ∧ n ≤ 9223372036854775807 := Iff.rfl
@[simp] theorem fits_u64 (n : Int) : u64.Fits n ↔ 0 ≤ n ∧ n ≤ 18446744073709551615 := Iff.rfl

theorem val_cast {x : s.Num} (fits : t.Fits (s.val x)) : t.val (s.cast t x) = s.val x := val_ofInt fits

theorem add_ok {x y : t.Num} (fits : t.Fits (t.val x + t.val y)) :
    ∃ z, t.add x y = .ok z ∧ t.val z = t.val x + t.val y := ⟨_,checked_ok fits,val_ofInt fits⟩

theorem mul_ok {x y : t.Num} (fits : t.Fits (t.val x * t.val y)) :
    ∃ z, t.mul x y = .ok z ∧ t.val z = t.val x * t.val y := ⟨_,checked_ok fits,val_ofInt fits⟩

theorem val_shr {x : t.Num} {k : Nat} (fits : t.Fits (t.val x / 2 ^ k)) : t.val (t.shr x k) = t.val x / 2 ^ k := val_ofInt fits

theorem val_wrappingMul {x y : t.Num} (fits : t.Fits (t.val x * t.val y)) :
    t.val (t.wrappingMul x y) = t.val x * t.val y := val_ofInt fits

-- Wrapping early is wrapping late.
theorem ofInt_wrap_add (m n : Int) : t.ofInt (t.wrap m + n) = t.ofInt (m + n) := by
  rw [wrap,ofInt,BitVec.ofInt_add]
  change t.ofInt (t.val (t.ofInt m)) + t.ofInt n = t.ofInt (m + n)
  rw [ofInt_val,ofInt,ofInt,ofInt,BitVec.ofInt_add]

theorem wrap_near {m n : Int} (same : t.wrap m = t.wrap n) (near : -2 ^ t.bits < m - n ∧ m - n < 2 ^ t.bits) : m = n := by
  have equal : t.ofInt m = t.ofInt n := by rw [←ofInt_val (t.ofInt m),←ofInt_val (t.ofInt n)]; exact congrArg t.ofInt same
  have congruent := congrArg BitVec.toInt equal
  rw [ofInt,ofInt,BitVec.toInt_ofInt,BitVec.toInt_ofInt] at congruent
  have divides := Int.dvd_of_bmod_eq_zero (Int.bmod_eq_bmod_iff_bmod_sub_eq_zero.mp congruent)
  push_cast at divides
  have none := Int.eq_zero_of_abs_lt_dvd divides (abs_lt.mpr near)
  omega

-- A product of two numbers is bounded by the product of their bounds.
theorem mul_bounds {a b m n : Int} (left : -m ≤ a ∧ a ≤ m) (right : -n ≤ b ∧ b ≤ n) : -(m * n) ≤ a * b ∧ a * b ≤ m * n := by
  rw [←abs_le] at left right ⊢
  rw [abs_mul]
  exact mul_le_mul left right (abs_nonneg b) (le_trans (abs_nonneg a) left)

theorem mul_bounds_unsigned {a b m n : Int} (left : 0 ≤ a ∧ a ≤ m) (right : 0 ≤ b ∧ b ≤ n) : 0 ≤ a * b ∧ a * b ≤ m * n :=
  ⟨mul_nonneg left.1 right.1,mul_le_mul left.2 right.2 right.1 (le_trans left.1 left.2)⟩

end IntTy

end TinyWasm
