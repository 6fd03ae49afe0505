import TinyWasm.ListRange

-- Fixed-width numbers as little-endian byte strings.
namespace LittleEndian
open ListRange

variable {w n k : Nat}

def toBytes (n : Nat) (v : BitVec w) : List UInt8 :=
  (List.range n).map fun i => UInt8.ofBitVec (v.extractLsb' (8 * i) 8)

def ofBytes (w : Nat) : List UInt8 → BitVec w
  | [] => 0
  | b :: rest => b.toBitVec.setWidth w ||| ofBytes w rest <<< 8

-- The bit of a byte string at a position, zero past its end.
def bit (bytes : List UInt8) (i : Nat) : Bool := ((bytes[i / 8]?).getD 0).toBitVec.getLsbD (i % 8)

@[simp] theorem toBytes_length (n : Nat) (v : BitVec w) : (toBytes n v).length = n := by simp [toBytes]

theorem bit_toBytes (n : Nat) (v : BitVec w) (i : Nat) :
    bit (toBytes n v) i = (decide (i < 8 * n) && v.getLsbD i) := by
  have rejoin : 8 * (i / 8) + i % 8 = i := Nat.div_add_mod i 8
  simp only [bit,toBytes,List.getElem?_map]
  by_cases small : i < 8 * n
  · have inside : i / 8 < n := by omega
    have low : i % 8 < 8 := Nat.mod_lt _ (by decide)
    simp [inside,small,low,rejoin]
  · have outside : ¬i / 8 < n := by omega
    simp [outside,small]

theorem bit_ofBytes (bytes : List UInt8) (i : Nat) :
    (ofBytes w bytes).getLsbD i = (decide (i < w) && bit bytes i) := by
  induction bytes generalizing i with
  | nil => simp [ofBytes,bit]
  | cons b rest ih =>
    simp only [ofBytes,BitVec.getLsbD_or,BitVec.getLsbD_setWidth,BitVec.getLsbD_shiftLeft,ih]
    by_cases low : i < 8
    · have first : i / 8 = 0 := Nat.div_eq_of_lt low
      simp [bit,first,low,Nat.mod_eq_of_lt low]
    · have later : i / 8 = (i - 8) / 8 + 1 := by omega
      have digit : (i - 8) % 8 = i % 8 := by omega
      have high : b.toBitVec.getLsbD i = false := BitVec.getLsbD_of_ge _ _ (by omega)
      have below : (decide (i - 8 < w) && decide (i < w)) = decide (i < w) := by
        by_cases fits : i < w
        · simp only [fits,decide_true,Bool.and_true,decide_eq_true_eq]
          omega
        · simp [fits]
      simp only [bit,later,List.getElem?_cons_succ,digit,high,Bool.and_false,Bool.false_or,low,decide_false,
        Bool.not_false,Bool.and_true]
      rw [←Bool.and_assoc,Bool.and_comm (decide (i < w)),below]

theorem ext_bits {xs ys : List UInt8} (same : xs.length = ys.length)
    (bits : ∀ i < 8 * xs.length, bit xs i = bit ys i) : xs = ys := by
  apply List.ext_getElem same
  intro i left right
  apply UInt8.eq_of_toBitVec_eq
  apply BitVec.eq_of_getLsbD_eq
  intro j low
  have agreed := bits (8 * i + j) (by omega)
  have index : (8 * i + j) / 8 = i := by omega
  have digit : (8 * i + j) % 8 = j := by omega
  simpa [bit,index,digit,left,right] using agreed

theorem ofBytes_toBytes (v : BitVec w) (covers : w ≤ 8 * n) : ofBytes w (toBytes n v) = v := by
  apply BitVec.eq_of_getLsbD_eq
  intro i small
  have inside : i < 8 * n := Nat.lt_of_lt_of_le small covers
  rw [bit_ofBytes,bit_toBytes,decide_eq_true small,decide_eq_true inside,Bool.true_and,Bool.true_and]

theorem toBytes_ofBytes {bytes : List UInt8} (sized : bytes.length = n) (fits : 8 * n ≤ w) :
    toBytes n (ofBytes w bytes) = bytes := by
  apply ext_bits (by rw [toBytes_length,sized])
  intro i small
  rw [toBytes_length] at small
  have inside : i < w := by omega
  rw [bit_toBytes,bit_ofBytes,decide_eq_true small,decide_eq_true inside,Bool.true_and,Bool.true_and]

theorem bit_append {xs ys : List UInt8} (i : Nat) :
    bit (xs ++ ys) i = if i < 8 * xs.length then bit xs i else bit ys (i - 8 * xs.length) := by
  simp only [bit]
  split
  · rw [List.getElem?_append_left (by omega)]
  · have index : (i - 8 * xs.length) / 8 = i / 8 - xs.length := by omega
    have digit : (i - 8 * xs.length) % 8 = i % 8 := by omega
    rw [List.getElem?_append_right (by omega),index,digit]

-- The byte that repeats the top bit of a byte string.
def signByte (bytes : List UInt8) : UInt8 := if bit bytes (8 * bytes.length - 1) then 0xff else 0

theorem bit_signByte (bytes : List UInt8) {k i : Nat} (inside : i < 8 * k) :
    bit (List.replicate k (signByte bytes)) i = bit bytes (8 * bytes.length - 1) := by
  have index : i / 8 < k := by omega
  have low : i % 8 < 8 := Nat.mod_lt _ (by decide)
  have repeated : bit (List.replicate k (signByte bytes)) i = (signByte bytes).toBitVec.getLsbD (i % 8) := by
    simp only [bit,List.getElem?_replicate,index,if_true,Option.getD_some]
  rw [repeated,signByte]
  cases top : bit bytes (8 * bytes.length - 1) with
  | true =>
    have all : ∀ j < 8, (0xff : UInt8).toBitVec.getLsbD j = true := by decide
    exact all _ low
  | false => simp

theorem bit_zeros (k i : Nat) : bit (List.replicate k 0) i = false := by
  simp only [bit,List.getElem?_replicate]
  split <;> simp

theorem toBytes_setWidth {bytes : List UInt8} (sized : bytes.length = n) :
    toBytes (n + k) ((ofBytes (8 * n) bytes).setWidth (8 * (n + k))) = bytes ++ List.replicate k 0 := by
  apply ext_bits (by simp [sized])
  intro i small
  rw [toBytes_length] at small
  rw [bit_append,bit_toBytes,BitVec.getLsbD_setWidth,bit_ofBytes,bit_zeros]
  split
  · have low : i < 8 * n := by omega
    simp [small,low]
  · have high : ¬i < 8 * n := by omega
    simp [high]

theorem toBytes_signExtend {bytes : List UInt8} (sized : bytes.length = n) (some_bytes : 0 < n) :
    toBytes (n + k) ((ofBytes (8 * n) bytes).signExtend (8 * (n + k))) =
      bytes ++ List.replicate k (signByte bytes) := by
  subst sized
  apply ext_bits (by simp)
  intro i small
  rw [toBytes_length] at small
  rw [bit_append,bit_toBytes,BitVec.getLsbD_signExtend,BitVec.msb_eq_getLsbD_last,bit_ofBytes,bit_ofBytes]
  split
  · have low : i < 8 * bytes.length := ‹_›
    simp [small,low]
  · have high : ¬i < 8 * bytes.length := ‹_›
    have top : 8 * bytes.length - 1 < 8 * bytes.length := by omega
    rw [bit_signByte bytes (by omega)]
    simp [small,top]

-- A narrower number keeps the low bytes.
theorem toBytes_truncate {v : BitVec w} (narrow : k ≤ n) :
    toBytes k (v.setWidth (8 * k)) = (toBytes n v).take k := by
  apply List.ext_getElem?
  intro i
  by_cases small : i < k
  · have inside : i < n := Nat.lt_of_lt_of_le small narrow
    simp only [toBytes,List.getElem?_map,List.getElem?_take,small,if_true,List.getElem?_range small,
      List.getElem?_range inside,Option.map_some,Option.some.injEq]
    congr 1
    apply BitVec.eq_of_getLsbD_eq
    intro j low
    have below : 8 * i + j < 8 * k := by omega
    simp [low,below]
  · rw [List.getElem?_eq_none (by rw [toBytes_length]; omega),
      List.getElem?_eq_none (by rw [List.length_take,toBytes_length]; omega)]

end LittleEndian
