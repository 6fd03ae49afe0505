import TinyWasm.Types
import TinyWasm.LittleEndian

namespace TinyWasm

-- The three lanes an operand or a local can live in.
inductive OperandSize where
  | s32 | s64 | s128
  deriving DecidableEq, Repr

namespace OperandSize

def bytes : OperandSize → Nat
  | s32 => 4
  | s64 => 8
  | s128 => 16

abbrev bits (size : OperandSize) : Nat := 8 * size.bytes

def ofWasmType : WasmType → OperandSize
  | .i32 | .f32 | .refFunc | .refExtern => s32
  | .i64 | .f64 => s64
  | .v128 => s128

def ofArch : MemoryArch → OperandSize
  | .i32 => s32
  | .i64 => s64

end OperandSize

-- u32, u64 and [u8; 16]: signed integers, floats and references are read off
-- the same bits.
abbrev Value (size : OperandSize) := BitVec size.bits

-- The two lanes scalar arithmetic works in.
inductive ScalarSize where
  | s32 | s64
  deriving DecidableEq, Repr

@[reducible] def ScalarSize.size : ScalarSize → OperandSize
  | s32 => .s32
  | s64 => .s64

-- One number for each lane: heights, counts and bases.
abbrev LaneCounts := OperandSize → Nat

abbrev ValueCounts := LaneCounts
abbrev StackBase := LaneCounts

def LaneCounts.of (c32 c64 c128 : Nat) : LaneCounts
  | .s32 => c32
  | .s64 => c64
  | .s128 => c128

def valueCounts (sizes : List OperandSize) : ValueCounts := fun size => sizes.count size

structure ValueRef where
  raw : Value .s32
  deriving DecidableEq, Repr

namespace ValueRef

def null : ValueRef := ⟨BitVec.allOnes _⟩

def fromAddr : Option Addr → ValueRef
  | some addr => ⟨BitVec.ofNat _ addr⟩
  | none => null

def isNull (v : ValueRef) : Bool := v == null

def addr (v : ValueRef) : Option Addr := if v.isNull then none else some v.raw.toNat

end ValueRef

inductive TinyWasmValue where
  | value32 (v : Value .s32)
  | value64 (v : Value .s64)
  | value128 (v : Value .s128)
  | valueRef (v : ValueRef)
  deriving DecidableEq, Repr

-- Floats are their bits, and a reference its raw 32-bit encoding.
inductive WasmValue where
  | i32 (v : Value .s32)
  | i64 (v : Value .s64)
  | f32 (v : Value .s32)
  | f64 (v : Value .s64)
  | refExtern (v : ValueRef)
  | refFunc (v : ValueRef)
  | v128 (v : Value .s128)
  deriving DecidableEq, Repr

namespace WasmValue

def type : WasmValue → WasmType
  | i32 _ => .i32
  | i64 _ => .i64
  | f32 _ => .f32
  | f64 _ => .f64
  | refExtern _ => .refExtern
  | refFunc _ => .refFunc
  | v128 _ => .v128

def toTinyWasm : WasmValue → TinyWasmValue
  | i32 v | f32 v => .value32 v
  | i64 v | f64 v => .value64 v
  | v128 v => .value128 v
  | refExtern v | refFunc v => .valueRef (.fromAddr v.addr)

end WasmValue

theorem ValueRef.addr_null : null.addr = none := by decide

theorem ValueRef.addr_fromAddr {a : Nat} (fits : a < 2 ^ 32 - 1) : (fromAddr (some a)).addr = some a := by
  have small : a % 2 ^ 32 = a := Nat.mod_eq_of_lt (by omega)
  have different : fromAddr (some a) ≠ null := by
    intro same
    have numbers := congrArg (BitVec.toNat ∘ raw) same
    change a % 2 ^ 32 = 2 ^ 32 - 1 at numbers
    omega
  have given : (fromAddr (some a)).isNull = false := beq_eq_false_iff_ne.mpr different
  simp only [addr,given,Bool.false_eq_true,if_false,Option.some.injEq]
  exact small

theorem ValueRef.fromAddr_addr (v : ValueRef) : fromAddr v.addr = v := by
  unfold addr
  split
  · rename_i isNull
    exact (eq_of_beq isNull).symm
  · simp [fromAddr]

end TinyWasm
