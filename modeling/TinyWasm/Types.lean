import Mathlib

namespace TinyWasm

abbrev Byte := UInt8

-- `Addr` and its aliases are u32 indices, `LocalAddr` a u16 index, and an
-- instruction position a u32: all are list indices here.
abbrev Addr := Nat
abbrev FuncAddr := Addr
abbrev TableAddr := Addr
abbrev MemAddr := Addr
abbrev GlobalAddr := Addr
abbrev ElemAddr := Addr
abbrev DataAddr := Addr
abbrev TypeAddr := Addr
abbrev ConstIdx := Addr
abbrev LocalAddr := Nat
abbrev ModuleInstanceAddr := Addr

inductive WasmType where
  | i32 | i64 | f32 | f64 | v128 | refFunc | refExtern
  deriving DecidableEq, Repr

structure FuncType where
  params : List WasmType
  results : List WasmType
  deriving DecidableEq, Repr

inductive MemoryArch where
  | i32 | i64
  deriving DecidableEq, Repr

structure MemoryType where
  arch : MemoryArch
  pageCountInitial : Nat
  pageCountMax : Option Nat
  pageSize : Option Nat
  deriving DecidableEq, Repr

structure TableType where
  arch : MemoryArch
  elementType : WasmType
  sizeInitial : Nat
  sizeMax : Option Nat
  deriving DecidableEq, Repr

end TinyWasm
