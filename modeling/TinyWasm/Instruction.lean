import TinyWasm.Numeric
import TinyWasm.Memory.LinearMemory

namespace TinyWasm

structure MemoryArg where
  offset : Nat
  memAddr : MemAddr
  deriving DecidableEq, Repr

structure DropKeep where
  base : ValueCounts
  keep : ValueCounts

inductive LoadOp where
  | i32Load | i64Load | f32Load | f64Load
  | i32Load8S | i32Load8U | i32Load16S | i32Load16U
  | i64Load8S | i64Load8U | i64Load16S | i64Load16U | i64Load32S | i64Load32U
  | v128Load | v128Load8x8S | v128Load8x8U | v128Load16x4S | v128Load16x4U | v128Load32x2S | v128Load32x2U
  | v128Load8Splat | v128Load16Splat | v128Load32Splat | v128Load64Splat | v128Load32Zero | v128Load64Zero
  deriving DecidableEq, Repr

inductive StoreOp where
  | i32Store | i64Store | f32Store | f64Store
  | i32Store8 | i32Store16 | i64Store8 | i64Store16 | i64Store32 | v128Store
  deriving DecidableEq, Repr

-- The lane widths of v128.loadN_lane and v128.storeN_lane.
inductive LaneWidth where
  | w8 | w16 | w32 | w64
  deriving DecidableEq, Repr

-- The loads a fused form takes: LoadLocal8S32 is `.i32Load8S` and so on.
inductive LocalLoadOp where
  | load32 | load8S32 | load8U32 | load16S32 | load16U32
  deriving DecidableEq, Repr

-- A size parameter stands for the 32, 64 and 128 suffix of the source's name:
-- `LocalGet64` is `localGet .s64`, `Return128` is `returnOne .s128`.
inductive Instruction where
  | localCopy (size : OperandSize) (src dst : LocalAddr)
  | addConst (width : ScalarSize) (c : Value width.size)
  | incLocal (width : ScalarSize) (index : LocalAddr) (delta : Value width.size)
  | binOpLocalLocal (width : ScalarSize) (op : BinOp) (a b : LocalAddr)
  | binOpLocalLocal128 (op : BinOp128) (a b : LocalAddr)
  | binOpLocalLocalSet (width : ScalarSize) (op : BinOp) (a b dst : LocalAddr)
  | binOpLocalLocalSet128 (op : BinOp128) (a b dst : LocalAddr)
  | binOpLocalLocalTee (width : ScalarSize) (op : BinOp) (a b dst : LocalAddr)
  | binOpLocalLocalTee128 (op : BinOp128) (a b dst : LocalAddr)
  | binOpLocalConst (width : ScalarSize) (op : BinOp) (a : LocalAddr) (c : Value width.size)
  | binOpLocalConst128 (op : BinOp128) (a : LocalAddr) (c : ConstIdx)
  | binOpLocalConstSet (width : ScalarSize) (op : BinOp) (a : LocalAddr) (c : Value width.size) (dst : LocalAddr)
  | binOpLocalConstSet128 (op : BinOp128) (a : LocalAddr) (c : ConstIdx) (dst : LocalAddr)
  | binOpLocalConstTee (width : ScalarSize) (op : BinOp) (a : LocalAddr) (c : Value width.size) (dst : LocalAddr)
  | binOpLocalConstTee128 (op : BinOp128) (a : LocalAddr) (c : ConstIdx) (dst : LocalAddr)
  | binOpStackGlobal (width : ScalarSize) (op : BinOp) (global : GlobalAddr)
  | setLocalConst (width : ScalarSize) (index : LocalAddr) (c : Value width.size)
  | setLocalConst128 (index : LocalAddr) (c : ConstIdx)
  | incMemoryLocal (width : ScalarSize) (arg : MemoryArg) (addrLocal : LocalAddr)
  | storeLocalLocal (size : OperandSize) (arg : MemoryArg) (addrLocal valueLocal : LocalAddr)
  | loadLocal32 (op : LocalLoadOp) (arg : MemoryArg) (addrLocal : LocalAddr)
  | loadLocal64 (arg : MemoryArg) (addrLocal : LocalAddr)
  | loadLocalTee32 (op : LocalLoadOp) (arg : MemoryArg) (addrLocal dstLocal : LocalAddr)
  | loadLocalSet32 (op : LocalLoadOp) (arg : MemoryArg) (addrLocal dstLocal : LocalAddr)
  | loadLocalTee128 (arg : MemoryArg) (addrLocal dstLocal : LocalAddr)
  | loadLocalSet128 (arg : MemoryArg) (addrLocal dstLocal : LocalAddr)
  | andConstTee (width : ScalarSize) (c : Value width.size) (index : LocalAddr)
  | subConstTee (width : ScalarSize) (c : Value width.size) (index : LocalAddr)
  | mulAccLocal (width : ScalarSize) (acc : LocalAddr)
  | fMulAccLocal (width : ScalarSize) (acc : LocalAddr)
  | fMaStore (width : ScalarSize) (arg : MemoryArg)
  | unreachable
  | jump (targetIp : Nat)
  | jumpIfZero (width : ScalarSize) (targetIp : Nat)
  | jumpIfNonZero (width : ScalarSize) (targetIp : Nat)
  | jumpIfLocalZero (width : ScalarSize) (targetIp : Nat) (index : LocalAddr)
  | jumpIfLocalNonZero (width : ScalarSize) (targetIp : Nat) (index : LocalAddr)
  | jumpCmpStackConst (width : ScalarSize) (targetIp : Nat) (imm : Value width.size) (op : CmpOp)
  | jumpCmpLocalConst (width : ScalarSize) (targetIp : Nat) (index : LocalAddr) (imm : Value .s32) (op : CmpOp)
  | jumpCmpLocalLocal (width : ScalarSize) (targetIp : Nat) (left right : LocalAddr) (op : CmpOp)
  | dropKeep (dropKeep : DropKeep)
  | branchTable (defaultIp start len : Nat)
  | return_
  | returnVoid
  | returnOne (size : OperandSize)
  | call (func : FuncAddr)
  | callSelf
  | callIndirect (type : TypeAddr) (table : TableAddr)
  | returnCall (func : FuncAddr)
  | returnCallSelf
  | returnCallIndirect (type : TypeAddr) (table : TableAddr)
  | drop (size : OperandSize)
  | select (size : OperandSize)
  | selectMulti (counts : ValueCounts)
  | globalGet (global : GlobalAddr)
  | localGet (size : OperandSize) (index : LocalAddr)
  | localSet (size : OperandSize) (index : LocalAddr)
  | localTee (size : OperandSize) (index : LocalAddr)
  | globalSet (size : OperandSize) (global : GlobalAddr)
  | load (op : LoadOp) (arg : MemoryArg)
  | store (op : StoreOp) (arg : MemoryArg)
  | loadLane (width : LaneWidth) (arg : MemoryArg) (lane : Nat)
  | storeLane (width : LaneWidth) (arg : MemoryArg) (lane : Nat)
  | memorySize (mem : MemAddr)
  | memoryGrow (mem : MemAddr)
  | const (width : ScalarSize) (v : Value width.size)
  | const128 (c : ConstIdx)
  | refNull (type : WasmType)
  | refFunc (func : FuncAddr)
  | refIsNull
  | int (op : IntOp)
  | float (op : FloatOp)
  | vector (op : VectorOp)
  | extractLane (op : ExtractLaneOp) (lane : Nat)
  | replaceLane (op : ReplaceLaneOp) (lane : Nat)
  | i8x16Shuffle (c : ConstIdx)
  | tableInit (elem : ElemAddr) (table : TableAddr)
  | tableGet (table : TableAddr)
  | tableSet (table : TableAddr)
  | tableCopy (dstTable srcTable : TableAddr)
  | tableGrow (table : TableAddr)
  | tableSize (table : TableAddr)
  | tableFill (table : TableAddr)
  | memoryInit (data : DataAddr) (mem : MemAddr)
  | memoryCopy (dstMem srcMem : MemAddr)
  | memoryFill (mem : MemAddr)
  | memoryFillImm (mem : MemAddr) (val : Byte) (size : Value .s32)
  | dataDrop (data : DataAddr)
  | elemDrop (elem : ElemAddr)

structure WasmFunctionData where
  v128Constants : List (Value .s128)
  branchTableTargets : List Nat

structure WasmFunction where
  instructions : List Instruction
  data : WasmFunctionData
  locals : ValueCounts
  params : ValueCounts
  results : ValueCounts
  ty : FuncType

-- Panics on an index outside the function's constant table.
def WasmFunctionData.v128Const (data : WasmFunctionData) (idx : ConstIdx) : Checked (Value .s128) :=
  match data.v128Constants[idx]? with
  | some c => .ok c
  | none => .error .panic

end TinyWasm
