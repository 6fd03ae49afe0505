import TinyWasm.Interpreter.Exec

namespace TinyWasm
open ListRange LittleEndian

-- The memory an immediate names, with its address in the store.
def Context.memory (ctx : Context) (memIdx : MemAddr) : Step (MemAddr × MemoryInstance) := do
  let addr ← .ofChecked (State.at ctx.module.memAddrs memIdx)
  let m ← .get
  let mem ← .ofChecked (State.at m.state.memories addr)
  pure (addr,mem)

def Machine.setMemory (addr : MemAddr) (mem : MemoryInstance) : Step Unit := do
  let m ← .get
  .set {m with state := {m.state with memories := m.state.memories.set addr mem}}

namespace LoadOp

def width : LoadOp → AccessWidth
  | i32Load8S | i32Load8U | i64Load8S | i64Load8U | v128Load8Splat => .w8
  | i32Load16S | i32Load16U | i64Load16S | i64Load16U | v128Load16Splat => .w16
  | i32Load | f32Load | i64Load32S | i64Load32U | v128Load32Splat | v128Load32Zero => .w32
  | i64Load | f64Load | v128Load8x8S | v128Load8x8U | v128Load16x4S | v128Load16x4U | v128Load32x2S
    | v128Load32x2U | v128Load64Splat | v128Load64Zero => .w64
  | v128Load => .w128

def target : LoadOp → OperandSize
  | i32Load | f32Load | i32Load8S | i32Load8U | i32Load16S | i32Load16U => .s32
  | i64Load | f64Load | i64Load8S | i64Load8U | i64Load16S | i64Load16U | i64Load32S | i64Load32U => .s64
  | _ => .s128

-- A vector from its lanes, the first lane in the low bytes.
def fromLanes {w : Nat} (n : Nat) (lanes : List (BitVec w)) : Value .s128 := ofBytes 128 (lanes.flatMap (toBytes n))

def splat (n : Nat) (v : BitVec (8 * n)) : Value .s128 := fromLanes n (List.replicate (16 / n) v)

def extendLanes (n : Nat) (signed : Bool) (v : BitVec (8 * 8)) : Value .s128 :=
  let src := toBytes 8 v
  fromLanes (n + n) ((List.range (8 / n)).map fun i =>
    let lane := ofBytes (8 * n) (slice src (n * i) n)
    if signed then lane.signExtend (8 * (n + n)) else lane.setWidth (8 * (n + n)))

-- The `cast` from the loaded number to the operand that is pushed.
def cast (op : LoadOp) : BitVec (8 * op.width.bytes) → Value op.target :=
  match op with
  | i32Load | i64Load | f32Load | f64Load | v128Load => id
  | i32Load8S | i32Load16S | i64Load8S | i64Load16S | i64Load32S => BitVec.signExtend _
  | i32Load8U | i32Load16U | i64Load8U | i64Load16U | i64Load32U => BitVec.setWidth _
  | v128Load8x8S => extendLanes 1 true
  | v128Load8x8U => extendLanes 1 false
  | v128Load16x4S => extendLanes 2 true
  | v128Load16x4U => extendLanes 2 false
  | v128Load32x2S => extendLanes 4 true
  | v128Load32x2U => extendLanes 4 false
  | v128Load8Splat => splat 1
  | v128Load16Splat => splat 2
  | v128Load32Splat => splat 4
  | v128Load64Splat => splat 8
  | v128Load32Zero => fun v => fromLanes 4 [v,0,0,0]
  | v128Load64Zero => fun v => fromLanes 8 [v,0]

end LoadOp

namespace StoreOp

def width : StoreOp → AccessWidth
  | i32Store8 | i64Store8 => .w8
  | i32Store16 | i64Store16 => .w16
  | i32Store | f32Store | i64Store32 => .w32
  | i64Store | f64Store => .w64
  | v128Store => .w128

def source : StoreOp → OperandSize
  | i32Store | f32Store | i32Store8 | i32Store16 => .s32
  | i64Store | f64Store | i64Store8 | i64Store16 | i64Store32 => .s64
  | v128Store => .s128

def cast (op : StoreOp) (v : Value op.source) : BitVec (8 * op.width.bytes) := v.setWidth _

end StoreOp

def LaneWidth.access : LaneWidth → AccessWidth
  | w8 => .w8
  | w16 => .w16
  | w32 => .w32
  | w64 => .w64

variable [Allocator]

def popMemoryAddr (mem : MemoryInstance) (n offset : Nat) : Step Nat :=
  if mem.is64Bit then do
    let base ← Machine.pop .s64
    .ofExcept (mem.effectiveAddr64 n base.toNat offset)
  else do
    let base ← Machine.pop .s32
    .ofExcept (mem.effectiveAddr32 base.toNat offset)

def loadAt (mem : MemoryInstance) (width : AccessWidth) (addr : Nat) : Step (BitVec (8 * width.bytes)) := do
  let bytes ← .ofExcept (← .ofChecked (LinearMemory.readFixed mem.inner width addr))
  pure (ofBytes _ bytes)

def storeAt (memAddr : MemAddr) (mem : MemoryInstance) (width : AccessWidth) (v : BitVec (8 * width.bytes))
    (addr : Nat) : Step Unit := do
  let (r,inner) ← .ofChecked (LinearMemory.writeFixed mem.inner width addr (toBytes width.bytes v))
  Machine.setMemory memAddr {mem with inner}
  .ofExcept r

def execMemLoad (ctx : Context) (op : LoadOp) (arg : MemoryArg) : Step Unit := do
  let (_,mem) ← ctx.memory arg.memAddr
  let addr ← popMemoryAddr mem op.width.bytes arg.offset
  let val ← loadAt mem op.width addr
  Machine.push op.target (op.cast val)

def execMemLoadLane (ctx : Context) (width : LaneWidth) (arg : MemoryArg) (lane : Nat) : Step Unit := do
  let (_,mem) ← ctx.memory arg.memAddr
  let addr ← popMemoryAddr mem width.access.bytes arg.offset
  let val ← loadAt mem width.access addr
  let imm := toBytes 16 (← Machine.pop .s128)
  let imm ← .ofChecked (copyFromSlice imm (lane * width.access.bytes) (toBytes width.access.bytes val))
  Machine.push .s128 (ofBytes _ imm)

def execMemStoreLane (ctx : Context) (width : LaneWidth) (arg : MemoryArg) (lane : Nat) : Step Unit := do
  let bytes := toBytes 16 (← Machine.pop .s128)
  let valBytes ← .ofChecked (sliceAt bytes (lane * width.access.bytes) width.access.bytes)
  let val := ofBytes (8 * width.access.bytes) valBytes
  let (memAddr,mem) ← ctx.memory arg.memAddr
  let addr ← popMemoryAddr mem width.access.bytes arg.offset
  storeAt memAddr mem width.access val addr

def execMemStore (ctx : Context) (op : StoreOp) (arg : MemoryArg) : Step Unit := do
  let val := op.cast (← Machine.pop op.source)
  let (memAddr,mem) ← ctx.memory arg.memAddr
  let addr ← popMemoryAddr mem op.width.bytes arg.offset
  storeAt memAddr mem op.width val addr

end TinyWasm
