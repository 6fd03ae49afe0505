import TinyWasm.Interpreter.MemoryAccess
import TinyWasm.Interpreter.TableOps

namespace TinyWasm
open ListRange

-- `v as usize` of an i32: the sign is extended.
def asUsize (v : Value .s32) : Nat := (v.signExtend usizeBits).toNat

-- The i64 that memory.grow works on.
def popPages (arch : MemoryArch) : Step Int :=
  match arch with
  | .i32 => do
    let v ← Machine.pop .s32
    pure v.toInt
  | .i64 => do
    let v ← Machine.pop .s64
    pure v.toInt

def execDataDrop (ctx : Context) (dataIndex : DataAddr) : Step Unit := do
  let addr ← .ofChecked (State.at ctx.module.dataAddrs dataIndex)
  let m ← .get
  let data ← .ofChecked (State.at m.state.data addr)
  .set {m with state := {m.state with data := m.state.data.set addr data.drop}}

variable [Allocator]

def execMemorySize (ctx : Context) (memIdx : MemAddr) : Step Unit := do
  let (_,mem) ← ctx.memory memIdx
  Machine.pushSize mem.kind.arch mem.pageCount

def execMemoryGrow (ctx : Context) (memIdx : MemAddr) : Step Unit := do
  let (addr,mem) ← ctx.memory memIdx
  let pagesDelta ← popPages mem.kind.arch
  let (r,grown) ← .ofChecked (mem.grow pagesDelta ctx.config.trapOnOom)
  Machine.setMemory addr grown
  match ← .ofExcept r with
  | some size => Machine.pushSize mem.kind.arch size
  | none => Machine.pushSize mem.kind.arch (-1)

-- The three operands are i32s whatever the address type of the memories is.
def execMemoryCopy (ctx : Context) (dstMem srcMem : MemAddr) : Step Unit := do
  let size ← Machine.pop .s32
  let src ← Machine.pop .s32
  let dst ← Machine.pop .s32
  let (dstAddr,mem) ← ctx.memory dstMem
  if dstMem = srcMem then do
    let (r,mem) ← .ofChecked (mem.copyWithin (asUsize dst) (asUsize src) (asUsize size))
    Machine.setMemory dstAddr mem
    .ofExcept r
  else do
    let (srcAddr,srcMemory) ← ctx.memory srcMem
    -- Two indices of one memory cannot both be borrowed.
    if dstAddr = srcAddr then .ofChecked (.error .panic)
    else do
      let (r,mem) ← .ofChecked (mem.copyFromMemory (asUsize dst) srcMemory (asUsize src) (asUsize size))
      Machine.setMemory dstAddr mem
      .ofExcept r

def execMemoryFillImpl (ctx : Context) (memIdx : MemAddr) (dst : Value .s32) (val : Byte) (size : Value .s32) :
    Step Unit := do
  let (addr,mem) ← ctx.memory memIdx
  let (r,inner) ← .ofChecked (LinearMemory.fill mem.inner (asUsize dst) (asUsize size) val)
  Machine.setMemory addr {mem with inner}
  match r with
  | some () => pure ()
  | none => .trap (memoryOob (asUsize dst) (asUsize size) (LinearMemory.len inner))

def execMemoryFill (ctx : Context) (memIdx : MemAddr) : Step Unit := do
  let size ← Machine.pop .s32
  let val ← Machine.pop .s32
  let dst ← Machine.pop .s32
  execMemoryFillImpl ctx memIdx dst (.ofNat val.toNat) size

def execMemoryFillImm (ctx : Context) (memIdx : MemAddr) (val : Byte) (size : Value .s32) : Step Unit := do
  let dst ← Machine.pop .s32
  execMemoryFillImpl ctx memIdx dst val size

-- The sums are i32 sums: they wrap, and only then become addresses.
def execMemoryInit (ctx : Context) (dataIndex : DataAddr) (memIndex : MemAddr) : Step Unit := do
  let size ← Machine.pop .s32
  let offset ← Machine.pop .s32
  let dst ← Machine.pop .s32
  let dataAddr ← .ofChecked (State.at ctx.module.dataAddrs dataIndex)
  let m ← .get
  let data ← .ofChecked (State.at m.state.data dataAddr)
  let (addr,mem) ← ctx.memory memIndex
  let dataLen := (data.data.map List.length).getD 0
  if asUsize (size + offset) > dataLen ∨ asUsize (dst + size) > LinearMemory.len mem.inner then
    .trap (memoryOob (asUsize offset) (asUsize size) dataLen)
  else if size = 0 then pure ()
  else match data.data with
    | none => .trap (memoryOob 0 0 0)
    | some bytes =>
      if asUsize offset ≤ asUsize (offset + size) ∧ asUsize (offset + size) ≤ bytes.length then do
        let src := slice bytes (asUsize offset) (asUsize (offset + size) - asUsize offset)
        let (r,inner) ← .ofChecked (LinearMemory.writeAll mem.inner (asUsize dst) src)
        Machine.setMemory addr {mem with inner}
        match r with
        | some () => pure ()
        | none => .trap (memoryOob (asUsize dst) (asUsize size) (LinearMemory.len inner))
      else .ofChecked (.error .panic)

end TinyWasm
