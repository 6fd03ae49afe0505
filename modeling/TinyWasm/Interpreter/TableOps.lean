import TinyWasm.Interpreter.Exec

namespace TinyWasm
open ListRange

-- The table an index names, with its address in the store.
def Context.table (ctx : Context) (tableIndex : TableAddr) : Step (TableAddr × TableInstance) := do
  let addr ← .ofChecked (State.at ctx.module.tableAddrs tableIndex)
  let m ← .get
  let t ← .ofChecked (State.at m.state.tables addr)
  pure (addr,t)

namespace Machine

def setTable (addr : TableAddr) (t : TableInstance) : Step Unit := do
  let m ← .get
  .set {m with state := {m.state with tables := m.state.tables.set addr t}}

def popRef : Step ValueRef := do
  let raw ← pop .s32
  pure ⟨raw⟩

variable [Allocator]

def pushDyn : TinyWasmValue → Step Unit
  | .value32 v => push .s32 v
  | .value64 v => push .s64 v
  | .value128 v => push .s128 v
  | .valueRef v => push .s32 v.raw

-- A size, or the -1 of a refused grow, in the width of the table's indices.
def pushSize (arch : MemoryArch) (size : Int) : Step Unit :=
  match arch with
  | .i32 => push .s32 (BitVec.ofInt 32 size)
  | .i64 => push .s64 (BitVec.ofInt 64 size)

end Machine

def popTableOperand (arch : MemoryArch) : Step Nat :=
  match arch with
  | .i32 => do
    let v ← Machine.pop .s32
    pure v.toNat
  | .i64 => do
    let v ← Machine.pop .s64
    pure v.toNat

def execTableSet (ctx : Context) (tableIndex : TableAddr) : Step Unit := do
  let val ← Machine.popRef
  let (addr,t) ← ctx.table tableIndex
  let idx ← popTableOperand t.kind.arch
  let (r,t) := t.set idx (.ofAddr val.addr)
  Machine.setTable addr t
  .ofExcept r

def execTableInit (ctx : Context) (elemIndex : ElemAddr) (tableIndex : TableAddr) : Step Unit := do
  let size ← popTableOperand .i32
  let offset ← popTableOperand .i32
  let (addr,t) ← ctx.table tableIndex
  let dst ← popTableOperand t.kind.arch
  let elemAddr ← .ofChecked (State.at ctx.module.elemAddrs elemIndex)
  let m ← .get
  match m.state.elements[elemAddr]? with
  | none => .trap (.other "element not found")
  | some elem =>
    let items := elem.items.getD []
    match checkedAdd offset size with
    | none => .trap (.tableOutOfBounds offset size items.length)
    | some last =>
      if last > items.length then .trap (.tableOutOfBounds offset size items.length)
      else do
        let (r,t) := t.init dst (slice items offset size)
        Machine.setTable addr t
        .ofExcept r

def execTableFill (ctx : Context) (tableIndex : TableAddr) : Step Unit := do
  let (addr,t) ← ctx.table tableIndex
  let n ← popTableOperand t.kind.arch
  let val ← Machine.popRef
  let i ← popTableOperand t.kind.arch
  let (r,t) ← .ofChecked (t.fill ctx.module.funcAddrs i n (.ofAddr val.addr))
  Machine.setTable addr t
  .ofExcept r

def lenArch (dst src : MemoryArch) : MemoryArch := if dst = .i32 ∨ src = .i32 then .i32 else .i64

def execTableCopy (ctx : Context) (dstTable srcTable : TableAddr) : Step Unit := do
  let (dstAddr,d) ← ctx.table dstTable
  let (srcAddr,s) ← ctx.table srcTable
  let size ← popTableOperand (lenArch d.kind.arch s.kind.arch)
  let src ← popTableOperand s.kind.arch
  let dst ← popTableOperand d.kind.arch
  if dstAddr = srcAddr then do
    let (r,d) := d.copyWithin dst src size
    Machine.setTable dstAddr d
    .ofExcept r
  else do
    let items ← .ofExcept (s.load src size)
    let (r,d) := d.copyFromSlice dst items
    Machine.setTable dstAddr d
    .ofExcept r

def execElemDrop (ctx : Context) (elemIndex : ElemAddr) : Step Unit := do
  let addr ← .ofChecked (State.at ctx.module.elemAddrs elemIndex)
  let m ← .get
  let elem ← .ofChecked (State.at m.state.elements addr)
  .set {m with state := {m.state with elements := m.state.elements.set addr elem.drop}}

variable [Allocator]

def execTableGet (ctx : Context) (tableIndex : TableAddr) : Step Unit := do
  let (_,t) ← ctx.table tableIndex
  let idx ← popTableOperand t.kind.arch
  let v ← .ofExcept (t.getWasmVal idx)
  Machine.pushDyn v.toTinyWasm

def execTableSize (ctx : Context) (tableIndex : TableAddr) : Step Unit := do
  let (_,t) ← ctx.table tableIndex
  Machine.pushSize t.kind.arch t.size

def execTableGrow (ctx : Context) (tableIndex : TableAddr) : Step Unit := do
  let (addr,t) ← ctx.table tableIndex
  let n ← popTableOperand t.kind.arch
  let val ← Machine.popRef
  let sz := t.size
  let (r,grown) := t.grow n (.ofAddr val.addr)
  Machine.setTable addr grown
  match r with
  | .ok () => Machine.pushSize t.kind.arch sz
  | .error _ => Machine.pushSize t.kind.arch (-1)

end TinyWasm
