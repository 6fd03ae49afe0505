import TinyWasm.Interpreter.BulkMemory

namespace TinyWasm

namespace Machine

-- Locals are addressed from the base of the frame, on the lane of their size.
def localGet (cf : CallFrame) (size : OperandSize) (index : LocalAddr) : Step (Value size) := fun m => do
  let v ← (m.valueStack.lane size).get (cf.localsBase size + index)
  .ok (.ok v,m)

def localSet (cf : CallFrame) (size : OperandSize) (index : LocalAddr) (value : Value size) : Step Unit := fun m => do
  let s ← (m.valueStack.lane size).set (cf.localsBase size + index) value
  .ok (.ok (),{m with valueStack := m.valueStack.setLane size s})

def localUpdate (cf : CallFrame) (size : OperandSize) (index : LocalAddr) (f : Value size → Value size) : Step Unit := do
  let v ← localGet cf size index
  localSet cf size index (f v)

def localCopy (cf : CallFrame) (size : OperandSize) (src dst : LocalAddr) : Step Unit := do
  let v ← localGet cf size src
  localSet cf size dst v

def localTee (cf : CallFrame) (size : OperandSize) (index : LocalAddr) : Step Unit := do
  let v ← peek size
  localSet cf size index v

def selectMany (size : OperandSize) (count : Nat) (condition : Bool) : Step Unit := fun m => do
  let s ← (m.valueStack.lane size).selectMany count condition
  .ok (.ok (),{m with valueStack := m.valueStack.setLane size s})

def selectMulti (counts : ValueCounts) : Step Unit := do
  let v ← pop .s32
  selectMany .s32 (counts .s32) (v != 0)
  selectMany .s64 (counts .s64) (v != 0)
  selectMany .s128 (counts .s128) (v != 0)

def dropKeep (cf : CallFrame) (dropKeep : DropKeep) : Step Unit := fun m =>
  let base : StackBase := fun size => cf.stackBase size + dropKeep.base size
  .ok (.ok (),{m with valueStack := m.valueStack.truncateKeepCounts base dropKeep.keep})

def drop (size : OperandSize) : Step Unit := do
  let _ ← pop size
  pure ()

variable [Allocator]

-- The lower value is only popped to make way for the upper one.
def select (size : OperandSize) : Step Unit := do
  let cond ← pop .s32
  let val2 ← pop size
  if cond = 0 then do
    drop size
    push size val2
  else pure ()

end Machine

def Context.global (ctx : Context) (globalIndex : GlobalAddr) : Step (GlobalAddr × GlobalInstance) := do
  let addr ← .ofChecked (State.at ctx.module.globalAddrs globalIndex)
  let m ← .get
  let g ← .ofChecked (State.at m.state.globals addr)
  pure (addr,g)

-- A scalar lane of a global; another lane is a violated assertion.
def TinyWasmValue.scalar (width : ScalarSize) : TinyWasmValue → Checked (Value width.size) :=
  match width with
  | .s32 => fun
    | .value32 v => .ok v
    | _ => .error .panic
  | .s64 => fun
    | .value64 v => .ok v
    | _ => .error .panic

def globalValue (size : OperandSize) (type : WasmType) (raw : Value size) : Checked TinyWasmValue :=
  match size with
  | .s64 => .ok (.value64 raw)
  | .s128 => .ok (.value128 raw)
  | .s32 =>
    match type with
    | .i32 | .f32 => .ok (.value32 raw)
    | .refExtern | .refFunc => .ok (.valueRef ⟨raw⟩)
    | .i64 | .f64 | .v128 => .error .panic

def execGlobalSet (ctx : Context) (size : OperandSize) (globalIndex : GlobalAddr) : Step Unit := do
  let addr ← .ofChecked (State.at ctx.module.globalAddrs globalIndex)
  let raw ← Machine.pop size
  let m ← .get
  let g ← .ofChecked (State.at m.state.globals addr)
  let value ← .ofChecked (globalValue size g.ty.ty raw)
  .set {m with state := {m.state with globals := m.state.globals.set addr {g with value}}}

def LocalLoadOp.loadOp : LocalLoadOp → LoadOp
  | load32 => .i32Load
  | load8S32 => .i32Load8S
  | load8U32 => .i32Load8U
  | load16S32 => .i32Load16S
  | load16U32 => .i32Load16U

def ScalarSize.access : ScalarSize → AccessWidth
  | s32 => .w32
  | s64 => .w64

def storeWidth : OperandSize → AccessWidth
  | .s32 => .w32
  | .s64 => .w64
  | .s128 => .w128

variable [Allocator]

def localMemoryAddr (ctx : Context) (mem : MemoryInstance) (n offset : Nat) (addrLocal : LocalAddr) : Step Nat :=
  if mem.is64Bit then do
    let base ← Machine.localGet ctx.cf .s64 addrLocal
    .ofExcept (mem.effectiveAddr64 n base.toNat offset)
  else do
    let base ← Machine.localGet ctx.cf .s32 addrLocal
    .ofExcept (mem.effectiveAddr32 base.toNat offset)

-- Stores at a local address only know 32-bit addresses.
def execStoreLocalLocal (ctx : Context) (size : OperandSize) (arg : MemoryArg) (addrLocal valueLocal : LocalAddr) :
    Step Unit := do
  let base ← Machine.localGet ctx.cf .s32 addrLocal
  let value ← Machine.localGet ctx.cf size valueLocal
  let (memAddr,mem) ← ctx.memory arg.memAddr
  let addr ← .ofExcept (mem.effectiveAddr32 base.toNat arg.offset)
  storeAt memAddr mem (storeWidth size) (value.setWidth _) addr

def execIncMemoryLocal (ctx : Context) (width : ScalarSize) (arg : MemoryArg) (addrLocal : LocalAddr) : Step Unit := do
  let (memAddr,mem) ← ctx.memory arg.memAddr
  let addr ← localMemoryAddr ctx mem width.access.bytes arg.offset addrLocal
  let value ← loadAt mem width.access addr
  storeAt memAddr mem width.access (value + 1) addr

def execLoadLocalValue (ctx : Context) (op : LoadOp) (arg : MemoryArg) (addrLocal : LocalAddr) :
    Step (Value op.target) := do
  let (_,mem) ← ctx.memory arg.memAddr
  let addr ← localMemoryAddr ctx mem op.width.bytes arg.offset addrLocal
  let val ← loadAt mem op.width addr
  pure (op.cast val)

def execLoadLocal (ctx : Context) (op : LoadOp) (arg : MemoryArg) (addrLocal : LocalAddr) : Step Unit := do
  let value ← execLoadLocalValue ctx op arg addrLocal
  Machine.push op.target value

def execLoadLocalTee (ctx : Context) (op : LoadOp) (arg : MemoryArg) (addrLocal dstLocal : LocalAddr) : Step Unit := do
  let value ← execLoadLocalValue ctx op arg addrLocal
  Machine.localSet ctx.cf op.target dstLocal value
  Machine.push op.target value

def execLoadLocalSet (ctx : Context) (op : LoadOp) (arg : MemoryArg) (addrLocal dstLocal : LocalAddr) : Step Unit := do
  let value ← execLoadLocalValue ctx op arg addrLocal
  Machine.localSet ctx.cf op.target dstLocal value

-- The three destinations of a fused operator's result.
def pushValue (size : OperandSize) (value : Step (Value size)) : Step Unit := do
  Machine.push size (← value)

def setValue (cf : CallFrame) (size : OperandSize) (dst : LocalAddr) (value : Step (Value size)) : Step Unit := do
  Machine.localSet cf size dst (← value)

def teeValue (cf : CallFrame) (size : OperandSize) (dst : LocalAddr) (value : Step (Value size)) : Step Unit := do
  let value ← value
  Machine.localSet cf size dst value
  Machine.push size value

def binopLocalLocal (cf : CallFrame) (size : OperandSize) (f : Value size → Value size → Value size)
    (a b : LocalAddr) : Step (Value size) := do
  let lhs ← Machine.localGet cf size a
  let rhs ← Machine.localGet cf size b
  pure (f lhs rhs)

def binopLocalConst (cf : CallFrame) (size : OperandSize) (f : Value size → Value size → Value size)
    (a : LocalAddr) (c : Value size) : Step (Value size) := do
  let lhs ← Machine.localGet cf size a
  pure (f lhs c)

def execUnary (size : OperandSize) (f : Value size → Value size) : Step Unit := do
  let v ← Machine.pop size
  Machine.push size (f v)

def NumAction.exec : NumAction → Step Unit
  | unary source target f => do
    let v ← Machine.pop source
    Machine.push target (f v)
  | unaryTry source target f => do
    let v ← Machine.pop source
    let out ← .ofExcept (f v)
    Machine.push target out
  | binary lhs rhs target f => do
    let b ← Machine.pop rhs
    let a ← Machine.pop lhs
    Machine.push target (f a b)
  | binaryTry size f => do
    let b ← Machine.pop size
    let a ← Machine.pop size
    let out ← .ofExcept (f a b)
    Machine.push size out
  | ternary size f => do
    let c ← Machine.pop size
    let b ← Machine.pop size
    let a ← Machine.pop size
    Machine.push size (f a b c)
  | binaryInto2 source target f => do
    let b ← Machine.pop source
    let a ← Machine.pop source
    Machine.push target (f a b).1
    Machine.push target (f a b).2
  | quaternaryInto2 source target f => do
    let d ← Machine.pop source
    let c ← Machine.pop source
    let b ← Machine.pop source
    let a ← Machine.pop source
    Machine.push target (f a b c d).1
    Machine.push target (f a b c d).2

variable [Numerics]

def execBinopAccLocal (cf : CallFrame) (width : ScalarSize) (mul add : BinOp) (acc : LocalAddr) : Step Unit := do
  let rhs ← Machine.pop width.size
  let lhs ← Machine.pop width.size
  Machine.localUpdate cf width.size acc fun v => add.eval width (mul.eval width lhs rhs) v

def execFmaStore (ctx : Context) (width : ScalarSize) (arg : MemoryArg) : Step Unit := do
  let rhs ← Machine.pop width.size
  let lhs ← Machine.pop width.size
  let acc ← Machine.pop width.size
  let base ← Machine.pop .s32
  let fma := BinOp.fAdd.eval width acc (BinOp.fMul.eval width lhs rhs)
  let (memAddr,mem) ← ctx.memory arg.memAddr
  let addr ← .ofExcept (mem.effectiveAddr32 base.toNat arg.offset)
  storeAt memAddr mem width.access (fma.setWidth _) addr

def execStackGlobal (ctx : Context) (width : ScalarSize) (op : BinOp) (globalIndex : GlobalAddr) : Step Unit := do
  let (_,g) ← ctx.global globalIndex
  let globalVal ← .ofChecked (g.value.scalar width)
  let stackVal ← Machine.pop width.size
  Machine.push width.size (op.eval width stackVal globalVal)

-- The instructions after which the next one runs. The others, which move the
-- instruction pointer themselves, are the executor's and never come here.
def execStraight (ctx : Context) : Instruction → Step Unit
  | .drop size => Machine.drop size
  | .select size => Machine.select size
  | .selectMulti counts => Machine.selectMulti counts
  | .dropKeep dropKeep => Machine.dropKeep ctx.cf dropKeep
  | .localGet size index => pushValue size (Machine.localGet ctx.cf size index)
  | .localSet size index => setValue ctx.cf size index (Machine.pop size)
  | .localTee size index => Machine.localTee ctx.cf size index
  | .localCopy size src dst => Machine.localCopy ctx.cf size src dst
  | .addConst width c => execUnary width.size fun v => v + c
  | .incLocal width index delta => Machine.localUpdate ctx.cf width.size index fun v => v + delta
  | .mulAccLocal width acc => execBinopAccLocal ctx.cf width .iMul .iAdd acc
  | .fMulAccLocal width acc => execBinopAccLocal ctx.cf width .fMul .fAdd acc
  | .binOpLocalLocal width op a b => pushValue width.size (binopLocalLocal ctx.cf width.size (op.eval width) a b)
  | .binOpLocalLocal128 op a b => pushValue .s128 (binopLocalLocal ctx.cf .s128 op.eval a b)
  | .binOpLocalLocalSet width op a b dst =>
    setValue ctx.cf width.size dst (binopLocalLocal ctx.cf width.size (op.eval width) a b)
  | .binOpLocalLocalSet128 op a b dst => setValue ctx.cf .s128 dst (binopLocalLocal ctx.cf .s128 op.eval a b)
  | .binOpLocalLocalTee width op a b dst =>
    teeValue ctx.cf width.size dst (binopLocalLocal ctx.cf width.size (op.eval width) a b)
  | .binOpLocalLocalTee128 op a b dst => teeValue ctx.cf .s128 dst (binopLocalLocal ctx.cf .s128 op.eval a b)
  | .binOpLocalConst width op a c => pushValue width.size (binopLocalConst ctx.cf width.size (op.eval width) a c)
  | .binOpLocalConst128 op a c => do
    let c ← .ofChecked (ctx.func.data.v128Const c)
    pushValue .s128 (binopLocalConst ctx.cf .s128 op.eval a c)
  | .binOpLocalConstSet width op a c dst =>
    setValue ctx.cf width.size dst (binopLocalConst ctx.cf width.size (op.eval width) a c)
  | .binOpLocalConstSet128 op a c dst => do
    let c ← .ofChecked (ctx.func.data.v128Const c)
    setValue ctx.cf .s128 dst (binopLocalConst ctx.cf .s128 op.eval a c)
  | .binOpLocalConstTee width op a c dst =>
    teeValue ctx.cf width.size dst (binopLocalConst ctx.cf width.size (op.eval width) a c)
  | .binOpLocalConstTee128 op a c dst => do
    let c ← .ofChecked (ctx.func.data.v128Const c)
    teeValue ctx.cf .s128 dst (binopLocalConst ctx.cf .s128 op.eval a c)
  | .binOpStackGlobal width op global => execStackGlobal ctx width op global
  | .setLocalConst width index c => Machine.localSet ctx.cf width.size index c
  | .setLocalConst128 index c => do
    let c ← .ofChecked (ctx.func.data.v128Const c)
    Machine.localSet ctx.cf .s128 index c
  | .incMemoryLocal width arg addrLocal => execIncMemoryLocal ctx width arg addrLocal
  | .storeLocalLocal size arg addrLocal valueLocal => execStoreLocalLocal ctx size arg addrLocal valueLocal
  | .loadLocal32 op arg addrLocal => execLoadLocal ctx op.loadOp arg addrLocal
  | .loadLocal64 arg addrLocal => execLoadLocal ctx .i64Load arg addrLocal
  | .loadLocalTee32 op arg addrLocal dstLocal => execLoadLocalTee ctx op.loadOp arg addrLocal dstLocal
  | .loadLocalSet32 op arg addrLocal dstLocal => execLoadLocalSet ctx op.loadOp arg addrLocal dstLocal
  | .loadLocalTee128 arg addrLocal dstLocal => execLoadLocalTee ctx .v128Load arg addrLocal dstLocal
  | .loadLocalSet128 arg addrLocal dstLocal => execLoadLocalSet ctx .v128Load arg addrLocal dstLocal
  | .andConstTee width c index => do
    execUnary width.size fun v => v &&& c
    Machine.localTee ctx.cf width.size index
  | .subConstTee width c index => do
    execUnary width.size fun v => v - c
    Machine.localTee ctx.cf width.size index
  | .fMaStore width arg => execFmaStore ctx width arg
  | .globalGet global => do
    let (_,g) ← ctx.global global
    Machine.pushDyn g.value
  | .globalSet size global => execGlobalSet ctx size global
  | .load op arg => execMemLoad ctx op arg
  | .store op arg => execMemStore ctx op arg
  | .loadLane width arg lane => execMemLoadLane ctx width arg lane
  | .storeLane width arg lane => execMemStoreLane ctx width arg lane
  | .memorySize mem => execMemorySize ctx mem
  | .memoryGrow mem => execMemoryGrow ctx mem
  | .const width v => Machine.push width.size v
  | .const128 c => do
    let c ← .ofChecked (ctx.func.data.v128Const c)
    Machine.push .s128 c
  | .refNull _ => Machine.push .s32 ValueRef.null.raw
  | .refFunc func => do
    let addr ← .ofChecked (State.at ctx.module.funcAddrs func)
    Machine.push .s32 (ValueRef.fromAddr (some addr)).raw
  | .refIsNull => do
    let v ← Machine.popRef
    Machine.push .s32 (boolValue v.isNull)
  | .int op => op.action.exec
  | .float op => op.action.exec
  | .vector op => op.action.exec
  | .extractLane op lane => do
    let v ← Machine.pop .s128
    Machine.push op.target (Numerics.extractLane op lane op.target v)
  | .replaceLane op lane => do
    let vec ← Machine.pop .s128
    let value ← Machine.pop op.source
    Machine.push .s128 (Numerics.replaceLane op lane op.source value vec)
  | .i8x16Shuffle c => do
    let b ← Machine.pop .s128
    let a ← Machine.pop .s128
    let c ← .ofChecked (ctx.func.data.v128Const c)
    Machine.push .s128 (Numerics.i8x16Shuffle a b c)
  | .tableInit elem table => execTableInit ctx elem table
  | .tableGet table => execTableGet ctx table
  | .tableSet table => execTableSet ctx table
  | .tableCopy dstTable srcTable => execTableCopy ctx dstTable srcTable
  | .tableGrow table => execTableGrow ctx table
  | .tableSize table => execTableSize ctx table
  | .tableFill table => execTableFill ctx table
  | .memoryInit data mem => execMemoryInit ctx data mem
  | .memoryCopy dstMem srcMem => execMemoryCopy ctx dstMem srcMem
  | .memoryFill mem => execMemoryFill ctx mem
  | .memoryFillImm mem val size => execMemoryFillImm ctx mem val size
  | .dataDrop data => execDataDrop ctx data
  | .elemDrop elem => execElemDrop ctx elem
  | _ => pure ()

end TinyWasm
