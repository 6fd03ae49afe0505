import TinyWasm.Interpreter.Effects

namespace TinyWasm

section Table
variable [Numerics] (K : Shape) (module : ModuleInstance)

-- The lanes on which the executor looks for an instruction's operands, and
-- those on which it leaves the results, in a store of the given shape.
def Instruction.operands : Instruction → List OperandSize
  | .drop size | .localSet size _ | .localTee size _ | .globalSet size _ => [size]
  | .select size => [.s32,size,size]
  | .selectMulti counts => .s32 :: (counts.list ++ counts.list)
  | .addConst width _ | .binOpStackGlobal width _ _ | .andConstTee width _ _ | .subConstTee width _ _
    | .jumpIfZero width _ | .jumpIfNonZero width _ | .jumpCmpStackConst width _ _ _ => [width.size]
  | .mulAccLocal width _ | .fMulAccLocal width _ => [width.size,width.size]
  | .fMaStore width _ => [width.size,width.size,width.size,.s32]
  | .branchTable _ _ _ => [.s32]
  | .callIndirect _ table | .returnCallIndirect _ table => [K.tableSize module table]
  | .load _ arg => [K.memorySize module arg.memAddr]
  | .store op arg => [op.source,K.memorySize module arg.memAddr]
  | .loadLane _ arg _ | .storeLane _ arg _ => [.s128,K.memorySize module arg.memAddr]
  | .memoryGrow mem => [K.memorySize module mem]
  | .memoryCopy _ _ | .memoryFill _ | .memoryInit _ _ => [.s32,.s32,.s32]
  | .memoryFillImm _ _ _ => [.s32]
  | .refIsNull => [.s32]
  | .int op => op.action.inputs
  | .float op => op.action.inputs
  | .vector op => op.action.inputs
  | .extractLane _ _ => [.s128]
  | .replaceLane op _ => [.s128,op.source]
  | .i8x16Shuffle _ => [.s128,.s128]
  | .tableGet table => [K.tableSize module table]
  | .tableSet table | .tableGrow table => [.s32,K.tableSize module table]
  | .tableInit _ table => [.s32,.s32,K.tableSize module table]
  | .tableCopy dstTable srcTable =>
    [.ofArch (lenArch (K.tableArch module dstTable) (K.tableArch module srcTable)),K.tableSize module srcTable,
      K.tableSize module dstTable]
  | .tableFill table => [K.tableSize module table,.s32,K.tableSize module table]
  | _ => []

def Instruction.results : Instruction → List OperandSize
  | .select size | .localGet size _ | .localTee size _ => [size]
  | .selectMulti counts => counts.list
  | .addConst width _ | .binOpLocalLocal width _ _ _ | .binOpLocalLocalTee width _ _ _ _
    | .binOpLocalConst width _ _ _ | .binOpLocalConstTee width _ _ _ _ | .binOpStackGlobal width _ _
    | .andConstTee width _ _ | .subConstTee width _ _ | .const width _ => [width.size]
  | .binOpLocalLocal128 _ _ _ | .binOpLocalLocalTee128 _ _ _ _ | .binOpLocalConst128 _ _ _
    | .binOpLocalConstTee128 _ _ _ _ | .const128 _ => [.s128]
  | .loadLocal32 op _ _ | .loadLocalTee32 op _ _ _ => [op.loadOp.target]
  | .loadLocal64 _ _ => [.s64]
  | .loadLocalTee128 _ _ _ => [.s128]
  | .globalGet global => [K.globalSize module global]
  | .load op _ => [op.target]
  | .loadLane _ _ _ | .replaceLane _ _ | .i8x16Shuffle _ => [.s128]
  | .memorySize mem | .memoryGrow mem => [K.memorySize module mem]
  | .refNull _ | .refFunc _ | .refIsNull | .tableGet _ => [.s32]
  | .int op => op.action.outputs
  | .float op => op.action.outputs
  | .vector op => op.action.outputs
  | .extractLane op _ => [op.target]
  | .tableGrow table | .tableSize table => [K.tableSize module table]
  | _ => []

end Table

-- The instructions that run on their operands alone: they neither move the
-- instruction pointer, nor cut the stack, nor replace the value of a global.
def Instruction.isPlain : Instruction → Bool
  | .unreachable | .jump _ | .jumpIfZero _ _ | .jumpIfNonZero _ _ | .jumpIfLocalZero _ _ _
    | .jumpIfLocalNonZero _ _ _ | .jumpCmpStackConst _ _ _ _ | .jumpCmpLocalConst _ _ _ _ _
    | .jumpCmpLocalLocal _ _ _ _ _ | .branchTable _ _ _ | .return_ | .returnVoid | .returnOne _ | .call _ | .callSelf
    | .callIndirect _ _ | .returnCall _ | .returnCallSelf | .returnCallIndirect _ _ | .dropKeep _ | .globalSet _ _ => false
  | _ => true

namespace Uses
variable {K : Shape} {ctx : Context} {ins : List OperandSize}

theorem popPages (arch : MemoryArch) : Uses ctx.cf K [.ofArch arch] [] (TinyWasm.popPages arch) := by
  cases arch with
  | i32 => exact (pop .s32).pops fun _ => answers _
  | i64 => exact (pop .s64).pops fun _ => answers _

theorem popTableOperand (arch : MemoryArch) : Uses ctx.cf K [.ofArch arch] [] (TinyWasm.popTableOperand arch) := by
  cases arch with
  | i32 => exact (pop .s32).pops fun _ => answers _
  | i64 => exact (pop .s64).pops fun _ => answers _

theorem popRef : Uses ctx.cf K [.s32] [] Machine.popRef := (pop .s32).pops fun _ => answers _

theorem localCopy (size : OperandSize) (src dst : LocalAddr) : Uses ctx.cf K [] [] (Machine.localCopy ctx.cf size src dst) :=
  (localGet size src).silent fun v => localSet size dst v

theorem localUpdate (size : OperandSize) (index : LocalAddr) (f : Value size → Value size) :
    Uses ctx.cf K [] [] (Machine.localUpdate ctx.cf size index f) :=
  (localGet size index).silent fun v => localSet size index (f v)

theorem localTee (size : OperandSize) (index : LocalAddr) :
    Uses ctx.cf K [size] [size] (Machine.localTee ctx.cf size index) :=
  (peek size).chain fun v => (localSet size index v).idle

theorem execTableSet (table : TableAddr) :
    Uses ctx.cf K [.s32,K.tableSize ctx.module table] [] (TinyWasm.execTableSet ctx table) := by
  refine popRef.pops fun v => TinyWasm.Uses.table fun addr t kind arch => ?_
  rw [Shape.tableSize,arch]
  refine (popTableOperand _).pops fun idx => silent (setTable (kind.trans (congrArg some (t.set_kind _ _).symm))) fun _ => ofExcept _

theorem execTableInit (elem : ElemAddr) (table : TableAddr) :
    Uses ctx.cf K [.s32,.s32,K.tableSize ctx.module table] [] (TinyWasm.execTableInit ctx elem table) := by
  refine (popTableOperand .i32).pops fun size => (popTableOperand .i32).pops fun offset =>
    TinyWasm.Uses.table fun addr t kind arch => ?_
  rw [Shape.tableSize,arch]
  refine (popTableOperand _).pops fun dst => checked fun elemAddr _ => get fun m _ => ?_
  cases m.state.elements[elemAddr]? with
  | none => exact traps _
  | some elem =>
    simp only
    cases checkedAdd offset size with
    | none => exact traps _
    | some last =>
      by_cases outside : last > (elem.items.getD []).length
      · simp only [if_pos outside]
        exact traps _
      · simp only [if_neg outside]
        refine silent (setTable ?_) fun _ => ofExcept _
        rw [t.init_kind]
        exact kind

theorem execTableFill (table : TableAddr) :
    Uses ctx.cf K [K.tableSize ctx.module table,.s32,K.tableSize ctx.module table] []
      (TinyWasm.execTableFill ctx table) := by
  refine TinyWasm.Uses.table fun addr t kind arch => ?_
  rw [Shape.tableSize,arch]
  refine (popTableOperand _).pops fun n => popRef.pops fun val => (popTableOperand _).pops fun i =>
    checked fun ⟨r,filled⟩ ran => silent (setTable ?_) fun _ => ofExcept _
  rw [TableInstance.fill_kind ran]
  exact kind

theorem execTableCopy (dstTable srcTable : TableAddr) :
    Uses ctx.cf K [.ofArch (lenArch (K.tableArch ctx.module dstTable) (K.tableArch ctx.module srcTable)),
      K.tableSize ctx.module srcTable,K.tableSize ctx.module dstTable] []
      (TinyWasm.execTableCopy ctx dstTable srcTable) := by
  refine TinyWasm.Uses.table fun dstAddr d kind arch => TinyWasm.Uses.table fun srcAddr s _ arch' => ?_
  rw [Shape.tableSize,Shape.tableSize,arch,arch']
  refine (popTableOperand _).pops fun size => (popTableOperand _).pops fun src => (popTableOperand _).pops fun dst => ?_
  by_cases same : dstAddr = srcAddr
  · simp only [if_pos same]
    refine silent (setTable (kind.trans (congrArg some (d.copyWithin_kind _ _ _).symm))) fun _ => ofExcept _
  · simp only [if_neg same]
    refine excepted fun items _ => silent (setTable (kind.trans (congrArg some (d.copyFromSlice_kind _ _).symm))) fun _ => ofExcept _

theorem execElemDrop (elem : ElemAddr) : Uses ctx.cf K [] [] (TinyWasm.execElemDrop ctx elem) :=
  checked fun _ _ => setsChecked fun m _ same => (m.state.shape_setElement _ _).trans same

theorem execDataDrop (data : DataAddr) : Uses ctx.cf K [] [] (TinyWasm.execDataDrop ctx data) :=
  checked fun _ _ => setsChecked fun m _ same => (m.state.shape_setData _ _).trans same

theorem setValue {size : OperandSize} {value : Step (Value size)} (dst : LocalAddr) (uses : Uses ctx.cf K ins [] value) :
    Uses ctx.cf K ins [] (TinyWasm.setValue ctx.cf size dst value) :=
  uses.bind (fun v => localSet size dst v) (by simp) (by simp)

theorem binopLocalLocal {size : OperandSize} (f : Value size → Value size → Value size) (a b : LocalAddr) :
    Uses ctx.cf K [] [] (TinyWasm.binopLocalLocal ctx.cf size f a b) :=
  (localGet size a).silent fun _ => (localGet size b).silent fun _ => answers _

theorem binopLocalConst {size : OperandSize} (f : Value size → Value size → Value size) (a : LocalAddr)
    (c : Value size) : Uses ctx.cf K [] [] (TinyWasm.binopLocalConst ctx.cf size f a c) :=
  (localGet size a).silent fun _ => answers _

theorem execBinopAccLocal [Numerics] (width : ScalarSize) (mul add : BinOp) (acc : LocalAddr) :
    Uses ctx.cf K [width.size,width.size] [] (TinyWasm.execBinopAccLocal ctx.cf width mul add acc) :=
  (pop width.size).pops fun _ => (pop width.size).pops fun _ => localUpdate _ _ _

variable [Allocator]

theorem popMemoryAddr (mem : MemoryInstance) (n offset : Nat) :
    Uses ctx.cf K [.ofArch mem.kind.arch] [] (TinyWasm.popMemoryAddr mem n offset) := by
  unfold TinyWasm.popMemoryAddr MemoryInstance.is64Bit
  cases mem.kind.arch with
  | i32 => exact (pop .s32).pops fun base => ofExcept _
  | i64 => exact (pop .s64).pops fun base => ofExcept _

theorem loadAt (mem : MemoryInstance) (width : AccessWidth) (addr : Nat) :
    Uses ctx.cf K [] [] (TinyWasm.loadAt mem width addr) :=
  checked fun _ _ => excepted fun _ _ => answers _

theorem storeAt {memAddr : MemAddr} {mem : MemoryInstance} (width : AccessWidth) (v : BitVec (8 * width.bytes))
    (addr : Nat) (kind : K.memories[memAddr]? = some mem.kind) :
    Uses ctx.cf K [] [] (TinyWasm.storeAt memAddr mem width v addr) :=
  checked fun ⟨_,_⟩ _ => silent (setMemory kind) fun _ => ofExcept _

theorem localMemoryAddr (mem : MemoryInstance) (n offset : Nat) (addrLocal : LocalAddr) :
    Uses ctx.cf K [] [] (TinyWasm.localMemoryAddr ctx mem n offset addrLocal) := by
  unfold TinyWasm.localMemoryAddr
  cases mem.is64Bit
  · exact (localGet .s32 _).silent fun base => ofExcept _
  · exact (localGet .s64 _).silent fun base => ofExcept _

theorem execMemLoad (op : LoadOp) (arg : MemoryArg) :
    Uses ctx.cf K [K.memorySize ctx.module arg.memAddr] [op.target] (TinyWasm.execMemLoad ctx op arg) :=
  memory fun _ mem _ size => size ▸ (popMemoryAddr mem _ _).pops fun _ => (loadAt mem _ _).silent fun _ => push _ _

theorem execMemLoadLane (width : LaneWidth) (arg : MemoryArg) (lane : Nat) :
    Uses ctx.cf K [.s128,K.memorySize ctx.module arg.memAddr] [.s128] (TinyWasm.execMemLoadLane ctx width arg lane) := by
  refine memory fun _ mem _ size => ?_
  rw [size]
  exact swap ((popMemoryAddr mem _ _).pops fun _ => (loadAt mem _ _).silent fun _ => (pop .s128).pops fun _ =>
    checked fun _ _ => push _ _)

theorem execMemStoreLane (width : LaneWidth) (arg : MemoryArg) (lane : Nat) :
    Uses ctx.cf K [.s128,K.memorySize ctx.module arg.memAddr] [] (TinyWasm.execMemStoreLane ctx width arg lane) :=
  (pop .s128).pops fun _ => checked fun _ _ => memory fun _ mem kind size =>
    size ▸ (popMemoryAddr mem _ _).pops fun _ => storeAt _ _ _ kind

theorem execMemStore (op : StoreOp) (arg : MemoryArg) :
    Uses ctx.cf K [op.source,K.memorySize ctx.module arg.memAddr] [] (TinyWasm.execMemStore ctx op arg) :=
  (pop op.source).pops fun _ => memory fun _ mem kind size =>
    size ▸ (popMemoryAddr mem _ _).pops fun _ => storeAt _ _ _ kind

theorem pushSize (arch : MemoryArch) (n : Int) : Uses ctx.cf K [] [.ofArch arch] (Machine.pushSize arch n) := by
  cases arch with
  | i32 => exact push .s32 _
  | i64 => exact push .s64 _

theorem pushDyn (v : TinyWasmValue) : Uses ctx.cf K [] [v.size] (Machine.pushDyn v) := by
  cases v with
  | value32 v => exact push .s32 v
  | value64 v => exact push .s64 v
  | value128 v => exact push .s128 v
  | valueRef v => exact push .s32 v.raw

theorem execMemorySize (mem : MemAddr) :
    Uses ctx.cf K [] [K.memorySize ctx.module mem] (TinyWasm.execMemorySize ctx mem) :=
  memory fun _ _ _ size => size ▸ pushSize _ _

theorem execMemoryGrow (mem : MemAddr) :
    Uses ctx.cf K [K.memorySize ctx.module mem] [K.memorySize ctx.module mem] (TinyWasm.execMemoryGrow ctx mem) := by
  refine memory fun _ mem kind size => ?_
  rw [size]
  refine (popPages _).pops fun pages => checked fun ⟨r,grown⟩ ran => silent (setMemory ?_) fun _ => excepted fun r _ => ?_
  · rw [MemoryInstance.grow_kind ran]
    exact kind
  · cases r <;> exact pushSize _ _

theorem execMemoryFillImpl (mem : MemAddr) (dst : Value .s32) (val : Byte) (size : Value .s32) :
    Uses ctx.cf K [] [] (TinyWasm.execMemoryFillImpl ctx mem dst val size) := by
  refine memory fun _ mem kind _ => checked fun ⟨r,inner⟩ _ => silent (setMemory kind) fun _ => ?_
  cases r with
  | none => exact traps _
  | some _ => exact answers ()

theorem execMemoryFill (mem : MemAddr) : Uses ctx.cf K [.s32,.s32,.s32] [] (TinyWasm.execMemoryFill ctx mem) :=
  (pop .s32).pops fun _ => (pop .s32).pops fun _ => (pop .s32).pops fun _ => execMemoryFillImpl _ _ _ _

theorem execMemoryCopy (dstMem srcMem : MemAddr) :
    Uses ctx.cf K [.s32,.s32,.s32] [] (TinyWasm.execMemoryCopy ctx dstMem srcMem) := by
  refine (pop .s32).pops fun size => (pop .s32).pops fun src => (pop .s32).pops fun dst =>
    memory fun dstAddr mem kind _ => ?_
  by_cases one : dstMem = srcMem
  · simp only [if_pos one]
    refine checked fun ⟨r,written⟩ ran => silent (setMemory ?_) fun _ => ofExcept _
    rw [MemoryInstance.copyWithin_kind ran]
    exact kind
  · simp only [if_neg one]
    refine memory fun srcAddr srcMemory _ _ => ?_
    by_cases same : dstAddr = srcAddr
    · simp only [if_pos same]
      exact aborts _
    · simp only [if_neg same]
      refine checked fun ⟨r,written⟩ ran => silent (setMemory ?_) fun _ => ofExcept _
      rw [MemoryInstance.copyFromMemory_kind ran]
      exact kind

theorem execMemoryInit (data : DataAddr) (mem : MemAddr) :
    Uses ctx.cf K [.s32,.s32,.s32] [] (TinyWasm.execMemoryInit ctx data mem) := by
  refine (pop .s32).pops fun size => (pop .s32).pops fun offset => (pop .s32).pops fun dst =>
    checked fun dataAddr _ => get fun m _ => checked fun data _ => memory fun addr mem kind _ => ?_
  by_cases outside : asUsize (size + offset) > (data.data.map List.length).getD 0 ∨
      asUsize (dst + size) > LinearMemory.len mem.inner
  · simp only [if_pos outside]
    exact traps _
  · simp only [if_neg outside]
    by_cases empty : size = 0
    · simp only [if_pos empty]
      exact answers ()
    · simp only [if_neg empty]
      cases data.data with
      | none => exact traps _
      | some bytes =>
        by_cases inside : asUsize offset ≤ asUsize (offset + size) ∧ asUsize (offset + size) ≤ bytes.length
        · simp only [if_pos inside]
          refine checked fun written _ => ?_
          obtain ⟨r,inner⟩ := written
          refine silent (setMemory kind) fun _ => ?_
          cases r with
          | none => exact traps _
          | some _ => exact answers ()
        · simp only [if_neg inside]
          exact aborts _

theorem execTableGet (table : TableAddr) :
    Uses ctx.cf K [K.tableSize ctx.module table] [.s32] (TinyWasm.execTableGet ctx table) := by
  refine TinyWasm.Uses.table fun addr t _ arch => ?_
  rw [Shape.tableSize,arch]
  refine (popTableOperand _).pops fun idx => excepted fun v got => ?_
  obtain ⟨r,rfl | rfl⟩ := TableInstance.getWasmVal_cases got <;> exact pushDyn (.valueRef _)

theorem execTableSize (table : TableAddr) :
    Uses ctx.cf K [] [K.tableSize ctx.module table] (TinyWasm.execTableSize ctx table) := by
  refine TinyWasm.Uses.table fun addr t _ arch => ?_
  rw [Shape.tableSize,arch]
  exact pushSize _ _

theorem execTableGrow (table : TableAddr) :
    Uses ctx.cf K [.s32,K.tableSize ctx.module table] [K.tableSize ctx.module table]
      (TinyWasm.execTableGrow ctx table) := by
  refine TinyWasm.Uses.table fun addr t kind arch => ?_
  rw [Shape.tableSize,arch]
  refine swap ((popTableOperand _).pops fun n => popRef.pops fun val => ?_)
  have kept := t.grow_kind n (.ofAddr val.addr)
  generalize t.grow n (.ofAddr val.addr) = outcome at kept ⊢
  obtain ⟨r,grown⟩ := outcome
  refine silent (setTable (kind.trans (congrArg some kept.symm))) fun _ => ?_
  cases r <;> exact pushSize _ _

theorem execIncMemoryLocal (width : ScalarSize) (arg : MemoryArg) (addrLocal : LocalAddr) :
    Uses ctx.cf K [] [] (TinyWasm.execIncMemoryLocal ctx width arg addrLocal) :=
  memory fun _ mem kind _ => (localMemoryAddr mem _ _ _).silent fun _ => (loadAt mem _ _).silent fun _ =>
    storeAt _ _ _ kind

theorem execStoreLocalLocal (size : OperandSize) (arg : MemoryArg) (addrLocal valueLocal : LocalAddr) :
    Uses ctx.cf K [] [] (TinyWasm.execStoreLocalLocal ctx size arg addrLocal valueLocal) :=
  (localGet .s32 _).silent fun _ => (localGet size _).silent fun _ => memory fun _ _ kind _ =>
    excepted fun _ _ => storeAt _ _ _ kind

theorem execLoadLocalValue (op : LoadOp) (arg : MemoryArg) (addrLocal : LocalAddr) :
    Uses ctx.cf K [] [] (TinyWasm.execLoadLocalValue ctx op arg addrLocal) :=
  memory fun _ mem _ _ => (localMemoryAddr mem _ _ _).silent fun _ => (loadAt mem _ _).silent fun _ => answers _

theorem pushValue {size : OperandSize} {value : Step (Value size)} (uses : Uses ctx.cf K ins [] value) :
    Uses ctx.cf K ins [size] (TinyWasm.pushValue size value) :=
  uses.bind (fun v => push size v) (by simp) (by simp)

theorem teeValue {size : OperandSize} {value : Step (Value size)} (dst : LocalAddr) (uses : Uses ctx.cf K ins [] value) :
    Uses ctx.cf K ins [size] (TinyWasm.teeValue ctx.cf size dst value) :=
  uses.bind (fun v => (localSet size dst v).silent fun _ => push size v) (by simp) (by simp)

theorem execUnary (size : OperandSize) (f : Value size → Value size) :
    Uses ctx.cf K [size] [size] (TinyWasm.execUnary size f) := (pop size).pops fun _ => push size _

theorem action (a : NumAction) : Uses ctx.cf K a.inputs a.outputs a.exec := by
  cases a with
  | unary source target f => exact (pop source).pops fun _ => push target _
  | unaryTry source target f => exact (pop source).pops fun _ => excepted fun _ _ => push target _
  | binary lhs rhs target f => exact swap ((pop rhs).pops fun _ => (pop lhs).pops fun _ => push target _)
  | binaryTry size f => exact (pop size).pops fun _ => (pop size).pops fun _ => excepted fun _ _ => push size _
  | ternary size f => exact (pop size).pops fun _ => (pop size).pops fun _ => (pop size).pops fun _ => push size _
  | binaryInto2 source target f =>
    exact (pop source).pops fun _ => (pop source).pops fun _ => (push target _).pushes fun _ => push target _
  | quaternaryInto2 source target f =>
    exact (pop source).pops fun _ => (pop source).pops fun _ => (pop source).pops fun _ => (pop source).pops fun _ =>
      (push target _).pushes fun _ => push target _

variable [Numerics]

theorem execFmaStore (width : ScalarSize) (arg : MemoryArg) :
    Uses ctx.cf K [width.size,width.size,width.size,.s32] [] (TinyWasm.execFmaStore ctx width arg) :=
  (pop width.size).pops fun _ => (pop width.size).pops fun _ => (pop width.size).pops fun _ => (pop .s32).pops fun _ =>
    memory fun _ _ kind _ => excepted fun _ _ => storeAt _ _ _ kind

theorem execStackGlobal (width : ScalarSize) (op : BinOp) (globalIndex : GlobalAddr) :
    Uses ctx.cf K [width.size] [width.size] (TinyWasm.execStackGlobal ctx width op globalIndex) :=
  global fun _ _ _ => checked fun _ _ => (pop width.size).pops fun _ => push width.size _

end Uses

-- What the executor pops and pushes for each of them is what the table says.
theorem straight_uses [Allocator] [Numerics] {K : Shape} {ctx : Context} (i : Instruction) (plain : i.isPlain = true) :
    Uses ctx.cf K (i.operands K ctx.module) (i.results K ctx.module) (execStraight ctx i) := by
  cases i <;> simp only [Instruction.isPlain,Bool.false_eq_true] at plain
  case drop size => exact .drop size
  case select size => exact .select size
  case selectMulti counts => exact .selectMulti counts
  case localGet size index => exact .pushValue (.localGet size index)
  case localSet size index => exact .setValue index (.pop size)
  case localTee size index => exact .localTee size index
  case localCopy size src dst => exact .localCopy size src dst
  case addConst width c => exact .execUnary width.size _
  case incLocal width index delta => exact .localUpdate width.size index _
  case mulAccLocal width acc => exact .execBinopAccLocal width _ _ acc
  case fMulAccLocal width acc => exact .execBinopAccLocal width _ _ acc
  case binOpLocalLocal width op a b => exact .pushValue (.binopLocalLocal _ a b)
  case binOpLocalLocal128 op a b => exact .pushValue (.binopLocalLocal _ a b)
  case binOpLocalLocalSet width op a b dst => exact .setValue dst (.binopLocalLocal _ a b)
  case binOpLocalLocalSet128 op a b dst => exact .setValue dst (.binopLocalLocal _ a b)
  case binOpLocalLocalTee width op a b dst => exact .teeValue dst (.binopLocalLocal _ a b)
  case binOpLocalLocalTee128 op a b dst => exact .teeValue dst (.binopLocalLocal _ a b)
  case binOpLocalConst width op a c => exact .pushValue (.binopLocalConst _ a c)
  case binOpLocalConst128 op a c => exact .checked fun c _ => .pushValue (.binopLocalConst _ a c)
  case binOpLocalConstSet width op a c dst => exact .setValue dst (.binopLocalConst _ a c)
  case binOpLocalConstSet128 op a c dst => exact .checked fun c _ => .setValue dst (.binopLocalConst _ a c)
  case binOpLocalConstTee width op a c dst => exact .teeValue dst (.binopLocalConst _ a c)
  case binOpLocalConstTee128 op a c dst => exact .checked fun c _ => .teeValue dst (.binopLocalConst _ a c)
  case binOpStackGlobal width op global => exact .execStackGlobal width op global
  case setLocalConst width index c => exact .localSet width.size index c
  case setLocalConst128 index c => exact .checked fun c _ => .localSet .s128 index c
  case incMemoryLocal width arg addrLocal => exact .execIncMemoryLocal width arg addrLocal
  case storeLocalLocal size arg addrLocal valueLocal => exact .execStoreLocalLocal size arg addrLocal valueLocal
  case loadLocal32 op arg addrLocal => exact .pushValue (.execLoadLocalValue op.loadOp arg addrLocal)
  case loadLocal64 arg addrLocal => exact .pushValue (.execLoadLocalValue .i64Load arg addrLocal)
  case loadLocalTee32 op arg addrLocal dst => exact .teeValue dst (.execLoadLocalValue op.loadOp arg addrLocal)
  case loadLocalSet32 op arg addrLocal dst => exact .setValue dst (.execLoadLocalValue op.loadOp arg addrLocal)
  case loadLocalTee128 arg addrLocal dst => exact .teeValue dst (.execLoadLocalValue .v128Load arg addrLocal)
  case loadLocalSet128 arg addrLocal dst => exact .setValue dst (.execLoadLocalValue .v128Load arg addrLocal)
  case andConstTee width c index => exact (Uses.execUnary width.size _).chain fun _ => .localTee width.size index
  case subConstTee width c index => exact (Uses.execUnary width.size _).chain fun _ => .localTee width.size index
  case fMaStore width arg => exact .execFmaStore width arg
  case globalGet global =>
    refine .global fun _ g size => ?_
    simp only [Instruction.results,size]
    exact .pushDyn g.value
  case load op arg => exact .execMemLoad op arg
  case store op arg => exact .execMemStore op arg
  case loadLane width arg lane => exact .execMemLoadLane width arg lane
  case storeLane width arg lane => exact .execMemStoreLane width arg lane
  case memorySize mem => exact .execMemorySize mem
  case memoryGrow mem => exact .execMemoryGrow mem
  case const width v => exact .push width.size v
  case const128 c => exact .checked fun c _ => .push .s128 c
  case refNull type => exact .push .s32 _
  case refFunc func => exact .checked fun addr _ => .push .s32 _
  case refIsNull => exact .pops .popRef fun _ => .push .s32 _
  case int op => exact .action op.action
  case float op => exact .action op.action
  case vector op => exact .action op.action
  case extractLane op lane => exact (Uses.pop .s128).pops fun _ => .push op.target _
  case replaceLane op lane => exact (Uses.pop .s128).pops fun _ => (Uses.pop op.source).pops fun _ => .push .s128 _
  case i8x16Shuffle c =>
    exact (Uses.pop .s128).pops fun _ => (Uses.pop .s128).pops fun _ => .checked fun _ _ => .push .s128 _
  case tableInit elem table => exact .execTableInit elem table
  case tableGet table => exact .execTableGet table
  case tableSet table => exact .execTableSet table
  case tableCopy dstTable srcTable => exact .execTableCopy dstTable srcTable
  case tableGrow table => exact .execTableGrow table
  case tableSize table => exact .execTableSize table
  case tableFill table => exact .execTableFill table
  case memoryInit data mem => exact .execMemoryInit data mem
  case memoryCopy dstMem srcMem => exact .execMemoryCopy dstMem srcMem
  case memoryFill mem => exact .execMemoryFill mem
  case memoryFillImm mem val size => exact (Uses.pop .s32).pops fun dst => .execMemoryFillImpl mem dst val size
  case dataDrop data => exact .execDataDrop data
  case elemDrop elem => exact .execElemDrop elem

-- A write to a global is the one change of the shape, and global.set the only
-- instruction that makes it.
theorem execGlobalSet_shape {ctx : Context} {size : OperandSize} {global : GlobalAddr} {m m' : Machine}
    {r : Except Trap Unit} (ran : execGlobalSet ctx size global m = .ok (r,m')) :
    m'.state.shape = {m.state.shape with globals := m'.state.globals} ∧
      m'.state.globals.length = m.state.globals.length := by
  unfold execGlobalSet at ran
  cases named : State.at ctx.module.globalAddrs global with
  | error abort => rw [named] at ran; cases ran
  | ok addr =>
    rw [named,Exec.ofChecked_bind,Exec.bind_run] at ran
    cases popped : Machine.pop size m with
    | error abort => rw [popped] at ran; cases ran
    | ok answer =>
      obtain ⟨answer,m₁⟩ := answer
      obtain ⟨_,raw,_,rfl,rfl⟩ := Machine.pop_cases popped
      rw [popped] at ran
      simp only [Exec.get_bind] at ran
      cases found : State.at m.state.globals addr with
      | error abort => rw [found] at ran; cases ran
      | ok g =>
        rw [found,Exec.ofChecked_bind] at ran
        cases made : globalValue size g.ty.ty raw with
        | error abort => rw [made] at ran; cases ran
        | ok value => rw [made] at ran; cases ran; exact ⟨rfl,List.length_set⟩

theorem execStraight_shape [Allocator] [Numerics] {ctx : Context} {i : Instruction} {m m' : Machine}
    {r : Except Trap Unit} (ran : execStraight ctx i m = .ok (r,m')) :
    m'.state.shape = {m.state.shape with globals := m'.state.globals} ∧
      m'.state.globals.length = m.state.globals.length := by
  by_cases plain : i.isPlain = true
  · have same := ((straight_uses (K := m.state.shape) i plain).run m r m' rfl ran).1
    have globals : m'.state.globals = m.state.globals := congrArg Shape.globals same
    rw [same,globals]
    exact ⟨rfl,rfl⟩
  · cases i
    case globalSet size global => exact execGlobalSet_shape ran
    all_goals first
      | exact absurd rfl plain
      | cases ran; exact ⟨rfl,rfl⟩

end TinyWasm
