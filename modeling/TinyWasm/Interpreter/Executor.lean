import TinyWasm.Interpreter.Host
import TinyWasm.Interpreter.Straight

namespace TinyWasm

-- The frame that runs, and what the executor keeps at hand of it: the body of
-- its function and the instance that owns it.
structure Executor where
  cf : CallFrame
  func : WasmFunction
  module : Instance
  store : Store
  callStackBase : Nat

abbrev Executing := Exec Executor

def State.wasmFunc (s : State) (addr : FuncAddr) : Checked (WasmFunction × ModuleInstanceAddr) :=
  match s.funcs[addr]? with
  | some (.wasm func owner) => .ok (func,owner)
  | _ => .error .panic

namespace Executor

def new (store : Store) (cf : CallFrame) (callStackBase : Nat) : Checked Executor := do
  let (func,owner) ← store.state.wasmFunc cf.funcAddr
  let module ← State.at store.moduleInstances owner
  .ok ⟨cf,func,module,store,callStackBase⟩

def context (ex : Executor) : Context := ⟨ex.cf,ex.func,ex.module.toModuleInstance,ex.store.config⟩

def setStack (ex : Executor) (valueStack : ValueStack) : Executor := {ex with store := {ex.store with valueStack}}

-- A part that works on the value stack and the items of the store alone.
def lift {α : Type} (x : Context → Step α) : Executing α := fun ex => do
  let (r,m) ← x ex.context ⟨ex.store.valueStack,ex.store.state⟩
  .ok (r,{ex with store := {ex.store with valueStack := m.valueStack,state := m.state}})

def incrInstrPtr : Executing Unit := fun ex => .ok (.ok (),{ex with cf := ex.cf.incrInstrPtr})

def jump (targetIp : Nat) : Executing Unit := fun ex => .ok (.ok (),{ex with cf := {ex.cf with instrPtr := targetIp}})

-- A jump that is not taken falls through to the next instruction.
def jumpIf (targetIp : Nat) (condition : Context → Step Bool) : Executing Unit := do
  if ← lift condition then jump targetIp else incrInstrPtr

def execBranchTable (defaultIp start len : Nat) : Executing Unit := do
  let idx ← lift fun _ => Machine.pop .s32
  let ex ← .get
  if 0 ≤ idx.toInt ∧ idx.toNat < len then
    jump (ex.func.data.branchTableTargets[(start + idx.toNat) % 2 ^ 32]?.getD defaultIp)
  else jump defaultIp

def fuelCostCallTotal : Nat := 5

def chargeCallFuel (budgeted : Bool) (totalFuelCost : Nat) : Executing Unit := fun ex =>
  let extra := match ex.store.config.fuelPolicy with
    | .perInstruction => 0
    | .weighted => totalFuelCost - 1
  .ok (.ok (),if budgeted then {ex with store := {ex.store with executionFuel := ex.store.executionFuel - extra}} else ex)

def onStack (f : ValueStack → Checked ValueStack) : Executing Unit := fun ex => do
  let valueStack ← f ex.store.valueStack
  .ok (.ok (),ex.setStack valueStack)

def truncateKeepCounts (base : StackBase) (keep : ValueCounts) : Executing Unit :=
  onStack fun stack => .ok (stack.truncateKeepCounts base keep)

-- The instance is loaded anew only for another owner.
def enterModule (owner : ModuleInstanceAddr) : Executing Unit := do
  let ex ← .get
  if owner ≠ ex.module.idx then do
    let module ← .ofChecked (State.at ex.store.moduleInstances owner)
    .set {ex with module}
  else pure ()

-- pop_frame, and what is left of the call stack.
def popFrame : Executing (Option CallFrame) := fun ex =>
  let (caller,callStack) := ex.store.callStack.popFrame ex.callStackBase
  .ok (.ok caller,{ex with store := {ex.store with callStack}})

-- Whether the outermost frame has returned. A caller of the same function runs
-- the same body in the same instance.
def finishReturn : Executing Bool := do
  match ← popFrame with
  | none => pure true
  | some caller => do
    let ex ← .get
    if caller.funcAddr = ex.cf.funcAddr then do
      .set {ex with cf := caller}
      pure false
    else do
      let (func,owner) ← .ofChecked (ex.store.state.wasmFunc caller.funcAddr)
      .set {ex with func}
      enterModule owner
      let ex ← .get
      .set {ex with cf := caller}
      pure false

def execReturn : Executing Bool := do
  let ex ← .get
  truncateKeepCounts ex.cf.localsBase ex.func.results
  finishReturn

def execReturnVoid : Executing Bool := do
  let ex ← .get
  onStack fun stack => .ok (stack.truncateToBase ex.cf.localsBase)
  finishReturn

-- exec_return_32, exec_return_64 and exec_return_128.
def execReturnOne (size : OperandSize) : Executing Bool := do
  let ex ← .get
  onStack fun stack => do
    let kept ← (stack.lane size).truncateToOneTail (ex.cf.localsBase size)
    .ok ((stack.truncateToBase ex.cf.localsBase).setLane size kept)
  finishReturn

section Calls
variable [Allocator]

-- A stack that cannot take the locals is reported as an overflow of calls.
def enterLocals (func : WasmFunction) : Executing StackBase := fun ex =>
  let (r,valueStack) := ex.store.valueStack.enterLocals func.params func.locals
  .ok (r.mapError fun _ => .callStackOverflow,ex.setStack valueStack)

def pushFrame : Executing Unit := fun ex =>
  match ex.store.callStack.push ex.cf with
  | .error trap => .ok (.error trap,ex)
  | .ok callStack => .ok (.ok (),{ex with store := {ex.store with callStack}})

-- Arc::ptr_eq only spares the assignment of a body that is there already.
def execCall (func : WasmFunction) (owner : ModuleInstanceAddr) (funcAddr : FuncAddr) : Executing Unit := do
  let ex ← .get
  .set {ex with func}
  let localsBase ← enterLocals func
  pushFrame
  let ex ← .get
  .set {ex with cf := .new funcAddr localsBase func.locals}
  enterModule owner

def execReturnCall (func : WasmFunction) (owner : ModuleInstanceAddr) (funcAddr : FuncAddr) : Executing Unit := do
  let ex ← .get
  .set {ex with func}
  truncateKeepCounts ex.cf.localsBase func.params
  let localsBase ← enterLocals func
  let ex ← .get
  .set {ex with cf := .new funcAddr localsBase func.locals}
  enterModule owner

variable [Host] (reentry : Reentry) (budgeted : Bool)

def execCallHost (ty : FuncType) (id : Nat) : Executing Unit := do
  let ex ← .get
  let (params,valueStack) ← .ofChecked (ex.store.valueStack.popTypes ty.params.reverse)
  let (r,store) ← .ofChecked
    (HostFunction.call reentry (ex.setStack valueStack).store ty id ex.module.idx params.reverse)
  .set {ex with store}
  match r with
  | .error error => .trap (.hostFunction error)
  | .ok res => do
    let (r,valueStack) := store.valueStack.extendFromWasmValues res
    .set ({ex with store}.setStack valueStack)
    .ofExcept r
    incrInstrPtr

def execCallDirect (v : FuncAddr) : Executing Unit := do
  chargeCallFuel budgeted fuelCostCallTotal
  let ex ← .get
  let addr ← .ofChecked (State.at ex.module.funcAddrs v)
  match ← .ofChecked (State.at ex.store.state.funcs addr) with
  | .wasm func owner => execCall func owner addr
  | .host ty id => execCallHost reentry ty id

def execReturnCallDirect (v : FuncAddr) : Executing Unit := do
  chargeCallFuel budgeted fuelCostCallTotal
  let ex ← .get
  let addr ← .ofChecked (State.at ex.module.funcAddrs v)
  match ← .ofChecked (State.at ex.store.state.funcs addr) with
  | .wasm func owner => execReturnCall func owner addr
  | .host ty id => execCallHost reentry ty id

omit [Host] in
def execCallSelf : Executing Unit := do
  chargeCallFuel budgeted fuelCostCallTotal
  pushFrame
  let ex ← .get
  let localsBase ← enterLocals ex.func
  let ex ← .get
  .set {ex with cf := .new ex.cf.funcAddr localsBase ex.func.locals}

def execReturnCallSelf : Executing Unit := do
  chargeCallFuel budgeted fuelCostCallTotal
  let ex ← .get
  truncateKeepCounts ex.cf.localsBase ex.func.params
  let localsBase ← enterLocals ex.func
  let ex ← .get
  .set {ex with cf := .new ex.cf.funcAddr localsBase ex.func.locals}

-- The function an element of the table refers to.
def indirectCallee (tableAddr : TableAddr) : Executing FuncAddr := do
  let ex ← .get
  let addr ← .ofChecked (State.at ex.module.tableAddrs tableAddr)
  let t ← .ofChecked (State.at ex.store.state.tables addr)
  let idx ← lift fun _ => popTableOperand t.kind.arch
  match t.get idx with
  | .error _ => .trap (.undefinedElement idx)
  | .ok element =>
    match element.addr with
    | none => .trap (.uninitializedElement idx)
    | some funcRef => pure funcRef

-- A host function is called in place, also by a tail call.
def execCallIndirect (isReturnCall : Bool) (typeAddr : TypeAddr) (tableAddr : TableAddr) : Executing Unit := do
  chargeCallFuel budgeted fuelCostCallTotal
  let funcRef ← indirectCallee tableAddr
  let ex ← .get
  let callTy ← .ofChecked (State.at ex.module.types typeAddr)
  match ← .ofChecked (State.at ex.store.state.funcs funcRef) with
  | .wasm func owner =>
    if func.ty ≠ callTy then .trap (.indirectCallTypeMismatch callTy func.ty)
    else if isReturnCall then execReturnCall func owner funcRef
    else execCall func owner funcRef
  | .host ty id =>
    if ty ≠ callTy then .trap (.indirectCallTypeMismatch callTy ty) else execCallHost reentry ty id

variable [Numerics]

-- One instruction, and whether it was the return of the outermost frame.
def execInstruction : Instruction → Executing Bool
  | .unreachable => .trap .unreachable
  | .call v => do execCallDirect reentry budgeted v; pure false
  | .callSelf => do execCallSelf budgeted; pure false
  | .callIndirect type table => do execCallIndirect reentry budgeted false type table; pure false
  | .returnCall v => do execReturnCallDirect reentry budgeted v; pure false
  | .returnCallSelf => do execReturnCallSelf budgeted; pure false
  | .returnCallIndirect type table => do execCallIndirect reentry budgeted true type table; pure false
  | .jump ip => do jump ip; pure false
  | .jumpIfZero width ip => do
    jumpIf ip fun _ => do return (← Machine.pop width.size) == 0
    pure false
  | .jumpIfNonZero width ip => do
    jumpIf ip fun _ => do return (← Machine.pop width.size) != 0
    pure false
  | .jumpIfLocalZero width ip index => do
    jumpIf ip fun ctx => do return (← Machine.localGet ctx.cf width.size index) == 0
    pure false
  | .jumpIfLocalNonZero width ip index => do
    jumpIf ip fun ctx => do return (← Machine.localGet ctx.cf width.size index) != 0
    pure false
  | .jumpCmpStackConst width ip imm op => do
    jumpIf ip fun _ => do return op.eval (← Machine.pop width.size) imm
    pure false
  | .jumpCmpLocalConst width ip index imm op => do
    jumpIf ip fun ctx => do return op.eval (← Machine.localGet ctx.cf width.size index) (imm.signExtend _)
    pure false
  | .jumpCmpLocalLocal width ip left right op => do
    jumpIf ip fun ctx => do
      let lhs ← Machine.localGet ctx.cf width.size left
      let rhs ← Machine.localGet ctx.cf width.size right
      return op.eval lhs rhs
    pure false
  | .branchTable defaultIp start len => do execBranchTable defaultIp start len; pure false
  | .return_ => execReturn
  | .returnVoid => execReturnVoid
  | .returnOne size => execReturnOne size
  | i => do
    lift fun ctx => execStraight ctx i
    incrInstrPtr
    pure false

def exec : Executing Bool := do
  let ex ← .get
  let i ← .ofChecked (State.at ex.func.instructions ex.cf.instrPtr)
  execInstruction reentry budgeted i

end Calls

end Executor

end TinyWasm
