import TinyWasm.Store.Growth
import TinyWasm.Interpreter.HostEffects
import TinyWasm.Interpreter.Through

namespace TinyWasm
open Exec

-- What runs under a host function leaves the store no smaller.
structure Reentry.Grows (reentry : Reentry) : Prop where
  call {store store' : Store} {func : Function} {params : List WasmValue} {r : Except Error (List WasmValue)} :
    reentry.call store func params = .ok (r,store') → store.Grows store'
  callUntyped {store store' : Store} {func : Function} {args : List WasmValue} {r : Except Error (List WasmValue)} :
    reentry.callUntyped store func args = .ok (r,store') → store.Grows store'

namespace Store.Grows
variable {store store' : Store}

-- A store of the same items and instances.
theorem ofItems (state : store'.state = store.state) (instances : store'.moduleInstances = store.moduleInstances) :
    store.Grows store' := by
  refine ⟨?_,instances ▸ List.prefix_refl _,fun numbered idx inst listed => numbered idx inst (instances ▸ listed)⟩
  rw [state]
  exact refl_of _ _

theorem items {mid : Store} (grown : store.Grows mid) (state : store'.state = mid.state)
    (instances : store'.moduleInstances = mid.moduleInstances) : store.Grows store' :=
  trans_of _ grown (ofItems state instances)

theorem entered (entered : store.enterExecution = .ok store') : store.Grows store' := by
  unfold enterExecution at entered
  split at entered
  · cases entered
  · cases entered
    exact ofItems rfl rfl

variable [Allocator] [Host] {reentry : Reentry}

theorem hostFunction (grows : reentry.Grows) {ty : FuncType} {id : Nat} {moduleAddr : ModuleInstanceAddr}
    {args : List WasmValue} {r : Except Error (List WasmValue)}
    (ran : HostFunction.call reentry store ty id moduleAddr args = .ok (r,store')) : store.Grows store' :=
  Reentry.Respects.hostFunction ⟨host,instantiated,fun _ _ => ofItems rfl rfl,grows.call,grows.callUntyped⟩ ran

end Store.Grows

def Machine.Grows (m m' : Machine) : Prop := m.state.Grows m'.state

instance : IsPreorder Machine Machine.Grows where
  refl _ := refl_of State.Grows _
  trans _ _ _ := trans_of State.Grows

namespace Machine.Grows

theorem pop (size : OperandSize) : Along Grows (Machine.pop size) := by
  intro m r m' ran
  obtain ⟨_,_,_,_,rfl⟩ := pop_cases ran
  exact refl_of State.Grows _

theorem localGet (cf : CallFrame) (size : OperandSize) (index : LocalAddr) : Along Grows (Machine.localGet cf size index) := by
  intro m r m' ran
  obtain ⟨rfl,_⟩ := localGet_cases ran
  exact refl_of State.Grows _

theorem popTableOperand (arch : MemoryArch) : Along Grows (TinyWasm.popTableOperand arch) := by
  cases arch with
  | i32 => exact (pop .s32).bind fun _ => .pure _
  | i64 => exact (pop .s64).bind fun _ => .pure _

end Machine.Grows

namespace Executor

-- The same function in the same instance, in a store that may have grown.
structure Keeps (ex ex' : Executor) : Prop where
  funcAddr : ex'.cf.funcAddr = ex.cf.funcAddr
  func : ex'.func = ex.func
  module : ex'.module = ex.module
  store : ex.store.Grows ex'.store

instance : IsPreorder Executor Keeps where
  refl _ := ⟨rfl,rfl,rfl,refl_of _ _⟩
  trans _ _ _ first rest := ⟨rest.funcAddr.trans first.funcAddr,rest.func.trans first.func,
    rest.module.trans first.module,trans_of _ first.store rest.store⟩

def Grows (ex ex' : Executor) : Prop := ex.store.Grows ex'.store

instance : IsPreorder Executor Grows where
  refl _ := refl_of Store.Grows _
  trans _ _ _ := trans_of Store.Grows

end Executor

theorem Exec.Along.grows {α : Type} {x : Executing α} (keeps : Along Executor.Keeps x) : Along Executor.Grows x :=
  fun ex r ex' ran => (keeps ex r ex' ran).store

namespace Executor

namespace Keeps

theorem setStack (ex : Executor) (valueStack : ValueStack) : ex.Keeps (ex.setStack valueStack) :=
  ⟨rfl,rfl,rfl,.ofItems rfl rfl⟩

theorem lift {α : Type} {x : Context → Step α} (grows : ∀ ctx, Along Machine.Grows (x ctx)) :
    Along Keeps (Executor.lift x) := by
  intro ex r ex' ran
  unfold Executor.lift at ran
  rcases stepped : x ex.context ⟨ex.store.valueStack,ex.store.state⟩ with abort | ⟨result,m⟩
  · rw [stepped] at ran; cases ran
  · rw [stepped] at ran
    cases ran
    have grown := grows _ _ _ _ stepped
    exact ⟨rfl,rfl,rfl,grown,List.prefix_refl _,fun numbered => numbered⟩

theorem incrInstrPtr : Along Keeps Executor.incrInstrPtr := .modify fun _ => ⟨rfl,rfl,rfl,refl_of _ _⟩

theorem jump (targetIp : Nat) : Along Keeps (Executor.jump targetIp) := .modify fun _ => ⟨rfl,rfl,rfl,refl_of _ _⟩

theorem jumpIf {condition : Context → Step Bool} (targetIp : Nat) (grows : ∀ ctx, Along Machine.Grows (condition ctx)) :
    Along Keeps (Executor.jumpIf targetIp condition) := by
  refine (lift grows).bind fun taken => ?_
  cases taken with
  | true => exact jump targetIp
  | false => exact incrInstrPtr

theorem execBranchTable (defaultIp start len : Nat) : Along Keeps (Executor.execBranchTable defaultIp start len) := by
  refine (lift fun _ => .pop .s32).bind fun idx => .get fun ex => ?_
  split
  · exact jump _
  · exact jump _

theorem chargeCallFuel (budgeted : Bool) (cost : Nat) : Along Keeps (Executor.chargeCallFuel budgeted cost) := by
  refine .modify fun ex => ?_
  cases budgeted with
  | true => exact ⟨rfl,rfl,rfl,.ofItems rfl rfl⟩
  | false => exact refl_of _ _

theorem onStack (f : ValueStack → Checked ValueStack) : Along Keeps (Executor.onStack f) := by
  intro ex r ex' ran
  unfold Executor.onStack at ran
  rcases changed : f ex.store.valueStack with abort | valueStack
  · rw [changed] at ran; cases ran
  · rw [changed] at ran; cases ran; exact setStack ex _

theorem truncateKeepCounts (base : StackBase) (keep : ValueCounts) : Along Keeps (Executor.truncateKeepCounts base keep) :=
  onStack _

theorem popFrame : Along Keeps Executor.popFrame := .modify fun _ => ⟨rfl,rfl,rfl,.ofItems rfl rfl⟩

theorem indirectCallee (tableAddr : TableAddr) : Along Keeps (Executor.indirectCallee tableAddr) := by
  refine .get fun ex => .checked fun addr _ => .checked fun t _ => (lift fun _ => .popTableOperand _).bind fun idx => ?_
  cases t.get idx with
  | error trap => exact .trap _
  | ok element =>
    dsimp only
    cases element.addr with
    | none => exact .trap _
    | some funcRef => exact .pure funcRef

section Calls
variable [Allocator]

theorem enterLocals (func : WasmFunction) : Along Keeps (Executor.enterLocals func) := .modify fun ex => setStack ex _

theorem pushFrame : Along Keeps Executor.pushFrame := by
  intro ex r ex' ran
  unfold Executor.pushFrame at ran
  split at ran
  · cases ran; exact refl_of _ _
  · cases ran; exact ⟨rfl,rfl,rfl,.ofItems rfl rfl⟩

-- The frame of a call to oneself has the address of the one it comes from.
theorem execCallSelf (budgeted : Bool) : Along Keeps (Executor.execCallSelf budgeted) :=
  (chargeCallFuel _ _).bind fun _ => pushFrame.bind fun _ => .get fun _ => (enterLocals _).bind fun _ =>
    .updates fun _ => ⟨rfl,rfl,rfl,refl_of _ _⟩

theorem execReturnCallSelf (budgeted : Bool) : Along Keeps (Executor.execReturnCallSelf budgeted) :=
  (chargeCallFuel _ _).bind fun _ => .get fun _ => (truncateKeepCounts _ _).bind fun _ => (enterLocals _).bind fun _ =>
    .updates fun _ => ⟨rfl,rfl,rfl,refl_of _ _⟩

variable [Host] {reentry : Reentry}

theorem execCallHost (grows : reentry.Grows) (ty : FuncType) (id : Nat) :
    Along Keeps (Executor.execCallHost reentry ty id) := by
  intro ex r ex' ran
  unfold Executor.execCallHost at ran
  rw [get_bind] at ran
  rcases popped : ex.store.valueStack.popTypes ty.params.reverse with abort | ⟨params,valueStack⟩
  · rw [popped] at ran; cases ran
  rw [popped,ofChecked_bind] at ran
  dsimp only at ran
  rcases called : HostFunction.call reentry (ex.setStack valueStack).store ty id ex.module.idx params.reverse
    with abort | ⟨result,store⟩
  · rw [called] at ran; cases ran
  rw [called,ofChecked_bind] at ran
  dsimp only at ran
  rw [set_bind] at ran
  have after : ex.Keeps {ex with store} :=
    ⟨rfl,rfl,rfl,trans_of _ (setStack ex valueStack).store (Store.Grows.hostFunction grows called)⟩
  cases result with
  | error error => cases ran; exact after
  | ok res =>
    dsimp only at ran
    rw [set_bind] at ran
    exact trans_of _ (trans_of _ after (setStack _ _))
      ((Along.ofExcept (store.valueStack.extendFromWasmValues res).1).bind (fun _ => incrInstrPtr) _ _ _ ran)

end Calls

end Keeps

-- Calls and returns move to another function, and leave the items as they are.
namespace Grows

theorem stackless : Stackless Store.Grows where
  ofStacks _ _ _ := Store.Grows.ofItems rfl rfl
  straight ran := Store.Grows.ofState (Store.Grows.executed ran)

variable [Allocator]

theorem execCall (func : WasmFunction) (owner : ModuleInstanceAddr) (funcAddr : FuncAddr) :
    Along Grows (Executor.execCall func owner funcAddr) := Through.execCall stackless func owner funcAddr

theorem execReturnCall (func : WasmFunction) (owner : ModuleInstanceAddr) (funcAddr : FuncAddr) :
    Along Grows (Executor.execReturnCall func owner funcAddr) := Through.execReturnCall stackless func owner funcAddr

variable [Host] {reentry : Reentry} (grows : reentry.Grows) (budgeted : Bool)
include grows

theorem execCallDirect (v : FuncAddr) : Along Grows (Executor.execCallDirect reentry budgeted v) := by
  refine (Keeps.chargeCallFuel _ _).grows.bind fun _ => .get fun _ => .checked fun addr _ => .checked fun callee _ => ?_
  cases callee with
  | wasm func owner => exact execCall func owner addr
  | host ty id => exact (Keeps.execCallHost grows ty id).grows

theorem execReturnCallDirect (v : FuncAddr) : Along Grows (Executor.execReturnCallDirect reentry budgeted v) := by
  refine (Keeps.chargeCallFuel _ _).grows.bind fun _ => .get fun _ => .checked fun addr _ => .checked fun callee _ => ?_
  cases callee with
  | wasm func owner => exact execReturnCall func owner addr
  | host ty id => exact (Keeps.execCallHost grows ty id).grows

theorem execCallIndirect (isReturnCall : Bool) (typeAddr : TypeAddr) (tableAddr : TableAddr) :
    Along Grows (Executor.execCallIndirect reentry budgeted isReturnCall typeAddr tableAddr) := by
  refine (Keeps.chargeCallFuel _ _).grows.bind fun _ => (Keeps.indirectCallee _).grows.bind fun funcRef =>
    .get fun _ => .checked fun callTy _ => .checked fun callee _ => ?_
  cases callee with
  | wasm func owner =>
    dsimp only
    split
    · exact .trap _
    · split
      · exact execReturnCall func owner funcRef
      · exact execCall func owner funcRef
  | host ty id =>
    dsimp only
    split
    · exact .trap _
    · exact (Keeps.execCallHost grows ty id).grows

end Grows

theorem setFuel_grows (fuel : Nat) : Along Grows (setFuel fuel) := .modify fun _ => Store.Grows.ofItems rfl rfl

section Instructions
variable [Allocator] [Numerics]

theorem straight_grows (ctx : Context) (i : Instruction) : Along Machine.Grows (execStraight ctx i) :=
  fun _ _ _ ran => .ofShape (execStraight_shape ran).1 (execStraight_shape ran).2

theorem Keeps.straight (i : Instruction) :
    Along Keeps (Executor.lift (execStraight · i) >>= fun _ => Executor.incrInstrPtr >>= fun _ => pure false) :=
  (Keeps.lift fun ctx => straight_grows ctx i).bind fun _ => Keeps.incrInstrPtr.bind fun _ => .pure false

-- Whether an instruction may go on in another function.
def leavesFunction : Instruction → Bool
  | .call _ | .callIndirect _ _ | .returnCall _ | .returnCallIndirect _ _ | .return_ | .returnVoid | .returnOne _ => true
  | _ => false

variable [Host] {reentry : Reentry} (budgeted : Bool)

theorem execInstruction_keeps {i : Instruction} (stays : leavesFunction i = false) :
    Along Keeps (execInstruction reentry budgeted i) := by
  have popped (size : OperandSize) (f : Value size → Bool) :
      Along Machine.Grows (Machine.pop size >>= fun v => pure (f v)) := (Machine.Grows.pop size).bind fun _ => .pure _
  have got (cf : CallFrame) (size : OperandSize) (index : LocalAddr) (f : Value size → Bool) :
      Along Machine.Grows (Machine.localGet cf size index >>= fun v => pure (f v)) :=
    (Machine.Grows.localGet cf size index).bind fun _ => .pure _
  cases i
  case unreachable => exact .trap _
  case callSelf => exact (Keeps.execCallSelf budgeted).bind fun _ => .pure false
  case returnCallSelf => exact (Keeps.execReturnCallSelf budgeted).bind fun _ => .pure false
  case jump ip => exact (Keeps.jump ip).bind fun _ => .pure false
  case jumpIfZero width ip => exact (Keeps.jumpIf ip fun _ => popped _ _).bind fun _ => .pure false
  case jumpIfNonZero width ip => exact (Keeps.jumpIf ip fun _ => popped _ _).bind fun _ => .pure false
  case jumpIfLocalZero width ip index => exact (Keeps.jumpIf ip fun _ => got _ _ _ _).bind fun _ => .pure false
  case jumpIfLocalNonZero width ip index => exact (Keeps.jumpIf ip fun _ => got _ _ _ _).bind fun _ => .pure false
  case jumpCmpStackConst width ip imm op => exact (Keeps.jumpIf ip fun _ => popped _ _).bind fun _ => .pure false
  case jumpCmpLocalConst width ip index imm op => exact (Keeps.jumpIf ip fun _ => got _ _ _ _).bind fun _ => .pure false
  case jumpCmpLocalLocal width ip left right op =>
    exact (Keeps.jumpIf ip fun _ => (Machine.Grows.localGet _ _ _).bind fun _ => got _ _ _ _).bind fun _ => .pure false
  case branchTable defaultIp start len => exact (Keeps.execBranchTable defaultIp start len).bind fun _ => .pure false
  all_goals first
    | exact Keeps.straight _
    | cases stays

variable (grows : reentry.Grows)
include grows

theorem execInstruction_grows (i : Instruction) : Along Grows (execInstruction reentry budgeted i) := by
  by_cases stays : leavesFunction i = false
  · exact (execInstruction_keeps budgeted stays).grows
  · cases i
    case call v => exact (Grows.execCallDirect grows budgeted v).bind fun _ => .pure false
    case callIndirect type table => exact (Grows.execCallIndirect grows budgeted false type table).bind fun _ => .pure false
    case returnCall v => exact (Grows.execReturnCallDirect grows budgeted v).bind fun _ => .pure false
    case returnCallIndirect type table =>
      exact (Grows.execCallIndirect grows budgeted true type table).bind fun _ => .pure false
    case return_ => exact Through.execReturn Grows.stackless
    case returnVoid => exact Through.execReturnVoid Grows.stackless
    case returnOne size => exact Through.execReturnOne Grows.stackless size
    all_goals exact absurd rfl stays

theorem exec_grows : Along Grows (exec reentry budgeted) :=
  .get fun _ => .checked fun i _ => execInstruction_grows budgeted grows i

theorem runToCompletion_grows (fuel : Nat) : Along Grows (runToCompletion reentry fuel) := by
  induction fuel with
  | zero => exact .aborts .diverges
  | succ fuel ih =>
    refine (exec_grows false grows).bind fun finished => ?_
    cases finished with
    | true => exact .pure ()
    | false => exact ih

theorem execMany_grows (count : Nat) : Along Grows (execMany reentry budgeted count) := by
  induction count with
  | zero => exact .pure false
  | succ count ih =>
    refine (exec_grows budgeted grows).bind fun finished => ?_
    cases finished with
    | true => exact .pure true
    | false => exact ih

theorem fuelLoop_grows (turns : Nat) : Along Grows (fuelLoop reentry turns) := by
  induction turns with
  | zero => exact .aborts .diverges
  | succ turns ih =>
    refine (execMany_grows true grows chunkSize).bind fun finished => ?_
    cases finished with
    | true => exact .pure ExecState.completed
    | false =>
      refine .get fun ex => (setFuel_grows _).bind fun _ => ?_
      split
      · exact .get fun _ => .pure _
      · exact ih

theorem timeLoop_grows (elapsed : Nat → Bool) (turns asked : Nat) : Along Grows (timeLoop reentry elapsed turns asked) := by
  induction turns generalizing asked with
  | zero => exact .aborts .diverges
  | succ turns ih =>
    refine (execMany_grows false grows chunkSize).bind fun finished => ?_
    cases finished with
    | true => exact .pure ExecState.completed
    | false =>
      by_cases late : elapsed asked = true
      · simp only [Bool.false_eq_true,if_false,if_pos late]
        exact .get fun _ => .pure _
      · simp only [Bool.false_eq_true,if_false,if_neg late]
        exact ih _

theorem budget_grows (fuel : Nat) (budget : Budget) : Along Grows (budget.run reentry fuel) := by
  cases budget with
  | fuel units =>
    refine (setFuel_grows units).bind fun _ => ?_
    split
    · exact .get fun _ => .pure _
    · exact fuelLoop_grows grows units
  | time isZero elapsed =>
    unfold Budget.run runWithTimeBudget
    dsimp only
    split
    · exact .get fun _ => .pure _
    · exact timeLoop_grows grows elapsed fuel 0

end Instructions

end Executor

namespace Store.Grows
variable {store store' : Store}

theorem ran {α : Type} {x : Executing α} (grows : Along Executor.Grows x) {cf : CallFrame} {callStackBase : Nat}
    {r : Except Trap α} (ran : InterpreterRuntime.run x store cf callStackBase = .ok (r,store')) :
    store.Grows store' := by
  unfold InterpreterRuntime.run Executor.new at ran
  rcases found : store.state.wasmFunc cf.funcAddr with abort | ⟨func,owner⟩
  · rw [found] at ran; cases ran
  rcases loaded : State.at store.moduleInstances owner with abort | module
  · rw [found,ok_bind] at ran
    dsimp only at ran
    rw [loaded] at ran
    cases ran
  rw [found,ok_bind] at ran
  dsimp only at ran
  rw [loaded] at ran
  simp only [ok_bind] at ran
  rcases stepped : x ⟨cf,func,module,store,callStackBase⟩ with abort | ⟨result,ex⟩
  · rw [stepped] at ran; cases ran
  · rw [stepped] at ran
    cases ran
    exact grows _ _ _ stepped

theorem finished {ty : FuncType} {r : Except Trap Unit} {res : Except Error (List WasmValue)}
    (ran : store.finishCall ty r = .ok (res,store')) : store.Grows store' := by
  cases r with
  | error trap => cases ran; exact refl_of _ _
  | ok _ =>
    unfold finishCall at ran
    rcases collected : collectCallResults store.valueStack ty with abort | ⟨values,valueStack⟩
    · rw [collected] at ran; cases ran
    · rw [collected] at ran
      cases ran
      exact ofItems rfl rfl

theorem invoked {α : Type} {func : Function} {params : List WasmValue}
    {inner : Store → Checked (Except Error α × Store)} {r : Except Error α}
    (grows : ∀ store r store', inner store = .ok (r,store') → store.Grows store')
    (ran : func.invoke store params inner = .ok (r,store')) : store.Grows store' := by
  unfold Function.invoke at ran
  split at ran
  · cases ran; exact refl_of _ _
  · split at ran
    · cases ran; exact refl_of _ _
    · split at ran
      · cases ran; exact refl_of _ _
      · rename_i after opened
        rcases ended : inner after with abort | ⟨result,last⟩
        · rw [ended] at ran; cases ran
        · rw [ended] at ran
          cases ran
          exact (trans_of _ (entered opened) (grows _ _ _ ended)).items rfl rfl

variable [Allocator]

theorem framed (store : Store) (funcAddr : FuncAddr) (func : WasmFunction) (params : List WasmValue) :
    store.Grows (store.enterFrame funcAddr func params).2 := by
  unfold enterFrame
  dsimp only
  split
  · exact ofItems rfl rfl
  · exact ofItems rfl rfl

variable [Host] [Numerics] {reentry : Reentry} (grows : reentry.Grows) (fuel : Nat)
include grows

theorem callInner {func : Function} {params : List WasmValue} {r : Except Error (List WasmValue)}
    (ran : func.callInner reentry fuel params store = .ok (r,store')) : store.Grows store' := by
  unfold Function.callInner at ran
  rcases found : State.at store.state.funcs func.addr with abort | ⟨ty,id⟩ | ⟨wasmFunc,owner⟩
  · rw [found] at ran; cases ran
  · rw [found] at ran
    exact hostFunction grows ran
  · rw [found,ok_bind] at ran
    dsimp only at ran
    have cleared : store.Grows store.clearStacks := ofItems rfl rfl
    have framed := framed store.clearStacks func.addr wasmFunc params
    rcases entered : store.clearStacks.enterFrame func.addr wasmFunc params with ⟨trap | cf,after⟩
    · rw [entered] at ran framed
      cases ran
      exact trans_of _ cleared framed
    · rw [entered] at ran framed
      dsimp only at ran
      rcases ended : InterpreterRuntime.run (Executor.runToCompletion reentry fuel) after cf 0 with abort | ⟨result,last⟩
      · rw [ended] at ran; cases ran
      · rw [ended] at ran
        exact trans_of _ (trans_of _ cleared framed)
          (trans_of _ (Grows.ran (Executor.runToCompletion_grows grows fuel) ended) (finished ran))

theorem call {func : Function} {params : List WasmValue} {r : Except Error (List WasmValue)}
    (ran : Function.call reentry fuel store func params = .ok (r,store')) : store.Grows store' :=
  invoked (fun _ _ _ => callInner grows fuel) ran

theorem callUntyped {func : Function} {args : List WasmValue} {r : Except Error (List WasmValue)}
    (ran : FuncContext.callUntyped reentry fuel store func args = .ok (r,store')) : store.Grows store' := by
  unfold FuncContext.callUntyped at ran
  split at ran
  · cases ran; exact refl_of _ _
  · split at ran
    · cases ran; exact refl_of _ _
    · split at ran
      · cases ran; exact refl_of _ _
      · rcases found : State.at store.state.funcs func.addr with abort | ⟨ty,id⟩ | ⟨wasmFunc,owner⟩
        · rw [found] at ran; cases ran
        · rw [found] at ran
          exact hostFunction grows ran
        · rw [found,ok_bind] at ran
          dsimp only at ran
          have framed := framed store func.addr wasmFunc args
          rcases entered : store.enterFrame func.addr wasmFunc args with ⟨trap | cf,after⟩
          · rw [entered] at ran framed
            cases ran
            exact framed.items rfl rfl
          · rw [entered] at ran framed
            dsimp only at ran
            rcases ended : InterpreterRuntime.run (Executor.runToCompletion reentry fuel) after cf store.callStack.len
              with abort | ⟨trap | _,last⟩
            · rw [ended] at ran; cases ran
            · rw [ended] at ran
              cases ran
              exact (trans_of _ framed (Grows.ran (Executor.runToCompletion_grows grows fuel) ended)).items rfl rfl
            · rw [ended,ok_bind] at ran
              exact trans_of _ framed
                (trans_of _ (Grows.ran (Executor.runToCompletion_grows grows fuel) ended) (finished ran))

omit [Numerics] in
theorem callResumable {func : Function} {params : List WasmValue} {r : Except Error FuncExecutionState}
    (ran : Function.callResumable reentry store func params = .ok (r,store')) : store.Grows store' := by
  refine invoked (fun store r store' ran => ?_) ran
  unfold Function.callResumableInner at ran
  rcases found : State.at store.state.funcs func.addr with abort | ⟨ty,id⟩ | ⟨wasmFunc,owner⟩
  · rw [found] at ran; cases ran
  · rw [found,ok_bind] at ran
    dsimp only at ran
    rcases called : HostFunction.call reentry store ty id func.moduleAddr params with abort | ⟨result,after⟩
    · rw [called] at ran; cases ran
    · rw [called] at ran
      cases ran
      exact hostFunction grows called
  · rw [found] at ran
    cases ran
    have cleared : store.Grows store.clearStacks := ofItems rfl rfl
    exact trans_of _ cleared (framed store.clearStacks func.addr wasmFunc params)

theorem resumed {execution execution' : FuncExecutionState} {budget : Budget} {r : Except Error ExecProgress}
    (ran : execution.resume reentry fuel store budget = .ok (r,execution',store')) : store.Grows store' := by
  unfold FuncExecutionState.resume at ran
  rcases execution with ⟨callframe,root⟩ | (_ | res)
  · dsimp only at ran
    split at ran
    · cases ran; exact refl_of _ _
    · rename_i after opened
      rcases ended : InterpreterRuntime.run (budget.run reentry fuel) after callframe 0 with abort | ⟨result,last⟩
      · rw [ended] at ran; cases ran
      · rw [ended,ok_bind] at ran
        have grown := trans_of _ (entered opened) (Grows.ran (Executor.budget_grows grows fuel budget) ended)
        rcases result with trap | cf | _
        · cases ran; exact grown.items rfl rfl
        · dsimp only at ran
          rcases found : State.at last.exitExecution.state.funcs root with abort | func
          · rw [found] at ran; cases ran
          rw [found,ok_bind] at ran
          rcases collected : collectCallResults last.exitExecution.valueStack func.ty with abort | ⟨values,valueStack⟩
          · rw [collected] at ran; cases ran
          · rw [collected] at ran
            cases ran
            exact grown.items rfl rfl
        · cases ran; exact grown.items rfl rfl
  · cases ran; exact refl_of _ _
  · cases ran; exact refl_of _ _

end Store.Grows

theorem InterpreterRuntime.reentry_grows [Allocator] [Host] [Numerics] (fuel : Nat) :
    (InterpreterRuntime.reentry fuel).Grows := by
  induction fuel with
  | zero => exact ⟨nofun,nofun⟩
  | succ fuel ih => exact ⟨Store.Grows.call ih fuel,Store.Grows.callUntyped ih fuel⟩

end TinyWasm
