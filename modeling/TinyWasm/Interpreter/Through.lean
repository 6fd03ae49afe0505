import TinyWasm.Interpreter.Effects
import TinyWasm.Interpreter.Runtime

namespace TinyWasm
open Exec

def Machine.SameState (m m' : Machine) : Prop := m'.state = m.state

instance : IsPreorder Machine Machine.SameState where
  refl _ := rfl
  trans _ _ _ first rest := rest.trans first

namespace Machine.SameState

theorem pop (size : OperandSize) : Along SameState (Machine.pop size) := by
  intro m r m' ran
  obtain ⟨_,_,_,_,rfl⟩ := Machine.pop_cases ran
  exact refl_of SameState _

theorem localGet (cf : CallFrame) (size : OperandSize) (index : LocalAddr) : Along SameState (Machine.localGet cf size index) := by
  intro m r m' ran
  obtain ⟨rfl,_⟩ := Machine.localGet_cases ran
  exact refl_of SameState _

theorem popTableOperand (arch : MemoryArch) : Along SameState (TinyWasm.popTableOperand arch) := by
  cases arch with
  | i32 => exact (pop .s32).bind fun _ => .pure _
  | i64 => exact (pop .s64).bind fun _ => .pure _

end Machine.SameState

namespace Executor

theorem new_store {store : Store} {cf : CallFrame} {callStackBase : Nat} {ex : Executor}
    (made : Executor.new store cf callStackBase = .ok ex) : ex.store = store := by
  unfold Executor.new at made
  rcases found : store.state.wasmFunc cf.funcAddr with abort | ⟨func,owner⟩
  · rw [found] at made; cases made
  rcases loaded : State.at store.moduleInstances owner with abort | module
  · simp only [found,ok_bind,loaded] at made
    cases made
  · simp only [found,ok_bind,loaded] at made
    cases made
    rfl

-- The instance of an owner, loaded or at hand.
def Finds (ex : Executor) (owner : ModuleInstanceAddr) (module : Instance) : Prop :=
  ex.store.moduleInstances[owner]? = some module ∨ (owner = ex.module.idx ∧ module = ex.module)

theorem enterModule_cases {owner : ModuleInstanceAddr} {ex ex' : Executor} {r : Except Trap Unit}
    (ran : enterModule owner ex = .ok (r,ex')) : r = .ok () ∧ ∃ module, ex.Finds owner module ∧ ex' = {ex with module} := by
  unfold enterModule at ran
  rw [get_bind] at ran
  split at ran
  · cases found : State.at ex.store.moduleInstances owner with
    | error abort => rw [found] at ran; cases ran
    | ok module =>
      rw [found] at ran
      cases ran
      exact ⟨rfl,module,.inl (State.at_some_iff.mp found),rfl⟩
  · rename_i same
    cases ran
    exact ⟨rfl,ex.module,.inr ⟨Decidable.of_not_not same,rfl⟩,rfl⟩

theorem State.wasmFunc_some {s : State} {addr : FuncAddr} {func : WasmFunction} {owner : ModuleInstanceAddr}
    (found : s.wasmFunc addr = .ok (func,owner)) : s.funcs[addr]? = some (.wasm func owner) := by
  unfold State.wasmFunc at found
  split at found
  · rename_i listed
    cases found
    exact listed
  · cases found

-- A return ends the run, comes back to a frame of the same function, or takes
-- the caller's function and instance from the store.
theorem finishReturn_cases {ex ex' : Executor} {r : Except Trap Bool} (ran : finishReturn ex = .ok (r,ex')) :
    ∃ callStack, (r = .ok true ∧ ex' = {ex with store := {ex.store with callStack}}) ∨
      ∃ caller : CallFrame, r = .ok false ∧
        ((caller.funcAddr = ex.cf.funcAddr ∧ ex' = {ex with cf := caller,store := {ex.store with callStack}}) ∨
        ∃ func owner module, ex.store.state.funcs[caller.funcAddr]? = some (.wasm func owner) ∧ ex.Finds owner module ∧
          ex' = {ex with cf := caller,func,module,store := {ex.store with callStack}}) := by
  unfold finishReturn at ran
  rcases popped : ex.store.callStack.popFrame ex.callStackBase with ⟨caller,callStack⟩
  have stepped : popFrame ex = .ok (.ok caller,{ex with store := {ex.store with callStack}}) := by
    unfold popFrame
    rw [popped]
  rw [bind_ok stepped] at ran
  refine ⟨callStack,?_⟩
  cases caller with
  | none => cases ran; exact .inl ⟨rfl,rfl⟩
  | some caller =>
    dsimp only at ran
    rw [get_bind] at ran
    split at ran
    · rename_i same
      cases ran
      exact .inr ⟨caller,rfl,.inl ⟨same,rfl⟩⟩
    · rcases found : ex.store.state.wasmFunc caller.funcAddr with abort | ⟨func,owner⟩
      · rw [found] at ran; cases ran
      · rw [found,ofChecked_bind] at ran
        dsimp only at ran
        rw [set_bind,bind_run] at ran
        rcases entered : enterModule owner {ex with func,store := {ex.store with callStack}} with abort | ⟨r',ex₁⟩
        · rw [entered] at ran; cases ran
        · rw [entered] at ran
          obtain ⟨rfl,module,finds,rfl⟩ := enterModule_cases entered
          cases ran
          exact .inr ⟨caller,rfl,.inr ⟨func,owner,module,State.wasmFunc_some found,finds,rfl⟩⟩

-- What holds between the stores of two executors.
def Through (R : Store → Store → Prop) (ex ex' : Executor) : Prop := R ex.store ex'.store

section Through
variable {R : Store → Store → Prop} [IsPreorder Store R]

instance : IsPreorder Executor (Through R) where
  refl ex := refl_of R ex.store
  trans _ _ _ := trans_of R

-- A relation that the stacks have no part in, and that no instruction breaks by
-- what it does to the items of the store.
structure Stackless (R : Store → Store → Prop) : Prop where
  ofStacks (store : Store) (callStack : CallStack) (valueStack : ValueStack) : R store {store with callStack,valueStack}
  straight [Allocator] [Numerics] {store : Store} {ctx : Context} {i : Instruction} {valueStack : ValueStack} {r : Except Trap Unit}
    {m : Machine} : execStraight ctx i ⟨valueStack,store.state⟩ = .ok (r,m) → R store {store with state := m.state}

namespace Through
variable (stackless : Stackless R)
include stackless

omit [IsPreorder Store R] in
theorem setStack (ex : Executor) (valueStack : ValueStack) : Through R ex (ex.setStack valueStack) :=
  stackless.ofStacks ex.store ex.store.callStack valueStack

omit [IsPreorder Store R] in
theorem liftSame {α : Type} {x : Context → Step α} (same : ∀ ctx, Along Machine.SameState (x ctx)) :
    Along (Through R) (Executor.lift x) := by
  intro ex r ex' ran
  unfold Executor.lift at ran
  rcases stepped : x ex.context ⟨ex.store.valueStack,ex.store.state⟩ with abort | ⟨result,m⟩
  · rw [stepped] at ran; cases ran
  · rw [stepped] at ran
    cases ran
    have kept : m.state = ex.store.state := same _ _ _ _ stepped
    change R ex.store {ex.store with valueStack := m.valueStack,state := m.state}
    rw [kept]
    exact setStack stackless ex m.valueStack

omit stackless in
theorem jump (targetIp : Nat) : Along (Through R) (Executor.jump targetIp) := .modify fun ex => refl_of R ex.store

omit stackless in
theorem incrInstrPtr : Along (Through R) Executor.incrInstrPtr := .modify fun ex => refl_of R ex.store

theorem jumpIf {condition : Context → Step Bool} (targetIp : Nat) (same : ∀ ctx, Along Machine.SameState (condition ctx)) :
    Along (Through R) (Executor.jumpIf targetIp condition) := by
  refine (liftSame stackless same).bind fun taken => ?_
  cases taken with
  | true => exact jump targetIp
  | false => exact incrInstrPtr

theorem execBranchTable (defaultIp start len : Nat) : Along (Through R) (Executor.execBranchTable defaultIp start len) := by
  refine (liftSame stackless fun _ => .pop .s32).bind fun idx => .get fun ex => ?_
  split
  · exact jump _
  · exact jump _

omit [IsPreorder Store R] in
theorem onStack (f : ValueStack → Checked ValueStack) : Along (Through R) (Executor.onStack f) := by
  intro ex r ex' ran
  unfold Executor.onStack at ran
  rcases changed : f ex.store.valueStack with abort | valueStack
  · rw [changed] at ran; cases ran
  · rw [changed] at ran; cases ran; exact setStack stackless ex _

omit [IsPreorder Store R] in
theorem truncateKeepCounts (base : StackBase) (keep : ValueCounts) : Along (Through R) (Executor.truncateKeepCounts base keep) :=
  onStack stackless _

theorem indirectCallee (tableAddr : TableAddr) : Along (Through R) (Executor.indirectCallee tableAddr) := by
  refine .get fun ex => .checked fun addr _ => .checked fun t _ =>
    (liftSame stackless fun _ => .popTableOperand _).bind fun idx => ?_
  cases t.get idx with
  | error trap => exact .trap _
  | ok element =>
    dsimp only
    cases element.addr with
    | none => exact .trap _
    | some funcRef => exact .pure funcRef

omit stackless in
theorem enterModule (owner : ModuleInstanceAddr) : Along (Through R) (Executor.enterModule owner) := by
  intro ex r ex' ran
  obtain ⟨_,module,_,rfl⟩ := enterModule_cases ran
  exact refl_of R ex.store

omit [IsPreorder Store R] in
theorem finishReturn : Along (Through R) Executor.finishReturn := by
  intro ex r ex' ran
  obtain ⟨callStack,⟨_,rfl⟩ | ⟨_,_,⟨_,rfl⟩ | ⟨_,_,_,_,_,rfl⟩⟩⟩ := finishReturn_cases ran
  all_goals exact stackless.ofStacks ex.store callStack ex.store.valueStack

theorem execReturn : Along (Through R) Executor.execReturn :=
  .get fun _ => (truncateKeepCounts stackless _ _).bind fun _ => finishReturn stackless

theorem execReturnVoid : Along (Through R) Executor.execReturnVoid :=
  .get fun _ => (onStack stackless _).bind fun _ => finishReturn stackless

theorem execReturnOne (size : OperandSize) : Along (Through R) (Executor.execReturnOne size) :=
  .get fun _ => (onStack stackless _).bind fun _ => finishReturn stackless

variable [Allocator]

omit [IsPreorder Store R] in
theorem enterLocals (func : WasmFunction) : Along (Through R) (Executor.enterLocals func) :=
  .modify fun ex => setStack stackless ex _

theorem pushFrame : Along (Through R) Executor.pushFrame := by
  intro ex r ex' ran
  unfold Executor.pushFrame at ran
  split at ran
  · cases ran; exact refl_of R ex.store
  · rename_i callStack _
    cases ran
    exact stackless.ofStacks ex.store callStack ex.store.valueStack

theorem execCall (func : WasmFunction) (owner : ModuleInstanceAddr) (funcAddr : FuncAddr) :
    Along (Through R) (Executor.execCall func owner funcAddr) := by
  refine .update (fun ex => refl_of R ex.store) fun _ => ?_
  refine (enterLocals stackless _).bind fun _ => (pushFrame stackless).bind fun _ => ?_
  exact .update (fun ex => refl_of R ex.store) fun _ => enterModule owner

theorem execReturnCall (func : WasmFunction) (owner : ModuleInstanceAddr) (funcAddr : FuncAddr) :
    Along (Through R) (Executor.execReturnCall func owner funcAddr) := by
  refine .update (fun ex => refl_of R ex.store) fun _ => ?_
  refine (truncateKeepCounts stackless _ _).bind fun _ => (enterLocals stackless _).bind fun _ => ?_
  exact .update (fun ex => refl_of R ex.store) fun _ => enterModule owner

-- Calls to oneself, once they are paid for.
theorem selfCall : Along (Through R) (Executor.pushFrame >>= fun _ => Exec.get >>= fun ex => Executor.enterLocals ex.func >>= fun localsBase =>
    Exec.get >>= fun ex => .set {ex with cf := .new ex.cf.funcAddr localsBase ex.func.locals}) :=
  (pushFrame stackless).bind fun _ => .get fun _ => (enterLocals stackless _).bind fun _ => .updates fun ex => refl_of R ex.store

theorem selfReturnCall : Along (Through R) (Exec.get >>= fun ex => Executor.truncateKeepCounts ex.cf.localsBase ex.func.params >>= fun _ =>
    Executor.enterLocals ex.func >>= fun localsBase =>
    Exec.get >>= fun ex => .set {ex with cf := .new ex.cf.funcAddr localsBase ex.func.locals}) :=
  .get fun _ => (truncateKeepCounts stackless _ _).bind fun _ => (enterLocals stackless _).bind fun _ =>
    .updates fun ex => refl_of R ex.store

variable [Numerics]

theorem straight (i : Instruction) :
    Along (Through R) (Executor.lift (execStraight · i) >>= fun _ => Executor.incrInstrPtr >>= fun _ => pure false) := by
  refine Along.bind (fun ex r ex' ran => ?_) fun _ => incrInstrPtr.bind fun _ => .pure false
  unfold Executor.lift at ran
  dsimp only at ran
  rcases stepped : execStraight ex.context i ⟨ex.store.valueStack,ex.store.state⟩ with abort | ⟨result,m⟩
  · rw [stepped] at ran; cases ran
  · rw [stepped] at ran
    cases ran
    exact trans_of R (stackless.straight stepped) (stackless.ofStacks {ex.store with state := m.state} ex.store.callStack m.valueStack)

end Through

end Through

-- The instructions that call, and those of them that may go on in another
-- instance.
def callsFunction : Instruction → Bool
  | .call _ | .callSelf | .callIndirect _ _ | .returnCall _ | .returnCallSelf | .returnCallIndirect _ _ => true
  | _ => false

theorem execInstruction_through [Allocator] [Host] [Numerics] {R : Store → Store → Prop} [IsPreorder Store R] (stackless : Stackless R)
    {reentry : Reentry} (budgeted : Bool) {i : Instruction} (plain : callsFunction i = false) :
    Along (Through R) (execInstruction reentry budgeted i) := by
  have popped (size : OperandSize) (f : Value size → Bool) :
      Along Machine.SameState (Machine.pop size >>= fun v => pure (f v)) := (Machine.SameState.pop size).bind fun _ => .pure _
  have got (cf : CallFrame) (size : OperandSize) (index : LocalAddr) (f : Value size → Bool) :
      Along Machine.SameState (Machine.localGet cf size index >>= fun v => pure (f v)) :=
    (Machine.SameState.localGet cf size index).bind fun _ => .pure _
  have jumps {ip : Nat} {condition : Context → Step Bool} (same : ∀ ctx, Along Machine.SameState (condition ctx)) :
      Along (Through R) (jumpIf ip condition >>= fun _ => pure false) := (Through.jumpIf stackless ip same).bind fun _ => .pure false
  cases i
  case unreachable => exact .trap _
  case jump ip => exact (Through.jump ip).bind fun _ => .pure false
  case jumpIfZero width ip => exact jumps fun _ => popped _ _
  case jumpIfNonZero width ip => exact jumps fun _ => popped _ _
  case jumpIfLocalZero width ip index => exact jumps fun _ => got _ _ _ _
  case jumpIfLocalNonZero width ip index => exact jumps fun _ => got _ _ _ _
  case jumpCmpStackConst width ip imm op => exact jumps fun _ => popped _ _
  case jumpCmpLocalConst width ip index imm op => exact jumps fun _ => got _ _ _ _
  case jumpCmpLocalLocal width ip left right op =>
    exact jumps fun _ => (Machine.SameState.localGet _ _ _).bind fun _ => got _ _ _ _
  case branchTable defaultIp start len => exact (Through.execBranchTable stackless defaultIp start len).bind fun _ => .pure false
  case return_ => exact Through.execReturn stackless
  case returnVoid => exact Through.execReturnVoid stackless
  case returnOne size => exact Through.execReturnOne stackless size
  all_goals first
    | exact Through.straight stackless _
    | cases plain

end Executor

end TinyWasm
