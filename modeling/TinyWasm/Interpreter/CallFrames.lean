import TinyWasm.Interpreter.ExecutorGrowth

namespace TinyWasm
open Exec

-- A part that runs within an invocation leaves the frames on the call stack.
structure Store.SameFrames (store store' : Store) : Prop where
  active : store.executionActive = true → store'.executionActive = true
  frames : store.executionActive = true → store'.callStack.stack = store.callStack.stack

instance : IsPreorder Store Store.SameFrames where
  refl _ := ⟨id,fun _ => rfl⟩
  trans _ _ _ first rest := ⟨fun runs => rest.active (first.active runs),
    fun runs => (rest.frames (first.active runs)).trans (first.frames runs)⟩

structure Reentry.SameFrames (reentry : Reentry) : Prop where
  call {store store' : Store} {func : Function} {params : List WasmValue} {r : Except Error (List WasmValue)} :
    reentry.call store func params = .ok (r,store') → store.SameFrames store'
  callUntyped {store store' : Store} {func : Function} {args : List WasmValue} {r : Except Error (List WasmValue)} :
    reentry.callUntyped store func args = .ok (r,store') → store.SameFrames store'

namespace Store.SameFrames
variable {store store' : Store}

theorem of (active : store'.executionActive = store.executionActive) (callStack : store'.callStack = store.callStack) :
    store.SameFrames store' := ⟨fun runs => active.trans runs,fun _ => congrArg CallStack.stack callStack⟩

variable [Allocator]

theorem host {op : HostOp} {r : Except Error Unit} (ran : op.run store = .ok (r,store')) : store.SameFrames store' := by
  obtain ⟨state,rfl⟩ := HostOp.run_items ran
  exact of rfl rfl

theorem instantiated {m : Module} {imports : Imports} {r : Except Error Instance}
    (instantiated : store.Instantiated m imports r store') : store.SameFrames store' := by
  cases instantiated with
  | unlinked => exact refl_of _ _
  | items | segments | registered => exact of rfl rfl

theorem hostFunction [Host] {reentry : Reentry} (same : reentry.SameFrames) {ty : FuncType} {id : Nat}
    {moduleAddr : ModuleInstanceAddr} {args : List WasmValue} {r : Except Error (List WasmValue)}
    (ran : HostFunction.call reentry store ty id moduleAddr args = .ok (r,store')) : store.SameFrames store' :=
  Reentry.Respects.hostFunction ⟨host,instantiated,fun _ _ => of rfl rfl,same.call,same.callUntyped⟩ ran

end Store.SameFrames

namespace Executor

-- The frame that runs and those below it are as before.
structure Stays (ex ex' : Executor) : Prop where
  cf : ex'.cf = ex.cf
  base : ex'.callStackBase = ex.callStackBase
  store : ex.store.SameFrames ex'.store

instance : IsPreorder Executor Stays where
  refl _ := ⟨rfl,rfl,refl_of _ _⟩
  trans _ _ _ first rest := ⟨rest.cf.trans first.cf,rest.base.trans first.base,trans_of _ first.store rest.store⟩

namespace Stays

theorem of {ex : Executor} {func : WasmFunction} {module : Instance} {store : Store}
    (active : store.executionActive = ex.store.executionActive) (callStack : store.callStack = ex.store.callStack) :
    ex.Stays {ex with func,module,store} := ⟨rfl,rfl,.of active callStack⟩

theorem setStack (ex : Executor) (valueStack : ValueStack) : ex.Stays (ex.setStack valueStack) := ⟨rfl,rfl,.of rfl rfl⟩

theorem lift {α : Type} (x : Context → Step α) : Along Stays (Executor.lift x) := by
  intro ex r ex' ran
  unfold Executor.lift at ran
  rcases stepped : x ex.context ⟨ex.store.valueStack,ex.store.state⟩ with abort | ⟨result,m⟩
  · rw [stepped] at ran; cases ran
  · rw [stepped] at ran
    cases ran
    exact of rfl rfl

theorem chargeCallFuel (budgeted : Bool) (cost : Nat) : Along Stays (Executor.chargeCallFuel budgeted cost) := by
  refine .modify fun ex => ?_
  split <;> exact of rfl rfl

theorem onStack (f : ValueStack → Checked ValueStack) : Along Stays (Executor.onStack f) := by
  intro ex r ex' ran
  unfold Executor.onStack at ran
  rcases changed : f ex.store.valueStack with abort | valueStack
  · rw [changed] at ran; cases ran
  · rw [changed] at ran; cases ran; exact of rfl rfl

theorem truncateKeepCounts (base : StackBase) (keep : ValueCounts) : Along Stays (Executor.truncateKeepCounts base keep) :=
  onStack _

theorem enterModule (owner : ModuleInstanceAddr) : Along Stays (Executor.enterModule owner) := by
  intro ex r ex' ran
  obtain ⟨_,module,_,rfl⟩ := enterModule_cases ran
  exact of rfl rfl

theorem indirectCallee (tableAddr : TableAddr) : Along Stays (Executor.indirectCallee tableAddr) := by
  refine .get fun ex => .checked fun addr _ => .checked fun t _ => (lift fun _ => popTableOperand t.kind.arch).bind fun idx => ?_
  cases t.get idx with
  | error trap => exact .trap _
  | ok element =>
    dsimp only
    cases element.addr with
    | none => exact .trap _
    | some funcRef => exact .pure funcRef

variable [Allocator]

theorem enterLocals (func : WasmFunction) : Along Stays (Executor.enterLocals func) := .modify fun _ => of rfl rfl

end Stays

-- The host is called before the executor moves on.
theorem execCallHost_cases [Allocator] [Host] {reentry : Reentry} (same : reentry.SameFrames) {ty : FuncType} {id : Nat}
    {ex ex' : Executor} {r : Except Trap Unit} (ran : execCallHost reentry ty id ex = .ok (r,ex')) :
    ∃ ex₁, ex.Stays ex₁ ∧ (ex' = ex₁ ∨ ex' = {ex₁ with cf := ex₁.cf.incrInstrPtr}) ∧
      (r = .ok () → ex' = {ex₁ with cf := ex₁.cf.incrInstrPtr}) := by
  unfold execCallHost at ran
  rw [get_bind] at ran
  rcases popped : ex.store.valueStack.popTypes ty.params.reverse with abort | ⟨params,valueStack⟩
  · rw [popped] at ran; cases ran
  rw [popped,ofChecked_bind] at ran
  dsimp only at ran
  rcases called : HostFunction.call reentry (ex.setStack valueStack).store ty id ex.module.idx params.reverse
    with abort | ⟨result,store⟩
  · rw [called] at ran; cases ran
  rw [called,ofChecked_bind] at ran
  dsimp only at ran
  rw [set_bind] at ran
  have after : ex.Stays {ex with store} :=
    ⟨rfl,rfl,trans_of _ (Stays.setStack ex valueStack).store (Store.SameFrames.hostFunction same called)⟩
  cases result with
  | error error => cases ran; exact ⟨_,after,.inl rfl,nofun⟩
  | ok res =>
    dsimp only at ran
    rw [set_bind] at ran
    rcases given : store.valueStack.extendFromWasmValues res with ⟨trap | _,valueStack⟩
    all_goals
      rw [given] at ran
      have pushed : ex.Stays ({ex with store}.setStack valueStack) := trans_of _ after (Stays.setStack _ _)
      cases ran
    · exact ⟨_,pushed,.inl rfl,nofun⟩
    · exact ⟨_,pushed,.inr rfl,fun _ => rfl⟩

-- A part of a run leaves the frames below the base of its executor.
structure Frames (ex ex' : Executor) : Prop where
  base : ex'.callStackBase = ex.callStackBase
  active : ex.store.executionActive = true → ex'.store.executionActive = true
  below : ex.store.executionActive = true → ex.callStackBase ≤ ex.store.callStack.len →
    ex.callStackBase ≤ ex'.store.callStack.len ∧
      ex'.store.callStack.stack.take ex.callStackBase = ex.store.callStack.stack.take ex.callStackBase

instance : IsPreorder Executor Frames where
  refl _ := ⟨rfl,id,fun _ low => ⟨low,rfl⟩⟩
  trans _ _ _ first rest := by
    refine ⟨rest.base.trans first.base,fun runs => rest.active (first.active runs),fun runs low => ?_⟩
    obtain ⟨low',same⟩ := first.below runs low
    have next := rest.below (first.active runs) (by rw [first.base]; exact low')
    rw [first.base] at next
    exact ⟨next.1,next.2.trans same⟩

theorem Stays.kept {ex ex' : Executor} (stays : ex.Stays ex') : ex.Frames ex' := by
  refine ⟨stays.base,stays.store.active,fun runs low => ?_⟩
  rw [CallStack.len,stays.store.frames runs]
  exact ⟨low,rfl⟩

end Executor

theorem Exec.Along.frames {α : Type} {x : Executing α} (stays : Along Executor.Stays x) : Along Executor.Frames x :=
  fun ex r ex' ran => (stays ex r ex' ran).kept

namespace Executor

-- A return leaves the frames to the caller, or to what the executor was made for.
inductive Returned (ex : Executor) : Except Trap Bool → Executor → Prop where
  | finished {callStack : CallStack} : callStack.stack = ex.store.callStack.stack →
      (ex.callStackBase ≤ ex.store.callStack.len → ex.store.callStack.len = ex.callStackBase) →
      Returned ex (.ok true) {ex with store := {ex.store with callStack}}
  | caller {cf : CallFrame} {func : WasmFunction} {module : Instance} {callStack : CallStack} :
      ex.store.callStack.stack = callStack.stack ++ [cf] → ex.store.callStack.len ≠ ex.callStackBase →
      Returned ex (.ok false) {ex with cf,func,module,store := {ex.store with callStack}}

theorem finishReturn_returned {ex ex' : Executor} {r : Except Trap Bool} (ran : finishReturn ex = .ok (r,ex')) :
    ex.Returned r ex' := by
  unfold finishReturn at ran
  rcases popped : ex.store.callStack.popFrame ex.callStackBase with ⟨caller,callStack⟩
  have stepped : popFrame ex = .ok (.ok caller,{ex with store := {ex.store with callStack}}) := by
    unfold popFrame
    rw [popped]
  rw [bind_ok stepped] at ran
  unfold CallStack.popFrame at popped
  cases caller with
  | none =>
    cases ran
    split at popped
    · rename_i outermost
      cases popped
      exact .finished rfl fun _ => outermost
    · rename_i inner
      obtain ⟨empty,rfl⟩ := Prod.mk.inj popped
      have none : ex.store.callStack.stack = [] := List.getLast?_eq_none_iff.mp empty
      refine .finished (by rw [none]; rfl) fun low => ?_
      rw [CallStack.len,none] at low inner ⊢
      exact absurd (Nat.eq_zero_of_le_zero low).symm inner
  | some caller =>
    split at popped
    · cases popped
    · rename_i inner
      obtain ⟨last,rfl⟩ := Prod.mk.inj popped
      have whole := (List.dropLast_append_getLast? caller last).symm
      dsimp only at ran
      rw [get_bind] at ran
      split at ran
      · cases ran
        exact .caller whole inner
      · rcases found : ex.store.state.wasmFunc caller.funcAddr with abort | ⟨func,owner⟩
        · rw [found] at ran; cases ran
        · rw [found,ofChecked_bind] at ran
          dsimp only at ran
          rw [set_bind,bind_run] at ran
          split at ran
          · cases ran
          · rename_i trapped
            cases (enterModule_cases trapped).1
          · rename_i entered
            obtain ⟨_,module,_,rfl⟩ := enterModule_cases entered
            cases ran
            exact .caller whole inner

namespace Frames

theorem moved {ex : Executor} {cf : CallFrame} : ex.Frames {ex with cf} := ⟨rfl,id,fun _ low => ⟨low,rfl⟩⟩

theorem returned {ex ex' : Executor} {r : Except Trap Bool} (returned : ex.Returned r ex') : ex.Frames ex' := by
  cases returned with
  | @finished callStack same _ =>
    refine ⟨rfl,id,fun _ low => ?_⟩
    change _ ≤ callStack.stack.length ∧ callStack.stack.take _ = _
    rw [same]
    exact ⟨low,rfl⟩
  | @caller cf func module callStack whole inner =>
    refine ⟨rfl,id,fun _ low => ?_⟩
    change _ ≤ callStack.stack.length ∧ callStack.stack.take _ = _
    rw [CallStack.len,whole,List.length_append,List.length_singleton] at low inner
    have low : ex.callStackBase ≤ callStack.stack.length := by omega
    exact ⟨low,by rw [whole,List.take_append_of_le_length low]⟩

end Frames

end Executor

end TinyWasm
