import TinyWasm.Interpreter.Control
import TinyWasm.Interpreter.FuelAccounting

namespace TinyWasm
open Exec

namespace Executor

theorem new_parts {store : Store} {cf : CallFrame} {callStackBase : Nat} {ex : Executor}
    (made : Executor.new store cf callStackBase = .ok ex) :
    ex.store = store ∧ ex.cf = cf ∧ ex.callStackBase = callStackBase := by
  unfold Executor.new at made
  obtain ⟨_,_,made⟩ := Fallible.except_bind_ok made
  obtain ⟨_,_,made⟩ := Fallible.except_bind_ok made
  cases made
  exact ⟨rfl,rfl,rfl⟩

variable [Allocator] [Host] [Numerics] {reentry : Reentry} (same : reentry.SameFrames) {ex ex' : Executor}
include same

theorem exec_frames (budgeted : Bool) : Along Frames (exec reentry budgeted) := by
  intro ex r ex' ran
  obtain ⟨_,_,goes⟩ := exec_goes same ran
  exact goes.kept

theorem runToCompletion_frames (fuel : Nat) : Along Frames (runToCompletion reentry fuel) := by
  induction fuel with
  | zero => exact .aborts .diverges
  | succ fuel ih =>
    refine (exec_frames same false).bind fun finished => ?_
    cases finished with
    | true => exact .pure ()
    | false => exact ih

theorem execMany_frames (budgeted : Bool) (count : Nat) : Along Frames (execMany reentry budgeted count) := by
  induction count with
  | zero => exact .pure false
  | succ count ih =>
    refine (exec_frames same budgeted).bind fun finished => ?_
    cases finished with
    | true => exact .pure true
    | false => exact ih

-- A run that is through has taken down every frame above its base.
theorem runToCompletion_cleared {fuel : Nat} (runs : ex.store.executionActive = true)
    (low : ex.callStackBase ≤ ex.store.callStack.len) (ran : runToCompletion reentry fuel ex = .ok (.ok (),ex')) :
    ex'.store.callStack.stack = ex.store.callStack.stack.take ex.callStackBase := by
  induction fuel generalizing ex with
  | zero => cases ran
  | succ fuel ih =>
    obtain ⟨finished,ex₁,stepped,rest⟩ := bind_answered ran
    obtain ⟨_,_,goes⟩ := exec_goes same stepped
    have kept := goes.kept
    obtain ⟨low₁,below⟩ := kept.below runs low
    cases finished with
    | false =>
      have cleared := ih (kept.active runs) (by rw [kept.base]; exact low₁) rest
      rw [kept.base] at cleared
      exact cleared.trans below
    | true =>
      cases rest
      cases goes with
      | returned stays returned =>
        cases returned with
        | @finished callStack left outermost =>
          have reached := outermost (by rw [stays.base,CallStack.len,stays.store.frames runs]; exact low)
          rw [stays.base,CallStack.len,stays.store.frames runs] at reached
          rw [←reached,List.take_length]
          exact left.trans (stays.store.frames runs)

end Executor

theorem Store.enterFrame_cases [Allocator] {store entered : Store} {funcAddr : FuncAddr} {func : WasmFunction} {params : List WasmValue}
    {cf : CallFrame} (framed : store.enterFrame funcAddr func params = (.ok cf,entered)) :
    cf.instrPtr = 0 ∧ ∃ valueStack, entered = {store with valueStack} := by
  unfold enterFrame at framed
  dsimp only at framed
  split at framed
  · cases framed
  · rcases locals : ((store.valueStack.extendFromWasmValues params).2.enterLocals func.params func.locals).1 with trap | localsBase
    · rw [locals] at framed
      cases framed
    · rw [locals] at framed
      cases framed
      exact ⟨rfl,_,rfl⟩

namespace Store.SameFrames
variable [Allocator] {store store' : Store}

theorem framed (store : Store) (funcAddr : FuncAddr) (func : WasmFunction) (params : List WasmValue) :
    store.SameFrames (store.enterFrame funcAddr func params).2 := by
  unfold enterFrame
  dsimp only
  split <;> exact of rfl rfl

omit [Allocator] in
theorem finished {ty : FuncType} {r : Except Trap Unit} {res : Except Error (List WasmValue)}
    (ran : store.finishCall ty r = .ok (res,store')) : store.SameFrames store' := by
  cases r with
  | error trap => cases ran; exact refl_of _ _
  | ok _ =>
    unfold finishCall at ran
    rcases collected : collectCallResults store.valueStack ty with abort | ⟨values,valueStack⟩
    · rw [collected] at ran; cases ran
    · rw [collected] at ran
      cases ran
      exact of rfl rfl

variable [Host] [Numerics] {reentry : Reentry} (same : reentry.SameFrames) (fuel : Nat)
include same

-- A run in an executor of its own, over the frames there are.
theorem completed {cf : CallFrame} {r : Except Trap Unit}
    (ran : InterpreterRuntime.run (Executor.runToCompletion reentry fuel) store cf store.callStack.len = .ok (r,store')) :
    (store.executionActive = true → store'.executionActive = true) ∧
      (store.executionActive = true → store'.callStack.stack.take store.callStack.len = store.callStack.stack) ∧
      (r = .ok () → store.SameFrames store') := by
  unfold InterpreterRuntime.run at ran
  rcases made : Executor.new store cf store.callStack.len with abort | ex
  · rw [made] at ran; cases ran
  obtain ⟨rfl,_,base⟩ := Executor.new_parts made
  rw [made,ok_bind] at ran
  rcases ended : Executor.runToCompletion reentry fuel ex with abort | ⟨result,last⟩
  · rw [ended] at ran; cases ran
  rw [ended] at ran
  cases ran
  have frames := Executor.runToCompletion_frames same fuel _ _ _ ended
  have low : ex.callStackBase ≤ ex.store.callStack.len := Nat.le_of_eq base
  refine ⟨frames.active,fun runs => ?_,fun answered => ⟨frames.active,fun runs => ?_⟩⟩
  · have below := (frames.below runs low).2
    rw [base] at below
    exact below.trans List.take_length
  · subst answered
    have cleared := Executor.runToCompletion_cleared same runs low ended
    rw [base] at cleared
    exact cleared.trans List.take_length

theorem callUntyped {func : Function} {args : List WasmValue} {r : Except Error (List WasmValue)}
    (ran : FuncContext.callUntyped reentry fuel store func args = .ok (r,store')) : store.SameFrames store' := by
  unfold FuncContext.callUntyped at ran
  split at ran
  · cases ran; exact refl_of _ _
  · split at ran
    · cases ran; exact refl_of _ _
    · split at ran
      · cases ran; exact refl_of _ _
      · rcases found : State.at store.state.funcs func.addr with abort | ⟨ty,id⟩ | ⟨wasmFunc,owner⟩
        · rw [found] at ran; cases ran
        · rw [found] at ran
          exact hostFunction same ran
        · rw [found,ok_bind] at ran
          dsimp only at ran
          have framed := framed store func.addr wasmFunc args
          have kept : (store.enterFrame func.addr wasmFunc args).2.callStack = store.callStack := by
            unfold enterFrame
            dsimp only
            split <;> rfl
          rcases entered : store.enterFrame func.addr wasmFunc args with ⟨trap | cf,after⟩
          · rw [entered] at ran framed
            cases ran
            exact ⟨framed.active,framed.frames⟩
          · rw [entered] at ran framed kept
            dsimp only at ran framed kept
            rw [←kept] at ran
            rcases ended : InterpreterRuntime.run (Executor.runToCompletion reentry fuel) after cf after.callStack.len
              with abort | ⟨trap | _,last⟩
            · rw [ended] at ran; cases ran
            · obtain ⟨active,below,_⟩ := completed same fuel ended
              rw [ended] at ran
              cases ran
              have truncated : after.SameFrames (last.truncateStacks after.callStack.len store.valueStack.base) := ⟨active,below⟩
              exact trans_of _ framed truncated
            · obtain ⟨_,_,left⟩ := completed same fuel ended
              rw [ended,ok_bind] at ran
              exact trans_of _ framed (trans_of _ (left rfl) (finished ran))

omit same in
-- A call that is not nested is refused while another is under way.
theorem call {func : Function} {params : List WasmValue} {r : Except Error (List WasmValue)}
    (ran : func.call reentry fuel store params = .ok (r,store')) : store.SameFrames store' :=
  ⟨fun runs => by rw [Function.call_refused runs ran]; exact runs,fun runs => by rw [Function.call_refused runs ran]⟩

end Store.SameFrames

theorem InterpreterRuntime.reentry_frames [Allocator] [Host] [Numerics] (fuel : Nat) :
    (InterpreterRuntime.reentry fuel).SameFrames := by
  induction fuel with
  | zero => exact ⟨nofun,nofun⟩
  | succ fuel ih => exact ⟨Store.SameFrames.call fuel,Store.SameFrames.callUntyped ih fuel⟩

end TinyWasm
