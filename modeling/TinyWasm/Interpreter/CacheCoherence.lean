import TinyWasm.Interpreter.ExecutorGrowth

namespace TinyWasm
open Exec

-- The body and the instance at hand are those of the function of the frame.
structure Executor.Coherent (ex : Executor) : Prop where
  body : ex.store.state.funcs[ex.cf.funcAddr]? = some (.wasm ex.func ex.module.idx)
  owner : ex.store.moduleInstances[ex.module.idx]? = some ex.module

theorem prefix_getElem? {α : Type} {xs ys : List α} {i : Nat} {x : α} (grown : xs <+: ys) (found : xs[i]? = some x) :
    ys[i]? = some x := by
  obtain ⟨more,rfl⟩ := grown
  rw [List.getElem?_append_left (List.getElem?_eq_some_iff.mp found).1]
  exact found

namespace Executor
variable {ex ex' : Executor}

theorem Coherent.keeps (coherent : ex.Coherent) (keeps : ex.Keeps ex') : ex'.Coherent := by
  refine ⟨?_,?_⟩
  · rw [keeps.funcAddr,keeps.func,keeps.module]
    exact prefix_getElem? keeps.store.state.funcs coherent.body
  · rw [keeps.module]
    exact prefix_getElem? keeps.store.instances coherent.owner

variable (ex) in
-- Entering a function of the store with the instance its owner's number finds.
theorem Finds.coherent {module : Instance} {func : WasmFunction} {owner : ModuleInstanceAddr} {cf : CallFrame}
    (numbered : ex.store.Numbered) (owned : ex.store.moduleInstances[ex.module.idx]? = some ex.module)
    (finds : ex.Finds owner module) (listed : ex.store.state.funcs[cf.funcAddr]? = some (.wasm func owner)) :
    Coherent {ex with cf,func,module} := by
  rcases finds with loaded | ⟨rfl,rfl⟩
  · obtain rfl := numbered owner module loaded
    exact ⟨listed,loaded⟩
  · exact ⟨listed,owned⟩

theorem new_coherent {store : Store} {cf : CallFrame} {callStackBase : Nat} (numbered : store.Numbered)
    (made : Executor.new store cf callStackBase = .ok ex) : ex.store = store ∧ ex.Coherent := by
  unfold Executor.new at made
  rcases found : store.state.wasmFunc cf.funcAddr with abort | ⟨func,owner⟩
  · rw [found] at made; cases made
  rw [found,ok_bind] at made
  dsimp only at made
  rcases loaded : State.at store.moduleInstances owner with abort | module
  · rw [loaded] at made; cases made
  · rw [loaded] at made
    cases made
    have place := State.at_some_iff.mp loaded
    obtain rfl := numbered owner module place
    exact ⟨rfl,State.wasmFunc_some found,place⟩

theorem finishReturn_coherent {finished : Bool} (coherent : ex.Coherent) (numbered : ex.store.Numbered)
    (ran : finishReturn ex = .ok (.ok finished,ex')) : ex'.Coherent := by
  obtain ⟨callStack,⟨_,rfl⟩ | ⟨caller,_,⟨same,rfl⟩ | ⟨func,owner,module,listed,finds,rfl⟩⟩⟩ := finishReturn_cases ran
  · exact ⟨coherent.body,coherent.owner⟩
  · exact ⟨same ▸ coherent.body,coherent.owner⟩
  · exact Finds.coherent {ex with store := {ex.store with callStack}} numbered coherent.owner finds listed

-- What shapes the stack before a return keeps the caches.
theorem return_coherent {x : Executing Unit} (keeps : Along Keeps x) {finished : Bool} (coherent : ex.Coherent)
    (numbered : ex.store.Numbered) (ran : (x >>= fun _ => finishReturn) ex = .ok (.ok finished,ex')) : ex'.Coherent := by
  obtain ⟨_,ex₁,shaped,returned⟩ := bind_answered ran
  have kept := keeps _ _ _ shaped
  exact finishReturn_coherent (coherent.keeps kept) (kept.store.numbered numbered) returned

section Calls
variable {func : WasmFunction} {owner : ModuleInstanceAddr} {funcAddr : FuncAddr}

-- A call and a tail call differ in what they do to the stacks before the frame
-- is entered.
theorem enter_coherent {x : Executing StackBase} (keeps : Along Keeps x) (numbered : ex.store.Numbered)
    (owned : ex.store.moduleInstances[ex.module.idx]? = some ex.module)
    (listed : ex.store.state.funcs[funcAddr]? = some (.wasm func owner))
    (ran : (x >>= fun localsBase => .get >>= fun ex => .set {ex with cf := .new funcAddr localsBase func.locals} >>= fun _ =>
      enterModule owner) {ex with func} = .ok (.ok (),ex')) : ex'.Coherent := by
  obtain ⟨localsBase,ex₁,prepared,entered⟩ := bind_answered ran
  have kept := keeps _ _ _ prepared
  rw [get_bind,set_bind] at entered
  obtain ⟨_,module,finds,rfl⟩ := enterModule_cases entered
  have body : ex₁.func = func := kept.func
  have there : ex₁.store.moduleInstances[ex₁.module.idx]? = some ex₁.module := by
    rw [kept.module]
    exact prefix_getElem? kept.store.instances owned
  rw [← body] at listed
  exact Finds.coherent ex₁ (kept.store.numbered numbered) there finds
    (prefix_getElem? kept.store.state.funcs listed)

variable [Allocator]

theorem execCall_coherent (coherent : ex.Coherent) (numbered : ex.store.Numbered)
    (listed : ex.store.state.funcs[funcAddr]? = some (.wasm func owner))
    (ran : execCall func owner funcAddr ex = .ok (.ok (),ex')) : ex'.Coherent := by
  refine enter_coherent (x := enterLocals func >>= fun localsBase => pushFrame >>= fun _ => pure localsBase)
    ((Keeps.enterLocals func).bind fun _ => Keeps.pushFrame.bind fun _ => .pure _) numbered coherent.owner listed ?_
  simp only [bind_assoc]
  exact ran

theorem execReturnCall_coherent (coherent : ex.Coherent) (numbered : ex.store.Numbered)
    (listed : ex.store.state.funcs[funcAddr]? = some (.wasm func owner))
    (ran : execReturnCall func owner funcAddr ex = .ok (.ok (),ex')) : ex'.Coherent := by
  refine enter_coherent (x := truncateKeepCounts ex.cf.localsBase func.params >>= fun _ => enterLocals func)
    ((Keeps.truncateKeepCounts _ _).bind fun _ => Keeps.enterLocals func) numbered coherent.owner listed ?_
  rw [bind_assoc]
  exact ran

variable [Host] {reentry : Reentry} (grows : reentry.Grows) (budgeted : Bool)
include grows

theorem execCallDirect_coherent {v : FuncAddr} (coherent : ex.Coherent) (numbered : ex.store.Numbered)
    (ran : execCallDirect reentry budgeted v ex = .ok (.ok (),ex')) : ex'.Coherent := by
  obtain ⟨_,ex₁,charged,rest⟩ := bind_answered ran
  have kept := Keeps.chargeCallFuel _ _ _ _ _ charged
  rw [get_bind] at rest
  rcases named : State.at ex₁.module.funcAddrs v with abort | addr
  · rw [named] at rest; cases rest
  rw [named,ofChecked_bind] at rest
  rcases found : State.at ex₁.store.state.funcs addr with abort | ⟨ty,id⟩ | ⟨func,owner⟩
  · rw [found] at rest; cases rest
  · rw [found,ofChecked_bind] at rest
    exact (coherent.keeps kept).keeps (Keeps.execCallHost grows ty id _ _ _ rest)
  · rw [found,ofChecked_bind] at rest
    exact execCall_coherent (coherent.keeps kept) (kept.store.numbered numbered) (State.at_some_iff.mp found) rest

theorem execReturnCallDirect_coherent {v : FuncAddr} (coherent : ex.Coherent) (numbered : ex.store.Numbered)
    (ran : execReturnCallDirect reentry budgeted v ex = .ok (.ok (),ex')) : ex'.Coherent := by
  obtain ⟨_,ex₁,charged,rest⟩ := bind_answered ran
  have kept := Keeps.chargeCallFuel _ _ _ _ _ charged
  rw [get_bind] at rest
  rcases named : State.at ex₁.module.funcAddrs v with abort | addr
  · rw [named] at rest; cases rest
  rw [named,ofChecked_bind] at rest
  rcases found : State.at ex₁.store.state.funcs addr with abort | ⟨ty,id⟩ | ⟨func,owner⟩
  · rw [found] at rest; cases rest
  · rw [found,ofChecked_bind] at rest
    exact (coherent.keeps kept).keeps (Keeps.execCallHost grows ty id _ _ _ rest)
  · rw [found,ofChecked_bind] at rest
    exact execReturnCall_coherent (coherent.keeps kept) (kept.store.numbered numbered) (State.at_some_iff.mp found) rest

theorem execCallIndirect_coherent {isReturnCall : Bool} {typeAddr : TypeAddr} {tableAddr : TableAddr}
    (coherent : ex.Coherent) (numbered : ex.store.Numbered)
    (ran : execCallIndirect reentry budgeted isReturnCall typeAddr tableAddr ex = .ok (.ok (),ex')) : ex'.Coherent := by
  obtain ⟨_,ex₁,charged,rest⟩ := bind_answered ran
  have first := Keeps.chargeCallFuel _ _ _ _ _ charged
  obtain ⟨funcRef,ex₂,referred,rest⟩ := bind_answered rest
  have kept := trans_of _ first (Keeps.indirectCallee _ _ _ _ referred)
  have coherent₂ := coherent.keeps kept
  have numbered₂ := kept.store.numbered numbered
  rw [get_bind] at rest
  rcases typed : State.at ex₂.module.types typeAddr with abort | callTy
  · rw [typed] at rest; cases rest
  rw [typed,ofChecked_bind] at rest
  rcases found : State.at ex₂.store.state.funcs funcRef with abort | ⟨ty,id⟩ | ⟨func,owner⟩
  · rw [found] at rest; cases rest
  · rw [found,ofChecked_bind] at rest
    dsimp only at rest
    split at rest
    · cases rest
    · exact coherent₂.keeps (Keeps.execCallHost grows ty id _ _ _ rest)
  · rw [found,ofChecked_bind] at rest
    have listed := State.at_some_iff.mp found
    dsimp only at rest
    split at rest
    · cases rest
    · split at rest
      · exact execReturnCall_coherent coherent₂ numbered₂ listed rest
      · exact execCall_coherent coherent₂ numbered₂ listed rest

end Calls

section Instructions
variable [Allocator] [Host] [Numerics] {reentry : Reentry} (grows : reentry.Grows) (budgeted : Bool)
include grows

theorem execInstruction_coherent {i : Instruction} {finished : Bool} (coherent : ex.Coherent)
    (numbered : ex.store.Numbered) (ran : execInstruction reentry budgeted i ex = .ok (.ok finished,ex')) :
    ex'.Coherent := by
  by_cases stays : leavesFunction i = false
  · exact coherent.keeps (execInstruction_keeps budgeted stays _ _ _ ran)
  · cases i
    case call v =>
      obtain ⟨_,_,called,answered⟩ := bind_answered ran
      cases answered
      exact execCallDirect_coherent grows budgeted coherent numbered called
    case callIndirect type table =>
      obtain ⟨_,_,called,answered⟩ := bind_answered ran
      cases answered
      exact execCallIndirect_coherent grows budgeted coherent numbered called
    case returnCall v =>
      obtain ⟨_,_,called,answered⟩ := bind_answered ran
      cases answered
      exact execReturnCallDirect_coherent grows budgeted coherent numbered called
    case returnCallIndirect type table =>
      obtain ⟨_,_,called,answered⟩ := bind_answered ran
      cases answered
      exact execCallIndirect_coherent grows budgeted coherent numbered called
    case return_ => exact return_coherent (Keeps.truncateKeepCounts _ _) coherent numbered ran
    case returnVoid =>
      exact return_coherent (Keeps.onStack fun stack => .ok (stack.truncateToBase ex.cf.localsBase)) coherent numbered ran
    case returnOne size =>
      exact return_coherent (Keeps.onStack fun stack => do
        let kept ← (stack.lane size).truncateToOneTail (ex.cf.localsBase size)
        .ok ((stack.truncateToBase ex.cf.localsBase).setLane size kept)) coherent numbered ran
    all_goals exact absurd rfl stays

theorem exec_coherent {finished : Bool} (coherent : ex.Coherent) (numbered : ex.store.Numbered)
    (ran : exec reentry budgeted ex = .ok (.ok finished,ex')) : ex'.Coherent := by
  unfold exec at ran
  rw [get_bind] at ran
  rcases next : State.at ex.func.instructions ex.cf.instrPtr with abort | i
  · rw [next] at ran; cases ran
  · rw [next,ofChecked_bind] at ran
    exact execInstruction_coherent grows budgeted coherent numbered ran

end Instructions

end Executor

end TinyWasm
