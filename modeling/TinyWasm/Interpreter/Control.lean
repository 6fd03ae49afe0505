import TinyWasm.Interpreter.CallFrames
import TinyWasm.Parser.ControlFlow

namespace TinyWasm
open Exec

-- A sequence ends with its first part, or goes on from what that answers.
theorem Exec.bind_cases {σ α β : Type} {x : Exec σ α} {f : α → Exec σ β} {s s' : σ} {r : Except Trap β}
    (ran : (x >>= f) s = .ok (r,s')) :
    (∃ t, x s = .ok (.error t,s') ∧ r = .error t) ∨ ∃ a s₁, x s = .ok (.ok a,s₁) ∧ f a s₁ = .ok (r,s') := by
  rw [bind_run] at ran
  rcases stepped : x s with abort | ⟨trap | a,s₁⟩
  · rw [stepped] at ran; cases ran
  · rw [stepped] at ran; cases ran; exact .inl ⟨trap,rfl,rfl⟩
  · rw [stepped] at ran; exact .inr ⟨a,s₁,rfl,ran⟩

-- Where an instruction at `ip` passes control within its function.
inductive Instruction.Leads (table : List Nat) (ip : Nat) : Instruction → Nat → Prop where
  | next {i : Instruction} : i.isUnconditionalTerminator = false → Leads table ip i (ip + 1)
  | target {i : Instruction} {t : Nat} : i.target = some t → Leads table ip i t
  | entry {default first len k t : Nat} : k < len → table[(first + k) % 2 ^ 32]? = some t →
      Leads table ip (.branchTable default first len) t

theorem Instruction.Flows.leads {table : List Nat} {enters : Nat → Prop} {ip t : Nat} {i : Instruction}
    (flows : i.Flows table enters ip) (narrow : table.length ≤ 2 ^ 32) (leads : i.Leads table ip t) : enters t := by
  cases leads with
  | next falls => exact flows.next falls
  | target aims => exact flows.target t aims
  | @entry default first len k _ within listed =>
    obtain ⟨range,entries⟩ := flows.entries default first len rfl
    rw [Nat.mod_eq_of_lt (by omega)] at listed
    exact entries k within t listed

namespace Executor

-- The first instruction of a function, over the frames there were and those the
-- call has pushed.
structure Enters (ex : Executor) (pushed : List CallFrame) (ex' : Executor) : Prop where
  base : ex'.callStackBase = ex.callStackBase
  active : ex.store.executionActive = true → ex'.store.executionActive = true
  frames : ex.store.executionActive = true → ex'.store.callStack.stack = ex.store.callStack.stack ++ pushed
  start : ex'.cf.instrPtr = 0

-- Where control goes: within the function, to another one, back, or nowhere.
inductive Goes (leads : Nat → Prop) (ex : Executor) : Except Trap Bool → Executor → Prop where
  | trapped {t : Trap} {ex' : Executor} : ex.Frames ex' → Goes leads ex (.error t) ex'
  | moved {t : Nat} {ex₁ : Executor} : ex.Stays ex₁ → leads t →
      Goes leads ex (.ok false) {ex₁ with cf := {ex₁.cf with instrPtr := t}}
  | called {ex' : Executor} : leads (ex.cf.instrPtr + 1) → ex.Enters [ex.cf.incrInstrPtr] ex' → Goes leads ex (.ok false) ex'
  | replaced {ex' : Executor} : ex.Enters [] ex' → Goes leads ex (.ok false) ex'
  | returned {ex₁ ex' : Executor} {r : Except Trap Bool} : ex.Stays ex₁ → ex₁.Returned r ex' → Goes leads ex r ex'

variable {ex ex₁ ex' : Executor} {leads : Nat → Prop} {r : Except Trap Bool} {pushed : List CallFrame}

theorem Enters.after (stays : ex.Stays ex₁) (enters : ex₁.Enters pushed ex') : ex.Enters pushed ex' :=
  ⟨enters.base.trans stays.base,fun runs => enters.active (stays.store.active runs),
    fun runs => by rw [enters.frames (stays.store.active runs),stays.store.frames runs],enters.start⟩

theorem Goes.after (stays : ex.Stays ex₁) (goes : ex₁.Goes leads r ex') : ex.Goes leads r ex' := by
  cases goes with
  | trapped frames => exact .trapped (trans_of _ stays.kept frames)
  | moved stays' leads => exact .moved (trans_of _ stays stays') leads
  | called next enters => 
    rw [stays.cf] at next enters
    exact .called next (enters.after stays)
  | replaced enters => exact .replaced (enters.after stays)
  | returned stays' returned => exact .returned (trans_of _ stays stays') returned

-- A run within an invocation leaves the frames below its own.
theorem Enters.kept (enters : ex.Enters pushed ex') : ex.Frames ex' := by
  refine ⟨enters.base,enters.active,fun runs low => ?_⟩
  rw [CallStack.len,enters.frames runs,List.take_append_of_le_length low,List.length_append]
  exact ⟨Nat.le_trans low (Nat.le_add_right _ _),rfl⟩

theorem Goes.kept (goes : ex.Goes leads r ex') : ex.Frames ex' := by
  cases goes with
  | trapped frames => exact frames
  | moved stays _ => exact trans_of _ stays.kept Frames.moved
  | called _ enters => exact enters.kept
  | replaced enters => exact enters.kept
  | returned stays returned => exact trans_of _ stays.kept (Frames.returned returned)

theorem Goes.mono {leads' : Nat → Prop} (goes : ex.Goes leads r ex') (more : ∀ t, leads t → leads' t) : ex.Goes leads' r ex' := by
  cases goes with
  | trapped frames => exact .trapped frames
  | moved stays leads => exact .moved stays (more _ leads)
  | called next enters => exact .called (more _ next) enters
  | replaced enters => exact .replaced enters
  | returned stays returned => exact .returned stays returned

-- A part that stays may trap, or the rest goes on.
theorem Goes.first {α β : Type} {x : Executing α} {f : α → Executing β} {answers : β → Bool} {r : Except Trap β}
    (stays : Along Stays x) (ran : (x >>= f) ex = .ok (r,ex'))
    (rest : ∀ a ex₁, x ex = .ok (.ok a,ex₁) → ex.Stays ex₁ → f a ex₁ = .ok (r,ex') → ex₁.Goes leads (r.map answers) ex') :
    ex.Goes leads (r.map answers) ex' := by
  rcases bind_cases ran with ⟨t,trapped,rfl⟩ | ⟨a,ex₁,answered,ran⟩
  · exact .trapped (stays _ _ _ trapped).kept
  · have kept := stays _ _ _ answered
    exact (rest a ex₁ answered kept ran).after kept

theorem finishReturn_goes {x : Executing Unit} (stays : Along Stays x) (ran : (x >>= fun _ => finishReturn) ex = .ok (r,ex')) :
    ex.Goes leads r ex' := by
  rcases bind_cases ran with ⟨t,trapped,rfl⟩ | ⟨_,ex₁,shaped,ran⟩
  · exact .trapped (stays _ _ _ trapped).kept
  · exact .returned (stays _ _ _ shaped) (finishReturn_returned ran)

theorem chargeCallFuel_cases {budgeted : Bool} {cost : Nat} {r : Except Trap Unit} (ran : chargeCallFuel budgeted cost ex = .ok (r,ex')) :
    r = .ok () ∧ ∃ executionFuel, ex' = {ex with store := {ex.store with executionFuel}} := by
  cases ran
  cases budgeted with
  | true => exact ⟨rfl,_,rfl⟩
  | false => exact ⟨rfl,ex.store.executionFuel,rfl⟩

-- The callee is the same whatever the fuel.
theorem indirectCallee_refuelled {tableAddr : TableAddr} {executionFuel : Nat} {r : Except Trap FuncAddr}
    (ran : indirectCallee tableAddr {ex with store := {ex.store with executionFuel}} = .ok (r,ex')) :
    ∃ ex₁, indirectCallee tableAddr ex = .ok (r,ex₁) ∧ ex₁.store.state = ex'.store.state := by
  unfold indirectCallee at ran ⊢
  rw [get_bind] at ran ⊢
  dsimp only at ran
  rcases named : State.at ex.module.tableAddrs tableAddr with abort | addr
  · rw [named] at ran; cases ran
  rw [named] at ran
  rw [ofChecked_bind] at ran ⊢
  rcases found : State.at ex.store.state.tables addr with abort | t
  · rw [found] at ran; cases ran
  rw [found] at ran
  rw [ofChecked_bind,bind_run] at ran ⊢
  unfold lift at ran ⊢
  dsimp only [context] at ran ⊢
  rcases popped : popTableOperand t.kind.arch ⟨ex.store.valueStack,ex.store.state⟩ with abort | ⟨trap | idx,m⟩
  · rw [popped] at ran; cases ran
  · rw [popped] at ran
    cases ran
    exact ⟨_,rfl,rfl⟩
  · rw [popped] at ran
    simp only [ok_bind] at ran ⊢
    rcases got : t.get idx with trap | element
    · rw [got] at ran; cases ran
      exact ⟨_,rfl,rfl⟩
    · rw [got] at ran
      dsimp only at ran ⊢
      rcases held : element.addr with _ | funcRef
      · rw [held] at ran; cases ran
        exact ⟨_,rfl,rfl⟩
      · rw [held] at ran; cases ran
        exact ⟨_,rfl,rfl⟩

section Calls
variable [Allocator] {r : Except Trap Unit} {func : WasmFunction} {owner : ModuleInstanceAddr} {funcAddr : FuncAddr}

theorem pushFrame_cases (ran : pushFrame ex = .ok (r,ex')) : (∃ t, r = .error t ∧ ex' = ex) ∨
    r = .ok () ∧ ∃ callStack, callStack.stack = ex.store.callStack.stack ++ [ex.cf.incrInstrPtr] ∧
      ex' = {ex with store := {ex.store with callStack}} := by
  unfold pushFrame at ran
  split at ran
  · cases ran
    exact .inl ⟨_,rfl,rfl⟩
  · rename_i callStack pushed
    cases ran
    refine .inr ⟨rfl,callStack,?_,rfl⟩
    obtain ⟨grown,room,made⟩ := Fallible.except_bind_ok pushed
    cases made
    unfold CallStack.ensureCapacityFor at room
    have same : grown.stack = ex.store.callStack.stack := by
      split at room
      · cases room; rfl
      · split at room
        · cases room
        · dsimp only at room
          split at room
          · cases room; rfl
          · split at room <;> cases room
            rfl
    exact congrArg (· ++ [ex.cf.incrInstrPtr]) same

omit [Allocator] in
-- Entering a function over the frames there are.
theorem enterModule_enters {callStack : CallStack} {cf : CallFrame}
    (frames : callStack.stack = ex.store.callStack.stack ++ pushed) (start : cf.instrPtr = 0)
    (ran : enterModule owner {ex with cf,store := {ex.store with callStack}} = .ok (r,ex')) : r = .ok () ∧ ex.Enters pushed ex' := by
  obtain ⟨rfl,module,_,rfl⟩ := enterModule_cases ran
  exact ⟨rfl,rfl,id,fun _ => frames,start⟩

theorem execCall_goes (next : leads (ex.cf.instrPtr + 1)) (ran : execCall func owner funcAddr ex = .ok (r,ex')) :
    ex.Goes leads (r.map fun _ => false) ex' := by
  unfold execCall at ran
  rw [get_bind,set_bind] at ran
  have body : ex.Stays {ex with func} := .of rfl rfl
  refine Goes.after body (Goes.first (Stays.enterLocals func) ran fun localsBase ex₁ _ stays ran => ?_)
  rcases bind_cases ran with ⟨t,trapped,rfl⟩ | ⟨_,ex₂,pushed,ran⟩
  · rcases pushFrame_cases trapped with ⟨_,_,rfl⟩ | ⟨answered,_⟩
    · exact .trapped (refl_of _ _)
    · cases answered
  · rcases pushFrame_cases pushed with ⟨_,answered,_⟩ | ⟨_,callStack,frames,rfl⟩
    · cases answered
    · rw [get_bind,set_bind] at ran
      obtain ⟨rfl,enters⟩ := enterModule_enters frames rfl ran
      exact .called (by rw [stays.cf]; exact next) enters

theorem execReturnCall_goes (ran : execReturnCall func owner funcAddr ex = .ok (r,ex')) :
    ex.Goes leads (r.map fun _ => false) ex' := by
  unfold execReturnCall at ran
  rw [get_bind,set_bind] at ran
  have body : ex.Stays {ex with func} := .of rfl rfl
  refine Goes.after body (Goes.first (Stays.truncateKeepCounts _ _) ran fun _ ex₁ _ _ ran => ?_)
  refine Goes.first (Stays.enterLocals func) ran fun localsBase ex₂ _ _ ran => ?_
  rw [get_bind,set_bind] at ran
  obtain ⟨rfl,enters⟩ := enterModule_enters (List.append_nil _).symm rfl ran
  exact .replaced enters

theorem execCallSelf_goes {budgeted : Bool} (next : leads (ex.cf.instrPtr + 1)) (ran : execCallSelf budgeted ex = .ok (r,ex')) :
    ex.Goes leads (r.map fun _ => false) ex' := by
  refine Goes.first (Stays.chargeCallFuel _ _) ran fun _ ex₁ _ stays ran => ?_
  rcases bind_cases ran with ⟨t,trapped,rfl⟩ | ⟨_,ex₂,pushed,ran⟩
  · rcases pushFrame_cases trapped with ⟨_,_,rfl⟩ | ⟨answered,_⟩
    · exact .trapped (refl_of _ _)
    · cases answered
  · rcases pushFrame_cases pushed with ⟨_,answered,_⟩ | ⟨_,callStack,frames,rfl⟩
    · cases answered
    · have pushes : ex₁.Frames {ex₁ with store := {ex₁.store with callStack}} := by
        refine ⟨rfl,id,fun _ low => ?_⟩
        change _ ≤ callStack.stack.length ∧ callStack.stack.take _ = _
        rw [frames,List.take_append_of_le_length low,List.length_append]
        exact ⟨Nat.le_trans low (Nat.le_add_right _ _),rfl⟩
      rw [get_bind] at ran
      rcases bind_cases ran with ⟨t,trapped,rfl⟩ | ⟨localsBase,ex₃,locals,ran⟩
      · exact .trapped (trans_of _ pushes (Stays.enterLocals _ _ _ _ trapped).kept)
      · have entered := Stays.enterLocals _ _ _ _ locals
        cases ran
        refine .called (by rw [stays.cf]; exact next) ⟨entered.base,entered.store.active,fun runs => ?_,rfl⟩
        exact (entered.store.frames runs).trans frames

theorem execReturnCallSelf_goes {budgeted : Bool} (ran : execReturnCallSelf budgeted ex = .ok (r,ex')) :
    ex.Goes leads (r.map fun _ => false) ex' := by
  refine Goes.first (Stays.chargeCallFuel _ _) ran fun _ ex₁ _ _ ran => ?_
  rw [get_bind] at ran
  refine Goes.first (Stays.truncateKeepCounts _ _) ran fun _ ex₂ _ _ ran => ?_
  refine Goes.first (Stays.enterLocals _) ran fun localsBase ex₃ _ _ ran => ?_
  cases ran
  exact .replaced ⟨rfl,id,fun _ => (List.append_nil _).symm,rfl⟩

variable [Host] {reentry : Reentry} (same : reentry.SameFrames) {budgeted : Bool}
include same

theorem execCallHost_goes {ty : FuncType} {id : Nat} (next : leads (ex.cf.instrPtr + 1))
    (ran : execCallHost reentry ty id ex = .ok (r,ex')) : ex.Goes leads (r.map fun _ => false) ex' := by
  obtain ⟨ex₁,stays,either,answered⟩ := execCallHost_cases same ran
  cases r with
  | error t =>
    rcases either with rfl | rfl
    · exact .trapped stays.kept
    · exact .trapped (trans_of _ stays.kept Frames.moved)
  | ok _ =>
    obtain rfl := answered rfl
    exact .moved stays (by rw [stays.cf]; exact next)

theorem execCallDirect_goes {v : FuncAddr} (next : leads (ex.cf.instrPtr + 1))
    (ran : execCallDirect reentry budgeted v ex = .ok (r,ex')) : ex.Goes leads (r.map fun _ => false) ex' := by
  refine Goes.first (Stays.chargeCallFuel _ _) ran fun _ ex₁ _ stays ran => ?_
  have next : leads (ex₁.cf.instrPtr + 1) := by rw [stays.cf]; exact next
  rw [get_bind] at ran
  rcases named : State.at ex₁.module.funcAddrs v with abort | addr
  · rw [named] at ran; cases ran
  rw [named,ofChecked_bind] at ran
  rcases found : State.at ex₁.store.state.funcs addr with abort | ⟨ty,id⟩ | ⟨func,owner⟩
  · rw [found] at ran; cases ran
  · rw [found,ofChecked_bind] at ran
    exact execCallHost_goes same next ran
  · rw [found,ofChecked_bind] at ran
    exact execCall_goes next ran

end Calls

-- A tail call that is about to call a host function, in the frame it stands in.
inductive TailCallsHost (ex : Executor) : Instruction → Prop where
  | direct {v : FuncAddr} {addr : FuncAddr} {ty : FuncType} {id : Nat} : ex.module.funcAddrs[v]? = some addr →
      ex.store.state.funcs[addr]? = some (.host ty id) → TailCallsHost ex (.returnCall v)
  | indirect {type : TypeAddr} {table : TableAddr} {addr : FuncAddr} {ex₁ : Executor} {ty : FuncType} {id : Nat} :
      indirectCallee table ex = .ok (.ok addr,ex₁) → ex₁.store.state.funcs[addr]? = some (.host ty id) →
        TailCallsHost ex (.returnCallIndirect type table)

section Calls
variable [Allocator] [Host] {reentry : Reentry} (same : reentry.SameFrames) {budgeted : Bool} {r : Except Trap Unit}
include same

theorem execReturnCallDirect_goes {v : FuncAddr} (next : ex.TailCallsHost (.returnCall v) → leads (ex.cf.instrPtr + 1))
    (ran : execReturnCallDirect reentry budgeted v ex = .ok (r,ex')) : ex.Goes leads (r.map fun _ => false) ex' := by
  refine Goes.first (Stays.chargeCallFuel _ _) ran fun _ ex₁ charged stays ran => ?_
  obtain ⟨_,executionFuel,rfl⟩ := chargeCallFuel_cases charged
  rw [get_bind] at ran
  rcases named : State.at ex.module.funcAddrs v with abort | addr
  · rw [named] at ran; cases ran
  rw [named,ofChecked_bind] at ran
  rcases found : State.at ex.store.state.funcs addr with abort | ⟨ty,id⟩ | ⟨func,owner⟩
  · rw [found] at ran; cases ran
  · rw [found,ofChecked_bind] at ran
    exact execCallHost_goes same (next (.direct (State.at_some_iff.mp named) (State.at_some_iff.mp found))) ran
  · rw [found,ofChecked_bind] at ran
    exact execReturnCall_goes ran

theorem execCallIndirect_goes {isReturnCall : Bool} {typeAddr : TypeAddr} {tableAddr : TableAddr}
    (next : isReturnCall = false → leads (ex.cf.instrPtr + 1))
    (host : ex.TailCallsHost (.returnCallIndirect typeAddr tableAddr) → leads (ex.cf.instrPtr + 1))
    (ran : execCallIndirect reentry budgeted isReturnCall typeAddr tableAddr ex = .ok (r,ex')) :
    ex.Goes leads (r.map fun _ => false) ex' := by
  refine Goes.first (Stays.chargeCallFuel _ _) ran fun _ ex₁ charged stays ran => ?_
  obtain ⟨_,executionFuel,rfl⟩ := chargeCallFuel_cases charged
  refine Goes.first (Stays.indirectCallee _) ran fun funcRef ex₂ referred stays ran => ?_
  obtain ⟨ex₁,refers,state⟩ := indirectCallee_refuelled referred
  have here : ex₂.cf.instrPtr = ex.cf.instrPtr := congrArg CallFrame.instrPtr stays.cf
  rw [get_bind] at ran
  rcases typed : State.at ex₂.module.types typeAddr with abort | callTy
  · rw [typed] at ran; cases ran
  rw [typed,ofChecked_bind] at ran
  rcases found : State.at ex₂.store.state.funcs funcRef with abort | ⟨ty,id⟩ | ⟨func,owner⟩
  · rw [found] at ran; cases ran
  · rw [found,ofChecked_bind] at ran
    dsimp only at ran
    split at ran
    · cases ran
      exact .trapped (refl_of _ _)
    · refine execCallHost_goes same ?_ ran
      rw [here]
      exact host (.indirect refers (by rw [state]; exact State.at_some_iff.mp found))
  · rw [found,ofChecked_bind] at ran
    dsimp only at ran
    split at ran
    · cases ran
      exact .trapped (refl_of _ _)
    · split at ran
      · exact execReturnCall_goes ran
      · rename_i direct
        refine execCall_goes ?_ ran
        rw [here]
        exact next (Bool.eq_false_iff.mpr direct)

end Calls

section Instructions
variable {ip : Nat} {condition : Context → Step Bool}

theorem thenFalse {x : Executing Unit} (ran : (x >>= fun _ => pure false) ex = .ok (r,ex')) :
    ∃ r₁, x ex = .ok (r₁,ex') ∧ r = r₁.map fun _ => false := by
  rcases bind_cases ran with ⟨t,trapped,rfl⟩ | ⟨a,ex₁,answered,ran⟩
  · exact ⟨_,trapped,rfl⟩
  · cases ran
    exact ⟨_,answered,rfl⟩

theorem jumpIf_goes (taken : leads ip) (next : leads (ex.cf.instrPtr + 1))
    (ran : (jumpIf ip condition >>= fun _ => pure false) ex = .ok (r,ex')) : ex.Goes leads r ex' := by
  obtain ⟨r₁,jumped,rfl⟩ := thenFalse ran
  refine Goes.first (Stays.lift condition) jumped fun jumps ex₁ _ stays ran => ?_
  cases jumps with
  | true =>
    cases ran
    exact .moved (refl_of _ _) taken
  | false =>
    cases ran
    exact .moved (refl_of _ _) (by rw [stays.cf]; exact next)

theorem execBranchTable_goes {default first len : Nat}
    (all : ∀ t, (Instruction.branchTable default first len).Leads ex.func.data.branchTableTargets ex.cf.instrPtr t → leads t)
    (ran : (execBranchTable default first len >>= fun _ => pure false) ex = .ok (r,ex')) : ex.Goes leads r ex' := by
  obtain ⟨r₁,jumped,rfl⟩ := thenFalse ran
  refine Goes.first (Stays.lift _) jumped fun idx ex₁ popped stays ran => ?_
  have body : ex₁.func = ex.func := (Keeps.lift (fun _ => .pop .s32) _ _ _ popped).func
  rw [get_bind] at ran
  split at ran
  · rename_i inside
    cases ran
    refine .moved (refl_of _ _) ?_
    rw [body]
    cases entry : ex.func.data.branchTableTargets[(first + idx.toNat) % 2 ^ 32]? with
    | none => exact all _ (.target rfl)
    | some t => exact all t (.entry inside.2 entry)
  · cases ran
    exact .moved (refl_of _ _) (all _ (.target rfl))

theorem straight_goes {x : Context → Step Unit} (next : leads (ex.cf.instrPtr + 1))
    (ran : (lift x >>= fun _ => incrInstrPtr >>= fun _ => pure false) ex = .ok (r,ex')) : ex.Goes leads r ex' := by
  rcases bind_cases ran with ⟨t,trapped,rfl⟩ | ⟨_,ex₁,stepped,ran⟩
  · exact .trapped (Stays.lift _ _ _ _ trapped).kept
  · have stays := Stays.lift _ _ _ _ stepped
    cases ran
    exact .moved stays (by rw [stays.cf]; exact next)

variable [Allocator] [Host] [Numerics] {reentry : Reentry} (same : reentry.SameFrames) {budgeted : Bool} {i : Instruction}
include same

-- Control goes where the instruction leads, unless a host function is called in
-- place of a tail call.
theorem execInstruction_goes (ran : execInstruction reentry budgeted i ex = .ok (r,ex')) :
    ex.Goes (fun t => i.Leads ex.func.data.branchTableTargets ex.cf.instrPtr t ∨ ex.TailCallsHost i) r ex' := by
  have falls (next : i.isUnconditionalTerminator = false) :
      i.Leads ex.func.data.branchTableTargets ex.cf.instrPtr (ex.cf.instrPtr + 1) ∨ ex.TailCallsHost i := .inl (.next next)
  cases i
  case unreachable => cases ran; exact .trapped (refl_of _ _)
  case call v =>
    obtain ⟨r₁,called,rfl⟩ := thenFalse ran
    exact execCallDirect_goes same (falls rfl) called
  case callSelf =>
    obtain ⟨r₁,called,rfl⟩ := thenFalse ran
    exact execCallSelf_goes (falls rfl) called
  case callIndirect type table =>
    obtain ⟨r₁,called,rfl⟩ := thenFalse ran
    exact execCallIndirect_goes same (fun _ => falls rfl) (fun _ => falls rfl) called
  case returnCall v =>
    obtain ⟨r₁,called,rfl⟩ := thenFalse ran
    exact execReturnCallDirect_goes same .inr called
  case returnCallSelf =>
    obtain ⟨r₁,called,rfl⟩ := thenFalse ran
    exact execReturnCallSelf_goes called
  case returnCallIndirect type table =>
    obtain ⟨r₁,called,rfl⟩ := thenFalse ran
    exact execCallIndirect_goes same (fun direct => by cases direct) .inr called
  case jump ip =>
    cases ran
    exact .moved (refl_of _ _) (.inl (.target rfl))
  case jumpIfZero width ip => exact jumpIf_goes (.inl (.target rfl)) (falls rfl) ran
  case jumpIfNonZero width ip => exact jumpIf_goes (.inl (.target rfl)) (falls rfl) ran
  case jumpIfLocalZero width ip index => exact jumpIf_goes (.inl (.target rfl)) (falls rfl) ran
  case jumpIfLocalNonZero width ip index => exact jumpIf_goes (.inl (.target rfl)) (falls rfl) ran
  case jumpCmpStackConst width ip imm op => exact jumpIf_goes (.inl (.target rfl)) (falls rfl) ran
  case jumpCmpLocalConst width ip index imm op => exact jumpIf_goes (.inl (.target rfl)) (falls rfl) ran
  case jumpCmpLocalLocal width ip left right op => exact jumpIf_goes (.inl (.target rfl)) (falls rfl) ran
  case branchTable default first len => exact execBranchTable_goes (fun _ => .inl) ran
  case return_ => exact finishReturn_goes (Stays.truncateKeepCounts _ _) ran
  case returnVoid => exact finishReturn_goes (Stays.onStack fun stack => .ok (stack.truncateToBase ex.cf.localsBase)) ran
  case returnOne size =>
    exact finishReturn_goes (Stays.onStack fun stack => do
      let kept ← (stack.lane size).truncateToOneTail (ex.cf.localsBase size)
      .ok ((stack.truncateToBase ex.cf.localsBase).setLane size kept)) ran
  all_goals exact straight_goes (falls rfl) ran

theorem exec_goes (ran : exec reentry budgeted ex = .ok (r,ex')) :
    ∃ i, ex.func.instructions[ex.cf.instrPtr]? = some i ∧
      ex.Goes (fun t => i.Leads ex.func.data.branchTableTargets ex.cf.instrPtr t ∨ ex.TailCallsHost i) r ex' := by
  unfold exec at ran
  rw [get_bind] at ran
  rcases next : State.at ex.func.instructions ex.cf.instrPtr with abort | i
  · rw [next] at ran; cases ran
  · rw [next,ofChecked_bind] at ran
    exact ⟨i,State.at_some_iff.mp next,execInstruction_goes same ran⟩

end Instructions

end Executor

end TinyWasm
