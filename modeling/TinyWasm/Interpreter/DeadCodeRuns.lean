import TinyWasm.Interpreter.Moments
import TinyWasm.Interpreter.NestedFrames
import TinyWasm.Parser.DeadVisits

namespace TinyWasm
open Exec

namespace Executor
variable {ex ex' : Executor} {funcAddr : FuncAddr} {live : Nat → Prop}

-- The frames of a run that are of the function stand where it is live. What
-- lies below the base of its executor is of other runs.
structure Standing (funcAddr : FuncAddr) (live : Nat → Prop) (ex : Executor) : Prop where
  active : ex.store.executionActive = true
  low : ex.callStackBase ≤ ex.store.callStack.len
  frame : ex.cf.funcAddr = funcAddr → live ex.cf.instrPtr
  callers : ∀ cf ∈ ex.store.callStack.stack.drop ex.callStackBase, cf.funcAddr = funcAddr → live cf.instrPtr

-- Every function is entered at its start, and a caller is returned to where it
-- was left.
theorem Standing.step (standing : ex.Standing funcAddr live) (entry : live 0)
    (goes : ex.Goes (fun t => ex.cf.funcAddr = funcAddr → live t) (.ok false) ex') : ex'.Standing funcAddr live := by
  have kept := goes.kept
  have active := kept.active standing.active
  have low : ex'.callStackBase ≤ ex'.store.callStack.len := by
    rw [kept.base]
    exact (kept.below standing.active standing.low).1
  cases goes with
  | @moved t ex₁ stays leads =>
    refine ⟨active,low,fun named => leads ((congrArg CallFrame.funcAddr stays.cf).symm.trans named),fun cf listed => ?_⟩
    dsimp only at listed
    rw [stays.base,stays.store.frames standing.active] at listed
    exact standing.callers cf listed
  | called next enters =>
    refine ⟨active,low,fun _ => by rw [enters.start]; exact entry,fun cf listed named => ?_⟩
    rw [enters.base,enters.frames standing.active,List.drop_append_of_le_length standing.low] at listed
    rcases List.mem_append.mp listed with below | pushed
    · exact standing.callers cf below named
    · obtain rfl := List.mem_singleton.mp pushed
      exact next named
  | replaced enters =>
    refine ⟨active,low,fun _ => by rw [enters.start]; exact entry,fun cf listed => ?_⟩
    rw [enters.base,enters.frames standing.active,List.append_nil] at listed
    exact standing.callers cf listed
  | returned stays returned =>
    cases returned with
    | @caller cf func module callStack whole inner =>
      rw [stays.store.frames standing.active] at whole
      have low : ex.callStackBase ≤ callStack.stack.length := by
        rw [←stays.base]
        exact low
      have split : ex.store.callStack.stack.drop ex.callStackBase = callStack.stack.drop ex.callStackBase ++ [cf] := by
        rw [whole,List.drop_append_of_le_length low]
      refine ⟨active,by rw [stays.base]; exact low,standing.callers cf ?_,fun caller listed => standing.callers caller ?_⟩
      · rw [split]
        exact List.mem_append_right _ (List.mem_singleton_self cf)
      · dsimp only at listed
        rw [stays.base] at listed
        rw [split]
        exact List.mem_append_left _ listed

end Executor

section Runs
variable [Allocator]

-- An executor as a call makes it: for a host that runs nothing yet, or for a
-- host function.
inductive Store.Enters (store : Store) : Executor → Prop where
  | outermost {opened entered : Store} {funcAddr : FuncAddr} {func : WasmFunction} {params : List WasmValue} {cf : CallFrame}
    {ex : Executor} (opens : store.enterExecution = .ok opened)
    (framed : opened.clearStacks.enterFrame funcAddr func params = (.ok cf,entered)) (made : Executor.new entered cf 0 = .ok ex) :
    Enters store ex
  | nested {entered : Store} {funcAddr : FuncAddr} {func : WasmFunction} {args : List WasmValue} {cf : CallFrame} {ex : Executor}
    (active : store.executionActive = true) (framed : store.enterFrame funcAddr func args = (.ok cf,entered))
    (made : Executor.new entered cf store.callStack.len = .ok ex) : Enters store ex

omit [Allocator] in
theorem Executor.new_standing {store : Store} {cf : CallFrame} {ex : Executor} {funcAddr : FuncAddr} {live : Nat → Prop}
    (made : Executor.new store cf store.callStack.len = .ok ex) (active : store.executionActive = true)
    (start : cf.instrPtr = 0) (entry : live 0) : ex.Standing funcAddr live := by
  obtain ⟨rfl,rfl,base⟩ := new_parts made
  refine ⟨active,Nat.le_of_eq base,fun _ => by rw [start]; exact entry,fun cf listed => ?_⟩
  rw [base,CallStack.len,List.drop_length] at listed
  cases listed

variable {store : Store} {ex ex' : Executor} {funcAddr : FuncAddr} {live : Nat → Prop}

theorem Store.Enters.standing (enters : store.Enters ex) (entry : live 0) : ex.Standing funcAddr live := by
  cases enters with
  | @outermost opened _ _ _ _ _ _ opens framed made =>
    obtain ⟨start,valueStack,rfl⟩ := enterFrame_cases framed
    unfold enterExecution at opens
    split at opens
    · cases opens
    · cases opens
      exact Executor.new_standing made rfl start entry
  | nested active framed made =>
    obtain ⟨start,valueStack,rfl⟩ := enterFrame_cases framed
    exact Executor.new_standing made active start entry

variable [Host] [Numerics]

-- A moment of a run passes to the next, and no tail call of the function is to a
-- host function.
structure Executor.Passes (funcAddr : FuncAddr) (ex ex' : Executor) : Prop where
  move : Move (.executing ex) (.executing ex')
  guest : ex.cf.funcAddr = funcAddr → ∀ i, ex.func.instructions[ex.cf.instrPtr]? = some i → ¬ex.TailCallsHost i

theorem Store.Enters.move (enters : store.Enters ex) : Moves (.held store) (.executing ex) := by
  cases enters with
  | outermost opens framed made => exact (Relation.ReflTransGen.single (.opened opens)).tail (.entered framed made)
  | nested _ framed made => exact .single (.nested framed made)

theorem Executor.Passes.grows (passes : ex.Passes funcAddr ex') : ex.store.Grows ex'.store := by
  cases passes.move with
  | executed fuel budgeted ran => exact Executor.exec_grows budgeted (InterpreterRuntime.reentry_grows fuel) _ _ _ ran
  | refuelled ran => cases ran; exact ⟨refl_of _ _,List.prefix_refl _,id⟩

theorem Executor.Passes.grown (run : Relation.ReflTransGen (Executor.Passes funcAddr) ex ex') : ex.store.Grows ex'.store := by
  induction run with
  | refl => exact refl_of _ _
  | tail _ passes ih => exact trans_of _ ih passes.grows

-- The step lemma: where the body is closed under its leads, frames stay in it.
theorem Executor.Passes.standing (passes : ex.Passes funcAddr ex') (entry : live 0) (standing : ex.Standing funcAddr live)
    (closed : ex.cf.funcAddr = funcAddr → ∀ i t, live ex.cf.instrPtr → ex.func.instructions[ex.cf.instrPtr]? = some i →
      i.Leads ex.func.data.branchTableTargets ex.cf.instrPtr t → live t) : ex'.Standing funcAddr live := by
  cases passes.move with
  | executed fuel budgeted ran =>
    obtain ⟨i,there,goes⟩ := Executor.exec_goes (InterpreterRuntime.reentry_frames fuel) ran
    refine standing.step entry (goes.mono fun t leads named => ?_)
    rcases leads with leads | host
    · exact closed named i t (standing.frame named) there leads
    · exact absurd host (passes.guest named i there)
  | refuelled ran => cases ran; exact ⟨standing.active,standing.low,standing.frame,standing.callers⟩

-- The run lemma, from a moment on. What is closed is asked of the body that runs
-- in the end, which is the one of its frames all along.
theorem Executor.Passes.run (live : Nat → Prop) (entry : live 0)
    (closed : ∀ ip i t, live ip → ex'.func.instructions[ip]? = some i → i.Leads ex'.func.data.branchTableTargets ip t → live t)
    (run : Relation.ReflTransGen (Executor.Passes ex'.cf.funcAddr) ex ex') (coherent : (Moment.executing ex).Coherent)
    (standing : ex.Standing ex'.cf.funcAddr live) : live ex'.cf.instrPtr := by
  have last : (Moment.executing ex').Coherent := moves_coherent coherent (run.lift _ fun _ _ passes => passes.move)
  induction run using Relation.ReflTransGen.head_induction_on with
  | refl => exact standing.frame rfl
  | @head ex ex₁ passes rest ih =>
    have coherent₁ : (Moment.executing ex₁).Coherent := move_coherent coherent passes.move
    refine ih coherent₁ (passes.standing entry standing fun named i t lives there leads => ?_)
    have listed := prefix_getElem? (Executor.Passes.grown (rest.head passes)).state.funcs coherent.1.body
    rw [named,last.1.body] at listed
    have body : ex'.func = ex.func := (FunctionInstance.wasm.inj (Option.some.inj listed)).1
    rw [←body] at there leads
    exact closed _ i t lives there leads

-- Where no tail call of it is to a host function, control stays in the live code
-- of a body the builder has lowered, whatever the store, the arguments and the
-- other functions are. A table has as many entries as a u32 counts.
theorem dead_code_unreached {metadata : FunctionBuilder.ModuleMetadata} {signature : Signature} {localTypes : List OperandSize}
    {localAddrMap : List LocalAddr} {b : FunctionBuilder} {marks : List Bool}
    (lowered : FunctionBuilder.Marked (.new metadata signature localTypes localAddrMap) b marks) (whole : b.controlStack = [])
    (narrow : b.data.branchTableTargets.length < 2 ^ 32) {id : Nat} {config : Config}
    (moves : Moves (.held (.new id config)) (.held store)) (enters : store.Enters ex)
    (run : Relation.ReflTransGen (Executor.Passes ex'.cf.funcAddr) ex ex') (code : ex'.func.instructions = b.instructions)
    (table : ex'.func.data.branchTableTargets = b.data.branchTableTargets) : marks[ex'.cf.instrPtr]? = some false := by
  have tracked := lowered.tracked (FunctionBuilder.new_tracked _ _ _ _)
  have ended : (!b.isUnreachable) = false := by
    rw [FunctionBuilder.isUnreachable_eq,whole]
    rfl
  have code' := tracked.code
  rw [ended] at code'
  have numbered : (Moment.held (.new id config)).Coherent := nofun
  have coherent : (Moment.executing ex).Coherent := moves_coherent numbered (moves.trans enters.move)
  have entry : marks[0]? = some false := code'.start.live
  refine Executor.Passes.run (fun ip => marks[ip]? = some false) entry (fun ip i t lives there leads => ?_) run coherent
    (enters.standing entry)
  rw [code] at there
  rw [table] at leads
  exact (code'.closed lives there).leads (Nat.le_of_lt narrow) leads

end Runs

-- Two bodies with a call of an imported host function, one in place of a return,
-- and dead code behind it.
namespace DeadEnds

def lowering : FunctionBuilder := .new ⟨[⟨[],[]⟩],[0,0],[],[],[]⟩ ⟨[],[]⟩ [] []

def plain : List Instruction := [.call 0,.return_,.unreachable,.return_]

def tail : List Instruction := [.returnCall 0,.unreachable,.return_]

def body (code : List Instruction) : WasmFunction := {Twins.body with instructions := code}

def linked (code : List Instruction) : Store :=
  {Store.new 0 Twins.config with
    state := {State.empty with funcs := [.host ⟨[],[]⟩ 0,.wasm (body code) 0]},moduleInstances := [Twins.inst 0]}

variable [Allocator] [Host] [Numerics]

def entered (code : List Instruction) : Executor :=
  ⟨.new 1 (.of 0 0 0) (fun _ => 0),body code,Twins.inst 0,
    ({linked code with executionActive := true}.clearStacks.enterFrame 1 (body code) []).2,0⟩

theorem linked_moves (code : List Instruction) : Moves (.held (.new 0 Twins.config)) (.held (linked code)) := by
  have added : Move (.held (.new 0 Twins.config)) (.held (Twins.store [.host ⟨[],[]⟩ 0] [])) :=
    @Move.operate _ _ _ _ _ (.functionNew ⟨[],[]⟩ 0) _ rfl
  have instantiated : Move (.held (Twins.store [.host ⟨[],[]⟩ 0] [])) (.held (linked code)) :=
    @Move.instantiate _ _ _ _ {Twins.module with funcs := [body code]} (Twins.next 0) _ _ rfl
  exact (Relation.ReflTransGen.single added).tail instantiated

omit [Host] [Numerics] in
theorem linked_enters (code : List Instruction) : (linked code).Enters (entered code) :=
  @Store.Enters.outermost _ _ {linked code with executionActive := true} _ 1 (body code) [] (.new 1 (.of 0 0 0) (fun _ => 0)) _ rfl
    rfl rfl

end DeadEnds

open DeadEnds in
-- The host function returns to the frame, which goes on to its return.
theorem dead_code_unreached_plain :
    let _ := Allocator.unlimited
    let _ := Host.quiet
    let _ := Numerics.zeros
    ∃ b marks, FunctionBuilder.Marked lowering b marks ∧ b.instructions = plain ∧ marks = [false,false,true,true] ∧
      (Twins.after (entered plain)).cf.instrPtr = 1 ∧ marks[(Twins.after (entered plain)).cf.instrPtr]? = some false := by
  let _ := Allocator.unlimited
  let _ := Host.quiet
  let _ := Numerics.zeros
  have called : FunctionBuilder.Marked lowering _ _ := .visit .start (rfl : lowering.visit (.call 0) = .ok _)
  have returned := called.visit (rfl : FunctionBuilder.visit _ .return_ = .ok _)
  have dead := returned.visit (rfl : FunctionBuilder.visit _ .unreachable = .ok _)
  have lowered := dead.visit (rfl : FunctionBuilder.visit _ .end_ = .ok _)
  have passes : (entered plain).Passes 1 (Twins.after (entered plain)) := by
    refine ⟨Twins.continues_moves (by decide +kernel),fun _ i there host => ?_⟩
    cases there
    cases host
  refine ⟨_,_,lowered,rfl,rfl,by decide +kernel,?_⟩
  exact dead_code_unreached lowered rfl (by decide +kernel) (linked_moves plain) (linked_enters plain) (.single passes) rfl rfl

open DeadEnds in
theorem host_tail_call_enters_dead_code :
    let _ := Allocator.unlimited
    let _ := Host.quiet
    let _ := Numerics.zeros
    ∃ b marks, FunctionBuilder.Marked lowering b marks ∧ b.controlStack = [] ∧ ∃ store ex ex',
      Moves (.held (.new 0 Twins.config)) (.held store) ∧ store.Enters ex ∧ Move (.executing ex) (.executing ex') ∧
        ex'.func.instructions = b.instructions ∧ ex'.func.data.branchTableTargets = b.data.branchTableTargets ∧
        marks[ex'.cf.instrPtr]? = some true := by
  let _ := Allocator.unlimited
  let _ := Host.quiet
  let _ := Numerics.zeros
  have called : FunctionBuilder.Marked lowering _ _ := .visit .start (rfl : lowering.visit (.returnCall 0) = .ok _)
  have dead := called.visit (rfl : FunctionBuilder.visit _ .unreachable = .ok _)
  have lowered := dead.visit (rfl : FunctionBuilder.visit _ .end_ = .ok _)
  refine ⟨_,_,lowered,rfl,_,_,_,linked_moves tail,linked_enters tail,Twins.continues_moves (by decide +kernel),rfl,rfl,?_⟩
  decide +kernel

end TinyWasm
