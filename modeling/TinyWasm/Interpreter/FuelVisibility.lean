import TinyWasm.Interpreter.FuelledRun
import TinyWasm.Interpreter.Moments

namespace TinyWasm
open Metering Exec

-- What a host function that charges fuel, or asks for it, makes no use of.
def Store.HidesFuel [Allocator] (store : Store) : Prop := ∀ (reentry : Reentry) (fuel : Nat) (next : HostProgram) (told : Nat → HostProgram),
  (HostProgram.chargeFuel fuel next).run reentry store = next.run reentry store ∧
    (HostProgram.remainingFuel told).run reentry store = (told 0).run reentry store

theorem Store.hides_fuel_iff [Allocator] {store : Store} : store.HidesFuel ↔ store.executionFuel = 0 := by
  constructor
  · intro hides
    by_contra left
    obtain ⟨_,told⟩ := hides ⟨fun _ _ _ => .error .panic,fun _ _ _ => .error .panic⟩ 0 (.done (.ok []))
      fun fuel => .done (if fuel = 0 then .ok [] else .error (.other "fuel"))
    simp only [HostProgram.run,if_neg left,if_true] at told
    cases told
  · intro empty reentry fuel next told
    have same : {store with executionFuel := store.executionFuel - fuel} = store := by
      rw [empty,Nat.zero_sub,←empty]
    refine ⟨?_,?_⟩
    · rw [HostProgram.run,same]
    · rw [HostProgram.run,empty]

-- An invocation is under way, and there is no fuel.
def Store.Drained (policy : FuelPolicy) (store : Store) : Prop := store.Running policy ∧ store.executionFuel = 0

theorem Store.entered_drained {store entered : Store} (empty : store.executionFuel = 0)
    (opened : store.enterExecution = .ok entered) : entered.Drained store.config.fuelPolicy := by
  unfold Store.enterExecution at opened
  split at opened
  · cases opened
  · cases opened; exact ⟨⟨rfl,rfl⟩,empty⟩

def Store.StaysDrained (policy : FuelPolicy) (store store' : Store) : Prop := store.Drained policy → store'.Drained policy

instance (policy : FuelPolicy) : IsPreorder Store (Store.StaysDrained policy) where
  refl _ drained := drained
  trans _ _ _ first rest drained := rest (first drained)

theorem Store.SameFuel.staysDrained {policy : FuelPolicy} {store store' : Store} (same : store.SameFuel store') :
    store.StaysDrained policy store' := fun drained => ⟨same.running drained.1,same.fuel.trans drained.2⟩

theorem FuelPolicy.Metered.staysDrained {β : Type} {policy : FuelPolicy} {x : Store → Checked (β × Store)}
    {record : Store → List FuelEvent} (metered : policy.Metered x record) {store store' : Store} {b : β}
    (ran : x store = .ok (b,store')) : store.StaysDrained policy store' :=
  fun drained => ⟨(metered.left drained.1 ran).1,metered.stays_zero drained.1 drained.2 ran⟩

theorem FuelPolicy.MeteredExec.staysDrained {α : Type} {policy : FuelPolicy} {x : Executing α} {record : Executor → List FuelEvent}
    (metered : policy.MeteredExec x record) : Along (Executor.Through (Store.StaysDrained policy)) x :=
  fun _ _ _ ran drained => ⟨(metered.left drained.1 ran).1,metered.stays_zero drained.1 drained.2 ran⟩

section Unfuelled
variable [Allocator] [Host] [Numerics] {reentry : Reentry} {policy : FuelPolicy} {records : Records}

-- The clock takes no fuel.
theorem Executor.timeLoop_staysDrained (metered : reentry.Metered policy records) (elapsed : Nat → Bool) (turns asked : Nat) :
    Along (Through (Store.StaysDrained policy)) (timeLoop reentry elapsed turns asked) := by
  induction turns generalizing asked with
  | zero => exact .aborts .diverges
  | succ turns ih =>
    refine ((execMany_metered false metered chunkSize).staysDrained).bind fun finished => ?_
    cases finished with
    | true => exact .pure ExecState.completed
    | false =>
      by_cases late : elapsed asked = true
      · simp only [Bool.false_eq_true,if_false,if_pos late]
        exact .get fun _ => .pure _
      · simp only [Bool.false_eq_true,if_false,if_neg late]
        exact ih _

omit [Allocator] [Host] [Numerics] in
theorem InterpreterRuntime.run_staysDrained {α : Type} {x : Executing α} (stays : Along (Executor.Through (Store.StaysDrained policy)) x)
    {store store' : Store} {cf : CallFrame} {callStackBase : Nat} {r : Except Trap α}
    (ran : InterpreterRuntime.run x store cf callStackBase = .ok (r,store')) : store.StaysDrained policy store' := by
  unfold InterpreterRuntime.run at ran
  rcases made : Executor.new store cf callStackBase with abort | ex
  · rw [made] at ran; cases ran
  · obtain rfl := Executor.new_store made
    rw [made,ok_bind] at ran
    rcases stepped : x ex with abort | ⟨result,last⟩
    · rw [stepped] at ran; cases ran
    · rw [stepped] at ran
      cases ran
      exact stays _ _ _ stepped

theorem Function.callInner_staysDrained (metered : reentry.Metered policy records) (fuel : Nat) {func : Function}
    {params : List WasmValue} {store store' : Store} {r : Except Error (List WasmValue)}
    (ran : func.callInner reentry fuel params store = .ok (r,store')) : store.StaysDrained policy store' := by
  unfold Function.callInner at ran
  rcases found : State.at store.state.funcs func.addr with abort | ⟨ty,id⟩ | ⟨wasmFunc,owner⟩
  · rw [found] at ran; cases ran
  · rw [found] at ran
    exact (HostFunction.metered metered ty id func.moduleAddr params).staysDrained ran
  · rw [found,ok_bind] at ran
    dsimp only at ran
    have cleared : store.SameFuel store.clearStacks := ⟨rfl,rfl,rfl⟩
    have framed := Store.SameFuel.framed store.clearStacks func.addr wasmFunc params
    rcases enters : store.clearStacks.enterFrame func.addr wasmFunc params with ⟨trap | cf,entered⟩
    · rw [enters] at ran framed
      cases ran
      exact (trans_of _ cleared framed).staysDrained
    · rw [enters] at ran framed
      dsimp only at ran
      rcases ended : InterpreterRuntime.run (Executor.runToCompletion reentry fuel) entered cf 0 with abort | ⟨result,last⟩
      · rw [ended] at ran; cases ran
      · rw [ended,ok_bind] at ran
        have run := InterpreterRuntime.run_staysDrained (Executor.runToCompletion_metered metered fuel).staysDrained ended
        have begun : store.SameFuel entered := trans_of _ cleared framed
        exact trans_of (Store.StaysDrained policy) begun.staysDrained
          (trans_of (Store.StaysDrained policy) run (Store.SameFuel.finished ran).staysDrained)

end Unfuelled

-- What an embedder does with a store that no invocation has; the resumptions
-- that are allowed, and with which budgets, is left open.
inductive Dealt [Allocator] [Host] [Numerics] (allowed : Nat → Budget → FuncExecution → Prop) : Store → Store → Prop where
  | operate {store store'} {op : HostOp} {r} (ran : op.run store = .ok (r,store')) : Dealt allowed store store'
  | instantiate {store : Store} {m : Module} {imports : Imports} {r store'} (deep : Nat)
    (ran : store.instantiate (InterpreterRuntime.reentry deep).call m imports = .ok (r,store')) : Dealt allowed store store'
  | call {store store'} {func : Function} {params r} (deep : Nat)
    (ran : (InterpreterRuntime.reentry deep).call store func params = .ok (r,store')) : Dealt allowed store store'
  | callResumable {store store'} {func : Function} {params r} (deep : Nat)
    (ran : func.callResumable (InterpreterRuntime.reentry deep) store params = .ok (r,store')) : Dealt allowed store store'
  | resume {x y : FuncExecution} {budget answer} (deep : Nat) (permitted : allowed deep budget x)
    (ran : x.resume (InterpreterRuntime.reentry deep) deep budget = .ok (answer,y)) : Dealt allowed x.store y.store

-- How an invocation starts that is not resumed with fuel: in a host function, in
-- the first frame of a call, or where an execution with a time budget was left.
inductive BeginsUnfuelled : Store → Moment → Prop where
  | host {store active} (opened : store.enterExecution = .ok active) : BeginsUnfuelled store (.held active)
  | entered [Allocator] {store active entered : Store} {funcAddr func params cf ex} (opened : store.enterExecution = .ok active)
    (framed : active.clearStacks.enterFrame funcAddr func params = (.ok cf,entered))
    (made : Executor.new entered cf 0 = .ok ex) : BeginsUnfuelled store (.executing ex)
  | resumed {store active : Store} {cf ex} (opened : store.enterExecution = .ok active)
    (made : Executor.new active cf 0 = .ok ex) : BeginsUnfuelled store (.executing ex)

-- Its steps, and those of the calls nested in it.
inductive WithinUnfuelled [Allocator] [Host] [Numerics] : Moment → Moment → Prop where
  | operate {store store'} {op : HostOp} {r} (ran : op.run store = .ok (r,store')) : WithinUnfuelled (.held store) (.held store')
  | instantiate {store : Store} {m : Module} {imports : Imports} {r store'} (deep : Nat)
    (ran : store.instantiate (InterpreterRuntime.reentry deep).call m imports = .ok (r,store')) :
    WithinUnfuelled (.held store) (.held store')
  | call {store store'} {func : Function} {params r} (deep : Nat)
    (ran : (InterpreterRuntime.reentry deep).call store func params = .ok (r,store')) : WithinUnfuelled (.held store) (.held store')
  | callUntyped {store store'} {func : Function} {args r} (deep : Nat)
    (ran : (InterpreterRuntime.reentry deep).callUntyped store func args = .ok (r,store')) :
    WithinUnfuelled (.held store) (.held store')
  | chargeFuel {store : Store} (fuel : Nat) :
    WithinUnfuelled (.held store) (.held {store with executionFuel := store.executionFuel - fuel})
  | nested {store entered : Store} {funcAddr func args cf ex}
    (framed : store.enterFrame funcAddr func args = (.ok cf,entered))
    (made : Executor.new entered cf store.callStack.len = .ok ex) : WithinUnfuelled (.held store) (.executing ex)
  | executed {ex ex' : Executor} {finished} (deep : Nat)
    (ran : ex.exec (InterpreterRuntime.reentry deep) false = .ok (.ok finished,ex')) :
    WithinUnfuelled (.executing ex) (.executing ex')
  | hosted {ex : Executor} {types params valueStack} (popped : ex.store.valueStack.popTypes types = .ok (params,valueStack)) :
    WithinUnfuelled (.executing ex) (.held (ex.setStack valueStack).store)

-- Resumed with fuel, an execution takes at least as much as it is given before
-- it suspends, completes or traps.
def FuncExecution.UsesUp [Allocator] [Host] [Numerics] (deep : Nat) (budget : Budget) (x : FuncExecution) : Prop :=
  ∀ callframe root fuel, x.state = .running callframe root → budget = .fuel fuel →
    fuel ≤ total x.store.config.fuelPolicy.runEvents
      (x.fuelRecord (InterpreterRuntime.reentry deep) (InterpreterRuntime.records deep) fuel)

def Moment.store : Moment → Store
  | held store => store
  | executing ex => ex.store

section Histories
variable [Allocator] [Host] [Numerics] {store store' : Store}

omit [Allocator] [Host] [Numerics] in
theorem Function.invoked_empty {α : Type} {func : Function} {params : List WasmValue}
    {inner : Store → Checked (Except Error α × Store)} {r : Except Error α} (empty : store.executionFuel = 0)
    (stays : ∀ {active r after}, inner active = .ok (r,after) → active.StaysDrained store.config.fuelPolicy after)
    (ran : func.invoke store params inner = .ok (r,store')) : store'.executionFuel = 0 := by
  unfold Function.invoke at ran
  split at ran
  · cases ran; exact empty
  · split at ran
    · cases ran; exact empty
    · rcases opened : store.enterExecution with error | active
      · rw [opened] at ran; cases ran; exact empty
      · rw [opened] at ran
        dsimp only at ran
        rcases ended : inner active with abort | ⟨result,last⟩
        · rw [ended] at ran; cases ran
        · rw [ended] at ran
          cases ran
          exact (stays ended (Store.entered_drained empty opened)).2

theorem InterpreterRuntime.call_empty {deep : Nat} {func : Function} {params : List WasmValue} {r : Except Error (List WasmValue)}
    (empty : store.executionFuel = 0) (ran : (reentry deep).call store func params = .ok (r,store')) : store'.executionFuel = 0 := by
  cases deep with
  | zero => cases ran
  | succ deep =>
    exact Function.invoked_empty empty (fun inner => Function.callInner_staysDrained (reentry_metered _ deep) deep inner) ran

theorem Store.instantiate_empty {deep : Nat} {m : Module} {imports : Imports} {r : Except Error Instance}
    (empty : store.executionFuel = 0) (ran : store.instantiate (InterpreterRuntime.reentry deep).call m imports = .ok (r,store')) :
    store'.executionFuel = 0 := by
  unfold Store.instantiate at ran
  rcases made : store.instantiateNoStart m imports with abort | ⟨error | inst,after⟩
  · rw [made] at ran; cases ran
  · rw [made] at ran
    cases ran
    exact (SameFuel.instantiated (instantiateNoStart_cases made)).fuel.trans empty
  · have same := SameFuel.instantiated (instantiateNoStart_cases made)
    rw [made] at ran
    simp only [ok_bind,Instance.start] at ran
    rcases found : inst.startFunc after with abort | error | _ | func
    · rw [found] at ran; cases ran
    · rw [found] at ran; cases ran; exact same.fuel.trans empty
    · rw [found] at ran; cases ran; exact same.fuel.trans empty
    · rw [found] at ran
      simp only [ok_bind] at ran
      rcases called : (InterpreterRuntime.reentry deep).call after func [] with abort | ⟨result,last⟩
      · rw [called] at ran; cases ran
      · rw [called] at ran
        cases ran
        exact InterpreterRuntime.call_empty (same.fuel.trans empty) called

omit [Numerics] in
theorem Function.callResumableInner_staysDrained {policy : FuelPolicy} {reentry : Reentry} {records : Records}
    (metered : reentry.Metered policy records) {func : Function} {params : List WasmValue} {r : Except Error FuncExecutionState}
    (ran : func.callResumableInner reentry params store = .ok (r,store')) : store.StaysDrained policy store' := by
  unfold Function.callResumableInner at ran
  rcases found : State.at store.state.funcs func.addr with abort | ⟨ty,id⟩ | ⟨wasmFunc,owner⟩
  · rw [found] at ran; cases ran
  · rw [found,ok_bind] at ran
    dsimp only at ran
    rcases called : HostFunction.call reentry store ty id func.moduleAddr params with abort | ⟨result,after⟩
    · rw [called] at ran; cases ran
    · rw [called] at ran
      cases ran
      exact (HostFunction.metered metered ty id func.moduleAddr params).staysDrained called
  · rw [found] at ran
    cases ran
    have cleared : store.SameFuel store.clearStacks := ⟨rfl,rfl,rfl⟩
    exact (trans_of _ cleared (Store.SameFuel.framed store.clearStacks func.addr wasmFunc params)).staysDrained

-- A resumption with time takes no fuel and leaves none.
theorem FuncExecution.resume_time_empty {deep : Nat} {isZero : Bool} {elapsed : Nat → Bool} {x y : FuncExecution}
    {answer : Except Error ExecProgress} (empty : x.store.executionFuel = 0)
    (resumed : x.resume (InterpreterRuntime.reentry deep) deep (.time isZero elapsed) = .ok (answer,y)) : y.store.executionFuel = 0 := by
  have timed {store entered after : Store} {callframe : CallFrame} {r : Except Trap ExecState} (empty : store.executionFuel = 0)
      (opened : store.enterExecution = .ok entered) (ran : InterpreterRuntime.run
        (Budget.run (InterpreterRuntime.reentry deep) deep (.time isZero elapsed)) entered callframe 0 = .ok (r,after)) :
      after.executionFuel = 0 := by
    have stays : Along (Executor.Through (Store.StaysDrained store.config.fuelPolicy))
        (Budget.run (InterpreterRuntime.reentry deep) deep (.time isZero elapsed)) := by
      change Along _ (if isZero then Executor.suspend else Executor.timeLoop _ elapsed deep 0)
      split
      · exact .get fun _ => .pure _
      · exact Executor.timeLoop_staysDrained (InterpreterRuntime.reentry_metered _ deep) elapsed deep 0
    exact (InterpreterRuntime.run_staysDrained stays ran (Store.entered_drained empty opened)).2
  cases resume_cases resumed with
  | kept | already | active => exact empty
  | trapped opened ran | suspended opened ran | completed opened ran =>
    have none := timed empty opened ran
    exact none

theorem dealt_empty (empty : store.executionFuel = 0) (dealt : Dealt FuncExecution.UsesUp store store') : store'.executionFuel = 0 := by
  cases dealt with
  | operate ran => exact (Store.SameFuel.host ran).fuel.trans empty
  | instantiate deep ran => exact Store.instantiate_empty empty ran
  | call deep ran => exact InterpreterRuntime.call_empty empty ran
  | callResumable deep ran =>
    exact Function.invoked_empty empty
      (fun inner => Function.callResumableInner_staysDrained (InterpreterRuntime.reentry_metered _ deep) inner) ran
  | @resume x y budget answer deep usesUp ran =>
    cases budget with
    | time isZero elapsed => exact FuncExecution.resume_time_empty empty ran
    | fuel fuel =>
      rcases FuncExecution.resume_left ran with same | ⟨⟨callframe,root,running⟩,left⟩
      · exact same.trans empty
      · have used := usesUp callframe root fuel running rfl
        omega

theorem dealings_empty {id : Nat} {config : Config}
    (life : Relation.ReflTransGen (Dealt FuncExecution.UsesUp) (.new id config) store) : store.executionFuel = 0 := by
  induction life with
  | refl => rfl
  | tail _ dealt ih => exact dealt_empty ih dealt

omit [Allocator] [Host] [Numerics] in
theorem begins_drained {moment : Moment} (empty : store.executionFuel = 0) (begins : BeginsUnfuelled store moment) :
    moment.store.Drained store.config.fuelPolicy := by
  cases begins with
  | host opened => exact Store.entered_drained empty opened
  | @entered _ _ active _ funcAddr func params _ _ opened framed made =>
    have cleared : active.SameFuel active.clearStacks := ⟨rfl,rfl,rfl⟩
    have same := trans_of _ cleared (Store.SameFuel.framed active.clearStacks funcAddr func params)
    rw [framed] at same
    rw [←Executor.new_store made] at same
    exact same.staysDrained (Store.entered_drained empty opened)
  | resumed opened made =>
    have same := Store.entered_drained empty opened
    rw [←Executor.new_store made] at same
    exact same

theorem within_drained {policy : FuelPolicy} {moment moment' : Moment} (drained : moment.store.Drained policy)
    (within : WithinUnfuelled moment moment') : moment'.store.Drained policy := by
  have metered := InterpreterRuntime.reentry_metered policy
  cases within with
  | operate ran => exact (Store.SameFuel.host ran).staysDrained drained
  | instantiate deep ran => exact (Store.SameFuel.instantiate (metered deep) drained.1 ran).staysDrained drained
  | call deep ran => rw [Moment.store,(metered deep).refused drained.1 ran]; exact drained
  | callUntyped deep ran => exact ((metered deep).nested _ _).staysDrained ran drained
  | @chargeFuel store fuel =>
    have empty : store.executionFuel = 0 := drained.2
    refine ⟨drained.1,?_⟩
    change store.executionFuel - fuel = 0
    rw [empty,Nat.zero_sub]
  | @nested store entered funcAddr func args _ _ framed made =>
    have same := Store.SameFuel.framed store funcAddr func args
    rw [framed] at same
    rw [←Executor.new_store made] at same
    exact same.staysDrained drained
  | executed deep ran => exact (Executor.exec_metered false (metered deep)).staysDrained _ _ _ ran drained
  | hosted popped => exact ⟨drained.1,drained.2⟩

end Histories

-- A function that returns at once, beside a host function.
namespace Leftover

def config : Config := ⟨fun _ => ⟨8,8,false⟩,⟨8,8,false⟩,.perInstruction,.vec,false⟩

def body : WasmFunction where
  instructions := [.returnVoid]
  data := ⟨[],[]⟩
  locals _ := 0
  params _ := 0
  results _ := 0
  ty := ⟨[],[]⟩

def module : Module where
  startFunc := none
  funcs := [body]
  funcTypes := [⟨[],[]⟩]
  funcTypeIdxs := [0]
  exports := []
  globals := []
  tableTypes := []
  memoryTypes := []
  imports := []
  data := []
  elements := []
  localMemoryAllocation := .skip

def linked : Store :=
  {Store.new 0 config with
    state := {State.empty with funcs := [.host ⟨[],[]⟩ 0,.wasm body 0]}
    moduleInstances := [⟨⟨0,[⟨[],[]⟩],[0],[1],[],[],[],[],[]⟩,0,none,[]⟩]}

def func : Function := ⟨⟨0,1⟩,0,1,⟨[],[]⟩⟩

variable [Allocator] [Host] [Numerics]

def begun : FuncExecution :=
  ⟨.running (.new 1 (.of 0 0 0) fun _ => 0) 1,{(linked.clearStacks.enterFrame 1 body []).2 with executionActive := false}⟩

-- What a resumption with so much fuel leaves.
def resumed (fuel : Nat) : Option FuncExecution :=
  ((begun.resume (InterpreterRuntime.reentry 1) 1 (.fuel fuel)).toOption).map (·.2)

def left (fuel : Nat) : Store := ((resumed fuel).map (·.store)).getD linked

theorem resumed_left {fuel : Nat} (went : (resumed fuel).isSome = true) :
    ∃ answer y, begun.resume (InterpreterRuntime.reentry 1) 1 (.fuel fuel) = .ok (answer,y) ∧ left fuel = y.store := by
  unfold left resumed at *
  rcases ran : begun.resume (InterpreterRuntime.reentry 1) 1 (.fuel fuel) with abort | ⟨answer,y⟩
  · rw [ran] at went; cases went
  · exact ⟨answer,y,rfl,rfl⟩

theorem life {allowed : Nat → Budget → FuncExecution → Prop} {fuel : Nat} (permitted : allowed 1 (.fuel fuel) begun)
    (went : (resumed fuel).isSome = true) : Relation.ReflTransGen (Dealt allowed) (.new 0 config) (left fuel) := by
  have added : Dealt allowed (.new 0 config) {Store.new 0 config with state := {State.empty with funcs := [.host ⟨[],[]⟩ 0]}} :=
    @Dealt.operate _ _ _ _ _ _ (.functionNew ⟨[],[]⟩ 0) _ rfl
  have made : Dealt allowed {Store.new 0 config with state := {State.empty with funcs := [.host ⟨[],[]⟩ 0]}} linked :=
    @Dealt.instantiate _ _ _ _ _ module .empty _ _ 0 rfl
  have called : Dealt allowed linked begun.store := @Dealt.callResumable _ _ _ _ _ _ func [] _ 0 rfl
  obtain ⟨answer,y,ran,same⟩ := resumed_left went
  rw [same]
  exact ((Relation.ReflTransGen.single added).tail made).tail called |>.tail (.resume 1 permitted ran)

end Leftover

end TinyWasm
