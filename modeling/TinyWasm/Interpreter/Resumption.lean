import TinyWasm.Interpreter.ExecutorGrowth

namespace TinyWasm

-- A handle has the store to itself for as long as it lives.
structure FuncExecution where
  state : FuncExecutionState
  store : Store

namespace FuncExecution

section Resume
variable [Allocator] [Host] [Numerics]

def resume (reentry : Reentry) (fuel : Nat) (x : FuncExecution) (budget : Budget) :
    Checked (Except Error ExecProgress × FuncExecution) := do
  let (answer,state,store) ← x.state.resume reentry fuel x.store budget
  .ok (answer,⟨state,store⟩)

def Begun (func : Function) (store : Store) (params : List WasmValue) (x : FuncExecution) : Prop :=
  ∃ fuel, func.callResumable (InterpreterRuntime.reentry fuel) store params = .ok (.ok x.state,x.store)

-- Resumptions one after the other, with what each of them answered.
inductive Resumes : FuncExecution → List (Except Error ExecProgress) → FuncExecution → Prop where
  | none {x} : Resumes x [] x
  | more {x y z : FuncExecution} {budget answer answers} (fuel : Nat)
    (first : x.resume (InterpreterRuntime.reentry fuel) fuel budget = .ok (answer,y)) (rest : Resumes y answers z) :
    Resumes x (answer :: answers) z

-- The run from the kept frame traps, or a host function in it fails.
def Traps (x : FuncExecution) (fuel : Nat) (budget : Budget) : Prop :=
  ∃ callframe root store trap after,
    x.state = .running callframe root ∧ x.store.enterExecution = .ok store ∧
    InterpreterRuntime.run (budget.run (InterpreterRuntime.reentry fuel) fuel) store callframe 0 = .ok (.error trap,after)

end Resume

-- The same error from every interpreter, with whatever host functions behind
-- it: none of their steps is taken.
def Refuses (x : FuncExecution) : Prop :=
  ∃ error, ∀ (_ : Allocator) (_ : Host) (_ : Numerics) reentry fuel budget,
    x.resume reentry fuel budget = .ok (.error error,x)

theorem completed_refuses (store : Store) : Refuses ⟨.completed none,store⟩ :=
  ⟨.other "execution already completed",fun _ _ _ _ _ _ => rfl⟩

theorem enters_idle {store : Store} (idle : store.executionActive = false) :
    store.enterExecution = .ok {store with executionActive := true} := by
  rw [Store.enterExecution,idle]
  rfl

section Resume
variable [Allocator] [Host] [Numerics] {x y z : FuncExecution} {budget : Budget} {answer : Except Error ExecProgress}

-- All that one resumption can do, by the exits of the source in their order.
inductive Resumed (fuel : Nat) : FuncExecution → Budget → Except Error ExecProgress → FuncExecution → Prop where
  | kept {store budget} (res : List WasmValue) :
    Resumed fuel ⟨.completed (some res),store⟩ budget (.ok (.completed res)) ⟨.completed none,store⟩
  | already {store budget} :
    Resumed fuel ⟨.completed none,store⟩ budget (.error (.other "execution already completed")) ⟨.completed none,store⟩
  | active {callframe root store budget error} (refused : store.enterExecution = .error error) :
    Resumed fuel ⟨.running callframe root,store⟩ budget (.error error) ⟨.running callframe root,store⟩
  | trapped {callframe root budget} {store entered after : Store} {trap} (opened : store.enterExecution = .ok entered)
    (ran : InterpreterRuntime.run (budget.run (InterpreterRuntime.reentry fuel) fuel) entered callframe 0 =
      .ok (.error trap,after)) :
    Resumed fuel ⟨.running callframe root,store⟩ budget (.error (.trap trap)) ⟨.running callframe root,after.exitExecution⟩
  | suspended {callframe root budget} {store entered after : Store} {cf} (opened : store.enterExecution = .ok entered)
    (ran : InterpreterRuntime.run (budget.run (InterpreterRuntime.reentry fuel) fuel) entered callframe 0 =
      .ok (.ok (.suspended cf),after)) :
    Resumed fuel ⟨.running callframe root,store⟩ budget (.ok .suspended) ⟨.running cf root,after.exitExecution⟩
  | completed {callframe root budget} {store entered after : Store} {res valueStack} (opened : store.enterExecution = .ok entered)
    (ran : InterpreterRuntime.run (budget.run (InterpreterRuntime.reentry fuel) fuel) entered callframe 0 =
      .ok (.ok .completed,after)) :
    Resumed fuel ⟨.running callframe root,store⟩ budget (.ok (.completed res))
      ⟨.completed none,{after.exitExecution with valueStack}⟩

theorem resume_cases {fuel : Nat}
    (resumed : x.resume (InterpreterRuntime.reentry fuel) fuel budget = .ok (answer,y)) : Resumed fuel x budget answer y := by
  obtain ⟨state,store⟩ := x
  cases state with
  | completed result =>
    cases result with
    | none => cases resumed; exact .already
    | some res => cases resumed; exact .kept res
  | running callframe root =>
    unfold resume FuncExecutionState.resume at resumed
    dsimp only at resumed
    rcases opened : store.enterExecution with error | entered
    · rw [opened] at resumed
      cases resumed
      exact .active opened
    · rw [opened] at resumed
      dsimp only at resumed
      rcases ran : InterpreterRuntime.run (budget.run (InterpreterRuntime.reentry fuel) fuel) entered callframe 0 with
        abort | ⟨trap | _ | cf,after⟩
      · rw [ran] at resumed; cases resumed
      · rw [ran] at resumed
        cases resumed
        exact .trapped opened ran
      · rw [ran] at resumed
        simp only [ok_bind] at resumed
        rcases found : State.at after.exitExecution.state.funcs root with abort | func
        · rw [found] at resumed; cases resumed
        · rw [found] at resumed
          simp only [ok_bind] at resumed
          rcases collected : collectCallResults after.exitExecution.valueStack func.ty with abort | ⟨res,valueStack⟩
          · rw [collected] at resumed; cases resumed
          · rw [collected] at resumed
            cases resumed
            exact .completed opened ran
      · rw [ran] at resumed
        cases resumed
        exact .suspended opened ran

-- No invocation is under way between two resumptions.
theorem resume_idle {fuel : Nat} (idle : x.store.executionActive = false)
    (resumed : x.resume (InterpreterRuntime.reentry fuel) fuel budget = .ok (answer,y)) : y.store.executionActive = false := by
  cases resume_cases resumed with
  | kept | already | active => exact idle
  | trapped | suspended | completed => rfl

theorem resumes_idle {answers : List (Except Error ExecProgress)} (idle : x.store.executionActive = false)
    (resumes : Resumes x answers y) : y.store.executionActive = false := by
  induction resumes with
  | none => exact idle
  | more fuel first _ ih => exact ih (resume_idle idle first)

theorem begun_idle {func : Function} {store : Store} {params : List WasmValue} (begun : Begun func store params x) :
    x.store.executionActive = false := by
  obtain ⟨fuel,called⟩ := begun
  unfold Function.callResumable Function.invoke at called
  split at called
  · cases called
  · split at called
    · cases called
    · split at called
      · cases called
      · rename_i opened _
        rcases ran : func.callResumableInner (InterpreterRuntime.reentry fuel) params opened with abort | ⟨r,after⟩
        · rw [ran] at called; cases called
        · rw [ran] at called
          have left := congrArg Prod.snd (Except.ok.inj called)
          exact congrArg Store.executionActive left.symm

-- Without any fuel a running execution is only suspended.
theorem running_accepts {callframe : CallFrame} {root : FuncAddr} {store : Store}
    (idle : store.executionActive = false) : ¬Refuses ⟨.running callframe root,store⟩ := by
  rintro ⟨error,refused⟩
  have answered := refused ‹_› ‹_› ‹_› (InterpreterRuntime.reentry 0) 0 (.fuel 0)
  unfold resume FuncExecutionState.resume at answered
  simp only [enters_idle idle] at answered
  rcases made : Executor.new {store with executionActive := true} callframe 0 with abort | ex
  · simp only [InterpreterRuntime.run,made] at answered
    cases answered
  · simp only [InterpreterRuntime.run,made,ok_bind] at answered
    cases answered

theorem answered_untrapped {fuel : Nat} {progress : ExecProgress} (resumed : Resumed fuel x budget (.ok progress) y) :
    ¬x.Traps fuel budget := by
  rintro ⟨_,_,_,_,_,running,opened,trapped⟩
  cases resumed with
  | kept => cases running
  | suspended openedToo ran | completed openedToo ran =>
    cases running
    cases openedToo.symm.trans opened
    rw [ran] at trapped
    cases trapped

theorem refuses_forever {answers : List (Except Error ExecProgress)} (refuses : Refuses x) (resumes : Resumes x answers y) :
    y = x ∧ ∀ answer ∈ answers, ∃ error, answer = .error error := by
  induction resumes with
  | none => exact ⟨rfl,nofun⟩
  | more fuel first _ ih =>
    obtain ⟨error,refused⟩ := refuses
    rw [refused] at first
    cases first
    obtain ⟨same,errors⟩ := ih ⟨error,refused⟩
    exact ⟨same,List.forall_mem_cons.mpr ⟨⟨error,rfl⟩,errors⟩⟩

-- Every step of every life of a handle: what has ended it stays so just when
-- it was not a trap.
theorem finished_stays_iff {func : Function} {store : Store} {params : List WasmValue}
    {before : List (Except Error ExecProgress)} {fuel : Nat} (begun : Begun func store params x) (resumes : Resumes x before y)
    (resumed : y.resume (InterpreterRuntime.reentry fuel) fuel budget = .ok (answer,z)) (ended : answer ≠ .ok .suspended) :
    (z.Refuses ∧ ∀ later w, Resumes z later w → w = z ∧ ∀ answer ∈ later, ∃ error, answer = .error error) ↔
      ¬y.Traps fuel budget := by
  have idle := resumes_idle (begun_idle begun) resumes
  have idleAfter := resume_idle idle resumed
  have forever (refuses : z.Refuses) :
      z.Refuses ∧ ∀ later w, Resumes z later w → w = z ∧ ∀ answer ∈ later, ∃ error, answer = .error error :=
    ⟨refuses,fun _ _ => refuses_forever refuses⟩
  have untrapped {progress : ExecProgress} (same : answer = .ok progress) : ¬y.Traps fuel budget :=
    answered_untrapped (same ▸ resume_cases resumed)
  cases resume_cases resumed with
  | kept | completed => exact iff_of_true (forever (completed_refuses _)) (untrapped rfl)
  | already =>
    refine iff_of_true (forever (completed_refuses _)) ?_
    rintro ⟨_,_,_,_,_,running,_⟩
    cases running
  | active refused => rw [enters_idle idle] at refused; cases refused
  | trapped opened ran =>
    refine iff_of_false (fun stays => running_accepts idleAfter stays.1) (not_not_intro ?_)
    exact ⟨_,_,_,_,_,rfl,opened,ran⟩
  | suspended => exact absurd rfl ended

end Resume

-- A function that counts its runs in a global.
namespace Counting

def config : Config := ⟨fun _ => ⟨8,8,false⟩,⟨8,8,false⟩,.perInstruction,.vec,false⟩

def body (last : Instruction) : WasmFunction where
  instructions := [.globalGet 0,.addConst .s32 1,.globalSet .s32 0,last]
  data := ⟨[],[]⟩
  locals _ := 0
  params _ := 0
  results _ := 0
  ty := ⟨[],[]⟩

def linked (last : Instruction) : Store :=
  {Store.new 0 config with
    state := {State.empty with funcs := [.wasm (body last) 0],globals := [⟨.value32 0,⟨true,.i32⟩⟩]}
    moduleInstances := [⟨⟨0,[⟨[],[]⟩],[0],[0],[],[],[0],[],[]⟩,0,none,[]⟩]}

def func : Function := ⟨⟨0,0⟩,0,0,⟨[],[]⟩⟩

def count (x : FuncExecution) : Option TinyWasmValue := x.store.state.globals[0]?.map (·.value)

variable [Allocator]

def begun (last : Instruction) : FuncExecution :=
  ⟨.running (.new 0 (.of 0 0 0) fun _ => 0) 0,((linked last).clearStacks.enterFrame 0 (body last) []).2⟩

theorem begun_begun [Host] [Numerics] (last : Instruction) : Begun func (linked last) [] (begun last) := ⟨0,rfl⟩

variable [Host] [Numerics]

-- A resumption, as far as a test can see.
def again (x : FuncExecution) : Option (Except Error ExecProgress × FuncExecution) :=
  (x.resume (InterpreterRuntime.reentry 1) 1 (.fuel 1)).toOption

def completes (x : FuncExecution) : Bool :=
  match again x with
  | some (.ok (.completed _),_) => true
  | _ => false

def fails (x : FuncExecution) : Bool :=
  match again x with
  | some (.error (.trap .unreachable),_) => true
  | _ => false

def after (x : FuncExecution) : FuncExecution := ((again x).map (·.2)).getD x

theorem completes_resumed {x : FuncExecution} (completed : completes x = true) :
    ∃ res, x.resume (InterpreterRuntime.reentry 1) 1 (.fuel 1) = .ok (.ok (.completed res),after x) := by
  unfold completes after again at *
  rcases ran : x.resume (InterpreterRuntime.reentry 1) 1 (.fuel 1) with abort | ⟨answer,y⟩
  · rw [ran] at completed; cases completed
  · rw [ran] at completed
    simp only [Except.toOption] at completed
    split at completed
    · rename_i same
      cases same
      exact ⟨_,rfl⟩
    · cases completed

theorem fails_resumed {x : FuncExecution} (failed : fails x = true) :
    x.resume (InterpreterRuntime.reentry 1) 1 (.fuel 1) = .ok (.error (.trap .unreachable),after x) := by
  unfold fails after again at *
  rcases ran : x.resume (InterpreterRuntime.reentry 1) 1 (.fuel 1) with abort | ⟨answer,y⟩
  · rw [ran] at failed; cases failed
  · rw [ran] at failed
    simp only [Except.toOption] at failed
    split at failed
    · rename_i same
      cases same
      rfl
    · cases failed

end Counting

open Counting in
theorem finished_stays_iff_completed :
    let _ := Allocator.unlimited
    let _ := Host.quiet
    let _ := Numerics.zeros
    (after (begun .returnVoid)).Refuses := by
  let _ := Allocator.unlimited
  let _ := Host.quiet
  let _ := Numerics.zeros
  obtain ⟨_,ran⟩ := completes_resumed (x := begun .returnVoid) (by decide +kernel)
  exact ((finished_stays_iff (begun_begun .returnVoid) .none ran nofun).mpr (answered_untrapped (resume_cases ran))).1

open Counting in
-- Each resumption after the trap counts once more.
theorem trapped_runs_again :
    let _ := Allocator.unlimited
    let _ := Host.quiet
    let _ := Numerics.zeros
    let first := begun .unreachable
    Begun func (linked .unreachable) [] first ∧
    ∃ second third : FuncExecution,
      first.resume (InterpreterRuntime.reentry 1) 1 (.fuel 1) = .ok (.error (.trap .unreachable),second) ∧
      second.resume (InterpreterRuntime.reentry 1) 1 (.fuel 1) = .ok (.error (.trap .unreachable),third) ∧
      count second = some (.value32 1) ∧ count third = some (.value32 2) := by
  let _ := Allocator.unlimited
  let _ := Host.quiet
  let _ := Numerics.zeros
  refine ⟨begun_begun .unreachable,_,_,fails_resumed ?_,fails_resumed ?_,?_,?_⟩ <;> decide +kernel

end FuncExecution

end TinyWasm
