import TinyWasm.Interpreter.CacheCoherence

namespace TinyWasm

-- Where the life of a store stands: a host has it in hand, or an executor is
-- between two instructions.
inductive Moment where
  | held (store : Store)
  | executing (ex : Executor)

section Moves
variable [Allocator] [Host] [Numerics]

-- A host that runs a call gets the store back once the call is through; the
-- executors of that call are reached by opening its execution instead. Host
-- functions hold the store in the same way, in the midst of an instruction.
inductive Move : Moment → Moment → Prop where
  | operate {store store'} {op : HostOp} {r} (ran : op.run store = .ok (r,store')) : Move (.held store) (.held store')
  | instantiate {store : Store} {m : Module} {imports : Imports} {r store'}
    (ran : store.instantiateNoStart m imports = .ok (r,store')) : Move (.held store) (.held store')
  | call {store store'} {func : Function} {params r} (fuel : Nat)
    (ran : func.call (InterpreterRuntime.reentry fuel) fuel store params = .ok (r,store')) :
    Move (.held store) (.held store')
  | callUntyped {store : Store} {func : Function} {args r store'} (fuel : Nat)
    (ran : FuncContext.callUntyped (InterpreterRuntime.reentry fuel) fuel store func args = .ok (r,store')) :
    Move (.held store) (.held store')
  | callResumable {store store'} {func : Function} {params r} (fuel : Nat)
    (ran : func.callResumable (InterpreterRuntime.reentry fuel) store params = .ok (r,store')) :
    Move (.held store) (.held store')
  | resume {store store'} {execution execution' : FuncExecutionState} {budget r} (fuel : Nat)
    (ran : execution.resume (InterpreterRuntime.reentry fuel) fuel store budget = .ok (r,execution',store')) :
    Move (.held store) (.held store')
  | chargeFuel {store : Store} (fuel : Nat) :
    Move (.held store) (.held {store with executionFuel := store.executionFuel - fuel})
  | opened {store store' : Store} (opened : store.enterExecution = .ok store') : Move (.held store) (.held store')
  | entered {store entered : Store} {funcAddr func params cf ex}
    (framed : store.clearStacks.enterFrame funcAddr func params = (.ok cf,entered))
    (made : Executor.new entered cf 0 = .ok ex) : Move (.held store) (.executing ex)
  | nested {store entered : Store} {funcAddr func args cf ex}
    (framed : store.enterFrame funcAddr func args = (.ok cf,entered))
    (made : Executor.new entered cf store.callStack.len = .ok ex) : Move (.held store) (.executing ex)
  | resumed {store cf ex} (made : Executor.new store cf 0 = .ok ex) : Move (.held store) (.executing ex)
  | executed {ex ex' : Executor} (fuel : Nat) (budgeted : Bool)
    (ran : ex.exec (InterpreterRuntime.reentry fuel) budgeted = .ok (.ok false,ex')) :
    Move (.executing ex) (.executing ex')
  | refuelled {ex ex' : Executor} {fuel : Nat} (ran : ex.setFuel fuel = .ok (.ok (),ex')) :
    Move (.executing ex) (.executing ex')
  | hosted {ex : Executor} {types params valueStack} (popped : ex.store.valueStack.popTypes types = .ok (params,valueStack)) :
    Move (.executing ex) (.held (ex.setStack valueStack).store)

def Moves : Moment → Moment → Prop := Relation.ReflTransGen Move

-- The loops of the interpreter pass from executor to executor by these moves.
namespace Executor
variable {deep : Nat} {ex ex' : Executor}

theorem Moves.executed {budgeted : Bool} {moment : Moment}
    (ran : exec (InterpreterRuntime.reentry deep) budgeted ex = .ok (.ok false,ex')) (moves : Moves (.executing ex') moment) :
    Moves (.executing ex) moment := .head (.executed deep budgeted ran) moves

theorem runToCompletion_moves {fuel : Nat} {r : Except Trap Unit}
    (ran : runToCompletion (InterpreterRuntime.reentry deep) fuel ex = .ok (r,ex')) :
    ∃ last, Moves (.executing ex) (.executing last) ∧
      exec (InterpreterRuntime.reentry deep) false last = .ok (r.map fun _ => true,ex') := by
  induction fuel generalizing ex with
  | zero => cases ran
  | succ fuel ih =>
    unfold runToCompletion at ran
    rw [Exec.bind_run] at ran
    rcases stepped : exec (InterpreterRuntime.reentry deep) false ex with abort | ⟨trap | (_ | _),ex₁⟩
    · rw [stepped] at ran; cases ran
    · rw [stepped] at ran
      cases ran
      exact ⟨ex,.refl,stepped⟩
    · rw [stepped] at ran
      obtain ⟨last,moves,ended⟩ := ih ran
      exact ⟨last,Moves.executed stepped moves,ended⟩
    · rw [stepped] at ran
      cases ran
      exact ⟨ex,.refl,stepped⟩

theorem execMany_moves {budgeted : Bool} {count : Nat}
    (ran : execMany (InterpreterRuntime.reentry deep) budgeted count ex = .ok (.ok false,ex')) :
    Moves (.executing ex) (.executing ex') := by
  induction count generalizing ex with
  | zero => cases ran; exact .refl
  | succ count ih =>
    obtain ⟨finished,ex₁,stepped,rest⟩ := Exec.bind_answered ran
    cases finished with
    | true => cases rest
    | false => exact Moves.executed stepped (ih rest)

-- A suspended execution keeps the frame of the executor it stopped in.
theorem fuelLoop_moves {turns : Nat} {cf : CallFrame}
    (ran : fuelLoop (InterpreterRuntime.reentry deep) turns ex = .ok (.ok (.suspended cf),ex')) :
    Moves (.executing ex) (.executing ex') ∧ cf = ex'.cf := by
  induction turns generalizing ex with
  | zero => cases ran
  | succ turns ih =>
    obtain ⟨_ | _,ex₁,many,rest⟩ := Exec.bind_answered ran
    · obtain ⟨_,ex₂,charged,rest⟩ := Exec.bind_answered (rest : (Exec.get >>= _) ex₁ = _)
      cases charged
      obtain ⟨_,ex₂,charged,rest⟩ := Exec.bind_answered rest
      have moves := (execMany_moves many).tail (.refuelled charged)
      split at rest
      · cases rest; exact ⟨moves,rfl⟩
      · obtain ⟨more,kept⟩ := ih rest
        exact ⟨moves.trans more,kept⟩
    · cases rest

theorem timeLoop_moves {elapsed : Nat → Bool} {turns asked : Nat} {cf : CallFrame}
    (ran : timeLoop (InterpreterRuntime.reentry deep) elapsed turns asked ex = .ok (.ok (.suspended cf),ex')) :
    Moves (.executing ex) (.executing ex') ∧ cf = ex'.cf := by
  induction turns generalizing ex asked with
  | zero => cases ran
  | succ turns ih =>
    obtain ⟨_ | _,ex₁,many,rest⟩ := Exec.bind_answered ran
    · have moves := execMany_moves many
      simp only [Bool.false_eq_true,if_false] at rest
      split at rest
      · cases rest; exact ⟨moves,rfl⟩
      · obtain ⟨more,kept⟩ := ih rest
        exact ⟨moves.trans more,kept⟩
    · cases rest

theorem budget_moves {fuel : Nat} {budget : Budget} {cf : CallFrame}
    (ran : budget.run (InterpreterRuntime.reentry deep) fuel ex = .ok (.ok (.suspended cf),ex')) :
    Moves (.executing ex) (.executing ex') ∧ cf = ex'.cf := by
  cases budget with
  | fuel units =>
    obtain ⟨_,ex₁,filled,rest⟩ := Exec.bind_answered (ran : (setFuel units >>= _) ex = _)
    have moves : Moves (.executing ex) (.executing ex₁) := .single (.refuelled filled)
    split at rest
    · cases rest; exact ⟨moves,rfl⟩
    · obtain ⟨more,kept⟩ := fuelLoop_moves rest
      exact ⟨moves.trans more,kept⟩
  | time isZero elapsed =>
    unfold Budget.run runWithTimeBudget at ran
    dsimp only at ran
    split at ran
    · cases ran; exact ⟨.refl,rfl⟩
    · exact timeLoop_moves ran

end Executor

end Moves

-- What is wanted of a store in the hands of a host, and of an executor.
def Moment.Coherent : Moment → Prop
  | held store => store.Numbered
  | executing ex => ex.Coherent ∧ ex.store.Numbered

theorem entered_coherent {store : Store} {cf : CallFrame} {callStackBase : Nat} {ex : Executor} (numbered : store.Numbered)
    (made : Executor.new store cf callStackBase = .ok ex) : (Moment.executing ex).Coherent := by
  obtain ⟨rfl,coherent⟩ := Executor.new_coherent numbered made
  exact ⟨coherent,numbered⟩

section Coherence
variable [Allocator] [Host] [Numerics] {moment moment' : Moment}

theorem move_coherent (coherent : moment.Coherent) (move : Move moment moment') : moment'.Coherent := by
  have grows := InterpreterRuntime.reentry_grows
  cases move with
  | operate ran => exact (Store.Grows.host ran).numbered coherent
  | instantiate ran => exact (Store.Grows.instantiated (Store.instantiateNoStart_cases ran)).numbered coherent
  | call fuel ran => exact (Store.Grows.call (grows fuel) fuel ran).numbered coherent
  | callUntyped fuel ran => exact (Store.Grows.callUntyped (grows fuel) fuel ran).numbered coherent
  | callResumable fuel ran => exact (Store.Grows.callResumable (grows fuel) ran).numbered coherent
  | resume fuel ran => exact (Store.Grows.resumed (grows fuel) fuel ran).numbered coherent
  | chargeFuel fuel => exact coherent
  | opened opened => exact (Store.Grows.entered opened).numbered coherent
  | @entered store _ funcAddr func params _ _ framed made =>
    have grown := Store.Grows.framed store.clearStacks funcAddr func params
    rw [framed] at grown
    exact entered_coherent (grown.numbered coherent) made
  | @nested store _ funcAddr func args _ _ framed made =>
    have grown := Store.Grows.framed store funcAddr func args
    rw [framed] at grown
    exact entered_coherent (grown.numbered coherent) made
  | resumed made => exact entered_coherent coherent made
  | executed fuel budgeted ran =>
    obtain ⟨coherent,numbered⟩ := coherent
    refine ⟨Executor.exec_coherent (grows fuel) budgeted coherent numbered ran,?_⟩
    exact Store.Grows.numbered (Executor.exec_grows budgeted (grows fuel) _ _ _ ran) numbered
  | refuelled ran => cases ran; exact ⟨⟨coherent.1.body,coherent.1.owner⟩,coherent.2⟩
  | hosted popped => exact coherent.2

theorem moves_coherent (coherent : moment.Coherent) (moves : Moves moment moment') : moment'.Coherent := by
  induction moves with
  | refl => exact coherent
  | tail _ move ih => exact move_coherent ih move

theorem caches_coherent {id : Nat} {config : Config} {ex : Executor} (moves : Moves (.held (.new id config)) (.executing ex)) :
    ex.Coherent := by
  have numbered : (Moment.held (.new id config)).Coherent := nofun
  exact (moves_coherent numbered moves).1

end Coherence

-- Two instances of one module: the first imports a host function and the second
-- the function of the first.
namespace Twins

def config : Config := ⟨fun _ => ⟨8,8,false⟩,⟨8,8,false⟩,.perInstruction,.vec,false⟩

def body : WasmFunction where
  instructions := [.call 0,.returnVoid]
  data := ⟨[],[]⟩
  locals _ := 0
  params _ := 0
  results _ := 0
  ty := ⟨[],[]⟩

def module : Module where
  startFunc := none
  funcs := [body]
  funcTypes := [⟨[],[]⟩]
  funcTypeIdxs := [0]
  exports := []
  globals := []
  tableTypes := []
  memoryTypes := []
  imports := [⟨"env","next",.function 0⟩]
  data := []
  elements := []
  localMemoryAllocation := .skip

def next (addr : FuncAddr) : Imports := Imports.empty.define "env" "next" (.function ⟨⟨0,addr⟩,0,addr,⟨[],[]⟩⟩)

def inst (idx : Nat) : Instance := ⟨⟨idx,[⟨[],[]⟩],[0],[idx,idx + 1],[],[],[],[],[]⟩,0,none,[]⟩

def store (funcs : List FunctionInstance) (moduleInstances : List Instance) : Store :=
  {Store.new 0 config with state := {State.empty with funcs},moduleInstances}

def linked : Store := store [.host ⟨[],[]⟩ 0,.wasm body 0,.wasm body 1] [inst 0,inst 1]

def opened : Store := {linked with executionActive := true}

def frame : CallFrame := .new 2 (.of 0 0 0) (fun _ => 0)

variable [Allocator] [Host] [Numerics]

def entered : Executor := ⟨frame,body,inst 1,(opened.clearStacks.enterFrame 2 body []).2,0⟩

def after (ex : Executor) : Executor :=
  match ex.exec (InterpreterRuntime.reentry 0) true with
  | .ok (_,ex) => ex
  | .error _ => ex

def continues (ex : Executor) : Bool :=
  match ex.exec (InterpreterRuntime.reentry 0) true with
  | .ok (.ok finished,_) => !finished
  | _ => false

theorem continues_moves {ex : Executor} (on : continues ex = true) : Move (.executing ex) (.executing (after ex)) := by
  unfold continues at on
  rcases ran : ex.exec (InterpreterRuntime.reentry 0) true with abort | ⟨trap | finished,ex'⟩
  · rw [ran] at on; cases on
  · rw [ran] at on; cases on
  · rw [ran] at on
    obtain rfl : finished = false := by simpa using on
    rw [after,ran]
    exact .executed 0 true ran

end Twins

open Twins in
-- The second calls the first and is returned to.
theorem caches_coherent_twins :
    let _ := Allocator.unlimited
    let _ := Host.quiet
    let _ := Numerics.zeros
    let called := after entered
    let returned := after (after called)
    (called.module.idx = 0 ∧ called.Coherent) ∧ returned.module.idx = 1 ∧ returned.Coherent := by
  let _ := Allocator.unlimited
  let _ := Host.quiet
  let _ := Numerics.zeros
  have added : Move (.held (.new 0 config)) (.held (store [.host ⟨[],[]⟩ 0] [])) :=
    @Move.operate _ _ _ _ _ (.functionNew ⟨[],[]⟩ 0) _ rfl
  have first : Move (.held (store [.host ⟨[],[]⟩ 0] [])) (.held (store [.host ⟨[],[]⟩ 0,.wasm body 0] [inst 0])) :=
    @Move.instantiate _ _ _ _ module (next 0) _ _ rfl
  have second : Move (.held (store [.host ⟨[],[]⟩ 0,.wasm body 0] [inst 0])) (.held linked) :=
    @Move.instantiate _ _ _ _ module (next 1) _ _ rfl
  have enters : Move (.held opened) (.executing entered) :=
    @Move.entered _ _ _ opened _ 2 body [] frame entered rfl rfl
  have moves : Moves (.held (.new 0 config)) (.executing entered) :=
    (((Relation.ReflTransGen.single added).tail first).tail second).tail (.opened rfl) |>.tail enters
  have called := moves.tail (continues_moves (by decide +kernel))
  have returned := called.tail (continues_moves (by decide +kernel)) |>.tail (continues_moves (by decide +kernel))
  exact ⟨⟨by decide +kernel,caches_coherent called⟩,by decide +kernel,caches_coherent returned⟩

end TinyWasm
