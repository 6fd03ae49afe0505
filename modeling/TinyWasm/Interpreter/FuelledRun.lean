import TinyWasm.Interpreter.FuelAccounting
import TinyWasm.Interpreter.Resumption

namespace TinyWasm
open Metering Exec

-- Blocks of instructions are paid for at their ends.
abbrev FuelPolicy.runEvents (policy : FuelPolicy) : Events (Option FuelEvent) := policy.events.ticking Executor.chunkSize

-- Hosts see what is left of the fuel, and a run is suspended at the first end of
-- a block that finds it used up.
structure FuelExact (policy : FuelPolicy) (fuel : Nat) (record : List (Option FuelEvent)) (suspended : Prop) : Prop where
  observed {before n behind} : record = before ++ some (.observed n) :: behind → n = fuel - total policy.runEvents before
  stops {before behind} : record = before ++ none :: behind → fuel ≤ total policy.runEvents (before ++ [none]) →
    behind = [] ∧ suspended
  suspends : suspended → ∃ before, record = before ++ [none] ∧ fuel ≤ total policy.runEvents record

namespace Executor
variable [Allocator] [Host] [Numerics] {reentry : Reentry} {policy : FuelPolicy} {records : Records}

def Suspends (x : Executing ExecState) (ex : Executor) : Prop := ∃ cf ex', x ex = .ok (.ok (.suspended cf),ex')

theorem fuelLoop_ended {turns : Nat} {ex : Executor} (ended : ∀ ex₁, execMany reentry true chunkSize ex ≠ .ok (.ok false,ex₁)) :
    ¬Suspends (fuelLoop reentry (turns + 1)) ex := by
  rintro ⟨cf,ex',ran⟩
  obtain ⟨_ | _,ex₁,many,rest⟩ := bind_answered (ran : (execMany reentry true chunkSize >>= _) ex = _)
  · exact ended ex₁ many
  · cases rest

theorem loopRecord_ended {turns : Nat} {ex : Executor} (ended : ∀ ex₁, execMany reentry true chunkSize ex ≠ .ok (.ok false,ex₁)) :
    loopRecord reentry records (turns + 1) ex = (manyRecord reentry records true chunkSize ex).map some := by
  rw [loopRecord]
  split
  · rename_i ex₁ ran
    exact absurd ran (ended ex₁)
  · rw [List.append_nil]

variable (metered : reentry.Metered policy records)
include metered

-- A whole block of a run, and the executor that its end leaves.
theorem block_ends {ex ex₁ : Executor} (runs : ex.store.Running policy)
    (ran : execMany reentry true chunkSize ex = .ok (.ok false,ex₁)) :
    ∃ next : Executor, next.store.Running policy ∧ next.store.executionFuel =
        ex.store.executionFuel - (total policy.events (manyRecord reentry records true chunkSize ex) + chunkSize) ∧
      ∀ turns, fuelLoop reentry (turns + 1) ex =
          (if next.store.executionFuel = 0 then suspend next else fuelLoop reentry turns next) ∧
        loopRecord reentry records (turns + 1) ex = (manyRecord reentry records true chunkSize ex).map some ++
          none :: if next.store.executionFuel = 0 then [] else loopRecord reentry records turns next := by
  obtain ⟨runs',spent⟩ := (execMany_metered true metered chunkSize).left runs ran
  refine ⟨{ex₁ with store := {ex₁.store with executionFuel := ex₁.store.executionFuel - chunkSize}},⟨runs'.1,runs'.2⟩,?_,
    fun turns => ⟨?_,?_⟩⟩
  · rw [←Nat.sub_sub,←spent]
  · rw [fuelLoop,bind_ok ran]
    simp only [Bool.false_eq_true,if_false,get_bind]
    rw [bind_ok (a := ()) rfl]
    dsimp only
    split <;> rfl
  · rw [loopRecord,ran]

theorem fuelLoop_metered (turns : Nat) : Meters policy.runEvents (fun ex => ex.store.Running policy) (fun ex => ex.store.executionFuel)
    (fuelLoop reentry turns) (loopRecord reentry records turns) := by
  induction turns with
  | zero => exact ⟨fun _ => trivial,nofun⟩
  | succ turns ih =>
    have many := execMany_metered true metered chunkSize
    refine Meters.pointwise fun ex runs => ?_
    by_cases ran : ∃ ex₁, execMany reentry true chunkSize ex = .ok (.ok false,ex₁)
    · obtain ⟨ex₁,ran⟩ := ran
      obtain ⟨next,runs',spent,ends⟩ := block_ends metered runs ran
      have block : Truthful policy.runEvents ex.store.executionFuel ((manyRecord reentry records true chunkSize ex).map some ++ [none]) :=
        truthful_append.mpr ⟨truthful_unticked.mpr (many.truthful runs),fun n shown => (by cases shown),trivial⟩
      have price : total policy.runEvents [none] = chunkSize := rfl
      have left : next.store.executionFuel =
          ex.store.executionFuel - total policy.runEvents ((manyRecord reentry records true chunkSize ex).map some ++ [none]) := by
        rw [spent,total_append,total_unticked,price]
      rw [(ends turns).1,(ends turns).2,←List.singleton_append,←List.append_assoc]
      generalize (manyRecord reentry records true chunkSize ex).map some ++ [none] = first at block left
      rw [truthful_append,total_append,Nat.sub_add_eq,←left]
      by_cases empty : next.store.executionFuel = 0
      · rw [if_pos empty,if_pos empty]
        refine ⟨⟨block,trivial⟩,fun ended => ?_⟩
        cases ended
        exact ⟨runs',rfl⟩
      · rw [if_neg empty,if_neg empty]
        exact ⟨⟨block,ih.truthful runs'⟩,ih.left runs'⟩
    · rw [loopRecord_ended fun ex₁ same => ran ⟨ex₁,same⟩,total_unticked]
      refine ⟨truthful_unticked.mpr (many.truthful runs),fun {r ex'} ended => ?_⟩
      change (execMany reentry true chunkSize >>= _) ex = _ at ended
      rw [bind_run] at ended
      rcases stepped : execMany reentry true chunkSize ex with abort | ⟨trap | (_ | _),ex₁⟩
      · rw [stepped] at ended; cases ended
      · rw [stepped] at ended
        cases ended
        exact many.left runs stepped
      · exact absurd ⟨ex₁,stepped⟩ ran
      · rw [stepped] at ended
        cases ended
        exact many.left runs stepped

-- Every block takes fuel, so there are turns as long as there is fuel.
theorem fuelLoop_stops {turns : Nat} {ex : Executor} {before behind : List (Option FuelEvent)} (runs : ex.store.Running policy)
    (enough : ex.store.executionFuel ≤ turns) (split : loopRecord reentry records turns ex = before ++ none :: behind)
    (spent : ex.store.executionFuel ≤ total policy.runEvents (before ++ [none])) :
    behind = [] ∧ Suspends (fuelLoop reentry turns) ex := by
  induction turns generalizing ex before with
  | zero => cases before <;> cases split
  | succ turns ih =>
    by_cases ran : ∃ ex₁, execMany reentry true chunkSize ex = .ok (.ok false,ex₁)
    · obtain ⟨ex₁,ran⟩ := ran
      obtain ⟨next,runs',left,ends⟩ := block_ends metered runs ran
      have price : policy.runEvents.cost none = chunkSize := rfl
      have size : chunkSize = 128 := rfl
      rw [(ends turns).2] at split
      unfold Suspends
      rw [(ends turns).1]
      rcases tick_cases split with ⟨rfl,rfl⟩ | ⟨between,rfl,rest⟩
      · simp only [total_append,total_unticked,total_cons,total_nil,price] at spent
        have empty : next.store.executionFuel = 0 := by omega
        rw [if_pos empty,if_pos empty]
        exact ⟨rfl,_,_,rfl⟩
      · split at rest
        · exact absurd rest (by simp)
        · rename_i more
          rw [if_neg more]
          simp only [total_append,total_unticked,total_cons,total_nil,price] at spent
          refine ih runs' (by omega) rest ?_
          simp only [total_append,total_cons,total_nil,price]
          omega
    · rw [loopRecord_ended fun ex₁ same => ran ⟨ex₁,same⟩] at split
      have tick : none ∈ (manyRecord reentry records true chunkSize ex).map some := by rw [split]; simp
      simp at tick

theorem fuelLoop_suspends {turns : Nat} {ex : Executor} (runs : ex.store.Running policy) (suspended : Suspends (fuelLoop reentry turns) ex) :
    ∃ before, loopRecord reentry records turns ex = before ++ [none] ∧
      ex.store.executionFuel ≤ total policy.runEvents (before ++ [none]) := by
  induction turns generalizing ex with
  | zero => obtain ⟨_,_,ran⟩ := suspended; cases ran
  | succ turns ih =>
    by_cases ran : ∃ ex₁, execMany reentry true chunkSize ex = .ok (.ok false,ex₁)
    · obtain ⟨ex₁,ran⟩ := ran
      obtain ⟨next,runs',left,ends⟩ := block_ends metered runs ran
      have price : policy.runEvents.cost none = chunkSize := rfl
      unfold Suspends at suspended
      rw [(ends turns).1] at suspended
      rw [(ends turns).2]
      split
      · rename_i empty
        refine ⟨_,rfl,?_⟩
        simp only [total_append,total_unticked,total_cons,total_nil,price]
        omega
      · rename_i more
        rw [if_neg more] at suspended
        obtain ⟨before,rest,spent⟩ := ih runs' suspended
        refine ⟨(manyRecord reentry records true chunkSize ex).map some ++ none :: before,?_,?_⟩
        · rw [rest,List.append_assoc]
          rfl
        · simp only [total_append,total_unticked,total_cons,total_nil,price] at spent ⊢
          omega
    · exact absurd suspended (fuelLoop_ended fun ex₁ same => ran ⟨ex₁,same⟩)

theorem runWithFuel_exact {fuel : Nat} (positive : 0 < fuel) {ex : Executor} (runs : ex.store.Running policy) :
    FuelExact policy fuel (fuelRecord reentry records fuel ex) (Suspends (runWithFuel reentry fuel) ex) := by
  have some_fuel : fuel ≠ 0 := by omega
  let filled : Executor := {ex with store := {ex.store with executionFuel := fuel}}
  have record : fuelRecord reentry records fuel ex = loopRecord reentry records fuel filled := if_neg some_fuel
  have run : runWithFuel reentry fuel ex = fuelLoop reentry fuel filled := by
    rw [runWithFuel,if_neg some_fuel]
    rfl
  have runs' : filled.store.Running policy := runs
  rw [record]
  unfold Suspends
  rw [run]
  refine ⟨fun {before n behind} split => ?_,fun split spent => fuelLoop_stops metered runs' (Nat.le_refl fuel) split spent,
    fun suspended => ?_⟩
  · have truthful := (fuelLoop_metered metered fuel).truthful runs'
    rw [split] at truthful
    exact truthful.reads rfl
  · obtain ⟨before,split,spent⟩ := fuelLoop_suspends metered runs' suspended
    rw [split]
    exact ⟨before,rfl,spent⟩

theorem runWithFuel_left {fuel : Nat} {ex ex' : Executor} {r : Except Trap ExecState} (runs : ex.store.Running policy)
    (ran : runWithFuel reentry fuel ex = .ok (r,ex')) :
    ex'.store.executionFuel = fuel - total policy.runEvents (fuelRecord reentry records fuel ex) := by
  by_cases none : fuel = 0
  · subst none
    cases ran
    rfl
  · rw [runWithFuel,if_neg none] at ran
    rw [fuelRecord,if_neg none]
    exact ((fuelLoop_metered metered fuel).left (s := {ex with store := {ex.store with executionFuel := fuel}}) runs ran).2

end Executor

namespace FuncExecution
variable [Allocator] [Host] [Numerics]

-- What happens when an execution is resumed with so much fuel.
def fuelRecord (reentry : Reentry) (records : Records) (fuel : Nat) (x : FuncExecution) : List (Option FuelEvent) :=
  match x.state,x.store.enterExecution with
  | .running callframe _,.ok store => InterpreterRuntime.runRecord (Executor.fuelRecord reentry records fuel) store callframe 0
  | _,_ => []

-- Whether an execution is suspended by a resumption.
def Pauses (deep : Nat) (budget : Budget) (x : FuncExecution) : Prop :=
  ∃ y, x.resume (InterpreterRuntime.reentry deep) deep budget = .ok (.ok .suspended,y)

theorem pauses_iff {deep fuel : Nat} (callframe : CallFrame) (root : FuncAddr) {store entered : Store}
    (opened : store.enterExecution = .ok entered) :
    Pauses deep (.fuel fuel) ⟨.running callframe root,store⟩ ↔ ∃ ex, Executor.new entered callframe 0 = .ok ex ∧
      Executor.Suspends (Executor.runWithFuel (InterpreterRuntime.reentry deep) fuel) ex := by
  constructor
  · rintro ⟨y,resumed⟩
    cases resume_cases resumed with
    | suspended openedToo ran =>
      cases opened.symm.trans openedToo
      unfold InterpreterRuntime.run at ran
      rcases made : Executor.new entered callframe 0 with abort | ex
      · rw [made] at ran; cases ran
      · rw [made,ok_bind] at ran
        rcases stepped : Budget.run (InterpreterRuntime.reentry deep) deep (.fuel fuel) ex with abort | ⟨r,last⟩
        · rw [stepped] at ran; cases ran
        · rw [stepped] at ran
          cases ran
          exact ⟨ex,rfl,_,_,stepped⟩
  · rintro ⟨ex,made,cf,last,suspended⟩
    have ran : InterpreterRuntime.run (Budget.run (InterpreterRuntime.reentry deep) deep (.fuel fuel)) entered callframe 0 =
        .ok (.ok (.suspended cf),last.store) := by
      rw [InterpreterRuntime.run,made,ok_bind,show Budget.run _ deep (.fuel fuel) ex = _ from suspended]
      rfl
    refine ⟨⟨.running cf root,last.store.exitExecution⟩,?_⟩
    unfold resume FuncExecutionState.resume
    simp only [opened,ran,ok_bind]

omit [Allocator] [Host] [Numerics] in
theorem entered_running {store entered : Store} (opened : store.enterExecution = .ok entered) :
    entered.Running store.config.fuelPolicy := by
  unfold Store.enterExecution at opened
  split at opened
  · cases opened
  · cases opened; exact ⟨rfl,rfl⟩

-- What a resumption has not used of its fuel stays in the store.
theorem resume_left {deep fuel : Nat} {x y : FuncExecution} {answer : Except Error ExecProgress}
    (resumed : x.resume (InterpreterRuntime.reentry deep) deep (.fuel fuel) = .ok (answer,y)) :
    y.store.executionFuel = x.store.executionFuel ∨ (∃ callframe root, x.state = .running callframe root) ∧
      y.store.executionFuel = fuel - total x.store.config.fuelPolicy.runEvents
        (x.fuelRecord (InterpreterRuntime.reentry deep) (InterpreterRuntime.records deep) fuel) := by
  have left {callframe : CallFrame} (root : FuncAddr) {store entered after : Store} {r : Except Trap ExecState}
      (opened : store.enterExecution = .ok entered) (ran : InterpreterRuntime.run
        (Budget.run (InterpreterRuntime.reentry deep) deep (.fuel fuel)) entered callframe 0 = .ok (r,after)) :
      after.executionFuel = fuel - total store.config.fuelPolicy.runEvents (fuelRecord (InterpreterRuntime.reentry deep)
        (InterpreterRuntime.records deep) fuel ⟨.running callframe root,store⟩) := by
    unfold InterpreterRuntime.run at ran
    rcases made : Executor.new entered callframe 0 with abort | ex
    · rw [made] at ran; cases ran
    · obtain rfl := Executor.new_store made
      rw [made,ok_bind] at ran
      simp only [fuelRecord,opened,InterpreterRuntime.runRecord,made]
      rcases stepped : Budget.run (InterpreterRuntime.reentry deep) deep (.fuel fuel) ex with abort | ⟨result,last⟩
      · rw [stepped] at ran; cases ran
      · rw [stepped] at ran
        cases ran
        exact Executor.runWithFuel_left (InterpreterRuntime.reentry_metered _ deep) (entered_running opened) stepped
  cases resume_cases resumed with
  | kept | already | active => exact .inl rfl
  | @trapped _ root _ _ _ _ _ opened ran | @suspended _ root _ _ _ _ _ opened ran | @completed _ root _ _ _ _ _ _ opened ran =>
    have spent := left root opened ran
    exact .inr ⟨⟨_,_,rfl⟩,spent⟩

theorem resume_fuel_exact (deep : Nat) {fuel : Nat} (positive : 0 < fuel) (x : FuncExecution) :
    FuelExact x.store.config.fuelPolicy fuel
      (x.fuelRecord (InterpreterRuntime.reentry deep) (InterpreterRuntime.records deep) fuel) (x.Pauses deep (.fuel fuel)) := by
  have idle (nothing : x.fuelRecord (InterpreterRuntime.reentry deep) (InterpreterRuntime.records deep) fuel = [])
      (goes : ¬x.Pauses deep (.fuel fuel)) : FuelExact x.store.config.fuelPolicy fuel
        (x.fuelRecord (InterpreterRuntime.reentry deep) (InterpreterRuntime.records deep) fuel) (x.Pauses deep (.fuel fuel)) := by
    rw [nothing]
    exact ⟨fun split => absurd split (by simp),fun split => absurd split (by simp),fun pauses => absurd pauses goes⟩
  obtain ⟨state,store⟩ := x
  cases state with
  | completed result =>
    refine idle rfl ?_
    rintro ⟨y,resumed⟩
    cases resume_cases resumed
  | running callframe root =>
    rcases opened : store.enterExecution with error | entered
    · refine idle (by simp only [fuelRecord,opened]) ?_
      rintro ⟨y,resumed⟩
      cases resume_cases resumed with
      | suspended openedToo ran => rw [opened] at openedToo; cases openedToo
    · have runs := entered_running opened
      rcases made : Executor.new entered callframe 0 with abort | ex
      · refine idle (by simp only [fuelRecord,opened,InterpreterRuntime.runRecord,made]) ?_
        rw [pauses_iff callframe root opened]
        rintro ⟨ex,madeToo,_⟩
        rw [made] at madeToo
        cases madeToo
      · obtain rfl := Executor.new_store made
        have exact := Executor.runWithFuel_exact (InterpreterRuntime.reentry_metered _ deep) positive runs
        have suspends : (Pauses deep (.fuel fuel) ⟨.running callframe root,store⟩ ↔ _) := pauses_iff callframe root opened
        simp only [made,Except.ok.injEq,exists_eq_left'] at suspends
        simp only [fuelRecord,opened,InterpreterRuntime.runRecord,made,suspends]
        exact exact

end FuncExecution

-- A host function that charges fuel and asks for what is left, called twice.
namespace Charging

@[reducible] def host : Host := ⟨fun _ _ _ => .chargeFuel 3 (.remainingFuel fun _ => .done (.ok []))⟩

def config : Config := ⟨fun _ => ⟨8,8,false⟩,⟨8,8,false⟩,.weighted,.vec,false⟩

def body : WasmFunction where
  instructions := [.call 0,.returnCall 0,.returnVoid]
  data := ⟨[],[]⟩
  locals _ := 0
  params _ := 0
  results _ := 0
  ty := ⟨[],[]⟩

def store : Store :=
  {Store.new 0 config with
    state := {State.empty with funcs := [.host ⟨[],[]⟩ 0,.wasm body 0]}
    moduleInstances := [⟨⟨0,[⟨[],[]⟩],[0],[0,1],[],[],[],[],[]⟩,0,none,[]⟩]}

def execution : FuncExecution := ⟨.running (.new 1 (.of 0 0 0) fun _ => 0) 1,store⟩

end Charging

open Charging in
theorem resume_fuel_exact_charging :
    let _ := Allocator.unlimited
    let _ := Charging.host
    let _ := Numerics.zeros
    let record := [.call,.charged 3,.observed 3,.call,.charged 3,.observed 0].map some
    execution.fuelRecord (InterpreterRuntime.reentry 1) (InterpreterRuntime.records 1) 10 = record ∧
      FuelExact .weighted 10 record (execution.Pauses 1 (.fuel 10)) := by
  let _ := Allocator.unlimited
  let _ := Charging.host
  let _ := Numerics.zeros
  have recorded : execution.fuelRecord (InterpreterRuntime.reentry 1) (InterpreterRuntime.records 1) 10 =
      [.call,.charged 3,.observed 3,.call,.charged 3,.observed 0].map some := by decide +kernel
  have exact := FuncExecution.resume_fuel_exact 1 (show 0 < 10 by decide) execution
  rw [recorded] at exact
  exact ⟨recorded,exact⟩

end TinyWasm
