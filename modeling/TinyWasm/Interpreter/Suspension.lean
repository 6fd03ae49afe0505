import TinyWasm.Interpreter.FuelBlind
import TinyWasm.Interpreter.FuelledRun
import TinyWasm.Interpreter.Moments
import TinyWasm.Interpreter.NestedFrames

namespace TinyWasm
open Exec

namespace Executor
variable [Allocator] [Host] [Numerics] {reentry : Reentry} {ex ex' last last' : Executor} {n m : Nat}

-- A run in two parts, of which the first may be the whole.
theorem execMany_add (n m : Nat) : execMany reentry false (n + m) =
    (execMany reentry false n >>= fun finished => if finished then pure true else execMany reentry false m) := by
  induction n with
  | zero => rw [Nat.zero_add]; rfl
  | succ n ih =>
    rw [Nat.succ_add]
    change (exec reentry false >>= fun finished => if finished then pure true else execMany reentry false (n + m)) =
      ((exec reentry false >>= fun finished => if finished then pure true else execMany reentry false n) >>= _)
    rw [bind_assoc]
    refine congrArg (exec reentry false >>= ·) (funext fun finished => ?_)
    cases finished with
    | true => rfl
    | false => exact ih

theorem runToCompletion_add (n m : Nat) : runToCompletion reentry (n + m) =
    (execMany reentry false n >>= fun finished => if finished then pure () else runToCompletion reentry m) := by
  induction n with
  | zero => rw [Nat.zero_add]; rfl
  | succ n ih =>
    rw [Nat.succ_add]
    change (exec reentry false >>= fun finished => if finished then pure () else runToCompletion reentry (n + m)) =
      ((exec reentry false >>= fun finished => if finished then pure true else execMany reentry false n) >>= _)
    rw [bind_assoc]
    refine congrArg (exec reentry false >>= ·) (funext fun finished => ?_)
    cases finished with
    | true => rfl
    | false => exact ih

theorem runToCompletion_many {r : Except Trap Unit} (ran : runToCompletion reentry n ex = .ok (r,last)) :
    execMany reentry false n ex = .ok (r.map fun _ => true,last) := by
  have whole := congrFun (runToCompletion_add n 0 : runToCompletion reentry (n + 0) = _) ex
  rw [Nat.add_zero,ran,bind_run] at whole
  rcases many : execMany reentry false n ex with abort | ⟨trap | _ | _,after⟩
  · rw [many] at whole; cases whole
  · rw [many] at whole; cases whole; rfl
  · rw [many] at whole; cases whole
  · rw [many] at whole; cases whole; rfl

-- What a run that is through answers for any number of further instructions.
theorem execMany_through {r : Except Trap Unit} (ran : execMany reentry false n ex = .ok (r.map fun _ => true,last)) (m : Nat) :
    execMany reentry false (n + m) ex = .ok (r.map fun _ => true,last) ∧ runToCompletion reentry (n + m) ex = .ok (r,last) := by
  rw [execMany_add,runToCompletion_add,bind_run,bind_run,ran]
  cases r with
  | error trap => exact ⟨rfl,rfl⟩
  | ok _ => exact ⟨rfl,rfl⟩

theorem execMany_on (ran : execMany reentry false n ex = .ok (.ok false,last)) (m : Nat) :
    execMany reentry false (n + m) ex = execMany reentry false m last ∧
      runToCompletion reentry (n + m) ex = runToCompletion reentry m last := by
  rw [execMany_add,runToCompletion_add,bind_ok ran,bind_ok ran]
  exact ⟨rfl,rfl⟩

theorem execMany_aborts {abort : Abort} (ran : execMany reentry false n ex = .error abort) (m : Nat) :
    execMany reentry false (n + m) ex = .error abort ∧ runToCompletion reentry (n + m) ex = .error abort := by
  rw [execMany_add,runToCompletion_add,bind_run,bind_run,ran]
  exact ⟨rfl,rfl⟩

-- How a run under a budget ends, beside the instructions of an uninterrupted one.
inductive Ends (reentry : Reentry) (turns least : Nat) (ex : Executor) : Checked (Except Trap ExecState × Executor) → Prop where
  | completed {n : Nat} {last last' : Executor} : execMany reentry false n ex = .ok (.ok true,last) → last.Refuelled last' →
      Ends reentry turns least ex (.ok (.ok .completed,last'))
  | trapped {n : Nat} {t : Trap} {last last' : Executor} : execMany reentry false n ex = .ok (.error t,last) → last.Refuelled last' →
      Ends reentry turns least ex (.ok (.error t,last'))
  | suspended {n : Nat} {last last' : Executor} : least ≤ n → execMany reentry false n ex = .ok (.ok false,last) →
      last.Refuelled last' → Ends reentry turns least ex (.ok (.ok (.suspended last'.cf),last'))
  | aborted {n : Nat} {abort : Abort} : execMany reentry false n ex = .error abort → Ends reentry turns least ex (.error abort)
  | exhausted {n : Nat} {last : Executor} : chunkSize * turns ≤ n → execMany reentry false n ex = .ok (.ok false,last) →
      Ends reentry turns least ex (.error .diverges)

theorem Ends.after {turns turns' least least' : Nat} {ran : Checked (Except Trap ExecState × Executor)}
    (first : execMany reentry false n ex = .ok (.ok false,last)) (ends : Ends reentry turns' least' last ran)
    (enough : least ≤ n + least') (all : chunkSize * turns ≤ n + chunkSize * turns') : Ends reentry turns least ex ran := by
  cases ends with
  | completed many refuelled => exact .completed ((execMany_on first _).1.trans many) refuelled
  | trapped many refuelled => exact .trapped ((execMany_on first _).1.trans many) refuelled
  | suspended many ran refuelled => exact .suspended (by omega) ((execMany_on first _).1.trans ran) refuelled
  | aborted many => exact .aborted ((execMany_on first _).1.trans many)
  | exhausted many ran => exact .exhausted (by omega) ((execMany_on first _).1.trans ran)

section Blind
variable (blind : reentry.Blind) (free : Host.FuelFree)
include blind free

-- One block of instructions: it ends the run, or the rest of the loop does.
theorem Ends.block {turns least : Nat} {budgeted : Bool} {rest : Bool → Executing ExecState} (refuelled : ex.Refuelled ex')
    (completes : rest true = pure .completed)
    (goes : ∀ last last', execMany reentry false chunkSize ex = .ok (.ok false,last) → last.Refuelled last' →
      execMany reentry budgeted chunkSize ex' = .ok (.ok false,last') → Ends reentry turns least ex (rest false last')) :
    Ends reentry turns least ex ((execMany reentry budgeted chunkSize >>= rest) ex') := by
  have abreast := Blind.execMany blind free false budgeted chunkSize ex ex' refuelled
  rw [bind_run]
  rcases ran : execMany reentry budgeted chunkSize ex' with abort | ⟨trap | finished,last'⟩
  · exact .aborted (abreast.failed ran)
  · obtain ⟨last,many,refuelled⟩ := abreast.right ran
    exact .trapped many refuelled
  · obtain ⟨last,many,refuelled⟩ := abreast.right ran
    cases finished with
    | true =>
      dsimp only
      rw [completes]
      exact .completed many refuelled
    | false => exact goes last last' many refuelled ran

theorem timeLoop_ends {elapsed : Nat → Bool} {turns asked : Nat} (refuelled : ex.Refuelled ex') :
    Ends reentry turns chunkSize ex (timeLoop reentry elapsed turns asked ex') := by
  induction turns generalizing ex ex' asked with
  | zero => exact .exhausted (Nat.le_refl 0) rfl
  | succ turns ih =>
    refine Ends.block blind free refuelled rfl fun last last' many refuelled _ => ?_
    change Ends reentry (turns + 1) chunkSize ex ((if elapsed asked then suspend else timeLoop reentry elapsed turns (asked + 1)) last')
    split
    · exact .suspended (Nat.le_refl _) many refuelled
    · exact (ih refuelled).after many (Nat.le_add_right _ _) (by rw [Nat.mul_succ]; omega)

theorem fuelLoop_ends {policy : FuelPolicy} {records : Records} (metered : reentry.Metered policy records) {turns : Nat} (T : Nat)
    (refuelled : ex.Refuelled ex') (runs : ex'.store.Running policy) (left : ex'.store.executionFuel ≤ turns)
    (more : ex'.store.executionFuel ≠ 0) : Ends reentry T chunkSize ex (fuelLoop reentry turns ex') := by
  induction turns generalizing ex ex' T with
  | zero => exact absurd (Nat.eq_zero_of_le_zero left) more
  | succ turns ih =>
    refine Ends.block blind free refuelled rfl fun last last' many refuelled ran => ?_
    obtain ⟨runs',spent⟩ := (execMany_metered true metered chunkSize).left runs ran
    obtain ⟨fuel,rfl⟩ := refuelled
    change Ends reentry T chunkSize ex ((Exec.get >>= fun ex => setFuel (ex.store.executionFuel - chunkSize) >>= fun _ =>
      if ex.store.executionFuel - chunkSize = 0 then suspend else fuelLoop reentry turns) (last.refuel fuel))
    rw [get_bind,bind_ok (a := ()) rfl]
    obtain ⟨rest,taken⟩ : ∃ rest, rest = fuel - chunkSize := ⟨_,rfl⟩
    change Ends reentry T chunkSize ex ((if fuel - chunkSize = 0 then suspend else fuelLoop reentry turns) (last.refuel (fuel - chunkSize)))
    rw [←taken]
    split
    · exact .suspended (Nat.le_refl _) many ⟨rest,rfl⟩
    · rename_i unspent
      have lower : fuel ≤ ex'.store.executionFuel := Nat.le_trans (Nat.le_of_eq spent) (Nat.sub_le _ _)
      have bound : rest ≤ turns := by
        unfold chunkSize at taken
        omega
      have refuelled : last.Refuelled (last.refuel rest) := ⟨rest,rfl⟩
      have ends := ih (T - 1) refuelled ⟨runs'.1,runs'.2⟩ bound unspent
      exact ends.after many (Nat.le_add_right _ _) (by unfold chunkSize; omega)

end Blind

end Executor

-- A budget that lets the execution go on at all.
def Budget.moves : Budget → Bool
  | .fuel units => units != 0
  | .time isZero _ => !isZero

def Budget.least (budget : Budget) : Nat := if budget.moves then Executor.chunkSize else 0

section Handles
variable [Allocator] [Host] [Numerics] {deep turns : Nat}

theorem Budget.ends (free : Host.FuelFree) (budget : Budget) {ex ex' : Executor} {policy : FuelPolicy} (refuelled : ex.Refuelled ex')
    (runs : ex'.store.Running policy) :
    (budget.run (InterpreterRuntime.reentry deep) turns ex') |> Executor.Ends (InterpreterRuntime.reentry deep) turns budget.least ex := by
  have blind := InterpreterRuntime.reentry_blind free deep
  have kept : Executor.execMany (InterpreterRuntime.reentry deep) false 0 ex = .ok (.ok false,ex) := rfl
  cases budget with
  | fuel units =>
    obtain ⟨left,rfl⟩ := refuelled
    change Executor.Ends _ _ _ _ ((Executor.setFuel units >>= fun _ => if units = 0 then Executor.suspend else
      Executor.fuelLoop (InterpreterRuntime.reentry deep) units) (ex.refuel left))
    have filled : ex.Refuelled (ex.refuel units) := ⟨units,rfl⟩
    rw [bind_ok (a := ()) rfl]
    by_cases none : units = 0
    · subst none
      exact .suspended (Nat.le_refl 0) kept filled
    · rw [if_neg none]
      have moves : (Budget.fuel units).least = Executor.chunkSize := if_pos (bne_iff_ne.mpr none)
      rw [moves]
      exact Executor.fuelLoop_ends blind free (InterpreterRuntime.reentry_metered policy deep) turns filled ⟨runs.1,runs.2⟩ (Nat.le_refl _) none
  | time isZero elapsed =>
    cases isZero with
    | true => exact .suspended (Nat.le_refl 0) kept refuelled
    | false => exact Executor.timeLoop_ends blind free refuelled

-- An executor is made again from its store and its frame.
omit [Allocator] [Host] [Numerics] in
theorem Executor.new_again {ex : Executor} (coherent : ex.Coherent) : Executor.new ex.store ex.cf ex.callStackBase = .ok ex := by
  unfold Executor.new State.wasmFunc State.at
  rw [coherent.body]
  simp only [ok_bind]
  rw [coherent.owner]
  rfl

namespace FuncExecution

-- A host that resumes an execution with one budget after the other, until it is
-- no longer suspended.
def drive (reentry : Reentry) (turns : Nat) :
    List Budget → FuncExecution → Checked (Option (Except Error (List WasmValue)) × FuncExecution)
  | [],x => .ok (none,x)
  | budget :: budgets,x => do
    match ← x.resume reentry turns budget with
    | (.ok .suspended,x) => x.drive reentry turns budgets
    | (.ok (.completed values),x) => .ok (some (.ok values),x)
    | (.error error,x) => .ok (some (.error error),x)

end FuncExecution

-- What an uninterrupted call makes of the executor it ends in.
def Executor.settle (ty : FuncType) (r : Except Trap Unit) (last : Executor) : Checked (Except Error (List WasmValue) × Store) := do
  let (r,store) ← last.store.finishCall ty r
  .ok (r,store.exitExecution)

-- An execution that is suspended where an uninterrupted call stands in `ex`.
structure FuncExecution.Pending (x : FuncExecution) (root : FuncAddr) (ty : FuncType) (ex : Executor) : Prop where
  state : x.state = .running ex.cf root
  base : ex.callStackBase = 0
  active : ex.store.executionActive = true
  store : ∃ fuel, x.store = (ex.store.refuel fuel).exitExecution
  coherent : (Moment.executing ex).Coherent
  typed : ∃ func, ex.store.state.funcs[root]? = some func ∧ func.ty = ty

namespace FuncExecution
variable {x : FuncExecution} {root : FuncAddr} {ty : FuncType} {ex : Executor}

-- What one resumption does, beside the uninterrupted call.
inductive Advanced (deep turns least : Nat) (root : FuncAddr) (ty : FuncType) (ex : Executor) :
    Checked (Except Error ExecProgress × FuncExecution) → Prop where
  | settled {n : Nat} {r : Except Trap Unit} {last : Executor} {answer : Except Error (List WasmValue)} {after : Store} {y : FuncExecution} :
      Executor.execMany (InterpreterRuntime.reentry deep) false n ex = .ok (r.map fun _ => true,last) →
      Executor.settle ty r last = .ok (answer,after) → after.Refuelled y.store →
      Advanced deep turns least root ty ex (.ok (answer.map .completed,y))
  | stuck {n : Nat} {last : Executor} {abort : Abort} :
      Executor.execMany (InterpreterRuntime.reentry deep) false n ex = .ok (.ok true,last) →
      Executor.settle ty (.ok ()) last = .error abort → Advanced deep turns least root ty ex (.error abort)
  | suspended {n : Nat} {last : Executor} {y : FuncExecution} : least ≤ n →
      Executor.execMany (InterpreterRuntime.reentry deep) false n ex = .ok (.ok false,last) → y.Pending root ty last →
      Advanced deep turns least root ty ex (.ok (.ok .suspended,y))
  | aborted {n : Nat} {abort : Abort} :
      Executor.execMany (InterpreterRuntime.reentry deep) false n ex = .error abort → Advanced deep turns least root ty ex (.error abort)
  | exhausted {n : Nat} {last : Executor} : Executor.chunkSize * turns ≤ n →
      Executor.execMany (InterpreterRuntime.reentry deep) false n ex = .ok (.ok false,last) →
      Advanced deep turns least root ty ex (.error .diverges)

theorem Pending.later (pending : x.Pending root ty ex) {n : Nat} {last : Executor} {fuel : Nat}
    (ran : Executor.execMany (InterpreterRuntime.reentry deep) false n ex = .ok (.ok false,last)) :
    Pending ⟨.running last.cf root,(last.store.refuel fuel).exitExecution⟩ root ty last := by
  have frames := Executor.execMany_frames (InterpreterRuntime.reentry_frames deep) false n _ _ _ ran
  obtain ⟨func,listed,same⟩ := pending.typed
  have grown := Executor.execMany_grows false (InterpreterRuntime.reentry_grows deep) n _ _ _ ran
  exact ⟨rfl,frames.base.trans pending.base,frames.active pending.active,⟨fuel,rfl⟩,
    moves_coherent pending.coherent (Executor.execMany_moves ran),func,prefix_getElem? grown.state.funcs listed,same⟩

theorem resume_advances (free : Host.FuelFree) (pending : x.Pending root ty ex) (budget : Budget) :
    x.resume (InterpreterRuntime.reentry deep) turns budget |> Advanced deep turns budget.least root ty ex := by
  obtain ⟨state,store⟩ := x
  obtain ⟨rfl,base,active,⟨fuel,rfl⟩,coherent,func,listed,same⟩ := pending
  have pending : Pending ⟨.running ex.cf root,(ex.store.refuel fuel).exitExecution⟩ root ty ex :=
    ⟨rfl,base,active,⟨fuel,rfl⟩,coherent,func,listed,same⟩
  have opened : (ex.store.refuel fuel).exitExecution.enterExecution = .ok (ex.store.refuel fuel) := by
    rw [enters_idle rfl]
    change Except.ok {ex.store.refuel fuel with executionActive := true} = _
    rw [←active]
    rfl
  have made : Executor.new (ex.store.refuel fuel) ex.cf 0 = .ok (ex.refuel fuel) := by
    have again := @Executor.new_again (ex.refuel fuel) ⟨coherent.1.body,coherent.1.owner⟩
    rw [←base]
    exact again
  have ends : Executor.Ends (InterpreterRuntime.reentry deep) turns budget.least ex
      (budget.run (InterpreterRuntime.reentry deep) turns (ex.refuel fuel)) := budget.ends free ⟨fuel,rfl⟩ ⟨active,rfl⟩
  unfold FuncExecution.resume FuncExecutionState.resume InterpreterRuntime.run
  dsimp only
  rw [opened]
  dsimp only
  rw [made,ok_bind]
  generalize budget.run (InterpreterRuntime.reentry deep) turns (ex.refuel fuel) = ran at ends
  cases ends with
  | @completed n last last' many refuelled =>
    obtain ⟨left,rfl⟩ := refuelled
    have grown := Executor.execMany_grows false (InterpreterRuntime.reentry_grows deep) n _ _ _ many
    have found : State.at (last.refuel left).store.exitExecution.state.funcs root = .ok func :=
      State.at_some_iff.mpr (prefix_getElem? grown.state.funcs listed)
    have values : (last.refuel left).store.exitExecution.valueStack = last.store.valueStack := rfl
    simp only [ok_bind]
    rw [found,values,ok_bind,same]
    have settles : Executor.settle ty (.ok ()) last = (collectCallResults last.store.valueStack ty >>= fun collected =>
        .ok (.ok collected.1,{last.store with valueStack := collected.2}.exitExecution)) := by
      unfold Executor.settle Store.finishCall
      rcases collectCallResults last.store.valueStack ty with abort | collected <;> rfl
    rcases collected : collectCallResults last.store.valueStack ty with abort | ⟨res,valueStack⟩
    · rw [collected] at settles
      exact .stuck many settles
    · rw [collected] at settles
      exact .settled (r := .ok ()) many settles ⟨left,rfl⟩
  | @trapped n t last last' many refuelled =>
    obtain ⟨left,rfl⟩ := refuelled
    exact .settled (r := .error t) many rfl ⟨left,rfl⟩
  | @suspended n last last' enough many refuelled =>
    obtain ⟨left,rfl⟩ := refuelled
    exact .suspended enough many (pending.later many)
  | @aborted n abort many => exact .aborted many
  | @exhausted n last all many => exact .exhausted all many

-- A run is through at most once.
theorem through_unique {n m : Nat} {r r' : Except Trap Unit} {last last' : Executor}
    (ran : Executor.execMany (InterpreterRuntime.reentry deep) false n ex = .ok (r.map fun _ => true,last))
    (ran' : Executor.execMany (InterpreterRuntime.reentry deep) false m ex = .ok (r'.map fun _ => true,last')) : r = r' ∧ last = last' := by
  have first := (Executor.execMany_through ran m).2
  have other := (Executor.execMany_through ran' n).2
  rw [Nat.add_comm,first] at other
  cases other
  exact ⟨rfl,rfl⟩

theorem through_after {n m : Nat} {r : Except Trap Unit} {last last' : Executor}
    (ran : Executor.execMany (InterpreterRuntime.reentry deep) false n ex = .ok (.ok false,last'))
    (through : Executor.execMany (InterpreterRuntime.reentry deep) false m ex = .ok (r.map fun _ => true,last)) :
    ∃ k, m = n + k ∧ Executor.execMany (InterpreterRuntime.reentry deep) false k last' = .ok (r.map fun _ => true,last) := by
  have more : n ≤ m := by
    by_contra less
    have early := (Executor.execMany_through through (n - m)).1
    rw [Nat.add_sub_of_le (by omega),ran] at early
    cases r <;> cases early
  refine ⟨m - n,(Nat.add_sub_of_le more).symm,?_⟩
  rw [←(Executor.execMany_on ran (m - n)).1,Nat.add_sub_of_le more]
  exact through

variable (free : Host.FuelFree)
include free

-- The run lemmas, over the budgets: what a driven execution answers, and that it
-- comes to it.
theorem drive_settles {budgets : List Budget} {r : Except Error (List WasmValue)} {y : FuncExecution} (pending : x.Pending root ty ex)
    (ran : x.drive (InterpreterRuntime.reentry deep) turns budgets = .ok (some r,y)) :
    ∃ n r₀ last after, Executor.execMany (InterpreterRuntime.reentry deep) false n ex = .ok (r₀.map fun _ => true,last) ∧
      Executor.settle ty r₀ last = .ok (r,after) ∧ after.Refuelled y.store := by
  induction budgets generalizing x ex with
  | nil => cases ran
  | cons budget budgets ih =>
    have advanced : Advanced deep turns budget.least root ty ex (x.resume (InterpreterRuntime.reentry deep) turns budget) :=
      resume_advances free pending budget
    unfold drive at ran
    generalize x.resume (InterpreterRuntime.reentry deep) turns budget = end_ at advanced ran
    cases advanced with
    | @settled n r₀ last answer after z many settles refuelled =>
      refine ⟨n,r₀,last,after,many,?_⟩
      cases answer with
      | error error => cases ran; exact ⟨settles,refuelled⟩
      | ok values => cases ran; exact ⟨settles,refuelled⟩
    | stuck => cases ran
    | @suspended n last z enough many pending' =>
      obtain ⟨m,r₀,last',after,through,rest⟩ := ih pending' ran
      exact ⟨n + m,r₀,last',after,(Executor.execMany_on many m).1.trans through,rest⟩
    | aborted => cases ran
    | exhausted => cases ran

theorem drive_progresses {budgets : List Budget} {n : Nat} {r₀ : Except Trap Unit} {last : Executor}
    {r : Except Error (List WasmValue)} {after : Store} (pending : x.Pending root ty ex)
    (through : Executor.execMany (InterpreterRuntime.reentry deep) false n ex = .ok (r₀.map fun _ => true,last))
    (settles : Executor.settle ty r₀ last = .ok (r,after)) (enough : n ≤ Executor.chunkSize * turns) :
    ∃ answer y, x.drive (InterpreterRuntime.reentry deep) turns budgets = .ok (answer,y) ∧
      (∀ r', answer = some r' → r' = r ∧ after.Refuelled y.store) ∧ (n < (budgets.map Budget.least).sum → answer ≠ none) := by
  induction budgets generalizing x ex n with
  | nil => exact ⟨none,x,rfl,nofun,fun less => absurd less (Nat.not_lt_zero n)⟩
  | cons budget budgets ih =>
    have advanced : Advanced deep turns budget.least root ty ex (x.resume (InterpreterRuntime.reentry deep) turns budget) :=
      resume_advances free pending budget
    unfold drive
    generalize x.resume (InterpreterRuntime.reentry deep) turns budget = end_ at advanced
    cases advanced with
    | @settled m r₁ last' answer after' z many settles' refuelled =>
      obtain ⟨rfl,rfl⟩ := through_unique through many
      cases settles.symm.trans settles'
      refine ⟨some r,z,?_,fun r' same => ⟨(Option.some.inj same).symm,refuelled⟩,fun _ => nofun⟩
      cases r <;> rfl
    | @stuck m last' abort many stuck =>
      obtain ⟨rfl,rfl⟩ := @through_unique _ _ _ deep ex n m r₀ (.ok ()) last last' through many
      cases settles.symm.trans stuck
    | @suspended m last' z moved many pending' =>
      obtain ⟨k,rfl,through'⟩ := through_after many through
      obtain ⟨answer,y,ran,same,comes⟩ := ih pending' through' (by omega)
      refine ⟨answer,y,ran,same,fun less => comes ?_⟩
      rw [List.map_cons,List.sum_cons] at less
      omega
    | @aborted m abort many =>
      have early := (Executor.execMany_aborts many n).1
      rw [Nat.add_comm,(Executor.execMany_through through m).1] at early
      cases early
    | @exhausted m last' all many =>
      obtain ⟨k,rfl,through'⟩ := through_after many through
      have none : k = 0 := by omega
      subst none
      cases r₀ <;> cases through'

end FuncExecution

-- A call that is started to be resumed, and driven by the budgets.
def Function.driven (reentry : Reentry) (turns : Nat) (budgets : List Budget) (store : Store) (func : Function)
    (params : List WasmValue) : Checked (Option (Except Error (List WasmValue)) × Store) := do
  match ← func.callResumable reentry store params with
  | (.error error,store) => .ok (some (.error error),store)
  | (.ok state,store) => do
    let (answer,x) ← FuncExecution.drive reentry turns budgets ⟨state,store⟩
    .ok (answer,x.store)

variable {store : Store} {func : Function} {params : List WasmValue}

-- What the call and the driven call have in common: both end where they begin,
-- or both go on from one executor.
inductive Function.Begins (deep : Nat) (store : Store) (func : Function) (params : List WasmValue) : Prop where
  | answered {r : Except Error (List WasmValue)} {last : Store} :
      (∀ n, func.call (InterpreterRuntime.reentry deep) n store params = .ok (r,last)) →
      (∀ turns budgets, func.driven (InterpreterRuntime.reentry deep) turns budgets store params = .ok (some r,last) ∨
        budgets = [] ∧ func.driven (InterpreterRuntime.reentry deep) turns budgets store params = .ok (none,last)) →
      Begins deep store func params
  | aborts {abort : Abort} : (∀ n, func.call (InterpreterRuntime.reentry deep) n store params = .error abort) →
      (∀ turns budgets r last, func.driven (InterpreterRuntime.reentry deep) turns budgets store params ≠ .ok (some r,last)) →
      Begins deep store func params
  | runs {x : FuncExecution} {root : FuncAddr} {ex : Executor} : x.Pending root func.ty ex →
      (∀ n, func.call (InterpreterRuntime.reentry deep) n store params =
        (Executor.runToCompletion (InterpreterRuntime.reentry deep) n ex >>= fun ran => Executor.settle func.ty ran.1 ran.2)) →
      (∀ turns budgets, func.driven (InterpreterRuntime.reentry deep) turns budgets store params =
        (x.drive (InterpreterRuntime.reentry deep) turns budgets >>= fun driven => .ok (driven.1,driven.2.store))) →
      Begins deep store func params

omit [Allocator] [Host] [Numerics] in
-- Every invocation is refused in the same way, or runs in the store it opens.
theorem Function.invoke_cases (func : Function) (store : Store) (params : List WasmValue) :
    (∃ error, ∀ {α : Type} (inner : Store → Checked (Except Error α × Store)), func.invoke store params inner = .ok (.error error,store)) ∨
    ∃ opened, store.enterExecution = .ok opened ∧ ∀ {α : Type} (inner : Store → Checked (Except Error α × Store)),
      func.invoke store params inner = (inner opened >>= fun p => .ok (p.1,p.2.exitExecution)) := by
  rcases valid : func.item.validateStore store with trap | _
  · refine .inl ⟨.trap trap,fun inner => ?_⟩
    rw [Function.invoke,valid]
  rcases checked : validateCallParams func.ty params with error | _
  · refine .inl ⟨error,fun inner => ?_⟩
    simp only [Function.invoke,valid,checked]
  rcases opens : store.enterExecution with error | opened
  · refine .inl ⟨error,fun inner => ?_⟩
    simp only [Function.invoke,valid,checked,opens]
  · refine .inr ⟨opened,rfl,fun inner => ?_⟩
    simp only [Function.invoke,valid,checked,opens]

theorem FuncExecution.resume_aborts {reentry : Reentry} {store : Store} {cf : CallFrame} {root : FuncAddr} {budget : Budget} {abort : Abort}
    (again : store.exitExecution.enterExecution = .ok store) (made : Executor.new store cf 0 = .error abort) :
    FuncExecution.resume reentry turns ⟨.running cf root,store.exitExecution⟩ budget = .error abort := by
  unfold FuncExecution.resume FuncExecutionState.resume InterpreterRuntime.run
  dsimp only
  rw [again]
  dsimp only
  rw [made]
  rfl

theorem Function.begins {id : Nat} {config : Config} (moves : Moves (.held (.new id config)) (.held store))
    (genuine : ∃ callee, store.state.funcs[func.addr]? = some callee ∧ callee.ty = func.ty) : func.Begins deep store params := by
  rcases func.invoke_cases store params with ⟨error,refused⟩ | ⟨opened,opens,runs⟩
  · refine .answered (fun n => refused _) fun turns budgets => .inl ?_
    rw [Function.driven,Function.callResumable,refused]
    rfl
  obtain ⟨callee,listed,typed⟩ := genuine
  have items : opened.state = store.state ∧ opened.executionActive = true := by
    unfold Store.enterExecution at opens
    split at opens <;> cases opens
    exact ⟨rfl,rfl⟩
  have found : State.at opened.state.funcs func.addr = .ok callee := by
    rw [items.1]
    exact State.at_some_iff.mpr listed
  have called (n : Nat) : func.call (InterpreterRuntime.reentry deep) n store params =
      (func.callInner (InterpreterRuntime.reentry deep) n params opened >>= fun p => .ok (p.1,p.2.exitExecution)) := runs _
  have resumable : func.callResumable (InterpreterRuntime.reentry deep) store params =
      (func.callResumableInner (InterpreterRuntime.reentry deep) params opened >>= fun p => .ok (p.1,p.2.exitExecution)) := runs _
  unfold Function.callInner at called
  unfold Function.callResumableInner at resumable
  rw [found] at called resumable
  cases callee with
  | host ty id =>
    simp only [ok_bind] at called resumable
    rcases answered : HostFunction.call (InterpreterRuntime.reentry deep) opened ty id func.moduleAddr params with
      abort | ⟨error | res,after⟩
    · rw [answered] at called resumable
      refine .aborts called fun turns budgets r last ran => ?_
      rw [Function.driven,resumable] at ran
      cases ran
    · rw [answered] at called resumable
      refine .answered called fun turns budgets => .inl ?_
      rw [Function.driven,resumable]
      rfl
    · rw [answered] at called resumable
      refine .answered called fun turns budgets => ?_
      rw [Function.driven,resumable]
      cases budgets with
      | nil => exact .inr ⟨rfl,rfl⟩
      | cons budget budgets => exact .inl rfl
  | wasm wasmFunc owner =>
    simp only [ok_bind] at called resumable
    rcases framed : opened.clearStacks.enterFrame func.addr wasmFunc params with ⟨trap | cf,entered⟩
    · rw [framed] at called resumable
      refine .answered called fun turns budgets => .inl ?_
      rw [Function.driven,resumable]
      rfl
    · rw [framed] at called resumable
      have state : entered.state = opened.state ∧ entered.executionActive = true := by
        obtain ⟨_,valueStack,rfl⟩ := Store.enterFrame_cases framed
        exact ⟨rfl,items.2⟩
      have again : entered.exitExecution.enterExecution = .ok entered := by
        rw [FuncExecution.enters_idle rfl]
        change Except.ok {entered with executionActive := true} = _
        rw [←state.2]
      rcases made : Executor.new entered cf 0 with abort | ex
      · refine @Function.Begins.aborts _ _ _ _ _ _ _ abort (fun n => ?_) fun turns budgets r last ran => ?_
        · rw [called]
          dsimp only [InterpreterRuntime.run]
          rw [made]
          rfl
        · rw [Function.driven,resumable] at ran
          cases budgets with
          | nil => cases ran
          | cons budget budgets =>
            have stuck : FuncExecution.resume (InterpreterRuntime.reentry deep) turns ⟨.running cf func.addr,entered.exitExecution⟩ budget =
                .error abort := FuncExecution.resume_aborts again made
            change ((FuncExecution.drive _ turns (budget :: budgets) ⟨.running cf func.addr,entered.exitExecution⟩) >>= _) = _ at ran
            rw [FuncExecution.drive,stuck] at ran
            cases ran
      · obtain ⟨rfl,rfl,base⟩ := Executor.new_parts made
        have enters : Moves (.held (.new id config)) (.executing ex) := (moves.tail (.opened opens)).tail (.entered framed made)
        have numbered : (Moment.held (.new id config)).Coherent := nofun
        refine .runs (x := ⟨.running ex.cf func.addr,ex.store.exitExecution⟩) ⟨rfl,base,state.2,⟨ex.store.executionFuel,rfl⟩,
          moves_coherent numbered enters,.wasm wasmFunc owner,?_,typed⟩ (fun n => ?_) fun turns budgets => ?_
        · rw [state.1,items.1]
          exact listed
        · rw [called]
          dsimp only [InterpreterRuntime.run]
          rw [made,ok_bind]
          dsimp only [Executor.settle]
          rcases Executor.runToCompletion (InterpreterRuntime.reentry deep) n ex with abort | ⟨r,last⟩
          · rfl
          · rfl
        · rw [Function.driven,resumable]
          rfl

end Handles

namespace Twins
variable [Allocator] [Host] [Numerics]

def second : Function := ⟨⟨0,2⟩,1,2,⟨[],[]⟩⟩

theorem linked_moves : Moves (.held (.new 0 config)) (.held linked) := by
  have added : Move (.held (.new 0 config)) (.held (store [.host ⟨[],[]⟩ 0] [])) :=
    @Move.operate _ _ _ _ _ (.functionNew ⟨[],[]⟩ 0) _ rfl
  have first : Move (.held (store [.host ⟨[],[]⟩ 0] [])) (.held (store [.host ⟨[],[]⟩ 0,.wasm body 0] [inst 0])) :=
    @Move.instantiate _ _ _ _ module (next 0) _ _ rfl
  have second : Move (.held (store [.host ⟨[],[]⟩ 0,.wasm body 0] [inst 0])) (.held linked) :=
    @Move.instantiate _ _ _ _ module (next 1) _ _ rfl
  exact ((Relation.ReflTransGen.single added).tail first).tail second

def returns (fuel : Nat) : Bool :=
  match second.call (InterpreterRuntime.reentry 1) fuel linked [] with
  | .ok (.ok [],_) => true
  | _ => false

end Twins

end TinyWasm
