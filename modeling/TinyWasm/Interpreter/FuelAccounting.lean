import TinyWasm.Interpreter.Fuel
import TinyWasm.Interpreter.HostEffects

namespace TinyWasm
open Metering Exec

-- An invocation is under way, under a policy.
def Store.Running (policy : FuelPolicy) (store : Store) : Prop :=
  store.executionActive = true ∧ store.config.fuelPolicy = policy

structure Store.SameFuel (store store' : Store) : Prop where
  fuel : store'.executionFuel = store.executionFuel
  active : store'.executionActive = store.executionActive
  config : store'.config = store.config

instance : IsPreorder Store Store.SameFuel where
  refl _ := ⟨rfl,rfl,rfl⟩
  trans _ _ _ first rest :=
    ⟨rest.fuel.trans first.fuel,rest.active.trans first.active,rest.config.trans first.config⟩

namespace Store.SameFuel
variable {store store' : Store} {policy : FuelPolicy}

theorem running (same : store.SameFuel store') (runs : store.Running policy) : store'.Running policy :=
  ⟨same.active.trans runs.1,(congrArg Config.fuelPolicy same.config).trans runs.2⟩

theorem stackless : Executor.Stackless SameFuel := ⟨fun _ _ _ => ⟨rfl,rfl,rfl⟩,fun _ => ⟨rfl,rfl,rfl⟩⟩

variable [Allocator]

theorem host {op : HostOp} {r : Except Error Unit} (ran : op.run store = .ok (r,store')) : store.SameFuel store' := by
  obtain ⟨state,rfl⟩ := HostOp.run_items ran
  exact ⟨rfl,rfl,rfl⟩

theorem instantiated {m : Module} {imports : Imports} {r : Except Error Instance}
    (instantiated : store.Instantiated m imports r store') : store.SameFuel store' := by
  cases instantiated with
  | unlinked => exact refl_of _ _
  | items | segments | registered => exact ⟨rfl,rfl,rfl⟩

end Store.SameFuel

namespace FuelPolicy

-- A part of the interpreter as the store, and as an executor, sees it.
abbrev Metered {β : Type} (policy : FuelPolicy) (x : Store → Checked (β × Store)) (record : Store → List FuelEvent) : Prop :=
  Meters policy.events (Store.Running policy) Store.executionFuel x record

abbrev MeteredExec {α : Type} (policy : FuelPolicy) (x : Executing α) (record : Executor → List FuelEvent) : Prop :=
  Meters policy.events (fun ex => ex.store.Running policy) (fun ex => ex.store.executionFuel) x record

namespace MeteredExec
variable {α β : Type} {policy : FuelPolicy} {x : Executing α} {f : α → Executing β} {record : Executor → List FuelEvent}
  {records : α → Executor → List FuelEvent}

theorem quiet (same : Along (Executor.Through Store.SameFuel) x) : policy.MeteredExec x fun _ => [] :=
  Meters.quiet fun ex r ex' runs ran =>
    have kept : ex.store.SameFuel ex'.store := same ex r ex' ran
    ⟨kept.running runs,kept.fuel⟩

theorem bind (first : policy.MeteredExec x record) (rest : ∀ a, policy.MeteredExec (f a) (records a)) :
    policy.MeteredExec (x >>= f) fun ex => record ex ++ after x (Executor.answered records) ex := by
  let next : Except Trap α → Executing β := fun r ex =>
    match r with
    | .error trap => .ok (.error trap,ex)
    | .ok a => f a ex
  have later (r : Except Trap α) : policy.MeteredExec (next r) (Executor.answered records r) := by
    cases r with
    | error trap => exact quiet (.trap trap)
    | ok a => exact rest a
  refine (first.andThen later).congr (funext fun ex => ?_) rfl
  change Exec.bind x f ex = _
  unfold Exec.bind
  rcases x ex with abort | ⟨trap | a,ex'⟩ <;> rfl

theorem quietThen (same : Along (Executor.Through Store.SameFuel) x) (rest : ∀ a, policy.MeteredExec (f a) (records a)) :
    policy.MeteredExec (x >>= f) (after x (Executor.answered records)) := bind (quiet same) rest

theorem thenQuiet (first : policy.MeteredExec x record) (same : ∀ a, Along (Executor.Through Store.SameFuel) (f a)) :
    policy.MeteredExec (x >>= f) record := by
  refine (bind first fun a => quiet (same a)).congr rfl (funext fun ex => ?_)
  have nothing : after x (Executor.answered fun _ _ => []) ex = [] := by
    unfold after
    rcases x ex with abort | ⟨trap | a,ex'⟩ <;> rfl
  rw [nothing,List.append_nil]

theorem get {g : Executor → Executing β} (records : Executor → Executor → List FuelEvent)
    (rest : ∀ s, policy.MeteredExec (g s) (records s)) : policy.MeteredExec (Exec.get >>= g) fun ex => records ex ex :=
  Meters.asks id rest

end MeteredExec

end FuelPolicy

-- A call that is not nested is refused, and the store is as before.
structure Reentry.Metered (reentry : Reentry) (policy : FuelPolicy) (records : Records) : Prop where
  refused {store store' : Store} {func : Function} {params : List WasmValue} {r : Except Error (List WasmValue)} :
    store.Running policy → reentry.call store func params = .ok (r,store') → store' = store
  nested (func : Function) (args : List WasmValue) :
    policy.Metered (fun store => reentry.callUntyped store func args) fun store => records store func args

section Host
variable [Allocator] {reentry : Reentry} {policy : FuelPolicy} {records : Records}

theorem Store.SameFuel.instantiate (metered : reentry.Metered policy records) {store store' : Store} {m : Module}
    {imports : Imports} {r : Except Error Instance} (runs : store.Running policy)
    (ran : store.instantiate reentry.call m imports = .ok (r,store')) : store.SameFuel store' := by
  unfold Store.instantiate at ran
  rcases made : store.instantiateNoStart m imports with abort | ⟨error | inst,after⟩
  · rw [made] at ran; cases ran
  · rw [made] at ran
    cases ran
    exact instantiated (Store.instantiateNoStart_cases made)
  · have same := instantiated (Store.instantiateNoStart_cases made)
    rw [made] at ran
    simp only [ok_bind,Instance.start] at ran
    rcases found : inst.startFunc after with abort | error | _ | func
    · rw [found] at ran; cases ran
    · rw [found] at ran; cases ran; exact same
    · rw [found] at ran; cases ran; exact same
    · rw [found] at ran
      simp only [ok_bind] at ran
      rcases called : reentry.call after func [] with abort | ⟨result,last⟩
      · rw [called] at ran; cases ran
      · rw [called] at ran
        cases ran
        rw [metered.refused (same.running runs) called]
        exact same

theorem HostProgram.metered (metered : reentry.Metered policy records) (program : HostProgram) :
    policy.Metered (fun store => program.run reentry store) (program.record reentry records) := by
  have quiet {β : Type} {x : Store → Checked (β × Store)}
      (same : ∀ {store b store'}, store.Running policy → x store = .ok (b,store') → store.SameFuel store') :
      policy.Metered x fun _ => [] :=
    Meters.quiet fun _ _ _ runs ran => ⟨(same runs ran).running runs,(same runs ran).fuel⟩
  induction program with
  | done result => exact quiet fun _ ran => by cases ran; exact refl_of _ _
  | read next ih => exact Meters.asks Store.view ih
  | access op next ih => exact (quiet fun _ ran => .host ran).andThen ih
  | instantiate m imports next ih => exact (quiet fun runs ran => .instantiate metered runs ran).andThen ih
  | call func params next ih =>
    refine (quiet fun runs ran => ?_).andThen ih
    rw [metered.refused runs ran]
    exact refl_of _ _
  | callUntyped func args next ih => exact (metered.nested func args).andThen ih
  | chargeFuel fuel next ih => 
    exact Meters.event (e := FuelEvent.charged fuel) (fun store => {store with executionFuel := store.executionFuel - fuel}) rfl
      (fun _ runs => ⟨runs,rfl⟩) ih
  | remainingFuel next ih => exact Meters.shows (e := FuelEvent.observed) (fun _ => rfl) (fun _ => rfl) ih

theorem HostFunction.metered [Host] (metered : reentry.Metered policy records) (ty : FuncType) (id : Nat)
    (moduleAddr : ModuleInstanceAddr) (args : List WasmValue) :
    policy.Metered (fun store => HostFunction.call reentry store ty id moduleAddr args)
      ((Host.call id moduleAddr args).record reentry records) := by
  have program := (Host.call id moduleAddr args).metered metered
  refine ⟨program.truthful,fun {store store' r} runs ran => ?_⟩
  unfold HostFunction.call at ran
  rcases called : (Host.call id moduleAddr args).run reentry store with abort | ⟨error | result,after⟩
  · rw [called] at ran; cases ran
  · rw [called] at ran
    cases ran
    exact program.left runs called
  · rw [called] at ran
    simp only [ok_bind] at ran
    split at ran <;> cases ran <;> exact program.left runs called

end Host

namespace Executor
open FuelPolicy
variable [Allocator] [Host] {reentry : Reentry} {policy : FuelPolicy} {records : Records} (budgeted : Bool)

omit [Allocator] [Host] in
theorem chargeCallFuel_metered : policy.MeteredExec (chargeCallFuel budgeted fuelCostCallTotal) fun _ => callEvents budgeted := by
  cases budgeted with
  | false => exact MeteredExec.quiet (.modify fun ex => refl_of Store.SameFuel ex.store)
  | true =>
    refine ⟨fun _ => ⟨nofun,trivial⟩,fun {ex ex' r} runs ran => ?_⟩
    cases ran
    refine ⟨runs,?_⟩
    have extra : total policy.events (callEvents true) = policy.callExtra := Nat.add_zero _
    rw [extra,←runs.2]
    dsimp only
    cases ex.store.config.fuelPolicy <;> rfl

section Metered
variable (metered : reentry.Metered policy records)
include metered

theorem execCallHost_metered (ty : FuncType) (id : Nat) :
    policy.MeteredExec (execCallHost reentry ty id) (callHostRecord reentry records ty id) where
  truthful {ex} runs := by
    unfold callHostRecord
    split
    · trivial
    · rename_i params valueStack _
      exact (HostFunction.metered metered ty id ex.module.idx params.reverse).truthful (s := (ex.setStack valueStack).store) runs
  left {ex ex' r} runs ran := by
    unfold execCallHost at ran
    rw [get_bind] at ran
    rcases popped : ex.store.valueStack.popTypes ty.params.reverse with abort | ⟨params,valueStack⟩
    · rw [popped] at ran; cases ran
    rw [popped,ofChecked_bind] at ran
    dsimp only at ran
    rcases called : HostFunction.call reentry (ex.setStack valueStack).store ty id ex.module.idx params.reverse
      with abort | ⟨result,store⟩
    · rw [called] at ran; cases ran
    rw [called,ofChecked_bind] at ran
    dsimp only at ran
    rw [set_bind] at ran
    have host := HostFunction.metered metered ty id ex.module.idx params.reverse
    obtain ⟨runs',spent⟩ := host.left (s := (ex.setStack valueStack).store) runs called
    rw [callHostRecord,popped]
    cases result with
    | error error => cases ran; exact ⟨runs',spent⟩
    | ok res =>
      dsimp only at ran
      rw [set_bind] at ran
      have same : Through Store.SameFuel ({ex with store}.setStack _) ex' :=
        (Along.ofExcept (store.valueStack.extendFromWasmValues res).1).bind (fun _ => Through.incrInstrPtr) _ _ _ ran
      exact ⟨same.running runs',same.fuel.trans spent⟩

theorem calleeRecord_metered (call : WasmFunction → ModuleInstanceAddr → Executing Unit)
    (same : ∀ func owner, Along (Through Store.SameFuel) (call func owner)) (callee : Checked FunctionInstance) :
    policy.MeteredExec (.ofChecked callee >>= fun callee =>
      match callee with
      | .wasm func owner => call func owner
      | .host ty id => execCallHost reentry ty id) (calleeRecord reentry records callee) := by
  rcases callee with abort | ⟨ty,id⟩ | ⟨func,owner⟩
  · exact MeteredExec.quiet (.aborts abort)
  · exact execCallHost_metered metered ty id
  · exact MeteredExec.quiet (same func owner)

theorem direct_metered (v : FuncAddr) (call : FuncAddr → WasmFunction → ModuleInstanceAddr → Executing Unit)
    (same : ∀ addr func owner, Along (Through Store.SameFuel) (call addr func owner)) :
    policy.MeteredExec (chargeCallFuel budgeted fuelCostCallTotal >>= fun _ => Exec.get >>= fun ex =>
      .ofChecked (State.at ex.module.funcAddrs v) >>= fun addr => .ofChecked (State.at ex.store.state.funcs addr) >>= fun callee =>
        match callee with
        | .wasm func owner => call addr func owner
        | .host ty id => execCallHost reentry ty id) (directRecord reentry records budgeted v) := by
  refine MeteredExec.bind (chargeCallFuel_metered budgeted) fun _ => MeteredExec.get (fun ex =>
    calleeRecord reentry records (State.at ex.module.funcAddrs v >>= State.at ex.store.state.funcs)) fun ex => ?_
  rcases State.at ex.module.funcAddrs v with abort | addr
  · exact MeteredExec.quiet (.aborts abort)
  · exact calleeRecord_metered metered (call addr) (same addr) (State.at ex.store.state.funcs addr)

theorem execCallDirect_metered (v : FuncAddr) :
    policy.MeteredExec (execCallDirect reentry budgeted v) (directRecord reentry records budgeted v) :=
  direct_metered budgeted metered v (fun addr func owner => execCall func owner addr) fun _ _ _ =>
    Through.execCall Store.SameFuel.stackless _ _ _

theorem execReturnCallDirect_metered (v : FuncAddr) :
    policy.MeteredExec (execReturnCallDirect reentry budgeted v) (directRecord reentry records budgeted v) :=
  direct_metered budgeted metered v (fun addr func owner => execReturnCall func owner addr) fun _ _ _ =>
    Through.execReturnCall Store.SameFuel.stackless _ _ _

-- The callee is the one that the executor names as it is found, and runs from
-- where the executor is then.
def indirectRecordAt (reentry : Reentry) (records : Records) (typeAddr : TypeAddr) (funcRef : FuncAddr) (s ex : Executor) :
    List FuelEvent :=
  match State.at s.module.types typeAddr,State.at s.store.state.funcs funcRef with
  | .ok callTy,.ok (.host ty id) => if ty ≠ callTy then [] else callHostRecord reentry records ty id ex
  | _,_ => []

-- The type of the callee is checked after the call has been paid for.
theorem execCallIndirect_metered (isReturnCall : Bool) (typeAddr : TypeAddr) (tableAddr : TableAddr) :
    policy.MeteredExec (execCallIndirect reentry budgeted isReturnCall typeAddr tableAddr)
      (indirectRecord reentry records budgeted typeAddr tableAddr) := by
  refine MeteredExec.bind (chargeCallFuel_metered budgeted) fun _ =>
    MeteredExec.quietThen (Through.indirectCallee Store.SameFuel.stackless tableAddr) fun funcRef => ?_
  refine MeteredExec.get (indirectRecordAt reentry records typeAddr funcRef) fun ex => ?_
  unfold indirectRecordAt
  rcases State.at ex.module.types typeAddr with abort | callTy
  · exact MeteredExec.quiet (.aborts abort)
  rcases State.at ex.store.state.funcs funcRef with abort | ⟨ty,id⟩ | ⟨func,owner⟩
  · exact MeteredExec.quiet (.aborts abort)
  · by_cases mismatch : ty ≠ callTy
    · refine (MeteredExec.quiet (.trap (.indirectCallTypeMismatch callTy ty))).congr (if_pos mismatch) ?_
      simp only [if_pos mismatch]
    · refine (execCallHost_metered metered ty id).congr (if_neg mismatch) ?_
      simp only [if_neg mismatch]
  · refine MeteredExec.quiet ?_
    change Along (Through Store.SameFuel) (if func.ty ≠ callTy then _ else if isReturnCall then _ else _)
    split
    · exact .trap _
    · split
      · exact Through.execReturnCall Store.SameFuel.stackless _ _ _
      · exact Through.execCall Store.SameFuel.stackless _ _ _

variable [Numerics]

theorem execInstruction_metered (i : Instruction) :
    policy.MeteredExec (execInstruction reentry budgeted i) (instructionRecord reentry records budgeted i) := by
  have answers {x : Executing Unit} {record : Executor → List FuelEvent} (called : policy.MeteredExec x record) :
      policy.MeteredExec (x >>= fun _ => pure false) record := called.thenQuiet fun _ => .pure false
  have paid {x : Unit → Executing Unit} (same : ∀ u, Along (Through Store.SameFuel) (x u)) :
      policy.MeteredExec (chargeCallFuel budgeted fuelCostCallTotal >>= x) fun _ => callEvents budgeted :=
    (chargeCallFuel_metered budgeted).thenQuiet same
  by_cases plain : callsFunction i = false
  · have none : instructionRecord reentry records budgeted i = fun _ => [] := by
      cases i <;> first | rfl | cases plain
    exact (MeteredExec.quiet (execInstruction_through Store.SameFuel.stackless budgeted plain)).congr rfl none
  · cases i
    case call v => exact answers (execCallDirect_metered budgeted metered v)
    case callSelf => exact answers (paid fun _ => Through.selfCall Store.SameFuel.stackless)
    case callIndirect type table => exact answers (execCallIndirect_metered budgeted metered false type table)
    case returnCall v => exact answers (execReturnCallDirect_metered budgeted metered v)
    case returnCallSelf => exact answers (paid fun _ => Through.selfReturnCall Store.SameFuel.stackless)
    case returnCallIndirect type table => exact answers (execCallIndirect_metered budgeted metered true type table)
    all_goals exact absurd rfl plain

def execRecordAt (reentry : Reentry) (records : Records) (budgeted : Bool) (s ex : Executor) : List FuelEvent :=
  match State.at s.func.instructions s.cf.instrPtr with
  | .ok i => instructionRecord reentry records budgeted i ex
  | .error _ => []

theorem exec_metered : policy.MeteredExec (exec reentry budgeted) (execRecord reentry records budgeted) := by
  refine MeteredExec.get (execRecordAt reentry records budgeted) fun ex => ?_
  unfold execRecordAt
  rcases State.at ex.func.instructions ex.cf.instrPtr with abort | i
  · exact MeteredExec.quiet (.aborts abort)
  · exact execInstruction_metered budgeted metered i

theorem runToCompletion_metered (fuel : Nat) :
    policy.MeteredExec (runToCompletion reentry fuel) (runRecord reentry records fuel) := by
  induction fuel with
  | zero => exact MeteredExec.quiet (.aborts .diverges)
  | succ fuel ih =>
    refine MeteredExec.bind (exec_metered false metered) fun finished => ?_
    cases finished with
    | true => exact MeteredExec.quiet (.pure ())
    | false => exact ih

theorem execMany_metered (count : Nat) :
    policy.MeteredExec (execMany reentry budgeted count) (manyRecord reentry records budgeted count) := by
  induction count with
  | zero => exact MeteredExec.quiet (.pure false)
  | succ count ih =>
    refine MeteredExec.bind (exec_metered budgeted metered) fun finished => ?_
    cases finished with
    | true => exact MeteredExec.quiet (.pure true)
    | false => exact ih

end Metered

end Executor

theorem Store.SameFuel.framed [Allocator] (store : Store) (funcAddr : FuncAddr) (func : WasmFunction) (params : List WasmValue) :
    store.SameFuel (store.enterFrame funcAddr func params).2 := by
  unfold enterFrame
  dsimp only
  split <;> exact ⟨rfl,rfl,rfl⟩

theorem Store.SameFuel.finished {store store' : Store} {ty : FuncType} {r : Except Trap Unit} {res : Except Error (List WasmValue)}
    (ran : store.finishCall ty r = .ok (res,store')) : store.SameFuel store' := by
  cases r with
  | error trap => cases ran; exact refl_of _ _
  | ok _ =>
    unfold finishCall at ran
    rcases collected : collectCallResults store.valueStack ty with abort | ⟨values,valueStack⟩
    · rw [collected] at ran; cases ran
    · rw [collected] at ran
      cases ran
      exact ⟨rfl,rfl,rfl⟩

section Nested
variable [Allocator] [Host] [Numerics] {reentry : Reentry} {policy : FuelPolicy} {records : Records}

omit [Allocator] [Host] [Numerics] in
theorem InterpreterRuntime.run_metered {α : Type} {x : Executing α} {record : Executor → List FuelEvent}
    (metered : policy.MeteredExec x record) (cf : CallFrame) (callStackBase : Nat) :
    policy.Metered (fun store => InterpreterRuntime.run x store cf callStackBase) fun store =>
      InterpreterRuntime.runRecord record store cf callStackBase := by
  refine ⟨fun {store} runs => ?_,fun {store store' r} runs ran => ?_⟩
  · rcases new : Executor.new store cf callStackBase with abort | ex
    · simp only [runRecord,new]
      trivial
    · obtain rfl := Executor.new_store new
      simp only [runRecord,new]
      exact metered.truthful runs
  · unfold InterpreterRuntime.run at ran
    rcases new : Executor.new store cf callStackBase with abort | ex
    · rw [new] at ran; cases ran
    · obtain rfl := Executor.new_store new
      rw [new,ok_bind] at ran
      rcases stepped : x ex with abort | ⟨result,last⟩
      · rw [stepped] at ran; cases ran
      · rw [stepped] at ran
        cases ran
        simp only [runRecord,new]
        exact metered.left runs stepped

theorem FuncContext.callUntyped_metered (metered : reentry.Metered policy records) (fuel : Nat) (func : Function)
    (args : List WasmValue) : policy.Metered (fun store => FuncContext.callUntyped reentry fuel store func args) fun store =>
      FuncContext.callUntypedRecord reentry records fuel store func args := by
  refine Meters.pointwise fun store runs => ?_
  have stays {r r' : Except Error (List WasmValue)} {store' : Store}
      (ran : (.ok (r,store) : Checked (Except Error (List WasmValue) × Store)) = .ok (r',store')) :
      store'.Running policy ∧ store'.executionFuel = store.executionFuel := by
    cases ran
    exact ⟨runs,rfl⟩
  simp only [FuncContext.callUntyped,FuncContext.callUntypedRecord,runs.1,not_true_eq_false,if_false]
  rcases func.item.validateStore store with trap | _
  · exact ⟨trivial,fun ran => stays ran⟩
  rcases validateCallParams func.ty args with error | _
  · exact ⟨trivial,fun ran => stays ran⟩
  rcases State.at store.state.funcs func.addr with abort | ⟨ty,id⟩ | ⟨wasmFunc,owner⟩
  · exact ⟨trivial,fun ran => by cases ran⟩
  · have host := HostFunction.metered metered ty id func.moduleAddr args
    exact ⟨host.truthful runs,fun ran => host.left runs ran⟩
  · have framed := Store.SameFuel.framed store func.addr wasmFunc args
    simp only [ok_bind]
    rcases enters : store.enterFrame func.addr wasmFunc args with ⟨trap | cf,entered⟩
    · rw [enters] at framed
      refine ⟨trivial,fun ran => ?_⟩
      cases ran
      exact ⟨framed.running runs,framed.fuel⟩
    · rw [enters] at framed
      dsimp only at framed ⊢
      have run := InterpreterRuntime.run_metered (Executor.runToCompletion_metered metered fuel) cf store.callStack.len
      have truthful := run.truthful (framed.running runs)
      rw [framed.fuel] at truthful
      refine ⟨truthful,fun ran => ?_⟩
      rcases ended : InterpreterRuntime.run (Executor.runToCompletion reentry fuel) entered cf store.callStack.len
        with abort | ⟨trap | _,last⟩
      · rw [ended] at ran; cases ran
      · rw [ended] at ran
        cases ran
        obtain ⟨runs',spent⟩ := run.left (framed.running runs) ended
        exact ⟨runs',spent.trans (by rw [framed.fuel])⟩
      · rw [ended,ok_bind] at ran
        obtain ⟨runs',spent⟩ := run.left (framed.running runs) ended
        have same := Store.SameFuel.finished ran
        exact ⟨same.running runs',same.fuel.trans (spent.trans (by rw [framed.fuel]))⟩

theorem Function.call_refused {fuel : Nat} {store store' : Store} {func : Function} {params : List WasmValue}
    {r : Except Error (List WasmValue)} (active : store.executionActive = true)
    (ran : func.call reentry fuel store params = .ok (r,store')) : store' = store := by
  unfold Function.call Function.invoke Store.enterExecution at ran
  rw [if_pos active] at ran
  split at ran
  · cases ran; rfl
  · split at ran <;> cases ran <;> rfl

end Nested

theorem InterpreterRuntime.reentry_metered [Allocator] [Host] [Numerics] (policy : FuelPolicy) (fuel : Nat) :
    (InterpreterRuntime.reentry fuel).Metered policy (InterpreterRuntime.records fuel) := by
  induction fuel with
  | zero => exact ⟨nofun,fun _ _ => ⟨fun _ => trivial,nofun⟩⟩
  | succ fuel ih => exact ⟨fun runs ran => Function.call_refused runs.1 ran,FuncContext.callUntyped_metered ih fuel⟩

end TinyWasm
