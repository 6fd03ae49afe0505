import TinyWasm.Metering
import TinyWasm.Interpreter.ExecutorGrowth

namespace TinyWasm
open Metering

-- What matters to fuel in a run: a call instruction, what a host function
-- charges, and what it is told is left.
inductive FuelEvent where
  | call
  | charged (fuel : Nat)
  | observed (fuel : Nat)
  deriving DecidableEq

def FuelPolicy.callExtra : FuelPolicy → Nat
  | .perInstruction => 0
  | .weighted => Executor.fuelCostCallTotal - 1

def FuelPolicy.events (policy : FuelPolicy) : Events FuelEvent where
  cost
    | .call => policy.callExtra
    | .charged fuel => fuel
    | .observed _ => 0
  reading
    | .observed fuel => some fuel
    | _ => none

abbrev Records := Store → Function → List WasmValue → List FuelEvent

section Host
variable [Allocator]

-- Of the calls a host function makes only the nested ones go through.
def HostProgram.record (reentry : Reentry) (records : Records) : HostProgram → Store → List FuelEvent
  | done _,_ => []
  | read next,store => (next store.view).record reentry records store
  | access op next,store => after op.run (fun r => (next r).record reentry records) store
  | instantiate m imports next,store =>
    after (fun store => store.instantiate reentry.call m imports) (fun r => (next r).record reentry records) store
  | call func params next,store =>
    after (fun store => reentry.call store func params) (fun r => (next r).record reentry records) store
  | callUntyped func args next,store =>
    records store func args ++
      after (fun store => reentry.callUntyped store func args) (fun r => (next r).record reentry records) store
  | chargeFuel fuel next,store =>
    .charged fuel :: next.record reentry records {store with executionFuel := store.executionFuel - fuel}
  | remainingFuel next,store => .observed store.executionFuel :: (next store.executionFuel).record reentry records store

end Host

namespace Executor

-- After an answer the sequence goes on.
def answered {α : Type} (record : α → Executor → List FuelEvent) : Except Trap α → Executor → List FuelEvent
  | .ok a,ex => record a ex
  | .error _,_ => []

variable [Allocator] [Host] (reentry : Reentry) (records : Records) (budgeted : Bool)

def callHostRecord (ty : FuncType) (id : Nat) (ex : Executor) : List FuelEvent :=
  match ex.store.valueStack.popTypes ty.params.reverse with
  | .error _ => []
  | .ok (params,valueStack) =>
    (Host.call id ex.module.idx params.reverse).record reentry records (ex.setStack valueStack).store

def calleeRecord (callee : Checked FunctionInstance) (ex : Executor) : List FuelEvent :=
  match callee with
  | .ok (.host ty id) => callHostRecord reentry records ty id ex
  | _ => []

-- The instruction of a call itself, in a run with fuel.
def callEvents : List FuelEvent := if budgeted then [.call] else []

def directRecord (v : FuncAddr) (ex : Executor) : List FuelEvent :=
  callEvents budgeted ++ after (chargeCallFuel budgeted fuelCostCallTotal) (answered fun _ ex =>
    calleeRecord reentry records (State.at ex.module.funcAddrs v >>= State.at ex.store.state.funcs) ex) ex

def indirectRecord (typeAddr : TypeAddr) (tableAddr : TableAddr) (ex : Executor) : List FuelEvent :=
  callEvents budgeted ++ after (chargeCallFuel budgeted fuelCostCallTotal) (answered fun _ =>
    after (indirectCallee tableAddr) (answered fun funcRef ex =>
      match State.at ex.module.types typeAddr,State.at ex.store.state.funcs funcRef with
      | .ok callTy,.ok (.host ty id) => if ty ≠ callTy then [] else callHostRecord reentry records ty id ex
      | _,_ => [])) ex

def instructionRecord : Instruction → Executor → List FuelEvent
  | .call v | .returnCall v => directRecord reentry records budgeted v
  | .callSelf | .returnCallSelf => fun _ => callEvents budgeted
  | .callIndirect type table | .returnCallIndirect type table => indirectRecord reentry records budgeted type table
  | _ => fun _ => []

def execRecord (ex : Executor) : List FuelEvent :=
  match State.at ex.func.instructions ex.cf.instrPtr with
  | .ok i => instructionRecord reentry records budgeted i ex
  | .error _ => []

variable [Numerics]

def runRecord : Nat → Executor → List FuelEvent
  | 0 => fun _ => []
  | fuel + 1 => fun ex => execRecord reentry records false ex ++
      after (exec reentry false) (answered fun finished => if finished then fun _ => [] else runRecord fuel) ex

def manyRecord : Nat → Executor → List FuelEvent
  | 0 => fun _ => []
  | count + 1 => fun ex => execRecord reentry records budgeted ex ++
      after (exec reentry budgeted) (answered fun finished => if finished then fun _ => [] else manyRecord count) ex

-- Whole blocks, each with its end, and what there is of a last one.
def loopRecord : Nat → Executor → List (Option FuelEvent)
  | 0,_ => []
  | turns + 1,ex => (manyRecord reentry records true chunkSize ex).map some ++
      match execMany reentry true chunkSize ex with
      | .ok (.ok false,ex) =>
        let left := ex.store.executionFuel - chunkSize
        none :: if left = 0 then [] else loopRecord turns {ex with store := {ex.store with executionFuel := left}}
      | _ => []

-- What happens in a run with so much fuel.
def fuelRecord (fuel : Nat) (ex : Executor) : List (Option FuelEvent) :=
  if fuel = 0 then [] else loopRecord reentry records fuel {ex with store := {ex.store with executionFuel := fuel}}

end Executor

section Nested
variable [Allocator] [Host] [Numerics] (reentry : Reentry) (records : Records) (fuel : Nat)

def InterpreterRuntime.runRecord {ε : Type} (record : Executor → List ε) (store : Store) (cf : CallFrame) (callStackBase : Nat) :
    List ε :=
  match Executor.new store cf callStackBase with
  | .ok ex => record ex
  | .error _ => []

def FuncContext.callUntypedRecord : Records := fun store func args =>
  if ¬store.executionActive then [] else
    match func.item.validateStore store,validateCallParams func.ty args,State.at store.state.funcs func.addr with
    | .ok (),.ok (),.ok (.host _ id) => (Host.call id func.moduleAddr args).record reentry records store
    | .ok (),.ok (),.ok (.wasm wasmFunc _) =>
      match store.enterFrame func.addr wasmFunc args with
      | (.ok cf,entered) =>
        InterpreterRuntime.runRecord (Executor.runRecord reentry records fuel) entered cf store.callStack.len
      | _ => []
    | _,_,_ => []

end Nested

def InterpreterRuntime.records [Allocator] [Host] [Numerics] : Nat → Records
  | 0 => fun _ _ _ => []
  | fuel + 1 => FuncContext.callUntypedRecord (reentry fuel) (records fuel) fuel

end TinyWasm
