import TinyWasm.Interpreter.Executor

namespace TinyWasm

inductive ExecState where
  | completed
  | suspended (cf : CallFrame)

namespace Executor
variable [Allocator] [Host] [Numerics] (reentry : Reentry)

-- A loop that takes more than `fuel` turns is not left.
def runToCompletion : Nat → Executing Unit
  | 0 => .ofChecked (.error .diverges)
  | fuel + 1 => do
    if ← exec reentry false then pure () else runToCompletion fuel

-- Up to so many instructions, and whether the outermost frame has returned.
def execMany (budgeted : Bool) : Nat → Executing Bool
  | 0 => pure false
  | count + 1 => do
    if ← exec reentry budgeted then pure true else execMany budgeted count

def chunkSize : Nat := 128

def setFuel (fuel : Nat) : Executing Unit := fun ex =>
  .ok (.ok (),{ex with store := {ex.store with executionFuel := fuel}})

def suspend : Executing ExecState := do
  let ex ← .get
  pure (.suspended ex.cf)

def fuelLoop : Nat → Executing ExecState
  | 0 => .ofChecked (.error .diverges)
  | turns + 1 => do
    if ← execMany reentry true chunkSize then pure .completed
    else do
      let ex ← .get
      let left := ex.store.executionFuel - chunkSize
      setFuel left
      if left = 0 then suspend else fuelLoop turns

-- Every turn of the loop takes fuel.
def runWithFuel (fuel : Nat) : Executing ExecState := do
  setFuel fuel
  if fuel = 0 then suspend else fuelLoop reentry fuel

-- The clock is asked after each chunk.
def timeLoop (elapsed : Nat → Bool) : Nat → Nat → Executing ExecState
  | 0,_ => .ofChecked (.error .diverges)
  | turns + 1,asked => do
    if ← execMany reentry false chunkSize then pure .completed
    else if elapsed asked then suspend
    else timeLoop elapsed turns (asked + 1)

def runWithTimeBudget (isZero : Bool) (elapsed : Nat → Bool) (turns : Nat) : Executing ExecState :=
  if isZero then suspend else timeLoop reentry elapsed turns 0

end Executor

-- An executor lives as long as its run; only the store is left of it.
def InterpreterRuntime.run {α : Type} (x : Executing α) (store : Store) (cf : CallFrame) (callStackBase : Nat) :
    Checked (Except Trap α × Store) := do
  let (r,ex) ← x (← Executor.new store cf callStackBase)
  .ok (r,ex.store)

def collectCallResults (stack : ValueStack) (ty : FuncType) : Checked (List WasmValue × ValueStack) := do
  let (res,stack) ← stack.popTypes ty.results.reverse
  .ok (res.reverse,stack)

namespace Store

-- What a call that is through has left on the value stack.
def finishCall (store : Store) (ty : FuncType) : Except Trap Unit → Checked (Except Error (List WasmValue) × Store)
  | .error trap => .ok (.error (.trap trap),store)
  | .ok () => do
    let (res,valueStack) ← collectCallResults store.valueStack ty
    .ok (.ok res,{store with valueStack})

-- The arguments become the first locals of the entry frame.
def enterFrame [Allocator] (store : Store) (funcAddr : FuncAddr) (func : WasmFunction) (params : List WasmValue) :
    Except Trap CallFrame × Store :=
  let (r,valueStack) := store.valueStack.extendFromWasmValues params
  match r with
  | .error trap => (.error trap,{store with valueStack})
  | .ok () =>
    let (r,valueStack) := valueStack.enterLocals func.params func.locals
    (r.map fun localsBase => .new funcAddr localsBase func.locals,{store with valueStack})

def clearStacks (store : Store) : Store :=
  {store with callStack := store.callStack.clear,valueStack := store.valueStack.clear}

def truncateStacks (store : Store) (callStackBase : Nat) (valueStackBase : StackBase) : Store :=
  {store with
    callStack := store.callStack.truncateTo callStackBase,valueStack := store.valueStack.truncateToBase valueStackBase}

end Store

namespace Function

-- The checks of every invocation by a host that is not itself being called.
def invoke {α : Type} (func : Function) (store : Store) (params : List WasmValue)
    (inner : Store → Checked (Except Error α × Store)) : Checked (Except Error α × Store) :=
  match func.item.validateStore store with
  | .error trap => .ok (.error (.trap trap),store)
  | .ok () =>
    match validateCallParams func.ty params with
    | .error error => .ok (.error error,store)
    | .ok () =>
      match store.enterExecution with
      | .error error => .ok (.error error,store)
      | .ok store => do
        let (r,store) ← inner store
        .ok (r,store.exitExecution)

variable [Allocator] [Host] [Numerics] (reentry : Reentry) (fuel : Nat)

def callInner (func : Function) (params : List WasmValue) (store : Store) :
    Checked (Except Error (List WasmValue) × Store) := do
  match ← State.at store.state.funcs func.addr with
  | .host ty id => HostFunction.call reentry store ty id func.moduleAddr params
  | .wasm wasmFunc _ =>
    match store.clearStacks.enterFrame func.addr wasmFunc params with
    | (.error trap,store) => .ok (.error (.trap trap),store)
    | (.ok cf,store) =>
      let (r,store) ← InterpreterRuntime.run (Executor.runToCompletion reentry fuel) store cf 0
      store.finishCall func.ty r

def call (store : Store) (func : Function) (params : List WasmValue) : Checked (Except Error (List WasmValue) × Store) :=
  func.invoke store params (func.callInner reentry fuel params)

end Function

section Nested
variable [Allocator] [Host] [Numerics] (reentry : Reentry) (fuel : Nat)

-- FuncContext::call_untyped: on failure the stacks are cut back to where the
-- host function found them.
def FuncContext.callUntyped (store : Store) (func : Function) (args : List WasmValue) :
    Checked (Except Error (List WasmValue) × Store) :=
  if ¬store.executionActive then
    .ok (.error (.other "FuncContext::call requires an active host-function invocation"),store)
  else
    match func.item.validateStore store with
    | .error trap => .ok (.error (.trap trap),store)
    | .ok () =>
      match validateCallParams func.ty args with
      | .error error => .ok (.error error,store)
      | .ok () => do
        match ← State.at store.state.funcs func.addr with
        | .host ty id => HostFunction.call reentry store ty id func.moduleAddr args
        | .wasm wasmFunc _ =>
          let callStackBase := store.callStack.len
          let valueStackBase := store.valueStack.base
          match store.enterFrame func.addr wasmFunc args with
          | (.error trap,store) =>
            .ok (.error (.trap trap),{store with valueStack := store.valueStack.truncateToBase valueStackBase})
          | (.ok cf,store) =>
            match ← InterpreterRuntime.run (Executor.runToCompletion reentry fuel) store cf callStackBase with
            | (.error trap,store) => .ok (.error (.trap trap),store.truncateStacks callStackBase valueStackBase)
            | (.ok (),store) => store.finishCall func.ty (.ok ())

end Nested

-- The interpreter as host functions get back into it, for runs of at most so
-- many instructions in one executor and nested at most so deep.
def InterpreterRuntime.reentry [Allocator] [Host] [Numerics] : Nat → Reentry
  | 0 => ⟨fun _ _ _ => .error .diverges,fun _ _ _ => .error .diverges⟩
  | fuel + 1 => ⟨Function.call (reentry fuel) fuel,FuncContext.callUntyped (reentry fuel) fuel⟩

inductive FuncExecutionState where
  | running (callframe : CallFrame) (rootFuncAddr : FuncAddr)
  | completed (result : Option (List WasmValue))

inductive ExecProgress where
  | completed (values : List WasmValue)
  | suspended

inductive Budget where
  | fuel (fuel : Nat)
  | time (isZero : Bool) (elapsed : Nat → Bool)

section Resumable
variable [Allocator] [Host] [Numerics] (reentry : Reentry) (fuel : Nat)

def Function.callResumableInner (func : Function) (params : List WasmValue) (store : Store) :
    Checked (Except Error FuncExecutionState × Store) := do
  match ← State.at store.state.funcs func.addr with
  | .host ty id =>
    let (r,store) ← HostFunction.call reentry store ty id func.moduleAddr params
    .ok (r.map fun result => .completed (some result),store)
  | .wasm wasmFunc _ =>
    let (r,store) := store.clearStacks.enterFrame func.addr wasmFunc params
    .ok ((r.map fun cf => .running cf func.addr).mapError .trap,store)

def Function.callResumable (store : Store) (func : Function) (params : List WasmValue) :
    Checked (Except Error FuncExecutionState × Store) :=
  func.invoke store params (func.callResumableInner reentry params)

def Budget.run : Budget → Executing ExecState
  | .fuel units => Executor.runWithFuel reentry units
  | .time isZero elapsed => Executor.runWithTimeBudget reentry isZero elapsed fuel

-- An execution that failed keeps the frame it was resumed from.
def FuncExecutionState.resume (store : Store) (budget : Budget) :
    FuncExecutionState → Checked (Except Error ExecProgress × FuncExecutionState × Store)
  | .completed (some res) => .ok (.ok (.completed res),.completed none,store)
  | .completed none => .ok (.error (.other "execution already completed"),.completed none,store)
  | .running callframe root =>
    match store.enterExecution with
    | .error error => .ok (.error error,.running callframe root,store)
    | .ok store => do
      let (r,store) ← InterpreterRuntime.run (budget.run reentry fuel) store callframe 0
      let store := store.exitExecution
      match r with
      | .error trap => .ok (.error (.trap trap),.running callframe root,store)
      | .ok (.suspended cf) => .ok (.ok .suspended,.running cf root,store)
      | .ok .completed =>
        let func ← State.at store.state.funcs root
        let (res,valueStack) ← collectCallResults store.valueStack func.ty
        .ok (.ok (.completed res),.completed none,{store with valueStack})

end Resumable

end TinyWasm
