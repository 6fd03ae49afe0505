import TinyWasm.Store.HostInstance

namespace TinyWasm

namespace Store

def enterExecution (store : Store) : Except Error Store :=
  if store.executionActive then
    .error (.trap (.other "cannot call a function while another invocation is active; use FuncContext::call from host functions"))
  else .ok {store with executionActive := true}

def exitExecution (store : Store) : Store := {store with executionActive := false}

end Store

-- What a host reads of a store through its items and instances.
structure StoreView where
  id : Nat
  config : Config
  moduleInstances : List Instance
  state : State

def Store.view (store : Store) : StoreView := ⟨store.id,store.config,store.moduleInstances,store.state⟩

-- A host function is the uses it makes of the store in its context, one after
-- the other; each answer decides how it goes on. A call that is not nested,
-- resumable or not, is refused while the host function runs.
inductive HostProgram where
  | done (result : Except Error (List WasmValue))
  | read (next : StoreView → HostProgram)
  | access (op : HostOp) (next : Except Error Unit → HostProgram)
  | instantiate (m : Module) (imports : Imports) (next : Except Error Instance → HostProgram)
  | call (func : Function) (params : List WasmValue) (next : Except Error (List WasmValue) → HostProgram)
  | callUntyped (func : Function) (args : List WasmValue) (next : Except Error (List WasmValue) → HostProgram)
  | chargeFuel (fuel : Nat) (next : HostProgram)
  | remainingFuel (next : Nat → HostProgram)

-- The closures of the embedder, by their ids.
class Host where
  call (id : Nat) (moduleAddr : ModuleInstanceAddr) (args : List WasmValue) : HostProgram

-- Host functions that do nothing.
@[reducible] def Host.quiet : Host := ⟨fun _ _ _ => .done (.ok [])⟩

abbrev Invocation := Store → Function → List WasmValue → Checked (Except Error (List WasmValue) × Store)

-- How a host function gets back into the interpreter.
structure Reentry where
  call : Invocation
  callUntyped : Invocation

def Instance.start (call : Invocation) (inst : Instance) (store : Store) : Checked (Except Error (Option Unit) × Store) := do
  match ← inst.startFunc store with
  | .error error => .ok (.error error,store)
  | .ok none => .ok (.ok none,store)
  | .ok (some func) =>
    let (r,store) ← call store func []
    .ok (r.map fun _ => some (),store)

def Store.instantiate [Allocator] (call : Invocation) (store : Store) (m : Module) (imports : Imports) :
    Checked (Except Error Instance × Store) := do
  match ← store.instantiateNoStart m imports with
  | (.error error,store) => .ok (.error error,store)
  | (.ok inst,store) =>
    let (r,store) ← inst.start call store
    .ok (r.map fun _ => inst,store)

def HostProgram.run [Allocator] (reentry : Reentry) (store : Store) :
    HostProgram → Checked (Except Error (List WasmValue) × Store)
  | done result => .ok (result,store)
  | read next => (next store.view).run reentry store
  | access op next => do
    let (r,store) ← op.run store
    (next r).run reentry store
  | instantiate m imports next => do
    let (r,store) ← store.instantiate reentry.call m imports
    (next r).run reentry store
  | call func params next => do
    let (r,store) ← reentry.call store func params
    (next r).run reentry store
  | callUntyped func args next => do
    let (r,store) ← reentry.callUntyped store func args
    (next r).run reentry store
  | chargeFuel fuel next => next.run reentry {store with executionFuel := store.executionFuel - fuel}
  | remainingFuel next => (next store.executionFuel).run reentry store

-- The results are checked against the type the function was made with.
def HostFunction.call [Allocator] [Host] (reentry : Reentry) (store : Store) (ty : FuncType) (id : Nat)
    (moduleAddr : ModuleInstanceAddr) (args : List WasmValue) : Checked (Except Error (List WasmValue) × Store) := do
  match ← (Host.call id moduleAddr args).run reentry store with
  | (.error error,store) => .ok (.error error,store)
  | (.ok result,store) =>
    if result.length = ty.results.length ∧ (result.zip ty.results).all (fun (val,ty) => val.type == ty) then
      .ok (.ok result,store)
    else .ok (.error (.invalidHostFnReturn ty result),store)

end TinyWasm
