import TinyWasm.Interpreter.Runtime
import TinyWasm.Lockstep

namespace TinyWasm
open Exec

def Store.refuel (store : Store) (executionFuel : Nat) : Store := {store with executionFuel}

-- The same store but for the fuel that is left.
def Store.Refuelled (store store' : Store) : Prop := ∃ fuel, store' = store.refuel fuel

-- A host function that neither charges fuel nor asks what is left.
def HostProgram.FuelFree : HostProgram → Prop
  | done _ => True
  | read next => ∀ view, (next view).FuelFree
  | access _ next => ∀ r, (next r).FuelFree
  | instantiate _ _ next => ∀ r, (next r).FuelFree
  | call _ _ next => ∀ r, (next r).FuelFree
  | callUntyped _ _ next => ∀ r, (next r).FuelFree
  | chargeFuel _ _ => False
  | remainingFuel _ => False

def Host.FuelFree [Host] : Prop := ∀ id moduleAddr args, (Host.call id moduleAddr args).FuelFree

-- Nothing that a store is used for tells how much fuel is left.
abbrev Store.Blind {ε β : Type} (x y : Store → Except ε (β × Store)) : Prop := Lockstep Store.Refuelled x y

namespace Store.Blind

theorem of {ε β : Type} {x y : Store → Except ε (β × Store)}
    (same : ∀ store fuel, y (store.refuel fuel) = (x store).map fun p => (p.1,p.2.refuel fuel)) : Blind x y := by
  rintro store _ ⟨fuel,rfl⟩
  rw [same]
  rcases x store with abort | ⟨b,after⟩
  · exact .fails abort
  · exact .answers ⟨fuel,rfl⟩

section Items
variable {α : Type}

theorem reads (read : Store → Checked (Except Error α)) (same : ∀ store fuel, read (store.refuel fuel) = read store) :
    Blind (fun store => HostOp.reads store (read store)) fun store => HostOp.reads store (read store) := by
  refine of fun store fuel => ?_
  rw [same]
  rcases read store with abort | r <;> rfl

theorem writes {run : Store → Checked (Except Error α × Store)} (blind : Blind run run) :
    Blind (fun store => HostOp.writes (run store)) fun store => HostOp.writes (run store) := by
  intro store store' refuelled
  have abreast := blind store store' refuelled
  change Abreast _ (HostOp.writes (run store)) (HostOp.writes (run store'))
  generalize run store = end₁,run store' = end₂ at abreast
  cases abreast with
  | answers refuelled => exact .answers refuelled
  | fails abort => exact .fails abort

theorem checkedMut (item : StoreItem) {run : Store → Checked (Except Error α × State)}
    (same : ∀ store fuel, run (store.refuel fuel) = run store) :
    Blind (fun store => item.checkedMut store (run store)) fun store => item.checkedMut store (run store) := by
  refine of fun store fuel => ?_
  rw [same]
  unfold StoreItem.checkedMut
  change (match item.validateStore store with | .error _ => _ | .ok _ => _) = _
  rcases item.validateStore store with trap | _
  · rfl
  · rcases run store with abort | ⟨r,state⟩ <;> rfl

end Items

variable [Allocator]

theorem host (op : HostOp) : Blind op.run op.run := by
  cases op with
  | globalNew ty value =>
    refine @writes _ (fun store => .ok (HostGlobal.new store ty value)) (of fun store fuel => ?_)
    dsimp only [HostGlobal.new]
    split <;> rfl
  | globalTy global => exact reads _ fun _ _ => rfl
  | globalGet global => exact reads _ fun _ _ => rfl
  | globalSet global value =>
    refine @writes _ (global.set · value) (of fun store fuel => ?_)
    change (global.instance_ store >>= _) = (global.instance_ store >>= _).map _
    rcases global.instance_ store with abort | error | g
    · rfl
    · rfl
    · simp only [ok_bind]
      split
      · rfl
      · split <;> rfl
  | tableNew ty init =>
    refine @writes _ (fun store => .ok (HostTable.new store ty init)) (of fun store fuel => ?_)
    dsimp only [HostTable.new]
    split
    · rfl
    · split <;> rfl
  | tableTy table => exact reads _ fun _ _ => rfl
  | tableSize table => exact reads _ fun _ _ => rfl
  | tableGet table index => exact reads _ fun _ _ => rfl
  | tableLoad table offset len => exact reads _ fun _ _ => rfl
  | tableSet table index value => exact writes (checkedMut table.item fun _ _ => rfl)
  | tableCopyWithin table src dst len => exact writes (checkedMut table.item fun _ _ => rfl)
  | tableGrow table delta init => exact writes (checkedMut table.item fun _ _ => rfl)
  | memoryNew ty =>
    refine @writes _ (HostMemory.new · ty) (of fun store fuel => ?_)
    change (MemoryInstance.new ty store.config.memoryBackend >>= _) = (MemoryInstance.new ty store.config.memoryBackend >>= _).map _
    rcases MemoryInstance.new ty store.config.memoryBackend with abort | error | mem <;> rfl
  | memoryLen memory => exact reads _ fun _ _ => rfl
  | memoryTy memory => exact reads _ fun _ _ => rfl
  | memoryPageCount memory => exact reads _ fun _ _ => rfl
  | memoryRead memory offset len => exact reads _ fun _ _ => rfl
  | memoryReadExact memory offset len => exact reads _ fun _ _ => rfl
  | memoryReadVec memory offset len => exact reads _ fun _ _ => rfl
  | memoryWrite memory offset src => exact writes (checkedMut memory.item fun _ _ => rfl)
  | memoryGrow memory deltaPages => exact writes (checkedMut memory.item fun _ _ => rfl)
  | memoryCopyWithin memory src dst len => exact writes (checkedMut memory.item fun _ _ => rfl)
  | memoryFill memory offset len val => exact writes (checkedMut memory.item fun _ _ => rfl)
  | memoryCopyFromSlice memory offset data => exact writes (checkedMut memory.item fun _ _ => rfl)
  | functionNew ty id =>
    exact @writes Function (fun store => .ok (.ok (HostFunction.fromUntyped store ty id).1,(HostFunction.fromUntyped store ty id).2))
      (of fun _ _ => rfl)

omit [Allocator] in
theorem linkAll (imports : Imports) (store : Store) (m : Module) (fuel : Nat) (list : List Import) (out : ResolvedImports) :
    imports.linkAll (store.refuel fuel) m list out = imports.linkAll store m list out := by
  induction list generalizing out with
  | nil => rfl
  | cons import_ rest ih =>
    unfold Imports.linkAll
    have resolved : imports.resolve (store.refuel fuel) import_ = imports.resolve store import_ := rfl
    rw [resolved]
    rcases imports.resolve store import_ with error | ⟨val,handle⟩
    · rfl
    · change (Imports.linkImport store m import_ val handle out >>= _) = (Imports.linkImport store m import_ val handle out >>= _)
      rcases Imports.linkImport store m import_ val handle out with abort | error | out
      · rfl
      · rfl
      · exact ih out

theorem instantiateNoStart (m : Module) (imports : Imports) :
    Blind (fun store => store.instantiateNoStart m imports) fun store => store.instantiateNoStart m imports := by
  refine of fun store fuel => ?_
  unfold Store.instantiateNoStart Imports.link
  rw [linkAll]
  rcases imports.linkAll store m m.imports ⟨[],[],[],[]⟩ with abort | error | addrs
  · rfl
  · rfl
  simp only [ok_bind]
  change (store.state.initItems store.config.memoryBackend m store.moduleInstances.length addrs >>= _) = _
  rcases store.state.initItems store.config.memoryBackend m store.moduleInstances.length addrs with abort | ⟨error | addrs,state⟩
  · rfl
  · rfl
  simp only [ok_bind]
  rcases state.initSegments m addrs with abort | ⟨error | ⟨elemAddrs,dataAddrs,trap | _⟩,state⟩ <;> rfl

end Store.Blind

structure Reentry.Blind (reentry : Reentry) : Prop where
  call (func : Function) (params : List WasmValue) :
    Store.Blind (fun store => reentry.call store func params) fun store => reentry.call store func params
  callUntyped (func : Function) (args : List WasmValue) :
    Store.Blind (fun store => reentry.callUntyped store func args) fun store => reentry.callUntyped store func args

namespace Store.Blind
variable [Allocator] {reentry : Reentry} (blind : reentry.Blind)
include blind

omit [Allocator] in
theorem start (inst : Instance) :
    Blind (fun store => inst.start reentry.call store) fun store => inst.start reentry.call store := by
  rintro store _ ⟨fuel,rfl⟩
  unfold Instance.start
  change Abreast _ (inst.startFunc store >>= _) (inst.startFunc store >>= _)
  rcases inst.startFunc store with abort | error | _ | func
  · exact .fails abort
  · exact .answers ⟨fuel,rfl⟩
  · exact .answers ⟨fuel,rfl⟩
  · exact (blind.call func [] store _ ⟨fuel,rfl⟩).bind fun r after after' refuelled => .answers refuelled

theorem instantiate (m : Module) (imports : Imports) :
    Blind (fun store => store.instantiate reentry.call m imports) fun store => store.instantiate reentry.call m imports := by
  intro store store' refuelled
  refine (instantiateNoStart m imports store store' refuelled).bind fun r after after' refuelled => ?_
  cases r with
  | error error => exact .answers refuelled
  | ok inst => exact (start blind inst after after' refuelled).bind fun r last last' refuelled => .answers refuelled

theorem hostProgram {program : HostProgram} (free : program.FuelFree) :
    Blind (fun store => program.run reentry store) fun store => program.run reentry store := by
  induction program with
  | done result => exact .answer result
  | read next ih =>
    rintro store _ ⟨fuel,rfl⟩
    exact ih store.view (free store.view) store _ ⟨fuel,rfl⟩
  | access op next ih => exact (host op).andThen fun r => ih r (free r)
  | instantiate m imports next ih => exact (instantiate blind m imports).andThen fun r => ih r (free r)
  | call func params next ih => exact (blind.call func params).andThen fun r => ih r (free r)
  | callUntyped func args next ih => exact (blind.callUntyped func args).andThen fun r => ih r (free r)
  | chargeFuel fuel next ih => cases free
  | remainingFuel next ih => cases free

theorem hostFunction [Host] (free : Host.FuelFree) (ty : FuncType) (id : Nat) (moduleAddr : ModuleInstanceAddr) (args : List WasmValue) :
    Blind (fun store => HostFunction.call reentry store ty id moduleAddr args) fun store =>
      HostFunction.call reentry store ty id moduleAddr args := by
  intro store store' refuelled
  refine (hostProgram blind (free id moduleAddr args) store store' refuelled).bind fun r after after' refuelled => ?_
  cases r with
  | error error => exact .answers refuelled
  | ok result =>
    dsimp only
    split <;> exact .answers refuelled

end Store.Blind

theorem Lockstep.seq {σ τ α β : Type} {R : σ → τ → Prop} {x : Exec σ α} {y : Exec τ α} {f : α → Exec σ β} {g : α → Exec τ β}
    (first : Lockstep R x y) (rest : ∀ a, Lockstep R (f a) (g a)) : Lockstep R (x >>= f) (y >>= g) := by
  intro s t related
  rw [bind_run,bind_run]
  have abreast := first s t related
  generalize x s = end₁,y t = end₂ at abreast
  cases abreast with
  | @answers r s t related =>
    cases r with
    | error trap => exact .answers related
    | ok a => exact rest a s t related
  | fails abort => exact .fails abort

namespace Executor

def refuel (ex : Executor) (fuel : Nat) : Executor := {ex with store := ex.store.refuel fuel}

def Refuelled (ex ex' : Executor) : Prop := ∃ fuel, ex' = ex.refuel fuel

abbrev Blind {α : Type} (x y : Executing α) : Prop := Lockstep Refuelled x y

namespace Blind
variable {α β : Type} {x y : Executing α}

theorem of (same : ∀ ex fuel, y (ex.refuel fuel) = (x ex).map fun p => (p.1,p.2.refuel fuel)) : Blind x y := by
  rintro ex _ ⟨fuel,rfl⟩
  rw [same]
  rcases x ex with abort | ⟨r,after⟩
  · exact .fails abort
  · exact .answers ⟨fuel,rfl⟩

theorem ofExcept (r : Except Trap α) : Blind (.ofExcept r) (.ofExcept r) := of fun _ _ => rfl

theorem pure (a : α) : Blind (Pure.pure a) (Pure.pure a) := of fun _ _ => rfl

theorem trap (t : Trap) : Blind (.trap t : Executing α) (.trap t) := of fun _ _ => rfl

theorem get {f g : Executor → Executing β} (rest : ∀ ex fuel, Blind (f ex) (g (ex.refuel fuel))) :
    Blind (Exec.get >>= f) (Exec.get >>= g) := by
  rintro ex _ ⟨fuel,rfl⟩
  exact rest ex fuel ex _ ⟨fuel,rfl⟩

theorem set {f g : Unit → Executing β} (ex : Executor) (fuel : Nat) (rest : Blind (f ()) (g ())) :
    Blind (Exec.set ex >>= f) (Exec.set (ex.refuel fuel) >>= g) := fun _ _ _ => rest _ _ ⟨fuel,rfl⟩

theorem sets (ex : Executor) (fuel : Nat) : Blind (Exec.set ex) (Exec.set (ex.refuel fuel)) := fun _ _ _ => .answers ⟨fuel,rfl⟩

theorem checked (c : Checked α) {f g : α → Executing β} (rest : ∀ a, Blind (f a) (g a)) :
    Blind (.ofChecked c >>= f) (.ofChecked c >>= g) := by
  cases c with
  | error abort => exact fun _ _ _ => .fails abort
  | ok a => exact rest a

theorem lift (x : Context → Step α) : Blind (Executor.lift x) (Executor.lift x) := by
  refine of fun ex fuel => ?_
  unfold Executor.lift
  change (x ex.context ⟨ex.store.valueStack,ex.store.state⟩ >>= _) = (x ex.context ⟨ex.store.valueStack,ex.store.state⟩ >>= _).map _
  rcases x ex.context ⟨ex.store.valueStack,ex.store.state⟩ with abort | ⟨r,m⟩ <;> rfl

theorem incrInstrPtr : Blind Executor.incrInstrPtr Executor.incrInstrPtr := of fun _ _ => rfl

theorem jump (ip : Nat) : Blind (Executor.jump ip) (Executor.jump ip) := of fun _ _ => rfl

theorem jumpIf (ip : Nat) (condition : Context → Step Bool) : Blind (Executor.jumpIf ip condition) (Executor.jumpIf ip condition) := by
  refine .seq (lift condition) fun jumps => ?_
  cases jumps with
  | true => exact jump ip
  | false => exact incrInstrPtr

theorem execBranchTable (default first len : Nat) :
    Blind (Executor.execBranchTable default first len) (Executor.execBranchTable default first len) := by
  refine .seq (lift _) fun idx => get fun ex fuel => ?_
  split
  · exact jump _
  · exact jump _

-- What is charged is all that differs.
theorem chargeCallFuel (budgeted budgeted' : Bool) (cost : Nat) :
    Blind (Executor.chargeCallFuel budgeted cost) (Executor.chargeCallFuel budgeted' cost) := by
  rintro ex _ ⟨fuel,rfl⟩
  cases budgeted with
  | true => cases budgeted' <;> exact .answers ⟨_,rfl⟩
  | false => cases budgeted' <;> exact .answers ⟨_,rfl⟩

theorem onStack (f : ValueStack → Checked ValueStack) : Blind (Executor.onStack f) (Executor.onStack f) := by
  refine of fun ex fuel => ?_
  unfold Executor.onStack
  change (f ex.store.valueStack >>= _) = (f ex.store.valueStack >>= _).map _
  rcases f ex.store.valueStack with abort | valueStack <;> rfl

theorem enterModule (owner : ModuleInstanceAddr) : Blind (Executor.enterModule owner) (Executor.enterModule owner) := by
  refine get fun ex fuel => ?_
  change Blind (if owner ≠ ex.module.idx then _ else _) (if owner ≠ ex.module.idx then _ else _)
  split
  · exact checked _ fun module => sets {ex with module} fuel
  · exact pure ()

theorem popFrame : Blind Executor.popFrame Executor.popFrame := of fun _ _ => rfl

theorem finishReturn : Blind Executor.finishReturn Executor.finishReturn := by
  refine .seq popFrame fun caller => ?_
  cases caller with
  | none => exact pure true
  | some caller =>
    refine get fun ex fuel => ?_
    change Blind (if caller.funcAddr = ex.cf.funcAddr then _ else _) (if caller.funcAddr = ex.cf.funcAddr then _ else _)
    split
    · exact set {ex with cf := caller} fuel (pure false)
    · refine checked (ex.store.state.wasmFunc caller.funcAddr) fun found => set {ex with func := found.1} fuel ?_
      exact .seq (enterModule found.2) fun _ => get fun ex fuel => set {ex with cf := caller} fuel (pure false)

theorem execReturn : Blind Executor.execReturn Executor.execReturn :=
  get fun _ _ => .seq (onStack _) fun _ => finishReturn

theorem execReturnVoid : Blind Executor.execReturnVoid Executor.execReturnVoid :=
  get fun _ _ => .seq (onStack _) fun _ => finishReturn

theorem execReturnOne (size : OperandSize) : Blind (Executor.execReturnOne size) (Executor.execReturnOne size) :=
  get fun _ _ => .seq (onStack _) fun _ => finishReturn

theorem indirectCallee (tableAddr : TableAddr) : Blind (Executor.indirectCallee tableAddr) (Executor.indirectCallee tableAddr) := by
  refine get fun ex fuel => checked (State.at ex.module.tableAddrs tableAddr) fun addr =>
    checked (State.at ex.store.state.tables addr) fun t => .seq (lift _) fun idx => ?_
  cases t.get idx with
  | error undefined => exact trap _
  | ok element =>
    dsimp only
    cases element.addr with
    | none => exact trap _
    | some funcRef => exact pure funcRef

section Calls
variable [Allocator]

theorem enterLocals (func : WasmFunction) : Blind (Executor.enterLocals func) (Executor.enterLocals func) := of fun _ _ => rfl

theorem pushFrame : Blind Executor.pushFrame Executor.pushFrame := by
  refine of fun ex fuel => ?_
  have same : (ex.refuel fuel).store.callStack.push (ex.refuel fuel).cf = ex.store.callStack.push ex.cf := rfl
  simp only [Executor.pushFrame,same]
  rcases ex.store.callStack.push ex.cf with trap | callStack <;> rfl

theorem execCall (func : WasmFunction) (owner : ModuleInstanceAddr) (funcAddr : FuncAddr) :
    Blind (Executor.execCall func owner funcAddr) (Executor.execCall func owner funcAddr) :=
  get fun ex fuel => set {ex with func} fuel <| .seq (enterLocals func) fun localsBase => .seq pushFrame fun _ =>
    get fun ex fuel => set {ex with cf := .new funcAddr localsBase func.locals} fuel (enterModule owner)

theorem execReturnCall (func : WasmFunction) (owner : ModuleInstanceAddr) (funcAddr : FuncAddr) :
    Blind (Executor.execReturnCall func owner funcAddr) (Executor.execReturnCall func owner funcAddr) :=
  get fun ex fuel => set {ex with func} fuel <| .seq (onStack _) fun _ => .seq (enterLocals func) fun localsBase =>
    get fun ex fuel => set {ex with cf := .new funcAddr localsBase func.locals} fuel (enterModule owner)

theorem execCallSelf (budgeted budgeted' : Bool) : Blind (Executor.execCallSelf budgeted) (Executor.execCallSelf budgeted') :=
  .seq (chargeCallFuel _ _ _) fun _ => .seq pushFrame fun _ => get fun ex _ => .seq (enterLocals ex.func) fun localsBase =>
    get fun ex fuel => sets {ex with cf := .new ex.cf.funcAddr localsBase ex.func.locals} fuel

theorem execReturnCallSelf (budgeted budgeted' : Bool) :
    Blind (Executor.execReturnCallSelf budgeted) (Executor.execReturnCallSelf budgeted') :=
  .seq (chargeCallFuel _ _ _) fun _ => get fun ex _ => .seq (onStack _) fun _ => .seq (enterLocals ex.func) fun localsBase =>
    get fun ex fuel => sets {ex with cf := .new ex.cf.funcAddr localsBase ex.func.locals} fuel

variable [Host] {reentry : Reentry} (blind : reentry.Blind) (free : Host.FuelFree)
include blind free

theorem execCallHost (ty : FuncType) (id : Nat) : Blind (Executor.execCallHost reentry ty id) (Executor.execCallHost reentry ty id) := by
  refine get fun ex fuel => checked (ex.store.valueStack.popTypes ty.params.reverse) fun popped => ?_
  have called := Store.Blind.hostFunction blind free ty id ex.module.idx popped.1.reverse (ex.setStack popped.2).store _ ⟨fuel,rfl⟩
  dsimp only at called ⊢
  change Blind (.ofChecked (HostFunction.call reentry (ex.setStack popped.2).store ty id ex.module.idx popped.1.reverse) >>= _)
    (.ofChecked (HostFunction.call reentry ((ex.setStack popped.2).store.refuel fuel) ty id ex.module.idx popped.1.reverse) >>= _)
  generalize HostFunction.call reentry (ex.setStack popped.2).store ty id ex.module.idx popped.1.reverse = end₁,
    HostFunction.call reentry ((ex.setStack popped.2).store.refuel fuel) ty id ex.module.idx popped.1.reverse = end₂ at called
  cases called with
  | fails abort => exact fun _ _ _ => .fails abort
  | @answers r store _ refuelled =>
    obtain ⟨left,rfl⟩ := refuelled
    intro s t related
    rw [ofChecked_bind,ofChecked_bind]
    refine set {ex with store} left ?_ s t related
    cases r with
    | error error => exact trap _
    | ok res =>
      refine set ({ex with store}.setStack (store.valueStack.extendFromWasmValues res).2) left ?_
      exact .seq (ofExcept _) fun _ => incrInstrPtr

theorem callee (call : WasmFunction → ModuleInstanceAddr → Executing Unit) (same : ∀ func owner, Blind (call func owner) (call func owner))
    (func : FunctionInstance) :
    Blind (match func with
      | .wasm func owner => call func owner
      | .host ty id => Executor.execCallHost reentry ty id)
    (match func with
      | .wasm func owner => call func owner
      | .host ty id => Executor.execCallHost reentry ty id) := by
  cases func with
  | wasm func owner => exact same func owner
  | host ty id => exact execCallHost blind free ty id

theorem execCallDirect (budgeted budgeted' : Bool) (v : FuncAddr) :
    Blind (Executor.execCallDirect reentry budgeted v) (Executor.execCallDirect reentry budgeted' v) :=
  .seq (chargeCallFuel _ _ _) fun _ => get fun ex _ => checked (State.at ex.module.funcAddrs v) fun addr =>
    checked (State.at ex.store.state.funcs addr) (callee blind free _ fun func owner => execCall func owner addr)

theorem execReturnCallDirect (budgeted budgeted' : Bool) (v : FuncAddr) :
    Blind (Executor.execReturnCallDirect reentry budgeted v) (Executor.execReturnCallDirect reentry budgeted' v) :=
  .seq (chargeCallFuel _ _ _) fun _ => get fun ex _ => checked (State.at ex.module.funcAddrs v) fun addr =>
    checked (State.at ex.store.state.funcs addr) (callee blind free _ fun func owner => execReturnCall func owner addr)

theorem execCallIndirect (budgeted budgeted' isReturnCall : Bool) (typeAddr : TypeAddr) (tableAddr : TableAddr) :
    Blind (Executor.execCallIndirect reentry budgeted isReturnCall typeAddr tableAddr)
      (Executor.execCallIndirect reentry budgeted' isReturnCall typeAddr tableAddr) := by
  refine .seq (chargeCallFuel _ _ _) fun _ => .seq (indirectCallee tableAddr) fun funcRef => get fun ex _ =>
    checked (State.at ex.module.types typeAddr) fun callTy => checked (State.at ex.store.state.funcs funcRef) fun callee => ?_
  cases callee with
  | wasm func owner =>
    dsimp only
    split
    · exact trap _
    · split
      · exact execReturnCall func owner funcRef
      · exact execCall func owner funcRef
  | host ty id =>
    dsimp only
    split
    · exact trap _
    · exact execCallHost blind free ty id

variable [Numerics]

theorem execInstruction (budgeted budgeted' : Bool) (i : Instruction) :
    Blind (Executor.execInstruction reentry budgeted i) (Executor.execInstruction reentry budgeted' i) := by
  have answers {x y : Executing Unit} (same : Blind x y) : Blind (x >>= fun _ => Pure.pure false) (y >>= fun _ => Pure.pure false) :=
    .seq same fun _ => pure false
  cases i
  case unreachable => exact trap .unreachable
  case call v => exact answers (execCallDirect blind free _ _ v)
  case callSelf => exact answers (execCallSelf _ _)
  case callIndirect type table => exact answers (execCallIndirect blind free _ _ _ type table)
  case returnCall v => exact answers (execReturnCallDirect blind free _ _ v)
  case returnCallSelf => exact answers (execReturnCallSelf _ _)
  case returnCallIndirect type table => exact answers (execCallIndirect blind free _ _ _ type table)
  case jump ip => exact answers (jump ip)
  case jumpIfZero width ip => exact answers (jumpIf ip _)
  case jumpIfNonZero width ip => exact answers (jumpIf ip _)
  case jumpIfLocalZero width ip index => exact answers (jumpIf ip _)
  case jumpIfLocalNonZero width ip index => exact answers (jumpIf ip _)
  case jumpCmpStackConst width ip imm op => exact answers (jumpIf ip _)
  case jumpCmpLocalConst width ip index imm op => exact answers (jumpIf ip _)
  case jumpCmpLocalLocal width ip left right op => exact answers (jumpIf ip _)
  case branchTable default first len => exact answers (execBranchTable default first len)
  case return_ => exact execReturn
  case returnVoid => exact execReturnVoid
  case returnOne size => exact execReturnOne size
  all_goals exact .seq (lift _) fun _ => .seq incrInstrPtr fun _ => pure false

theorem exec (budgeted budgeted' : Bool) : Blind (Executor.exec reentry budgeted) (Executor.exec reentry budgeted') :=
  get fun ex _ => checked (State.at ex.func.instructions ex.cf.instrPtr) fun i => execInstruction blind free _ _ i

theorem execMany (budgeted budgeted' : Bool) (count : Nat) :
    Blind (Executor.execMany reentry budgeted count) (Executor.execMany reentry budgeted' count) := by
  induction count with
  | zero => exact pure false
  | succ count ih =>
    refine .seq (exec blind free _ _) fun finished => ?_
    cases finished with
    | true => exact pure true
    | false => exact ih

theorem runToCompletion (fuel : Nat) : Blind (Executor.runToCompletion reentry fuel) (Executor.runToCompletion reentry fuel) := by
  induction fuel with
  | zero => exact fun _ _ _ => .fails Abort.diverges
  | succ fuel ih =>
    refine .seq (exec blind free _ _) fun finished => ?_
    cases finished with
    | true => exact pure ()
    | false => exact ih

end Calls

end Blind

end Executor

namespace Store.Blind

theorem run {α : Type} {x y : Executing α} (blind : Executor.Blind x y) (cf : CallFrame) (callStackBase : Nat) :
    Blind (fun store => InterpreterRuntime.run x store cf callStackBase) fun store => InterpreterRuntime.run y store cf callStackBase := by
  rintro store _ ⟨fuel,rfl⟩
  have made : Executor.new (store.refuel fuel) cf callStackBase = (Executor.new store cf callStackBase).map (·.refuel fuel) := by
    unfold Executor.new
    change (store.state.wasmFunc cf.funcAddr >>= _) = _
    rcases store.state.wasmFunc cf.funcAddr with abort | ⟨func,owner⟩
    · rfl
    · change (State.at store.moduleInstances owner >>= _) = (State.at store.moduleInstances owner >>= _).map _
      rcases State.at store.moduleInstances owner with abort | module <;> rfl
  change Abreast _ (Executor.new store cf callStackBase >>= _) (Executor.new (store.refuel fuel) cf callStackBase >>= _)
  rw [made]
  rcases Executor.new store cf callStackBase with abort | ex
  · exact .fails abort
  · refine Abreast.bind (blind ex _ ⟨fuel,rfl⟩) fun r last last' refuelled => ?_
    obtain ⟨left,rfl⟩ := refuelled
    exact .answers ⟨left,rfl⟩

theorem finishCall (ty : FuncType) (r : Except Trap Unit) :
    Blind (fun store => store.finishCall ty r) fun store => store.finishCall ty r := by
  refine of fun store fuel => ?_
  cases r with
  | error trap => rfl
  | ok _ =>
    unfold Store.finishCall
    change (collectCallResults store.valueStack ty >>= _) = (collectCallResults store.valueStack ty >>= _).map _
    rcases collectCallResults store.valueStack ty with abort | ⟨res,valueStack⟩ <;> rfl

theorem invoke {α : Type} (func : Function) (params : List WasmValue) {inner inner' : Store → Checked (Except Error α × Store)}
    (blind : Blind inner inner') : Blind (func.invoke · params inner) (func.invoke · params inner') := by
  rintro store _ ⟨fuel,rfl⟩
  unfold Function.invoke
  have valid : func.item.validateStore (store.refuel fuel) = func.item.validateStore store := rfl
  dsimp only
  rw [valid]
  rcases func.item.validateStore store with trap | _
  · exact .answers ⟨fuel,rfl⟩
  dsimp only
  rcases validateCallParams func.ty params with error | _
  · exact .answers ⟨fuel,rfl⟩
  have opens : (store.refuel fuel).enterExecution = store.enterExecution.map (·.refuel fuel) := by
    unfold Store.enterExecution
    change (if store.executionActive = true then _ else _) = (if store.executionActive = true then _ else _ : Except Error Store).map _
    split <;> rfl
  rw [opens]
  rcases store.enterExecution with error | opened
  · exact .answers ⟨fuel,rfl⟩
  · refine Abreast.bind (blind opened _ ⟨fuel,rfl⟩) fun r last last' refuelled => ?_
    obtain ⟨left,rfl⟩ := refuelled
    exact .answers ⟨left,rfl⟩

variable [Allocator]

theorem enterFrame (store : Store) (fuel : Nat) (funcAddr : FuncAddr) (func : WasmFunction) (params : List WasmValue) :
    (store.refuel fuel).enterFrame funcAddr func params =
      ((store.enterFrame funcAddr func params).1,(store.enterFrame funcAddr func params).2.refuel fuel) := by
  unfold Store.enterFrame
  dsimp only [refuel]
  split <;> rfl

variable [Host] [Numerics] {reentry : Reentry} (blind : reentry.Blind) (free : Host.FuelFree) (fuel : Nat)
include blind free

theorem callInner (func : Function) (params : List WasmValue) :
    Blind (func.callInner reentry fuel params) (func.callInner reentry fuel params) := by
  rintro store _ ⟨left,rfl⟩
  unfold Function.callInner
  change Abreast _ (State.at store.state.funcs func.addr >>= _) (State.at store.state.funcs func.addr >>= _)
  rcases State.at store.state.funcs func.addr with abort | ⟨ty,id⟩ | ⟨wasmFunc,owner⟩
  · exact .fails abort
  · exact hostFunction blind free ty id func.moduleAddr params store _ ⟨left,rfl⟩
  · simp only [ok_bind]
    have framed : (store.refuel left).clearStacks.enterFrame func.addr wasmFunc params =
      ((store.clearStacks.enterFrame func.addr wasmFunc params).1,(store.clearStacks.enterFrame func.addr wasmFunc params).2.refuel left) :=
      enterFrame store.clearStacks left func.addr wasmFunc params
    rw [framed]
    rcases store.clearStacks.enterFrame func.addr wasmFunc params with ⟨trap | cf,entered⟩
    · exact .answers ⟨left,rfl⟩
    · refine (run (Executor.Blind.runToCompletion blind free fuel) cf 0 entered _ ⟨left,rfl⟩).bind fun r last last' refuelled => ?_
      exact finishCall func.ty r last last' refuelled

theorem call (func : Function) (params : List WasmValue) :
    Blind (fun store => func.call reentry fuel store params) fun store => func.call reentry fuel store params :=
  invoke func params (callInner blind free fuel func params)

theorem callUntyped (func : Function) (args : List WasmValue) :
    Blind (fun store => FuncContext.callUntyped reentry fuel store func args) fun store =>
      FuncContext.callUntyped reentry fuel store func args := by
  rintro store _ ⟨left,rfl⟩
  unfold FuncContext.callUntyped
  have valid : func.item.validateStore (store.refuel left) = func.item.validateStore store := rfl
  have active : (store.refuel left).executionActive = store.executionActive := rfl
  dsimp only
  rw [valid,active]
  by_cases inactive : ¬store.executionActive = true
  · rw [if_pos inactive,if_pos inactive]
    exact .answers ⟨left,rfl⟩
  rw [if_neg inactive,if_neg inactive]
  rcases func.item.validateStore store with trap | _
  · exact .answers ⟨left,rfl⟩
  dsimp only
  rcases validateCallParams func.ty args with error | _
  · exact .answers ⟨left,rfl⟩
  change Abreast _ (State.at store.state.funcs func.addr >>= _) (State.at store.state.funcs func.addr >>= _)
  rcases State.at store.state.funcs func.addr with abort | ⟨ty,id⟩ | ⟨wasmFunc,owner⟩
  · exact .fails abort
  · exact hostFunction blind free ty id func.moduleAddr args store _ ⟨left,rfl⟩
  · simp only [ok_bind]
    rw [enterFrame store left func.addr wasmFunc args]
    rcases store.enterFrame func.addr wasmFunc args with ⟨trap | cf,entered⟩
    · exact .answers ⟨left,rfl⟩
    · refine (run (Executor.Blind.runToCompletion blind free fuel) cf store.callStack.len entered _ ⟨left,rfl⟩).bind
        fun r last last' refuelled => ?_
      cases r with
      | error trap =>
        obtain ⟨left',rfl⟩ := refuelled
        exact .answers ⟨left',rfl⟩
      | ok _ => exact finishCall func.ty (.ok ()) last last' refuelled

end Store.Blind

-- At every depth, what a host function gets back into does not tell the fuel.
theorem InterpreterRuntime.reentry_blind [Allocator] [Host] [Numerics] (free : Host.FuelFree) (fuel : Nat) :
    (InterpreterRuntime.reentry fuel).Blind := by
  induction fuel with
  | zero => exact ⟨fun _ _ _ _ _ => .fails Abort.diverges,fun _ _ _ _ _ => .fails Abort.diverges⟩
  | succ fuel ih => exact ⟨Store.Blind.call ih free fuel,Store.Blind.callUntyped ih free fuel⟩

end TinyWasm
