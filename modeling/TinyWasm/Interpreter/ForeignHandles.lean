import TinyWasm.Interpreter.Runtime

namespace TinyWasm

inductive Handle where
  | global (global : HostGlobal)
  | table (table : HostTable)
  | memory (memory : HostMemory)
  | function (func : Function)
  | instance_ (inst : Instance)

namespace Handle

def storeId : Handle → Nat
  | .global g => g.item.storeId
  | .table t => t.item.storeId
  | .memory mem => mem.item.storeId
  | .function f => f.item.storeId
  | .instance_ inst => inst.storeId

-- An item of the kind of the import, which linking takes by its address.
def isItemOf : Handle → ImportKind → Bool
  | .global _,.global _ | .table _,.table _ | .memory _,.memory _ => true
  | _,_ => false

end Handle

def Extern.handle : Extern → Handle
  | global item => .global ⟨item⟩
  | table item => .table ⟨item⟩
  | memory item => .memory ⟨item⟩
  | function func => .function func

-- What an import set has for an import.
def Imports.given (imports : Imports) (import_ : Import) : Option Handle :=
  match imports.takeDefined import_ with
  | some value => some value.handle
  | none => (imports.modules import_.module).map .instance_

def Imports.linkOne (imports : Imports) (store : Store) (m : Module) (import_ : Import) (out : ResolvedImports) :
    Checked (Except Error ResolvedImports) :=
  match imports.resolve store import_ with
  | .error error => .ok (.error error)
  | .ok (val,handle) => linkImport store m import_ val handle out

def HostOp.handle : HostOp → Option Handle
  | globalTy global | globalGet global | globalSet global _ => some (.global global)
  | tableTy table | tableSize table | tableGet table _ | tableLoad table _ _ | tableSet table _ _
    | tableCopyWithin table _ _ _ | tableGrow table _ _ => some (.table table)
  | memoryLen memory | memoryTy memory | memoryPageCount memory | memoryRead memory _ _ | memoryReadExact memory _ _
    | memoryReadVec memory _ _ | memoryWrite memory _ _ | memoryGrow memory _ | memoryCopyWithin memory _ _ _
    | memoryFill memory _ _ _ | memoryCopyFromSlice memory _ _ => some (.memory memory)
  | globalNew _ _ | tableNew _ _ | memoryNew _ | functionNew _ _ => none

-- The uses of a handle with a store: by its own operations, or for an import of
-- a module that is instantiated in the store.
inductive HandleUse where
  | operate (op : HostOp)
  | call (func : Function) (params : List WasmValue)
  | callResumable (func : Function) (params : List WasmValue)
  | callUntyped (func : Function) (args : List WasmValue)
  | funcUntyped (inst : Instance) (name : String)
  | func (inst : Instance) (name : String) (ty : FuncType)
  | globalGet (inst : Instance) (name : String)
  | globalSet (inst : Instance) (name : String) (value : WasmValue)
  | startFunc (inst : Instance)
  | start (inst : Instance)
  | link (m : Module) (imports : Imports) (before : List Import) (import_ : Import) (after : List Import)
    (listed : m.imports = before ++ import_ :: after)

namespace HandleUse

def handle : HandleUse → Option Handle
  | operate op => op.handle
  | call f _ | callResumable f _ | callUntyped f _ => some (.function f)
  | funcUntyped inst _ | func inst _ _ | globalGet inst _ | globalSet inst _ _ | startFunc inst | start inst =>
    some (.instance_ inst)
  | link _ imports _ import_ _ _ => imports.given import_

-- The import takes a global, table or memory that was defined for it.
def aliases : HandleUse → Bool
  | link _ imports _ import_ _ _ => (imports.given import_).any (·.isItemOf import_.kind)
  | _ => false

variable [Allocator] [Host] [Numerics]

-- Whether a use succeeds, without what it answers.
def run (reentry : Reentry) (fuel : Nat) (store : Store) : HandleUse → Checked (Except Error Unit × Store)
  | operate op => op.run store
  | call f params => HostOp.writes (f.call reentry fuel store params)
  | callResumable f params => HostOp.writes (f.callResumable reentry store params)
  | callUntyped f args => HostOp.writes (FuncContext.callUntyped reentry fuel store f args)
  | funcUntyped inst name => HostOp.reads store (inst.funcUntyped store name)
  | func inst name ty => HostOp.reads store (inst.func store name ty)
  | globalGet inst name => HostOp.reads store (inst.globalGet store name)
  | globalSet inst name value => HostOp.writes (inst.globalSet store name value)
  | startFunc inst => HostOp.reads store (inst.startFunc store)
  | start inst => HostOp.writes (inst.start (Function.call reentry fuel) store)
  | link m imports _ _ _ _ => HostOp.writes (store.instantiate (Function.call reentry fuel) m imports)

-- An error comes back whatever items and instances the store has, and these
-- stay.
def RefusedUnread (reentry : Reentry) (fuel : Nat) (store : Store) (use : HandleUse) : Prop :=
  ∃ error, ∀ state moduleInstances, use.run reentry fuel {store with state,moduleInstances} =
    .ok (.error error,{store with state,moduleInstances})

-- Of an instantiation it is the import at hand that is refused unread; those
-- before it read their own items, and may be refused themselves.
def Refused (reentry : Reentry) (fuel : Nat) (store : Store) : HandleUse → Prop
  | link m imports before import_ after listed =>
    (∃ error, ∀ state moduleInstances out,
      imports.linkOne {store with state,moduleInstances} m import_ out = .ok (.error error)) ∧
    ∀ r, imports.linkAll store m before ⟨[],[],[],[]⟩ = .ok r →
      ∃ error, run reentry fuel store (link m imports before import_ after listed) = .ok (.error error,store)
  | use => use.RefusedUnread reentry fuel store

end HandleUse

section Foreign
variable {store : Store}

theorem StoreItem.validateStore_foreign {item : StoreItem} (foreign : item.storeId ≠ store.id) :
    item.validateStore store = .error .invalidStore := if_pos foreign

theorem Instance.validateStore_foreign {inst : Instance} (foreign : inst.storeId ≠ store.id) :
    inst.validateStore store = .error (.trap .invalidStore) := if_pos foreign

theorem StoreItem.checked_foreign {α : Type} {item : StoreItem} (foreign : item.storeId ≠ store.id)
    (read : Checked (Except Error α)) : item.checked store read = .ok (.error (.trap .invalidStore)) := by
  rw [checked,validateStore_foreign foreign]

theorem StoreItem.checkedMut_foreign {α : Type} {item : StoreItem} (foreign : item.storeId ≠ store.id)
    (run : Checked (Except Error α × State)) : item.checkedMut store run = .ok (.error (.trap .invalidStore),store) := by
  rw [checkedMut,validateStore_foreign foreign]

theorem HostGlobal.instance_foreign {global : HostGlobal} (foreign : global.item.storeId ≠ store.id) :
    global.instance_ store = .ok (.error (.trap .invalidStore)) := by
  rw [instance_,StoreItem.validateStore_foreign foreign]

theorem HostGlobal.ty_foreign {global : HostGlobal} (foreign : global.item.storeId ≠ store.id) :
    global.ty store = .ok (.error (.trap .invalidStore)) := by
  rw [ty,instance_foreign foreign,ok_bind]

theorem HostGlobal.get_foreign {global : HostGlobal} (foreign : global.item.storeId ≠ store.id) :
    global.get store = .ok (.error (.trap .invalidStore)) := by
  rw [get,instance_foreign foreign,ok_bind]

theorem HostGlobal.set_foreign {global : HostGlobal} (foreign : global.item.storeId ≠ store.id) (value : WasmValue) :
    global.set store value = .ok (.error (.trap .invalidStore),store) := by
  rw [set,instance_foreign foreign,ok_bind]

theorem HostOp.reads_foreign {α : Type} {read : Checked (Except Error α)} (refused : read = .ok (.error (.trap .invalidStore))) :
    reads store read = .ok (.error (.trap .invalidStore),store) := by
  rw [refused]
  rfl

theorem HostOp.writes_foreign {α : Type} {run : Checked (Except Error α × Store)}
    (refused : run = .ok (.error (.trap .invalidStore),store)) : writes run = .ok (.error (.trap .invalidStore),store) := by
  rw [refused]
  rfl

theorem HostOp.run_foreign [Allocator] {op : HostOp} {handle : Handle} (uses : op.handle = some handle)
    (foreign : handle.storeId ≠ store.id) : op.run store = .ok (.error (.trap .invalidStore),store) := by
  cases op with
  | globalNew | tableNew | memoryNew | functionNew => cases uses
  | globalTy global => cases uses; exact reads_foreign (HostGlobal.ty_foreign foreign)
  | globalGet global => cases uses; exact reads_foreign (HostGlobal.get_foreign foreign)
  | globalSet global value => cases uses; exact writes_foreign (HostGlobal.set_foreign foreign value)
  | tableTy | tableSize | tableGet | tableLoad | memoryLen | memoryTy | memoryPageCount | memoryRead | memoryReadExact
    | memoryReadVec =>
    cases uses
    exact reads_foreign (StoreItem.checked_foreign foreign _)
  | tableSet | tableCopyWithin | tableGrow | memoryWrite | memoryGrow | memoryCopyWithin | memoryFill
    | memoryCopyFromSlice =>
    cases uses
    exact writes_foreign (StoreItem.checkedMut_foreign foreign _)

theorem Instance.global_storeId {inst : Instance} {name : String} {global : HostGlobal}
    (exported : inst.global name = .ok global) : global.item.storeId = inst.storeId := by
  unfold Instance.global at exported
  rcases found : inst.requireExport name with error | val
  · rw [found] at exported; cases exported
  · rw [found] at exported
    cases val <;> cases exported
    rfl

theorem Instance.funcUntyped_foreign {inst : Instance} (foreign : inst.storeId ≠ store.id) (name : String) :
    inst.funcUntyped store name = .ok (.error (.trap .invalidStore)) := by
  rw [funcUntyped,validateStore_foreign foreign]

theorem Instance.startFunc_foreign {inst : Instance} (foreign : inst.storeId ≠ store.id) :
    inst.startFunc store = .ok (.error (.trap .invalidStore)) := by
  rw [startFunc,validateStore_foreign foreign]

theorem Function.invoke_foreign {α : Type} {func : Function} (foreign : func.item.storeId ≠ store.id)
    (params : List WasmValue) (inner : Store → Checked (Except Error α × Store)) :
    func.invoke store params inner = .ok (.error (.trap .invalidStore),store) := by
  rw [invoke,StoreItem.validateStore_foreign foreign]

namespace HandleUse

-- What a handle of another store is answered when it is used by itself.
def refusal (active : Bool) : HandleUse → Error
  | callUntyped _ _ =>
    if active then .trap .invalidStore else .other "FuncContext::call requires an active host-function invocation"
  | globalGet inst name | globalSet inst name _ =>
    match inst.global name with
    | .error error => error
    | .ok _ => .trap .invalidStore
  | _ => .trap .invalidStore

variable [Allocator] [Host] [Numerics] (reentry : Reentry) (fuel : Nat)

theorem run_foreign {use : HandleUse} {handle : Handle} (uses : use.handle = some handle)
    (foreign : handle.storeId ≠ store.id) (direct : ∀ m imports before import_ after listed,
      use ≠ .link m imports before import_ after listed) :
    use.run reentry fuel store = .ok (.error (use.refusal store.executionActive),store) := by
  cases use with
  | link m imports before import_ after listed => exact absurd rfl (direct _ _ _ _ _ _)
  | operate op => exact HostOp.run_foreign uses foreign
  | call func params | callResumable func params =>
    cases uses
    exact HostOp.writes_foreign (Function.invoke_foreign foreign _ _)
  | callUntyped func args =>
    cases uses
    rw [run,FuncContext.callUntyped,StoreItem.validateStore_foreign foreign]
    cases store.executionActive <;> rfl
  | funcUntyped inst name => cases uses; exact HostOp.reads_foreign (Instance.funcUntyped_foreign foreign name)
  | func inst name ty => cases uses; rw [run,Instance.func,Instance.funcUntyped_foreign foreign]; rfl
  | globalGet inst name =>
    cases uses
    rw [run,Instance.globalGet,refusal]
    cases exported : inst.global name with
    | error error => rfl
    | ok global =>
      have another : global.item.storeId ≠ store.id := Instance.global_storeId exported ▸ foreign
      exact HostOp.reads_foreign (HostGlobal.get_foreign another)
  | globalSet inst name value =>
    cases uses
    rw [run,Instance.globalSet,refusal]
    cases exported : inst.global name with
    | error error => rfl
    | ok global =>
      have another : global.item.storeId ≠ store.id := Instance.global_storeId exported ▸ foreign
      exact HostOp.writes_foreign (HostGlobal.set_foreign another value)
  | startFunc inst => cases uses; exact HostOp.reads_foreign (Instance.startFunc_foreign foreign)
  | start inst => cases uses; rw [run,Instance.start,Instance.startFunc_foreign foreign]; rfl

end HandleUse

namespace Imports
variable {imports : Imports} {m : Module} {import_ : Import} {handle : Handle}

theorem linkAll_cons (rest : List Import) (out : ResolvedImports) : imports.linkAll store m (import_ :: rest) out =
    (do match ← imports.linkOne store m import_ out with
        | .error error => .ok (.error error)
        | .ok out => imports.linkAll store m rest out) := by
  rw [linkAll,linkOne]
  rcases imports.resolve store import_ with error | ⟨val,handle⟩ <;> rfl

theorem linkAll_append (before rest : List Import) (out : ResolvedImports) :
    imports.linkAll store m (before ++ rest) out =
      (do match ← imports.linkAll store m before out with
          | .error error => .ok (.error error)
          | .ok out => imports.linkAll store m rest out) := by
  induction before generalizing out with
  | nil => rfl
  | cons import_ before ih =>
    rw [List.cons_append,linkAll_cons,linkAll_cons]
    rcases imports.linkOne store m import_ out with abort | error | out'
    · rfl
    · rfl
    · exact ih out'

theorem linkImport_mismatch {val : ExternVal} (other : val.kind ≠ import_.kind.kind) (func : Option Function)
    (out : ResolvedImports) : linkImport store m import_ val func out = .ok (.error import_.incompatible) := by
  unfold linkImport
  exact if_pos other

theorem linkImport_foreign {func : Function} {type : TypeAddr} (kind : import_.kind = .function type)
    (foreign : func.item.storeId ≠ store.id) (out : ResolvedImports) :
    linkImport store m import_ (.func func.addr) (some func) out =
      .ok (.error (if m.funcTypes[type]?.isSome then .trap .invalidStore else import_.incompatible)) := by
  unfold linkImport
  rw [kind,if_neg fun other => other rfl]
  dsimp only
  rw [StoreItem.validateStore_foreign foreign]
  cases m.funcTypes[type]? <;> rfl

-- What an import is given from another store is refused unread, or it is an
-- item of the kind of the import.
theorem linkOne_foreign (given : imports.given import_ = some handle) (other : handle.isItemOf import_.kind = false) :
    ∃ error, ∀ (store : Store) (out : ResolvedImports), handle.storeId ≠ store.id →
      imports.linkOne store m import_ out = .ok (.error error) := by
  unfold Imports.given at given
  rcases defined : imports.takeDefined import_ with _ | value
  · rw [defined] at given
    obtain ⟨inst,linked,rfl⟩ := Option.map_eq_some_iff.mp given
    refine ⟨.trap .invalidStore,fun store out foreign => ?_⟩
    rw [linkOne,resolve,defined,linked]
    dsimp only
    rw [Instance.validateStore_foreign foreign]
    rfl
  · rw [defined] at given
    cases given
    cases value with
    | global item | table item | memory item =>
      refine ⟨import_.incompatible,fun store out foreign => ?_⟩
      rw [linkOne,resolve,defined]
      refine linkImport_mismatch (fun same => ?_) _ _
      cases kind : import_.kind with
      | _ => rw [kind] at same other; first | (cases other; done) | cases same
    | function func =>
      cases kind : import_.kind with
      | function type =>
        refine ⟨if m.funcTypes[type]?.isSome then .trap .invalidStore else import_.incompatible,
          fun store out foreign => ?_⟩
        rw [linkOne,resolve,defined]
        exact linkImport_foreign kind foreign out
      | table ty | memory ty | global ty =>
        refine ⟨import_.incompatible,fun store out foreign => ?_⟩
        rw [linkOne,resolve,defined]
        refine linkImport_mismatch (fun same => ?_) _ _
        rw [kind] at same
        cases same

-- An item of the kind of the import is read at its address.
theorem linkOne_item (given : imports.given import_ = some handle) (same : handle.isItemOf import_.kind = true)
    (out : ResolvedImports) : imports.linkOne {store with state := .empty} m import_ out = .error .panic := by
  unfold Imports.given at given
  rcases defined : imports.takeDefined import_ with _ | value
  · rw [defined] at given
    obtain ⟨inst,linked,rfl⟩ := Option.map_eq_some_iff.mp given
    cases same
  · rw [defined] at given
    cases given
    rw [linkOne,resolve,defined]
    cases value <;> cases kind : import_.kind <;> rw [kind] at same <;> first | (cases same; done) | skip
    all_goals
      dsimp only
      unfold linkImport
      rw [kind,if_neg fun other => other rfl]
      rfl

end Imports

namespace HandleUse
variable [Allocator] [Host] [Numerics] (reentry : Reentry) (fuel : Nat) {use : HandleUse} {handle : Handle}

theorem link_run {m : Module} {imports : Imports} {before after : List Import} {import_ : Import}
    (listed : m.imports = before ++ import_ :: after) {error : Error} (unlinked : imports.link store m = .ok (.error error)) :
    (link m imports before import_ after listed).run reentry fuel store = .ok (.error error,store) := by
  rw [run,Store.instantiate,Store.instantiateNoStart,unlinked]
  rfl

theorem direct_refused (uses : use.handle = some handle) (foreign : handle.storeId ≠ store.id)
    (direct : ∀ m imports before import_ after listed, use ≠ .link m imports before import_ after listed) :
    use.Refused reentry fuel store := by
  have refused : use.RefusedUnread reentry fuel store :=
    ⟨use.refusal store.executionActive,fun _ _ => run_foreign reentry fuel uses foreign direct⟩
  cases use with
  | link m imports before import_ after listed => exact absurd rfl (direct _ _ _ _ _ _)
  | _ => exact refused

end HandleUse

end Foreign

-- The first global of one store, and another store with a global of its own.
namespace ForeignHandles

def config : Config := ⟨fun _ => ⟨8,8,false⟩,⟨8,8,false⟩,.perInstruction,.vec,false⟩

def store : Store := (HostGlobal.new (.new 1 config) ⟨true,.i32⟩ (.i32 5)).2

def global : HostGlobal := ⟨⟨0,0⟩⟩

example : (HostGlobal.new (.new 0 config) ⟨true,.i32⟩ (.i32 7)).1 = .ok global := rfl

def module (kind : ImportKind) : Module where
  startFunc := none
  funcs := []
  funcTypes := [⟨[],[]⟩]
  funcTypeIdxs := []
  exports := []
  globals := []
  tableTypes := []
  memoryTypes := []
  imports := [⟨"env","item",kind⟩]
  data := []
  elements := []
  localMemoryAllocation := .skip

def defines (value : Extern) : Imports := Imports.empty.define "env" "item" value

def links (kind : ImportKind) (value : Extern) : HandleUse :=
  .link (module kind) (defines value) [] ⟨"env","item",kind⟩ [] rfl

end ForeignHandles

end TinyWasm
