import TinyWasm.Module

namespace TinyWasm

inductive ExternVal where
  | func (addr : FuncAddr)
  | table (addr : TableAddr)
  | memory (addr : MemAddr)
  | global (addr : GlobalAddr)
  deriving DecidableEq, Repr

namespace ExternVal

def kind : ExternVal → ExternalKind
  | func _ => .func
  | table _ => .table
  | memory _ => .memory
  | global _ => .global

def new (kind : ExternalKind) (addr : Addr) : ExternVal :=
  match kind with
  | .func => func addr
  | .table => table addr
  | .memory => memory addr
  | .global => global addr

end ExternVal

-- A module instance with what only its holders and the linker read of it.
structure Instance extends ModuleInstance where
  storeId : Nat
  funcStart : Option FuncAddr
  exports : List Export

def Instance.exportAddr (inst : Instance) (name : String) : Option ExternVal := do
  let export_ ← inst.exports.find? fun e => e.name == name
  let addrs := match export_.kind with
    | .func => inst.funcAddrs
    | .table => inst.tableAddrs
    | .memory => inst.memAddrs
    | .global => inst.globalAddrs
  let addr ← addrs[export_.index]?
  some (.new export_.kind addr)

structure Store where
  id : Nat
  moduleInstances : List Instance
  config : Config
  executionFuel : Nat
  executionActive : Bool
  state : State
  callStack : CallStack
  valueStack : ValueStack

-- The id is the next of a global counter.
def Store.new (id : Nat) (config : Config) : Store where
  id
  moduleInstances := []
  config
  executionFuel := 0
  executionActive := false
  state := .empty
  callStack := .new config
  valueStack := .new config

-- What a host holds of an item: its address and the store it came from.
structure StoreItem where
  storeId : Nat
  addr : Addr
  deriving DecidableEq, Repr

def StoreItem.validateStore (item : StoreItem) (store : Store) : Except Trap Unit :=
  if item.storeId ≠ store.id then .error .invalidStore else .ok ()

def Instance.validateStore (inst : Instance) (store : Store) : Except Error Unit :=
  if inst.storeId ≠ store.id then .error (.trap .invalidStore) else .ok ()

structure Function where
  item : StoreItem
  moduleAddr : ModuleInstanceAddr
  addr : FuncAddr
  ty : FuncType

inductive Extern where
  | global (item : StoreItem)
  | table (item : StoreItem)
  | memory (item : StoreItem)
  | function (func : Function)

end TinyWasm
