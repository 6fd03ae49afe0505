import TinyWasm.Interpreter.Stack
import TinyWasm.Store.Table
import TinyWasm.Store.MemoryInstance

namespace TinyWasm

-- A host function is an entry of the embedder's table of closures.
inductive FunctionInstance where
  | host (ty : FuncType) (id : Nat)
  | wasm (func : WasmFunction) (owner : ModuleInstanceAddr)

def FunctionInstance.ty : FunctionInstance → FuncType
  | host ty _ => ty
  | wasm func _ => func.ty

structure GlobalType where
  isMutable : Bool
  ty : WasmType
  deriving DecidableEq, Repr

structure GlobalInstance where
  value : TinyWasmValue
  ty : GlobalType

structure DataInstance where
  data : Option (List Byte)

def DataInstance.drop (_ : DataInstance) : DataInstance := ⟨none⟩

structure ElementInstance where
  items : Option (List TableElement)

def ElementInstance.drop (_ : ElementInstance) : ElementInstance := ⟨none⟩

structure State where
  funcs : List FunctionInstance
  tables : List TableInstance
  memories : List MemoryInstance
  globals : List GlobalInstance
  elements : List ElementInstance
  data : List DataInstance

def State.empty : State := ⟨[],[],[],[],[],[]⟩

-- An address the store does not have stops the host.
def State.at {α : Type} (items : List α) (addr : Addr) : Checked α :=
  match items[addr]? with
  | some item => .ok item
  | none => .error .panic

theorem State.at_some {α : Type} {items : List α} {addr : Nat} {item : α} (found : items[addr]? = some item) :
    State.at items addr = .ok item := by simp only [State.at,found]

theorem State.at_some_iff {α : Type} {items : List α} {addr : Addr} {item : α} :
    State.at items addr = .ok item ↔ items[addr]? = some item := by
  cases found : items[addr]? with
  | none => simp [State.at,found]
  | some other => simp [State.at,found]

structure ModuleInstance where
  idx : ModuleInstanceAddr
  types : List FuncType
  funcTypeIdxs : List Nat
  funcAddrs : List FuncAddr
  tableAddrs : List TableAddr
  memAddrs : List MemAddr
  globalAddrs : List GlobalAddr
  elemAddrs : List ElemAddr
  dataAddrs : List DataAddr

inductive FuelPolicy where
  | perInstruction | weighted
  deriving DecidableEq, Repr

structure Config where
  valueStack : OperandSize → StackConfig
  callStack : StackConfig
  fuelPolicy : FuelPolicy
  memoryBackend : MemoryBackend
  trapOnOom : Bool

def ValueStack.new (config : Config) : ValueStack := ⟨fun size => .new (config.valueStack size)⟩

def CallStack.new (config : Config) : CallStack :=
  ⟨[],config.callStack.initialSize,config.callStack.maxSize,config.callStack.dynamic⟩

end TinyWasm
