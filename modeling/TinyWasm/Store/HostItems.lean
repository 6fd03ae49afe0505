import TinyWasm.Store.HostGlobal
import TinyWasm.Store.HostTable
import TinyWasm.Store.Instantiate

namespace TinyWasm

namespace StoreItem
variable {α : Type}

-- Every use of a handle first asks whether it is one of this store.
def checked (item : StoreItem) (store : Store) (read : Checked (Except Error α)) : Checked (Except Error α) :=
  match item.validateStore store with
  | .error trap => .ok (.error (.trap trap))
  | .ok () => read

def checkedMut (item : StoreItem) (store : Store) (run : Checked (Except Error α × State)) :
    Checked (Except Error α × Store) :=
  match item.validateStore store with
  | .error trap => .ok (.error (.trap trap),store)
  | .ok () => do
    let (r,state) ← run
    .ok (r,{store with state})

end StoreItem

structure HostTable where
  item : StoreItem

namespace HostTable

def table (table : HostTable) : Table := ⟨table.item.addr⟩

def new [Allocator] (store : Store) (ty : TableType) (init : WasmValue) : Except Error HostTable × Store :=
  let init : Option TableElement := match ty.elementType,init with
    | .refFunc,.refFunc funcRef => some (.ofAddr funcRef.addr)
    | .refExtern,.refExtern externRef => some (.ofAddr externRef.addr)
    | _,_ => none
  match init with
  | none => (.error (.other "invalid table init value"),store)
  | some init =>
    match TableInstance.newWithInit ty init with
    | .error error => (.error error,store)
    | .ok table =>
      (.ok ⟨store.id,store.state.tables.length⟩,{store with state := {store.state with tables := store.state.tables ++ [table]}})

def ty (table : HostTable) (store : Store) : Checked (Except Error TableType) :=
  table.item.checked store do
    let t ← State.at store.state.tables table.item.addr
    .ok (.ok t.kind)

def size (table : HostTable) (store : Store) : Checked (Except Error Nat) :=
  table.item.checked store do .ok (.ok (← table.table.size store.state))

def get (table : HostTable) (store : Store) (index : TableAddr) : Checked (Except Error WasmValue) :=
  table.item.checked store do .ok ((← table.table.get store.state index).mapError .trap)

def load (table : HostTable) (store : Store) (offset len : Nat) : Checked (Except Error (List WasmValue)) :=
  table.item.checked store do .ok ((← table.table.load store.state offset len).mapError .trap)

def set (table : HostTable) (store : Store) (index : TableAddr) (value : WasmValue) : Checked (Except Error Unit × Store) :=
  table.item.checkedMut store do
    let (r,state) ← table.table.set store.state index value
    .ok (r.mapError .trap,state)

def copyWithin (table : HostTable) (store : Store) (src dst len : Nat) : Checked (Except Error Unit × Store) :=
  table.item.checkedMut store do
    let (r,state) ← table.table.copyWithin store.state src dst len
    .ok (r.mapError .trap,state)

def grow [Allocator] (table : HostTable) (store : Store) (delta : Int) (init : WasmValue) :
    Checked (Except Error Nat × Store) :=
  table.item.checkedMut store do
    let (r,state) ← table.table.grow store.state delta init
    .ok (r.mapError .trap,state)

end HostTable

structure HostMemory where
  item : StoreItem

namespace HostMemory
variable {α : Type}

def inspect (memory : HostMemory) (store : Store) (read : MemoryInstance → Checked (Except Error α)) :
    Checked (Except Error α) :=
  memory.item.checked store do read (← State.at store.state.memories memory.item.addr)

def update (memory : HostMemory) (store : Store)
    (change : MemoryInstance → Checked (Except Error α × MemoryInstance)) : Checked (Except Error α × Store) :=
  memory.item.checkedMut store do
    let (r,mem) ← change (← State.at store.state.memories memory.item.addr)
    .ok (r,{store.state with memories := store.state.memories.set memory.item.addr mem})

variable [Allocator]

def new (store : Store) (ty : MemoryType) : Checked (Except Error HostMemory × Store) := do
  match ← MemoryInstance.new ty store.config.memoryBackend with
  | .error error => .ok (.error error,store)
  | .ok mem =>
    .ok (.ok ⟨store.id,store.state.memories.length⟩,
      {store with state := {store.state with memories := store.state.memories ++ [mem]}})

def oob (mem : MemoryStorage) (offset len : Nat) : Error := .trap (memoryOob offset len (LinearMemory.len mem))

-- What an update of the bytes answers, or why it does not.
def answer (offset len : Nat) (mem : MemoryInstance) :
    Checked (Option Unit × MemoryStorage) → Checked (Except Error Unit × MemoryInstance)
  | .error abort => .error abort
  | .ok (some (),inner) => .ok (.ok (),{mem with inner})
  | .ok (none,inner) => .ok (.error (oob inner offset len),{mem with inner})

def len (memory : HostMemory) (store : Store) : Checked (Except Error Nat) :=
  memory.inspect store fun mem => .ok (.ok (LinearMemory.len mem.inner))

def ty (memory : HostMemory) (store : Store) : Checked (Except Error MemoryType) :=
  memory.inspect store fun mem => .ok (.ok mem.kind)

def pageCount (memory : HostMemory) (store : Store) : Checked (Except Error Nat) :=
  memory.inspect store fun mem => .ok (.ok mem.pageCount)

def read (memory : HostMemory) (store : Store) (offset len : Nat) : Checked (Except Error (List Byte)) :=
  memory.inspect store fun mem => do .ok (.ok (← LinearMemory.read mem.inner offset len))

def readExact (memory : HostMemory) (store : Store) (offset len : Nat) : Checked (Except Error (List Byte)) :=
  memory.inspect store fun mem => do
    match ← LinearMemory.readExact mem.inner offset len with
    | some bytes => .ok (.ok bytes)
    | none => .ok (.error (oob mem.inner offset len))

def readVec (memory : HostMemory) (store : Store) (offset len : Nat) : Checked (Except Error (List Byte)) :=
  memory.inspect store fun mem => do
    match ← LinearMemory.readVec mem.inner offset len with
    | some bytes => .ok (.ok bytes)
    | none => .ok (.error (oob mem.inner offset len))

-- read_cstring, read_cstring_until_null, read_string and read_js_string convert
-- what read_vec reads.
def readAs (convert : List Byte → Except Error α) (memory : HostMemory) (store : Store) (offset len : Nat) :
    Checked (Except Error α) := do
  match ← memory.readVec store offset len with
  | .error error => .ok (.error error)
  | .ok bytes => .ok (convert bytes)

def write (memory : HostMemory) (store : Store) (offset : Nat) (src : List Byte) : Checked (Except Error Nat × Store) :=
  memory.update store fun mem => do
    let (n,inner) ← LinearMemory.write mem.inner offset src
    .ok (.ok n,{mem with inner})

def grow (memory : HostMemory) (store : Store) (deltaPages : Int) : Checked (Except Error (Option Nat) × Store) :=
  memory.update store fun mem => do
    let (r,mem) ← mem.grow deltaPages true
    .ok (r.mapError .trap,mem)

def copyWithin (memory : HostMemory) (store : Store) (src dst len : Nat) : Checked (Except Error Unit × Store) :=
  memory.update store fun mem => do
    let (r,mem) ← mem.copyWithin dst src len
    .ok (r.mapError .trap,mem)

def fill (memory : HostMemory) (store : Store) (offset len : Nat) (val : Byte) : Checked (Except Error Unit × Store) :=
  memory.update store fun mem => answer offset len mem (LinearMemory.fill mem.inner offset len val)

def copyFromSlice (memory : HostMemory) (store : Store) (offset : Nat) (data : List Byte) :
    Checked (Except Error Unit × Store) :=
  memory.update store fun mem => answer offset data.length mem (LinearMemory.writeAll mem.inner offset data)

end HostMemory

-- A host function is added under the next address.
def HostFunction.fromUntyped (store : Store) (ty : FuncType) (id : Nat) : Function × Store :=
  let addr := store.state.funcs.length
  (⟨⟨store.id,addr⟩,0,addr,ty⟩,{store with state := {store.state with funcs := store.state.funcs ++ [.host ty id]}})

-- What a host does with the items of a store through their handles.
inductive HostOp where
  | globalNew (ty : GlobalType) (value : WasmValue)
  | globalTy (global : HostGlobal)
  | globalGet (global : HostGlobal)
  | globalSet (global : HostGlobal) (value : WasmValue)
  | tableNew (ty : TableType) (init : WasmValue)
  | tableTy (table : HostTable)
  | tableSize (table : HostTable)
  | tableGet (table : HostTable) (index : TableAddr)
  | tableLoad (table : HostTable) (offset len : Nat)
  | tableSet (table : HostTable) (index : TableAddr) (value : WasmValue)
  | tableCopyWithin (table : HostTable) (src dst len : Nat)
  | tableGrow (table : HostTable) (delta : Int) (init : WasmValue)
  | memoryNew (ty : MemoryType)
  | memoryLen (memory : HostMemory)
  | memoryTy (memory : HostMemory)
  | memoryPageCount (memory : HostMemory)
  | memoryRead (memory : HostMemory) (offset len : Nat)
  | memoryReadExact (memory : HostMemory) (offset len : Nat)
  | memoryReadVec (memory : HostMemory) (offset len : Nat)
  | memoryWrite (memory : HostMemory) (offset : Nat) (src : List Byte)
  | memoryGrow (memory : HostMemory) (deltaPages : Int)
  | memoryCopyWithin (memory : HostMemory) (src dst len : Nat)
  | memoryFill (memory : HostMemory) (offset len : Nat) (val : Byte)
  | memoryCopyFromSlice (memory : HostMemory) (offset : Nat) (data : List Byte)
  | functionNew (ty : FuncType) (id : Nat)

namespace HostOp

-- Whether an operation succeeds, without what it answers.
def reads {α : Type} (store : Store) : Checked (Except Error α) → Checked (Except Error Unit × Store)
  | .error abort => .error abort
  | .ok r => .ok (r.map fun _ => (),store)

def writes {α : Type} : Checked (Except Error α × Store) → Checked (Except Error Unit × Store)
  | .error abort => .error abort
  | .ok (r,store) => .ok (r.map fun _ => (),store)

def run [Allocator] (store : Store) : HostOp → Checked (Except Error Unit × Store)
  | globalNew ty value => writes (.ok (HostGlobal.new store ty value))
  | globalTy global => reads store (global.ty store)
  | globalGet global => reads store (global.get store)
  | globalSet global value => writes (global.set store value)
  | tableNew ty init => writes (.ok (HostTable.new store ty init))
  | tableTy table => reads store (table.ty store)
  | tableSize table => reads store (table.size store)
  | tableGet table index => reads store (table.get store index)
  | tableLoad table offset len => reads store (table.load store offset len)
  | tableSet table index value => writes (table.set store index value)
  | tableCopyWithin table src dst len => writes (table.copyWithin store src dst len)
  | tableGrow table delta init => writes (table.grow store delta init)
  | memoryNew ty => writes (HostMemory.new store ty)
  | memoryLen memory => reads store (memory.len store)
  | memoryTy memory => reads store (memory.ty store)
  | memoryPageCount memory => reads store (memory.pageCount store)
  | memoryRead memory offset len => reads store (memory.read store offset len)
  | memoryReadExact memory offset len => reads store (memory.readExact store offset len)
  | memoryReadVec memory offset len => reads store (memory.readVec store offset len)
  | memoryWrite memory offset src => writes (memory.write store offset src)
  | memoryGrow memory deltaPages => writes (memory.grow store deltaPages)
  | memoryCopyWithin memory src dst len => writes (memory.copyWithin store src dst len)
  | memoryFill memory offset len val => writes (memory.fill store offset len val)
  | memoryCopyFromSlice memory offset data => writes (memory.copyFromSlice store offset data)
  | functionNew ty id => writes (.ok ((.ok (HostFunction.fromUntyped store ty id).1 : Except Error Function),
      (HostFunction.fromUntyped store ty id).2))

end HostOp

end TinyWasm
