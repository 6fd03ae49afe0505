import TinyWasm.Store.Imports

namespace TinyWasm

def TableInstance.newWithInit [Allocator] (kind : TableType) (init : TableElement) : Except Error TableInstance :=
  if kind.sizeInitial > maxTableSize then .error (.trap .outOfMemory)
  else if Allocator.tryReserveExact kind.sizeInitial then .ok ⟨List.replicate kind.sizeInitial init,kind⟩
  else .error (.trap .outOfMemory)

def TableInstance.new [Allocator] (kind : TableType) : Except Error TableInstance :=
  TableInstance.newWithInit kind .uninitialized

namespace MemoryInstance

-- The product is a u64 and wraps.
def initialLen (kind : MemoryType) : Nat := kind.initialSize % 2 ^ 64

def new [Allocator] (kind : MemoryType) (backend : MemoryBackend) : Checked (Except Error MemoryInstance) :=
  if kind.pageCountInitial > kind.pageLimit then .error .panic
  else .ok do
    let storage ← backend.create (initialLen kind)
    let len := LinearMemory.len storage
    if len ≠ initialLen kind then
      .error (.other s!"memory backend returned {len} bytes for a memory that requires {initialLen kind}")
    else .ok ⟨kind,.left storage,kind.pageCountInitial⟩

def newLazy (kind : MemoryType) (backend : MemoryBackend) : Checked (Except Error MemoryInstance) :=
  if kind.pageCountInitial > kind.pageLimit then .error .panic
  else .ok (.ok ⟨kind,.right (.newWithInitialLen (initialLen kind) backend),kind.pageCountInitial⟩)

end MemoryInstance

namespace State

def initFuncs (s : State) (funcs : List WasmFunction) (idx : ModuleInstanceAddr) : List FuncAddr × State :=
  (List.range' s.funcs.length funcs.length,{s with funcs := s.funcs ++ funcs.map (.wasm · idx)})

-- What was added before one that cannot be made stays in the store.
def pushTables [Allocator] (s : State) : List TableType → Except Error Unit × State
  | [] => (.ok (),s)
  | kind :: kinds =>
    match TableInstance.new kind with
    | .error error => (.error error,s)
    | .ok table => ({s with tables := s.tables ++ [table]} : State).pushTables kinds

def initTables [Allocator] (s : State) (kinds : List TableType) : Except Error (List TableAddr) × State :=
  let (r,s') := s.pushTables kinds
  (r.map fun _ => List.range' s.tables.length kinds.length,s')

def pushMemories (make : MemoryType → Checked (Except Error MemoryInstance)) (s : State) :
    List MemoryType → Checked (Except Error Unit × State)
  | [] => .ok (.ok (),s)
  | kind :: kinds => do
    match ← make kind with
    | .error error => .ok (.error error,s)
    | .ok mem => ({s with memories := s.memories ++ [mem]} : State).pushMemories make kinds

def initMemories (make : MemoryType → Checked (Except Error MemoryInstance)) (s : State) (kinds : List MemoryType) :
    Checked (Except Error (List MemAddr) × State) := do
  let (r,s') ← s.pushMemories make kinds
  .ok (r.map fun _ => List.range' s.memories.length kinds.length,s')

def initLocalMemories [Allocator] (s : State) (backend : MemoryBackend) (m : Module) :
    Checked (Except Error (List MemAddr) × State) :=
  match m.localMemoryAllocation with
  | .skip => .ok (.ok [],s)
  | .lazy => s.initMemories (MemoryInstance.newLazy · backend) m.memoryTypes
  | .eager => s.initMemories (MemoryInstance.new · backend) m.memoryTypes

def pushGlobals (globalAddrs : List GlobalAddr) (funcAddrs : List FuncAddr) (s : State) :
    List Global → Except Error Unit × State
  | [] => (.ok (),s)
  | global :: globals =>
    match (s.constNames globalAddrs funcAddrs).evalConst global.init with
    | .error error => (.error error,s)
    | .ok value => ({s with globals := s.globals ++ [⟨value,global.ty⟩]} : State).pushGlobals globalAddrs funcAddrs globals

-- An initialiser may name every global of the module, but reads only those that
-- are there by then.
def initGlobals (s : State) (globals : List Global) (out : List GlobalAddr) (funcAddrs : List FuncAddr) :
    Except Error (List GlobalAddr) × State :=
  let out := out ++ List.range' s.globals.length globals.length
  let (r,s') := s.pushGlobals out funcAddrs globals
  (r.map fun _ => out,s')

-- Everything of a module but its segments, after the items it imports.
def initItems [Allocator] (s : State) (backend : MemoryBackend) (m : Module) (idx : ModuleInstanceAddr)
    (addrs : ResolvedImports) : Checked (Except Error ResolvedImports × State) :=
  let (funcs,s) := s.initFuncs m.funcs idx
  match s.initTables m.tableTypes with
  | (.error error,s) => .ok (.error error,s)
  | (.ok tables,s) => do
    match ← s.initLocalMemories backend m with
    | (.error error,s) => .ok (.error error,s)
    | (.ok memories,s) =>
      match s.initGlobals m.globals addrs.globals (addrs.funcs ++ funcs) with
      | (.error error,s) => .ok (.error error,s)
      | (.ok globals,s) =>
        .ok (.ok ⟨globals,addrs.tables ++ tables,addrs.memories ++ memories,addrs.funcs ++ funcs⟩,s)

section Data
variable [Allocator]

def initDatum (s : State) (names : ConstNames) (memAddrs : List MemAddr) (data : Data) :
    Checked (Except Error (Except Trap Unit) × State) :=
  match data.kind with
  | .passive => .ok (.ok (.ok ()),{s with data := s.data ++ [⟨some data.data⟩]})
  | .active mem offset =>
    match memAddrs[mem]? with
    | none => .ok (.error (.other "memory not found for data segment"),s)
    | some memAddr =>
      match names.evalSizeConst offset with
      | .error error => .ok (.error error,s)
      | .ok offset =>
        match s.memories[memAddr]? with
        | none => .ok (.error (.other "memory not found for data segment"),s)
        | some mem => do
          let (r,inner) ← LinearMemory.writeAll mem.inner offset data.data
          let s := {s with memories := s.memories.set memAddr {mem with inner}}
          match r with
          | some () => .ok (.ok (.ok ()),{s with data := s.data ++ [⟨none⟩]})
          | none => .ok (.ok (.error (memoryOob offset data.data.length (LinearMemory.len inner))),s)

def initData (s : State) (names : ConstNames) (memAddrs : List MemAddr) :
    List Data → List DataAddr → Checked (Except Error (List DataAddr × Option Trap) × State)
  | [],dataAddrs => .ok (.ok (dataAddrs,none),s)
  | data :: rest,dataAddrs => do
    match ← s.initDatum names memAddrs data with
    | (.error error,s) => .ok (.error error,s)
    | (.ok (.error trap),s) => .ok (.ok (dataAddrs,some trap),s)
    | (.ok (.ok ()),s') => s'.initData names memAddrs rest (dataAddrs ++ [s.data.length])

-- The data segments run whether or not the element segments trapped.
def initSegments (s : State) (m : Module) (addrs : ResolvedImports) :
    Checked (Except Error (List ElemAddr × List DataAddr × Option Trap) × State) :=
  let names := s.constNames addrs.globals addrs.funcs
  match s.initElements names addrs.tables m.elements [] with
  | (.error error,s) => .ok (.error error,s)
  | (.ok (elemAddrs,elemTrapped),s) => do
    match ← s.initData names addrs.memories m.data [] with
    | (.error error,s) => .ok (.error error,s)
    | (.ok (dataAddrs,dataTrapped),s) => .ok (.ok (elemAddrs,dataAddrs,elemTrapped <|> dataTrapped),s)

end Data

end State

namespace Store

def newInstance (store : Store) (m : Module) (addrs : ResolvedImports) (elemAddrs : List ElemAddr)
    (dataAddrs : List DataAddr) : Instance where
  idx := store.moduleInstances.length
  types := m.funcTypes
  funcTypeIdxs := m.funcTypeIdxs
  funcAddrs := addrs.funcs
  tableAddrs := addrs.tables
  memAddrs := addrs.memories
  globalAddrs := addrs.globals
  elemAddrs
  dataAddrs
  storeId := store.id
  funcStart := m.startFunc
  exports := m.exports

-- A trap in a segment comes after the instance is in the store.
def instantiateNoStart [Allocator] (store : Store) (m : Module) (imports : Imports) :
    Checked (Except Error Instance × Store) := do
  match ← imports.link store m with
  | .error error => .ok (.error error,store)
  | .ok addrs =>
    match ← store.state.initItems store.config.memoryBackend m store.moduleInstances.length addrs with
    | (.error error,state) => .ok (.error error,{store with state})
    | (.ok addrs,state) =>
      match ← state.initSegments m addrs with
      | (.error error,state) => .ok (.error error,{store with state})
      | (.ok (elemAddrs,dataAddrs,trapped),state) =>
        let inst := store.newInstance m addrs elemAddrs dataAddrs
        let store := {store with state,moduleInstances := store.moduleInstances ++ [inst]}
        match trapped with
        | some trap => .ok (.error (.trap trap),store)
        | none => .ok (.ok inst,store)

end Store

end TinyWasm
