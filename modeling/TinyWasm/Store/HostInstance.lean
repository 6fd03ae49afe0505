import TinyWasm.Store.HostItems

namespace TinyWasm

def validateCallParams (ty : FuncType) (params : List WasmValue) : Except Error Unit :=
  if ty.params.length ≠ params.length then
    .error (.other s!"param count mismatch: expected {ty.params.length}, got {params.length}")
  else if ¬(ty.params.zip params).all fun (ty,param) => ty == param.type then .error (.other "Type mismatch")
  else .ok ()

namespace Instance

def requireExport (inst : Instance) (name : String) : Except Error ExternVal :=
  match inst.exportAddr name with
  | some val => .ok val
  | none => .error (.other s!"Export not found: {name}")

def function (inst : Instance) (store : Store) (addr : FuncAddr) : Checked Function := do
  let func ← State.at store.state.funcs addr
  .ok ⟨⟨inst.storeId,addr⟩,inst.idx,addr,func.ty⟩

def funcUntyped (inst : Instance) (store : Store) (name : String) : Checked (Except Error Function) :=
  match inst.validateStore store with
  | .error error => .ok (.error error)
  | .ok () =>
    match inst.requireExport name with
    | .error error => .ok (.error error)
    | .ok (.func addr) => do .ok (.ok (← inst.function store addr))
    | .ok _ => .ok (.error (.other s!"Export is not a function: {name}"))

def validateTypedFunc (func : Function) (ty : FuncType) (name : String) : Except Error Function :=
  if func.ty.params ≠ ty.params ∨ func.ty.results ≠ ty.results then
    .error (.other s!"function type mismatch for {name}")
  else .ok func

-- The type is that of the P and R a caller asks for.
def func (inst : Instance) (store : Store) (name : String) (ty : FuncType) : Checked (Except Error Function) := do
  match ← inst.funcUntyped store name with
  | .error error => .ok (.error error)
  | .ok func => .ok (validateTypedFunc func ty name)

def memory (inst : Instance) (name : String) : Except Error HostMemory := do
  match ← inst.requireExport name with
  | .memory addr => .ok ⟨⟨inst.storeId,addr⟩⟩
  | _ => .error (.other s!"Export is not a memory: {name}")

def table (inst : Instance) (name : String) : Except Error HostTable := do
  match ← inst.requireExport name with
  | .table addr => .ok ⟨⟨inst.storeId,addr⟩⟩
  | _ => .error (.other s!"Export is not a table: {name}")

def global (inst : Instance) (name : String) : Except Error HostGlobal := do
  match ← inst.requireExport name with
  | .global addr => .ok ⟨⟨inst.storeId,addr⟩⟩
  | _ => .error (.other s!"Export is not a global: {name}")

def globalGet (inst : Instance) (store : Store) (name : String) : Checked (Except Error WasmValue) :=
  match inst.global name with
  | .error error => .ok (.error error)
  | .ok global => global.get store

def globalSet (inst : Instance) (store : Store) (name : String) (value : WasmValue) :
    Checked (Except Error Unit × Store) :=
  match inst.global name with
  | .error error => .ok (.error error,store)
  | .ok global => global.set store value

def startFunc (inst : Instance) (store : Store) : Checked (Except Error (Option Function)) :=
  match inst.validateStore store with
  | .error error => .ok (.error error)
  | .ok () =>
    match inst.funcStart with
    | none => .ok (.ok none)
    | some func => do
      let addr ← State.at inst.funcAddrs func
      .ok (.ok (some (← inst.function store addr)))

end Instance

end TinyWasm
