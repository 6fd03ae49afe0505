import TinyWasm.Store.Instance

namespace TinyWasm

def TinyWasmValue.attachType : TinyWasmValue → WasmType → Option WasmValue
  | .value32 v,.i32 => some (.i32 v)
  | .value64 v,.i64 => some (.i64 v)
  | .value32 v,.f32 => some (.f32 v)
  | .value64 v,.f64 => some (.f64 v)
  | .valueRef v,.refExtern => some (.refExtern v)
  | .valueRef v,.refFunc => some (.refFunc v)
  | .value128 v,.v128 => some (.v128 v)
  | _,_ => none

-- The embedder's handle on a global.
structure HostGlobal where
  item : StoreItem

namespace HostGlobal

def new (store : Store) (ty : GlobalType) (value : WasmValue) : Except Error HostGlobal × Store :=
  if value.type ≠ ty.ty then (.error (.other "invalid global value type"),store)
  else
    let globals := store.state.globals ++ [⟨value.toTinyWasm,ty⟩]
    (.ok ⟨store.id,store.state.globals.length⟩,{store with state := {store.state with globals}})

def instance_ (global : HostGlobal) (store : Store) : Checked (Except Error GlobalInstance) :=
  match global.item.validateStore store with
  | .error trap => .ok (.error (.trap trap))
  | .ok () => do
    let g ← State.at store.state.globals global.item.addr
    .ok (.ok g)

def ty (global : HostGlobal) (store : Store) : Checked (Except Error GlobalType) := do
  match ← global.instance_ store with
  | .error error => .ok (.error error)
  | .ok g => .ok (.ok g.ty)

-- A value of another type than the global's stops the host.
def get (global : HostGlobal) (store : Store) : Checked (Except Error WasmValue) := do
  match ← global.instance_ store with
  | .error error => .ok (.error error)
  | .ok g =>
    match g.value.attachType g.ty.ty with
    | some value => .ok (.ok value)
    | none => .error .panic

def set (global : HostGlobal) (store : Store) (value : WasmValue) : Checked (Except Error Unit × Store) := do
  match ← global.instance_ store with
  | .error error => .ok (.error error,store)
  | .ok g =>
    if g.ty.isMutable = false then .ok (.error (.other "global is immutable"),store)
    else if value.type ≠ g.ty.ty then .ok (.error (.other "invalid global value type"),store)
    else
      let globals := store.state.globals.set global.item.addr {g with value := value.toTinyWasm}
      .ok (.ok (),{store with state := {store.state with globals}})

end HostGlobal

end TinyWasm
