import TinyWasm.Store.State

namespace TinyWasm

-- The embedder's handle on a table of the store it came from.
structure Table where
  addr : TableAddr

namespace Table

def elementToValue (elementType : WasmType) (element : TableElement) : Checked WasmValue :=
  match elementType with
  | .refFunc => .ok (.refFunc (.fromAddr element.addr))
  | .refExtern => .ok (.refExtern (.fromAddr element.addr))
  | _ => .error .panic

def valueToElement (elementType : WasmType) (value : WasmValue) : Except Trap TableElement :=
  match elementType,value with
  | .refFunc,.refFunc funcRef => .ok (.ofAddr funcRef.addr)
  | .refExtern,.refExtern externRef => .ok (.ofAddr externRef.addr)
  | _,_ => .error (.other "invalid table value type")

def size (table : Table) (s : State) : Checked Nat := do
  let t ← State.at s.tables table.addr
  .ok t.size

def get (table : Table) (s : State) (index : TableAddr) : Checked (Except Trap WasmValue) := do
  let t ← State.at s.tables table.addr
  .ok (t.getWasmVal index)

def load (table : Table) (s : State) (offset len : Nat) : Checked (Except Trap (List WasmValue)) := do
  let t ← State.at s.tables table.addr
  match t.load offset len with
  | .error trap => .ok (.error trap)
  | .ok elements => do
    let values ← elements.mapM (elementToValue t.kind.elementType)
    .ok (.ok values)

def set (table : Table) (s : State) (index : TableAddr) (value : WasmValue) : Checked (Except Trap Unit × State) := do
  let t ← State.at s.tables table.addr
  match valueToElement t.kind.elementType value with
  | .error trap => .ok (.error trap,s)
  | .ok value =>
    let (r,t) := t.set index value
    .ok (r,{s with tables := s.tables.set table.addr t})

def copyWithin (table : Table) (s : State) (src dst len : Nat) : Checked (Except Trap Unit × State) := do
  let t ← State.at s.tables table.addr
  let (r,t) := t.copyWithin dst src len
  .ok (r,{s with tables := s.tables.set table.addr t})

def grow [Allocator] (table : Table) (s : State) (delta : Int) (init : WasmValue) :
    Checked (Except Trap Nat × State) := do
  let t ← State.at s.tables table.addr
  match valueToElement t.kind.elementType init with
  | .error trap => .ok (.error trap,s)
  | .ok init =>
    if delta < 0 then .ok (.error (.tableOutOfBounds 0 1 t.size),s)
    else
      let (r,grown) := t.grow delta.toNat init
      .ok (r.map fun _ => t.size,{s with tables := s.tables.set table.addr grown})

end Table

end TinyWasm
