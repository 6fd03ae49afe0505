import TinyWasm.Error
import TinyWasm.Memory.LinearMemory

namespace TinyWasm
open ListRange

def maxTableSize : Nat := 10000000

inductive TableElement where
  | uninitialized
  | initialized (addr : Addr)
  deriving DecidableEq, Repr

namespace TableElement

def ofAddr : Option Addr → TableElement
  | none => uninitialized
  | some addr => initialized addr

def addr : TableElement → Option Addr
  | uninitialized => none
  | initialized addr => some addr

def map (f : Addr → Checked Addr) : TableElement → Checked TableElement
  | uninitialized => .ok uninitialized
  | initialized addr => initialized <$> f addr

@[simp] theorem addr_ofAddr (a : Option Addr) : (ofAddr a).addr = a := by cases a <;> rfl

@[simp] theorem ofAddr_addr (e : TableElement) : ofAddr e.addr = e := by cases e <;> rfl

end TableElement

structure TableInstance where
  elements : List TableElement
  kind : TableType

namespace TableInstance

def size (t : TableInstance) : Nat := t.elements.length

def trapOob (t : TableInstance) (addr len : Nat) : Trap := .tableOutOfBounds addr len t.elements.length

-- The checked range of a slice access starts at the address it was asked for.
def checkedRange (t : TableInstance) (addr len : Nat) : Except Trap Unit :=
  match checkedAdd addr len with
  | none => .error (t.trapOob addr len)
  | some last => if last > t.elements.length then .error (t.trapOob addr len) else .ok ()

def get (t : TableInstance) (addr : Nat) : Except Trap TableElement :=
  match t.elements[addr]? with
  | some e => .ok e
  | none => .error (t.trapOob addr 1)

def getWasmVal (t : TableInstance) (addr : Nat) : Except Trap WasmValue := do
  let e ← t.get addr
  match t.kind.elementType with
  | .refFunc => .ok (.refFunc (.fromAddr e.addr))
  | .refExtern => .ok (.refExtern (.fromAddr e.addr))
  | _ => .error (.other "non-ref table")

-- Indexing the functions of the module panics past their end.
def resolveFuncRef (t : TableInstance) (funcAddrs : List FuncAddr) (addr : Addr) : Checked Addr :=
  if t.kind.elementType ≠ .refFunc then .ok addr
  else match funcAddrs[addr]? with
    | some resolved => .ok resolved
    | none => .error .panic

def fill (t : TableInstance) (funcAddrs : List FuncAddr) (addr len : Nat) (val : TableElement) :
    Checked (Except Trap Unit × TableInstance) := do
  let val ← val.map (t.resolveFuncRef funcAddrs)
  match t.checkedRange addr len with
  | .error trap => .ok (.error trap,t)
  | .ok () => .ok (.ok (),{t with elements := splice t.elements addr (List.replicate len val)})

def copyFromSlice (t : TableInstance) (dst : Nat) (src : List TableElement) : Except Trap Unit × TableInstance :=
  match t.checkedRange dst src.length with
  | .error trap => (.error trap,t)
  | .ok () => (.ok (),{t with elements := splice t.elements dst src})

def load (t : TableInstance) (addr len : Nat) : Except Trap (List TableElement) := do
  t.checkedRange addr len
  .ok (slice t.elements addr len)

def copyWithin (t : TableInstance) (dst src len : Nat) : Except Trap Unit × TableInstance :=
  match t.checkedRange src len,t.checkedRange dst len with
  | .error trap,_ => (.error trap,t)
  | .ok (),.error trap => (.error trap,t)
  | .ok (),.ok () => (.ok (),{t with elements := splice t.elements dst (slice t.elements src len)})

def set (t : TableInstance) (tableIdx : Nat) (value : TableElement) : Except Trap Unit × TableInstance :=
  match t.checkedRange tableIdx 1 with
  | .error trap => (.error trap,t)
  | .ok () => (.ok (),{t with elements := t.elements.set tableIdx value})

def grow [Allocator] (t : TableInstance) (n : Nat) (init : TableElement) : Except Trap Unit × TableInstance :=
  match checkedAdd n t.elements.length with
  | none => (.error .outOfMemory,t)
  | some len =>
    let max := min (t.kind.sizeMax.getD usizeMax) maxTableSize
    if len > max then (.error (.tableOutOfBounds len 1 t.elements.length),t)
    else if Allocator.tryReserveExact n then (.ok (),{t with elements := t.elements ++ List.replicate n init})
    else (.error .outOfMemory,t)

def init (t : TableInstance) (offset : Nat) (items : List TableElement) : Except Trap Unit × TableInstance :=
  match t.checkedRange offset items.length with
  | .error trap => (.error trap,t)
  | .ok () => (.ok (),{t with elements := splice t.elements offset items})

-- No operation changes the type of a table.
theorem set_kind (t : TableInstance) (i : Nat) (v : TableElement) : (t.set i v).2.kind = t.kind := by
  unfold set
  cases t.checkedRange i 1 <;> rfl

theorem init_kind (t : TableInstance) (i : Nat) (items : List TableElement) : (t.init i items).2.kind = t.kind := by
  unfold init
  cases t.checkedRange i items.length <;> rfl

theorem init_size {t t' : TableInstance} {i : Nat} {items : List TableElement} (placed : t.init i items = (.ok (),t')) :
    t'.size = t.size := by
  unfold init checkedRange at placed
  split at placed
  · cases placed
  · rename_i passed
    cases placed
    split at passed
    · cases passed
    · rename_i last summed
      split at passed
      · cases passed
      · rename_i fits
        unfold checkedAdd at summed
        split at summed
        · cases summed
          exact splice_length (Nat.le_of_not_lt fits)
        · cases summed

theorem copyFromSlice_kind (t : TableInstance) (dst : Nat) (src : List TableElement) :
    (t.copyFromSlice dst src).2.kind = t.kind := by
  unfold copyFromSlice
  cases t.checkedRange dst src.length <;> rfl

theorem copyWithin_kind (t : TableInstance) (dst src len : Nat) : (t.copyWithin dst src len).2.kind = t.kind := by
  unfold copyWithin
  cases t.checkedRange src len <;> cases t.checkedRange dst len <;> rfl

theorem grow_kind [Allocator] (t : TableInstance) (n : Nat) (v : TableElement) : (t.grow n v).2.kind = t.kind := by
  unfold grow
  cases checkedAdd n t.elements.length with
  | none => rfl
  | some len =>
    simp only
    split
    · rfl
    · split <;> rfl

theorem fill_kind {t t' : TableInstance} {funcAddrs : List FuncAddr} {addr len : Nat} {v : TableElement}
    {r : Except Trap Unit} (ran : t.fill funcAddrs addr len v = .ok (r,t')) : t'.kind = t.kind := by
  unfold fill at ran
  cases mapped : v.map (t.resolveFuncRef funcAddrs) with
  | error abort => simp [mapped] at ran
  | ok v' =>
    cases range : t.checkedRange addr len <;> simp only [mapped,range,ok_bind] at ran <;> cases ran <;> rfl

theorem getWasmVal_cases {t : TableInstance} {addr : Nat} {v : WasmValue} (got : t.getWasmVal addr = .ok v) :
    ∃ r, v = .refFunc r ∨ v = .refExtern r := by
  unfold getWasmVal at got
  cases found : t.get addr with
  | error trap => simp [found,bind,Except.bind] at got
  | ok e =>
    cases type : t.kind.elementType <;> simp only [found,type,bind,Except.bind,Except.ok.injEq,reduceCtorEq] at got
    · exact ⟨_,.inl got.symm⟩
    · exact ⟨_,.inr got.symm⟩

end TableInstance

end TinyWasm
