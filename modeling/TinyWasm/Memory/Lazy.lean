import TinyWasm.Memory.Boxed

namespace TinyWasm
open FlatMemory

-- A boxed memory of one of the two built-in backends.
abbrev EagerStorage := Boxed VecMemory PagedMemory

@[match_pattern] abbrev EagerStorage.vec : VecMemory → EagerStorage := .left
@[match_pattern] abbrev EagerStorage.paged : PagedMemory → EagerStorage := .right

inductive MemoryBackend where
  | vec
  | paged (chunkSize : Nat) (powerOfTwo : PagedMemory.IsChunkSize chunkSize)

namespace MemoryBackend

def granularity : MemoryBackend → Nat
  | vec => 1
  | paged chunkSize _ => chunkSize

def create [Allocator] (backend : MemoryBackend) (initialLen : Nat) : Except Error EagerStorage := do
  let storage ← match backend with
    | vec => ((VecMemory.tryNew initialLen).map .vec).mapError .trap
    | paged chunkSize powerOfTwo => ((PagedMemory.tryNew initialLen chunkSize powerOfTwo).map .paged).mapError .trap
  let len := LinearMemory.len storage
  if len < initialLen then
    .error (.other s!"memory backend returned {len} bytes for a memory that requires at least {initialLen}")
  else .ok storage

end MemoryBackend

structure LazyLinearMemory where
  initialLen : Nat
  backend : MemoryBackend
  inner : Option EagerStorage

namespace LazyLinearMemory

def newWithInitialLen (initialLen : Nat) (backend : MemoryBackend) : LazyLinearMemory :=
  ⟨initialLen,backend,none⟩

variable [Allocator]

def materialize (m : LazyLinearMemory) : Checked EagerStorage :=
  match m.inner with
  | some storage => .ok storage
  | none =>
    match m.backend.create m.initialLen with
    | .ok storage => .ok storage
    | .error _ => .error .panic

def tryMaterialize (m : LazyLinearMemory) : Checked (Except Trap EagerStorage) :=
  match m.inner with
  | some storage => .ok (.ok storage)
  | none =>
    match m.backend.create m.initialLen with
    | .ok storage => .ok (.ok storage)
    | .error (.trap trap) => .ok (.error trap)
    | .error _ => .error .panic

def len (m : LazyLinearMemory) : Nat :=
  match m.inner with
  | some storage => LinearMemory.len storage
  | none => m.initialLen

-- The storage with the operation done on it becomes the inner memory.
def onStorage {α : Type} (m : LazyLinearMemory) (result : Checked (α × EagerStorage)) :
    Checked (α × LazyLinearMemory) := do
  let (r,storage) ← result
  .ok (r,{m with inner := some storage})

def growTo (m : LazyLinearMemory) (newLen : Nat) : Checked (Except Trap Unit × LazyLinearMemory) := do
  match ← m.tryMaterialize with
  | .error trap => .ok (.error trap,m)
  | .ok storage => m.onStorage (LinearMemory.growTo storage newLen)

def read (m : LazyLinearMemory) (addr n : Nat) : Checked (List Byte) :=
  match m.inner with
  | some storage => LinearMemory.read storage addr n
  | none =>
    if addr ≥ m.initialLen then .ok []
    else .ok (List.replicate (min n (m.initialLen - addr)) 0)

def write (m : LazyLinearMemory) (addr : Nat) (src : List Byte) : Checked (Nat × LazyLinearMemory) :=
  if src.isEmpty ∨ addr ≥ m.len then .ok (0,m) else do
    let storage ← m.materialize
    m.onStorage (LinearMemory.write storage addr src)

def writeAll (m : LazyLinearMemory) (addr : Nat) (src : List Byte) : Checked (Option Unit × LazyLinearMemory) :=
  match checkedAdd addr src.length with
  | none => .ok (none,m)
  | some last =>
    if last > m.len then .ok (none,m)
    else if src.isEmpty then .ok (some (),m)
    else do
      let storage ← m.materialize
      m.onStorage (LinearMemory.writeAll storage addr src)

def fill (m : LazyLinearMemory) (addr n : Nat) (val : Byte) : Checked (Option Unit × LazyLinearMemory) :=
  match checkedAdd addr n with
  | none => .ok (none,m)
  | some last =>
    if last > m.len then .ok (none,m)
    else if n = 0 ∨ (val = 0 ∧ m.inner.isNone) then .ok (some (),m)
    else do
      let storage ← m.materialize
      m.onStorage (LinearMemory.fill storage addr n val)

def copyWithin (m : LazyLinearMemory) (dst src n : Nat) : Checked (Option Unit × LazyLinearMemory) :=
  match checkedAdd src n,checkedAdd dst n with
  | some srcEnd,some dstEnd =>
    if srcEnd > m.len ∨ dstEnd > m.len then .ok (none,m)
    else if m.inner.isNone ∨ n = 0 ∨ dst = src then .ok (some (),m)
    else do
      let storage ← m.materialize
      m.onStorage (LinearMemory.copyWithin storage dst src n)
  | _,_ => .ok (none,m)

instance : LinearMemory LazyLinearMemory where
  len := len
  growTo := growTo
  read := read
  write := write
  writeAll := writeAll
  fill := fill
  copyWithin := copyWithin

end LazyLinearMemory

end TinyWasm
