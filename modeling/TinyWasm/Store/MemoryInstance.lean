import TinyWasm.Memory.LazyTransparency

namespace TinyWasm

def memPageSize : Nat := 65536
def maxMemorySize : Nat := 4294967296

namespace MemoryType

def pageBytes (ty : MemoryType) : Nat := ty.pageSize.getD memPageSize

def pageLimit (ty : MemoryType) : Nat := ty.pageCountMax.getD (maxMemorySize / ty.pageBytes)

def initialSize (ty : MemoryType) : Nat := ty.pageCountInitial * ty.pageBytes

-- The product is a u64 and wraps.
def maxSize (ty : MemoryType) : Nat := (ty.pageLimit * ty.pageBytes) % 2 ^ 64

end MemoryType

-- `create` boxes one of the eager backends, `create_lazy` the lazy one.
abbrev MemoryStorage := Boxed EagerStorage LazyLinearMemory

structure MemoryInstance where
  kind : MemoryType
  inner : MemoryStorage
  pageCount : Nat

namespace MemoryInstance

def is64Bit (mem : MemoryInstance) : Bool := mem.kind.arch == .i64

section Addresses
variable [Allocator]

-- The sum is unchecked: the offsets of a 32-bit memory are validated to fit.
def effectiveAddr32 (_mem : MemoryInstance) (base offset : Nat) : Except Trap Nat :=
  .ok (wrappingAdd base offset)

def effectiveAddr64 (mem : MemoryInstance) (n base offset : Nat) : Except Trap Nat :=
  match checkedAdd base offset with
  | some addr => .ok addr
  | none => .error (memoryOob base n (LinearMemory.len mem.inner))

end Addresses

def copyChunkSize : Nat := 4 * 1024

variable [Allocator]

def checkRange (mem : MemoryStorage) (addr len : Nat) : Except Trap Unit :=
  match checkedAdd addr len with
  | none => .error (memoryOob addr len (LinearMemory.len mem))
  | some last =>
    if last > LinearMemory.len mem ∨ last < addr then .error (memoryOob addr len (LinearMemory.len mem)) else .ok ()

def copyLoop (dst : Nat) (srcMemory : MemoryStorage) (src len : Nat) (mem : MemoryStorage) (copied : Nat) :
    Checked (Except Trap Unit × MemoryStorage) :=
  if _unfinished : copied < len then do
    let chunkLen := min copyChunkSize (len - copied)
    match ← LinearMemory.readExact srcMemory (src + copied) chunkLen with
    | none => .ok (.error (memoryOob (src + copied) chunkLen (LinearMemory.len srcMemory)),mem)
    | some buf =>
      let (written,mem) ← LinearMemory.writeAll mem (dst + copied) buf
      match written with
      | none => .ok (.error (memoryOob (dst + copied) chunkLen (LinearMemory.len mem)),mem)
      | some () => copyLoop dst srcMemory src len mem (copied + chunkLen)
  else .ok (.ok (),mem)
termination_by len - copied
decreasing_by simp only [copyChunkSize]; omega

def copyFromMemory (mem : MemoryInstance) (dst : Nat) (srcMemory : MemoryInstance) (src len : Nat) :
    Checked (Except Trap Unit × MemoryInstance) :=
  match checkRange srcMemory.inner src len,checkRange mem.inner dst len with
  | .error trap,_ => .ok (.error trap,mem)
  | .ok (),.error trap => .ok (.error trap,mem)
  | .ok (),.ok () =>
    if len = 0 then .ok (.ok (),mem)
    else do
      let (r,inner) ← copyLoop dst srcMemory.inner src len mem.inner 0
      .ok (r,{mem with inner})

def copyWithin (mem : MemoryInstance) (dst src len : Nat) : Checked (Except Trap Unit × MemoryInstance) := do
  let (r,inner) ← LinearMemory.copyWithin mem.inner dst src len
  match r with
  | some () => .ok (.ok (),{mem with inner})
  | none => .ok (.error (memoryOob dst len (LinearMemory.len inner)),{mem with inner})

-- `pagesDelta` is the i64 operand. The result is the old page count, or none.
def grow (mem : MemoryInstance) (pagesDelta : Int) (trapOnOom : Bool) :
    Checked (Except Trap (Option Nat) × MemoryInstance) :=
  if pagesDelta < 0 then .ok (.ok none,mem)
  else
    match checkedAdd mem.pageCount pagesDelta.toNat with
    | none => .ok (.ok none,mem)
    | some newPages =>
      if newPages > mem.kind.pageLimit then .ok (.ok none,mem)
      else
        let newSize := newPages * mem.kind.pageBytes
        if newSize ≥ 2 ^ 64 ∨ newSize > mem.kind.maxSize then .ok (.ok none,mem)
        else
          let oldPages := if mem.pageCount < 2 ^ 63 then some mem.pageCount else none
          if newSize = LinearMemory.len mem.inner then .ok (.ok oldPages,mem)
          else do
            let (r,inner) ← LinearMemory.growTo mem.inner newSize
            match r with
            | .error trap => if trapOnOom then .ok (.error trap,{mem with inner}) else .ok (.ok none,{mem with inner})
            | .ok () => .ok (.ok oldPages,{mem with inner,pageCount := newPages})

-- No operation changes the type of a memory.
theorem copyWithin_kind {mem mem' : MemoryInstance} {dst src len : Nat} {r : Except Trap Unit}
    (ran : mem.copyWithin dst src len = .ok (r,mem')) : mem'.kind = mem.kind := by
  cases copied : LinearMemory.copyWithin mem.inner dst src len with
  | error abort => simp [copyWithin,copied] at ran
  | ok answer =>
    obtain ⟨r',inner⟩ := answer
    cases r' <;> simp only [copyWithin,copied,ok_bind,Except.ok.injEq,Prod.mk.injEq] at ran <;> rw [←ran.2]

theorem copyFromMemory_kind {mem mem' srcMemory : MemoryInstance} {dst src len : Nat} {r : Except Trap Unit}
    (ran : mem.copyFromMemory dst srcMemory src len = .ok (r,mem')) : mem'.kind = mem.kind := by
  unfold copyFromMemory at ran
  cases source : checkRange srcMemory.inner src len with
  | error trap => simp only [source] at ran; cases ran; rfl
  | ok _ =>
  cases target : checkRange mem.inner dst len with
  | error trap => simp only [source,target] at ran; cases ran; rfl
  | ok _ =>
  simp only [source,target] at ran
  by_cases empty : len = 0
  · simp only [if_pos empty,Except.ok.injEq,Prod.mk.injEq] at ran
    rw [←ran.2]
  · simp only [if_neg empty] at ran
    cases copied : copyLoop dst srcMemory.inner src len mem.inner 0 with
    | error abort => simp [copied] at ran
    | ok answer =>
      simp only [copied,ok_bind,Except.ok.injEq,Prod.mk.injEq] at ran
      rw [←ran.2]

theorem grow_kind {mem mem' : MemoryInstance} {pagesDelta : Int} {trapOnOom : Bool} {r : Except Trap (Option Nat)}
    (ran : mem.grow pagesDelta trapOnOom = .ok (r,mem')) : mem'.kind = mem.kind := by
  unfold grow at ran
  split at ran
  · cases ran; rfl
  split at ran
  · cases ran; rfl
  split at ran
  · cases ran; rfl
  simp only at ran
  split at ran
  · cases ran; rfl
  split at ran
  · cases ran; rfl
  rename_i newPages _ _ _ _
  cases grown : LinearMemory.growTo mem.inner (newPages * mem.kind.pageBytes) with
  | error abort => simp [grown] at ran
  | ok answer =>
    obtain ⟨r',inner⟩ := answer
    simp only [grown,ok_bind] at ran
    cases r' with
    | error trap => cases trapOnOom <;> cases ran <;> rfl
    | ok _ => cases ran; rfl

end MemoryInstance

end TinyWasm
