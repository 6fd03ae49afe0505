import TinyWasm.Memory.Vec

namespace TinyWasm
open ListRange

def divCeil (a b : Nat) : Nat := a / b + if a % b > 0 then 1 else 0

-- Chunks that were never written are absent and read as zeros.
structure PagedMemory where
  len : Nat
  chunkSize : Nat
  chunkShift : Nat
  chunkMask : Nat
  chunks : List (Option (List Byte))
  size_eq : chunkSize = 2 ^ chunkShift
  mask_eq : chunkMask = chunkSize - 1
  shift_lt : chunkShift < usizeBits
  deriving DecidableEq

namespace PagedMemory

theorem chunk_pos (m : PagedMemory) : 0 < m.chunkSize := by
  rw [m.size_eq]
  exact Nat.two_pow_pos _

@[simp] theorem shift_div (m : PagedMemory) (addr : Nat) : addr >>> m.chunkShift = addr / m.chunkSize := by
  rw [m.size_eq,Nat.shiftRight_eq_div_pow]

@[simp] theorem mask_mod (m : PagedMemory) (addr : Nat) : addr &&& m.chunkMask = addr % m.chunkSize := by
  rw [m.mask_eq,m.size_eq,Nat.and_two_pow_sub_one_eq_mod]

def growTo [Allocator] (m : PagedMemory) (newLen : Nat) : Except Trap Unit × PagedMemory :=
  if newLen < m.len then (.error (.memoryOutOfBounds newLen 0 m.len),m)
  else
    let newChunkCount := if newLen = 0 then 0 else divCeil newLen m.chunkSize
    if newChunkCount > m.chunks.length then
      if Allocator.tryReserveExact (newChunkCount - m.chunks.length) then
        (.ok (),{m with
          chunks := m.chunks ++ List.replicate (newChunkCount - m.chunks.length) none,len := newLen})
      else (.error .outOfMemory,m)
    else (.ok (),{m with chunks := m.chunks.take newChunkCount,len := newLen})

-- A usize that passes the assertion on chunk sizes.
def IsChunkSize (chunkSize : Nat) : Prop := ∃ k < usizeBits, chunkSize = 2 ^ k

-- The number of trailing zeros of a power of two is its binary logarithm.
def tryNew [Allocator] (len chunkSize : Nat) (powerOfTwo : IsChunkSize chunkSize) :
    Except Trap PagedMemory :=
  let memory : PagedMemory := ⟨0,chunkSize,chunkSize.log2,chunkSize - 1,[],by
    obtain ⟨k,_,rfl⟩ := powerOfTwo
    rw [Nat.log2_two_pow],rfl,by
    obtain ⟨k,small,rfl⟩ := powerOfTwo
    rwa [Nat.log2_two_pow]⟩
  match memory.growTo len with
  | (.ok (),grown) => .ok grown
  | (.error trap,_) => .error trap

def allocateChunk [Allocator] (m : PagedMemory) : Except Trap (List Byte) :=
  if Allocator.tryReserveExact m.chunkSize then .ok (List.replicate m.chunkSize 0) else .error .outOfMemory

def setChunk (m : PagedMemory) (chunkIdx : Nat) (chunk : Option (List Byte)) : PagedMemory :=
  {m with chunks := m.chunks.set chunkIdx chunk}

-- `update` is what the caller does with the chunk it gets to write.
def chunkMut [Allocator] (m : PagedMemory) (chunkIdx : Nat) (update : List Byte → Checked (List Byte)) :
    Checked (Except Trap Unit × PagedMemory) :=
  match m.chunks[chunkIdx]? with
  | none => .error .panic
  | some (some chunk) => do
    let updated ← update chunk
    .ok (.ok (),m.setChunk chunkIdx (some updated))
  | some none =>
    match m.allocateChunk with
    | .error trap => .ok (.error trap,m)
    | .ok chunk => do
      let updated ← update chunk
      .ok (.ok (),m.setChunk chunkIdx (some updated))

def chunkSlice (m : PagedMemory) (chunkIdx : Nat) : Checked (Option (List Byte)) :=
  match m.chunks[chunkIdx]? with
  | none => .error .panic
  | some chunk => .ok chunk

def checkedEnd (m : PagedMemory) (addr n : Nat) : Option Nat :=
  match checkedAdd addr n with
  | none => none
  | some last => if last > m.len then none else some last

def copyWithinSingleChunk (m : PagedMemory) (dst src n : Nat) : Checked (Bool × PagedMemory) :=
  if n = 0 then .ok (true,m)
  else if (m.checkedEnd src n).isNone ∨ (m.checkedEnd dst n).isNone then .ok (false,m)
  else
    let srcChunkIdx := src >>> m.chunkShift
    let dstChunkIdx := dst >>> m.chunkShift
    if srcChunkIdx ≠ dstChunkIdx then .ok (false,m)
    else
      let srcOffset := src &&& m.chunkMask
      let dstOffset := dst &&& m.chunkMask
      if srcOffset + n > m.chunkSize ∨ dstOffset + n > m.chunkSize then .ok (false,m)
      else match m.chunks[srcChunkIdx]? with
        | some (some chunk) => do
          let moved ← sliceAt chunk srcOffset n
          let chunk' ← copyFromSlice chunk dstOffset moved
          .ok (true,m.setChunk srcChunkIdx (some chunk'))
        | _ => .ok (true,m)

def read (m : PagedMemory) (addr n : Nat) : Checked (List Byte) :=
  if addr ≥ m.len ∨ n = 0 then .ok [] else do
    let chunkIdx := addr >>> m.chunkShift
    let chunkOffset := addr &&& m.chunkMask
    let chunkEnd := min (wrappingShl (chunkIdx + 1) m.chunkShift) m.len
    let readLen := min (wrappingSub chunkEnd addr) n
    match ← m.chunkSlice chunkIdx with
    | some chunk => sliceAt chunk chunkOffset readLen
    | none => .ok (List.replicate readLen 0)

def write [Allocator] (m : PagedMemory) (addr : Nat) (src : List Byte) : Checked (Nat × PagedMemory) :=
  if addr ≥ m.len ∨ src.isEmpty then .ok (0,m) else do
    let chunkIdx := addr >>> m.chunkShift
    let chunkOffset := addr &&& m.chunkMask
    let writeLen := min (min (m.chunkSize - chunkOffset) (m.len - addr)) src.length
    let (written,m') ← m.chunkMut chunkIdx (copyFromSlice · chunkOffset (src.take writeLen))
    match written with
    | .error _ => .ok (0,m')
    | .ok () => .ok (writeLen,m')

theorem room_in_chunk (m : PagedMemory) (pos : Nat) : 0 < m.chunkSize - (pos &&& m.chunkMask) := by
  have inside := Nat.mod_lt pos m.chunk_pos
  simp only [mask_mod]
  omega

def writeAllLoop [Allocator] (m : PagedMemory) (pos last : Nat) (src : List Byte) (srcOffset : Nat) :
    Checked (Option Unit × PagedMemory) :=
  if pos < last then do
    let chunkIdx := pos >>> m.chunkShift
    let chunkOffset := pos &&& m.chunkMask
    let copyLen := min (m.chunkSize - chunkOffset) (last - pos)
    let piece ← sliceAt src srcOffset copyLen
    let (written,m') ← m.chunkMut chunkIdx (copyFromSlice · chunkOffset piece)
    match written with
    | .error _ => .ok (none,m')
    | .ok () => writeAllLoop m' (pos + copyLen) last src (srcOffset + copyLen)
  else .ok (some (),m)
termination_by last - pos
decreasing_by
  have room := m.room_in_chunk pos
  omega

def writeAll [Allocator] (m : PagedMemory) (addr : Nat) (src : List Byte) :
    Checked (Option Unit × PagedMemory) :=
  match m.checkedEnd addr src.length with
  | none => .ok (none,m)
  | some last => m.writeAllLoop addr last src 0

-- Zeroing a whole chunk, or all of the last one that is in use, releases it.
def fillChunk [Allocator] (m : PagedMemory) (chunkIdx chunkOffset chunkFullLen fillLen : Nat) (val : Byte) :
    Checked (Except Trap Unit × PagedMemory) :=
  if val = 0 then
    if chunkOffset = 0 ∧ fillLen = chunkFullLen then
      if chunkIdx < m.chunks.length then .ok (.ok (),m.setChunk chunkIdx none) else .error .panic
    else match m.chunks[chunkIdx]? with
      | some (some chunk) => do
        let cleared ← copyFromSlice chunk chunkOffset (List.replicate fillLen 0)
        .ok (.ok (),m.setChunk chunkIdx (some cleared))
      | _ => .ok (.ok (),m)
  else m.chunkMut chunkIdx (copyFromSlice · chunkOffset (List.replicate fillLen val))

-- The end of the chunk that touches the end of the address space wraps to zero,
-- and the loop starts over from there.
def fillLoop [Allocator] (m : PagedMemory) (pos last : Nat) (val : Byte) :
    Checked (Option Unit × PagedMemory) :=
  if pos < last then do
    let chunkIdx := pos >>> m.chunkShift
    let chunkOffset := pos &&& m.chunkMask
    let chunkStart := chunkIdx <<< m.chunkShift
    let chunkFullLen := min m.chunkSize (m.len - chunkStart)
    let chunkEnd := min (wrappingAdd chunkStart m.chunkSize) last
    let fillLen := wrappingSub chunkEnd pos
    let (filled,m') ← m.fillChunk chunkIdx chunkOffset chunkFullLen fillLen val
    match filled with
    | .error _ => .ok (none,m')
    | .ok () => if _back : chunkEnd ≤ pos then .error .diverges else fillLoop m' chunkEnd last val
  else .ok (some (),m)
termination_by last - pos
decreasing_by
  simp only [chunkEnd,chunkStart,chunkIdx] at _back ⊢
  omega

def fill [Allocator] (m : PagedMemory) (addr n : Nat) (val : Byte) : Checked (Option Unit × PagedMemory) :=
  match m.checkedEnd addr n with
  | none => .ok (none,m)
  | some last => m.fillLoop addr last val

def readExact (m : PagedMemory) (addr n : Nat) : Checked (Option (List Byte)) :=
  Provided.readExact PagedMemory.len read m addr n

def copyWithin [Allocator] (m : PagedMemory) (dst src n : Nat) : Checked (Option Unit × PagedMemory) :=
  match m.checkedEnd src n,m.checkedEnd dst n with
  | some _,some _ =>
    if n = 0 ∨ dst = src then .ok (some (),m) else do
      let (single,m') ← m.copyWithinSingleChunk dst src n
      if single then .ok (some (),m')
      else if dst < src ∨ dst ≥ src + n then
        Provided.copyForward (Provided.copyBlock readExact writeAll) 256 m' dst src n 0
      else Provided.copyBackward (Provided.copyBlock readExact writeAll) 256 m' dst src n
  | _,_ => .ok (none,m)

def read8 (m : PagedMemory) (addr : Nat) : Checked (Except Trap (List Byte)) :=
  if addr ≥ m.len then .ok (.error (memoryOob addr 1 m.len)) else do
    match ← m.chunkSlice (addr >>> m.chunkShift) with
    | none => .ok (.ok [0])
    | some chunk => do let byte ← sliceAt chunk (addr &&& m.chunkMask) 1; .ok (.ok byte)

def write8 [Allocator] (m : PagedMemory) (addr : Nat) (bytes : List Byte) :
    Checked (Except Trap Unit × PagedMemory) :=
  if addr ≥ m.len then .ok (.error (memoryOob addr 1 m.len),m)
  else m.chunkMut (addr >>> m.chunkShift) (copyFromSlice · (addr &&& m.chunkMask) (bytes.take 1))

instance [Allocator] : LinearMemory PagedMemory where
  len := PagedMemory.len
  growTo m newLen := .ok (m.growTo newLen)
  read := read
  write := write
  writeAll := writeAll
  fill := fill
  copyWithin := copyWithin
  readFixed m width addr :=
    if width = .w8 then m.read8 addr else Provided.readFixed PagedMemory.len readExact m width addr
  writeFixed m width addr bytes :=
    if width = .w8 then m.write8 addr bytes
    else Provided.writeFixed PagedMemory.len writeAll m width addr bytes

end PagedMemory

end TinyWasm
