import TinyWasm.Error

namespace TinyWasm

-- Whether the host grants a reservation of so many more elements.
class Allocator where
  tryReserveExact : Nat → Bool

class Generous [Allocator] : Prop where
  grants (n : Nat) : Allocator.tryReserveExact n = true

-- A host with memory to spare.
abbrev Allocator.unlimited : Allocator where
  tryReserveExact _ := true

theorem Allocator.unlimited_generous : @Generous unlimited := @Generous.mk unlimited fun _ => rfl

-- The operand widths of read_8 .. read_128 and write_8 .. write_128.
inductive AccessWidth where
  | w8 | w16 | w32 | w64 | w128
  deriving DecidableEq, Repr

def AccessWidth.bytes : AccessWidth → Nat
  | .w8 => 1
  | .w16 => 2
  | .w32 => 4
  | .w64 => 8
  | .w128 => 16

def memoryOob (offset len max : Nat) : Trap := .memoryOutOfBounds offset len max

-- The provided methods of the memory trait, over whatever the backend supplies
-- for the methods they call. A read returns the bytes it transferred, a write
-- the number of bytes it took.
namespace Provided
variable {M : Type}

def writeLoop (write : M → Nat → List Byte → Checked (Nat × M)) (m : M) (addr : Nat)
    (src : List Byte) (offset : Nat) : Checked (Option Unit × M) :=
  if offset < src.length then do
    let (written,m') ← write m (addr + offset) (src.drop offset)
    if _stuck : written = 0 then .ok (none,m')
    else writeLoop write m' addr src (offset + written)
  else .ok (some (),m)
termination_by src.length - offset

def writeAll (len : M → Nat) (write : M → Nat → List Byte → Checked (Nat × M)) (m : M) (addr : Nat)
    (src : List Byte) : Checked (Option Unit × M) :=
  match checkedAdd addr src.length with
  | none => .ok (none,m)
  | some last => if last > len m then .ok (none,m) else writeLoop write m addr src 0

def readLoop (read : M → Nat → Nat → Checked (List Byte)) (m : M) (addr n : Nat)
    (dst : List Byte) : Checked (Option (List Byte)) :=
  if dst.length < n then do
    let got ← read m (addr + dst.length) (n - dst.length)
    if _stuck : got.length = 0 then .ok none
    else readLoop read m addr n (dst ++ got)
  else .ok (some dst)
termination_by n - dst.length
decreasing_by simp only [List.length_append]; omega

def readExact (len : M → Nat) (read : M → Nat → Nat → Checked (List Byte)) (m : M) (addr n : Nat) :
    Checked (Option (List Byte)) :=
  match checkedAdd addr n with
  | none => .ok none
  | some last => if last > len m then .ok none else readLoop read m addr n []

def readVec (len : M → Nat) (readExact : M → Nat → Nat → Checked (Option (List Byte))) (m : M)
    (addr n : Nat) : Checked (Option (List Byte)) :=
  match checkedAdd addr n with
  | none => .ok none
  | some last => if last > len m then .ok none else readExact m addr n

def fillLoop (writeAll : M → Nat → List Byte → Checked (Option Unit × M)) (m : M)
    (addr len : Nat) (val : Byte) (offset : Nat) : Checked (Option Unit × M) :=
  if offset < len then do
    let chunkLen := min (len - offset) 1024
    let (filled,m') ← writeAll m (addr + offset) (List.replicate chunkLen val)
    match filled with
    | none => .ok (none,m')
    | some () => fillLoop writeAll m' addr len val (offset + chunkLen)
  else .ok (some (),m)
termination_by len - offset

def fill (len : M → Nat) (writeAll : M → Nat → List Byte → Checked (Option Unit × M)) (m : M)
    (addr n : Nat) (val : Byte) : Checked (Option Unit × M) :=
  match checkedAdd addr n with
  | none => .ok (none,m)
  | some last => if last > len m then .ok (none,m) else fillLoop writeAll m addr n val 0

-- One block of an overlapping copy through a buffer.
def copyBlock (readExact : M → Nat → Nat → Checked (Option (List Byte)))
    (writeAll : M → Nat → List Byte → Checked (Option Unit × M)) (m : M) (dst src n : Nat) :
    Checked (Option Unit × M) := do
  match ← readExact m src n with
  | none => .ok (none,m)
  | some chunk => writeAll m dst chunk

-- `unit` is the size of the buffer: 1024 bytes here, 256 in the paged backend.
def copyForward (copyBlock : M → Nat → Nat → Nat → Checked (Option Unit × M)) (unit : Nat) (m : M)
    (dst src len offset : Nat) : Checked (Option Unit × M) :=
  if offset < len ∧ 0 < unit then do
    let chunkLen := min (len - offset) unit
    let (copied,m') ← copyBlock m (dst + offset) (src + offset) chunkLen
    match copied with
    | none => .ok (none,m')
    | some () => copyForward copyBlock unit m' dst src len (offset + chunkLen)
  else .ok (some (),m)
termination_by len - offset

def copyBackward (copyBlock : M → Nat → Nat → Nat → Checked (Option Unit × M)) (unit : Nat) (m : M)
    (dst src offset : Nat) : Checked (Option Unit × M) :=
  if 0 < offset ∧ 0 < unit then do
    let chunkLen := min offset unit
    let (copied,m') ← copyBlock m (dst + (offset - chunkLen)) (src + (offset - chunkLen)) chunkLen
    match copied with
    | none => .ok (none,m')
    | some () => copyBackward copyBlock unit m' dst src (offset - chunkLen)
  else .ok (some (),m)
termination_by offset

def copyWithin (len : M → Nat) (readExact : M → Nat → Nat → Checked (Option (List Byte)))
    (writeAll : M → Nat → List Byte → Checked (Option Unit × M)) (m : M) (dst src n : Nat) :
    Checked (Option Unit × M) :=
  match checkedAdd src n,checkedAdd dst n with
  | some srcEnd,some dstEnd =>
    if srcEnd > len m ∨ dstEnd > len m then .ok (none,m)
    else if n = 0 ∨ dst = src then .ok (some (),m)
    else if dst < src ∨ dst ≥ srcEnd then copyForward (copyBlock readExact writeAll) 1024 m dst src n 0
    else copyBackward (copyBlock readExact writeAll) 1024 m dst src n
  | _,_ => .ok (none,m)

def readFixed (len : M → Nat) (readExact : M → Nat → Nat → Checked (Option (List Byte))) (m : M)
    (width : AccessWidth) (addr : Nat) : Checked (Except Trap (List Byte)) := do
  match ← readExact m addr width.bytes with
  | some bytes => .ok (.ok bytes)
  | none => .ok (.error (memoryOob addr width.bytes (len m)))

def writeFixed (len : M → Nat) (writeAll : M → Nat → List Byte → Checked (Option Unit × M)) (m : M)
    (width : AccessWidth) (addr : Nat) (bytes : List Byte) : Checked (Except Trap Unit × M) := do
  let (stored,m') ← writeAll m addr bytes
  match stored with
  | some () => .ok (.ok (),m')
  | none => .ok (.error (memoryOob addr width.bytes (len m')),m')

end Provided

class LinearMemory (M : Type) where
  len : M → Nat
  growTo : M → Nat → Checked (Except Trap Unit × M)
  read : M → Nat → Nat → Checked (List Byte)
  write : M → Nat → List Byte → Checked (Nat × M)
  writeAll : M → Nat → List Byte → Checked (Option Unit × M) := Provided.writeAll len write
  fill : M → Nat → Nat → Byte → Checked (Option Unit × M) := Provided.fill len writeAll
  readExact : M → Nat → Nat → Checked (Option (List Byte)) := Provided.readExact len read
  copyWithin : M → Nat → Nat → Nat → Checked (Option Unit × M) :=
    Provided.copyWithin len readExact writeAll
  readVec : M → Nat → Nat → Checked (Option (List Byte)) := Provided.readVec len readExact
  readFixed : M → AccessWidth → Nat → Checked (Except Trap (List Byte)) :=
    Provided.readFixed len readExact
  writeFixed : M → AccessWidth → Nat → List Byte → Checked (Except Trap Unit × M) :=
    Provided.writeFixed len writeAll

end TinyWasm
