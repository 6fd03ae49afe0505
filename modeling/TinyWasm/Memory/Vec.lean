import TinyWasm.Memory.Provided

namespace TinyWasm
open ListRange

structure VecMemory where
  data : List Byte
  deriving DecidableEq

namespace VecMemory

def tryNew [Allocator] (len : Nat) : Except Trap VecMemory :=
  if Allocator.tryReserveExact len then .ok ⟨List.replicate len 0⟩ else .error .outOfMemory

def checkFixedAddr (m : VecMemory) (n addr : Nat) : Except Trap Unit :=
  if n > m.data.length ∨ addr > m.data.length - n then .error (memoryOob addr n m.data.length)
  else .ok ()

def readFixed (m : VecMemory) (width : AccessWidth) (addr : Nat) : Checked (Except Trap (List Byte)) :=
  match m.checkFixedAddr width.bytes addr with
  | .error trap => .ok (.error trap)
  | .ok () => do let bytes ← sliceAt m.data addr width.bytes; .ok (.ok bytes)

def writeFixed (m : VecMemory) (width : AccessWidth) (addr : Nat) (bytes : List Byte) :
    Checked (Except Trap Unit × VecMemory) :=
  match m.checkFixedAddr width.bytes addr with
  | .error trap => .ok (.error trap,m)
  | .ok () => do let data ← copyFromSlice m.data addr bytes; .ok (.ok (),⟨data⟩)

def growTo [Allocator] (m : VecMemory) (newLen : Nat) : Except Trap Unit × VecMemory :=
  if newLen < m.data.length then (.error (.memoryOutOfBounds newLen 0 m.data.length),m)
  else if Allocator.tryReserveExact (newLen - m.data.length) then
    (.ok (),⟨m.data ++ List.replicate (newLen - m.data.length) 0⟩)
  else (.error .outOfMemory,m)

def read (m : VecMemory) (addr n : Nat) : Checked (List Byte) :=
  if addr ≥ m.data.length then .ok [] else sliceAt m.data addr (min n (m.data.length - addr))

def write (m : VecMemory) (addr : Nat) (src : List Byte) : Checked (Nat × VecMemory) :=
  if addr ≥ m.data.length then .ok (0,m) else do
    let writeLen := min src.length (m.data.length - addr)
    let data ← copyFromSlice m.data addr (src.take writeLen)
    .ok (writeLen,⟨data⟩)

-- `self.data.get(addr..addr.checked_add(n)?)`
def get (m : VecMemory) (addr n : Nat) : Option (List Byte) := do
  let last ← checkedAdd addr n
  if last ≤ m.data.length then some (slice m.data addr n) else none

def readExact (m : VecMemory) (addr n : Nat) : Option (List Byte) := m.get addr n
def readVec (m : VecMemory) (addr n : Nat) : Option (List Byte) := m.get addr n

def writeAll (m : VecMemory) (addr : Nat) (src : List Byte) : Option Unit × VecMemory :=
  match m.get addr src.length with
  | none => (none,m)
  | some _ => (some (),⟨splice m.data addr src⟩)

def fill (m : VecMemory) (addr n : Nat) (val : Byte) : Option Unit × VecMemory :=
  match m.get addr n with
  | none => (none,m)
  | some _ => (some (),⟨splice m.data addr (List.replicate n val)⟩)

def copyWithin (m : VecMemory) (dst src n : Nat) : Option Unit × VecMemory :=
  match checkedAdd src n,checkedAdd dst n with
  | some srcEnd,some dstEnd =>
    if srcEnd > m.data.length ∨ dstEnd > m.data.length then (none,m)
    else (some (),⟨splice m.data dst (slice m.data src n)⟩)
  | _,_ => (none,m)

instance [Allocator] : LinearMemory VecMemory where
  len m := m.data.length
  growTo m newLen := .ok (m.growTo newLen)
  read := read
  write := write
  writeAll m addr src := .ok (m.writeAll addr src)
  fill m addr n val := .ok (m.fill addr n val)
  readExact m addr n := .ok (m.readExact addr n)
  copyWithin m dst src n := .ok (m.copyWithin dst src n)
  readVec m addr n := .ok (m.readVec addr n)
  readFixed := readFixed
  writeFixed := writeFixed

-- The flat array is the vector itself, which never outgrows the address space.
instance [Allocator] : FlatMemory VecMemory where
  bytes m := m.data
  Valid m := m.data.length ≤ usizeMax
  unit _ := 1

variable {m : VecMemory}

theorem get_eq (valid : m.data.length ≤ usizeMax) (addr n : Nat) :
    m.get addr n = FlatArray.read m.data addr n := by
  unfold get FlatArray.read
  by_cases within : addr + n ≤ m.data.length
  · rw [checkedAdd_fits (by omega)]
    rfl
  · rw [if_neg within]
    cases sum : checkedAdd addr n with
    | none => rfl
    | some last =>
      have total := checkedAdd_some sum
      simp only [bind,Option.bind]
      rw [if_neg (by omega)]

theorem writeAll_eq (valid : m.data.length ≤ usizeMax) (addr : Nat) (src : List Byte) :
    m.writeAll addr src = ((FlatArray.write m.data addr src).1,⟨(FlatArray.write m.data addr src).2⟩) := by
  rw [writeAll,get_eq valid,FlatArray.read,FlatArray.write]
  by_cases within : addr + src.length ≤ m.data.length <;> simp [within]

theorem fill_eq (valid : m.data.length ≤ usizeMax) (addr n : Nat) (val : Byte) :
    m.fill addr n val = ((FlatArray.fill m.data addr n val).1,⟨(FlatArray.fill m.data addr n val).2⟩) := by
  rw [fill,get_eq valid,FlatArray.read,FlatArray.fill,FlatArray.write,List.length_replicate]
  by_cases within : addr + n ≤ m.data.length <;> simp [within]

theorem copyWithin_eq (valid : m.data.length ≤ usizeMax) (dst src n : Nat) :
    m.copyWithin dst src n =
      ((FlatArray.copyWithin m.data dst src n).1,⟨(FlatArray.copyWithin m.data dst src n).2⟩) := by
  unfold copyWithin FlatArray.copyWithin
  by_cases within : src + n ≤ m.data.length ∧ dst + n ≤ m.data.length
  · rw [checkedAdd_fits (by omega),checkedAdd_fits (by omega),if_pos within]
    simp only
    rw [if_neg (by omega)]
  · rw [if_neg within]
    split
    · rename_i srcEnd dstEnd srcSum dstSum
      have first := checkedAdd_some srcSum
      have second := checkedAdd_some dstSum
      rw [if_pos (by omega)]
    · rfl

theorem checkFixedAddr_eq (n addr : Nat) : m.checkFixedAddr n addr =
    if addr + n ≤ m.data.length then .ok () else .error (memoryOob addr n m.data.length) := by
  unfold checkFixedAddr
  by_cases within : addr + n ≤ m.data.length
  · rw [if_pos within,if_neg (by omega)]
  · rw [if_neg within,if_pos (by omega)]

theorem readFixed_eq (width : AccessWidth) (addr : Nat) : m.readFixed width addr =
    .ok (orOob (FlatArray.read m.data addr width.bytes) addr width.bytes m.data) := by
  rw [readFixed,checkFixedAddr_eq,FlatArray.read]
  by_cases within : addr + width.bytes ≤ m.data.length
  · simp [within,sliceAt,orOob]
  · simp [within,orOob]

theorem writeFixed_eq (width : AccessWidth) (addr : Nat) {src : List Byte}
    (sized : src.length = width.bytes) : m.writeFixed width addr src =
    .ok (orOob (FlatArray.write m.data addr src).1 addr width.bytes m.data,
      ⟨(FlatArray.write m.data addr src).2⟩) := by
  rw [writeFixed,checkFixedAddr_eq,FlatArray.write,sized]
  by_cases within : addr + width.bytes ≤ m.data.length
  · simp [within,copyFromSlice,sized,orOob]
  · simp [within,orOob]

theorem transfers (addr n : Nat) : Transfers m.data addr n (min n (m.data.length - addr)) :=
  ⟨Nat.le_refl _,id⟩

theorem read_eq (addr n : Nat) :
    m.read addr n = .ok (slice m.data addr (min n (m.data.length - addr))) := by
  unfold read
  split
  · rename_i outside
    have none_left : min n (m.data.length - addr) = 0 := by omega
    rw [none_left,slice_zero]
  · exact sliceAt_ok (by omega)

theorem write_eq (addr : Nat) (src : List Byte) :
    m.write addr src = .ok (min src.length (m.data.length - addr),
      ⟨splice m.data addr (src.take (min src.length (m.data.length - addr)))⟩) := by
  unfold write
  split
  · rename_i outside
    have none_left : min src.length (m.data.length - addr) = 0 := by omega
    rw [none_left,List.take_zero,splice_nil]
  · dsimp only
    rw [copyFromSlice_ok (by simp only [List.length_take]; omega),ok_bind]

open FlatMemory in
theorem flat_refines [Allocator] {α : Type} {call : Checked (α × VecMemory)} {flat : α × List Byte}
    (same : call = .ok (flat.1,⟨flat.2⟩)) (fits : flat.2.length ≤ usizeMax) : Refines m call flat :=
  ⟨⟨flat.2⟩,same,fits,rfl,rfl⟩

instance [Allocator] [Generous] : LawfulMemory VecMemory where
  len_law _ := rfl
  fits_law valid := valid
  grow_law {m n} valid fits := by
    refine flat_refines ?_ ?_
    · simp only [LinearMemory.growTo,growTo,FlatMemory.bytes]
      by_cases shrinks : n < m.data.length
      · rw [if_pos shrinks,if_neg (by omega)]
        rfl
      · rw [if_neg shrinks,if_pos (Generous.grants _),if_pos (by omega)]
        rfl
    · split
      · rw [FlatArray.extend_length ‹_›]
        exact fits
      · exact valid
  read_law _ := fun _ => ⟨_,transfers _ _,read_eq _ _⟩
  write_law {m} valid addr src := by
    refine ⟨_,transfers addr src.length,flat_refines (write_eq addr src) ?_⟩
    exact Nat.le_trans (Nat.le_of_eq (transfers addr src.length).splice_length) valid
  readExact_law valid addr n := congrArg _ (get_eq valid addr n)
  readVec_law valid addr n := congrArg _ (get_eq valid addr n)
  writeAll_law valid addr src :=
    flat_refines (congrArg _ (writeAll_eq valid addr src)) (by rw [FlatArray.write_length]; exact valid)
  fill_law valid _ addr n val :=
    flat_refines (congrArg _ (fill_eq valid addr n val)) (by rw [FlatArray.fill_length]; exact valid)
  copyWithin_law valid dst src n :=
    flat_refines (congrArg _ (copyWithin_eq valid dst src n))
      (by rw [FlatArray.copyWithin_length]; exact valid)
  readFixed_law _ width addr := readFixed_eq width addr
  writeFixed_law valid width addr _ sized :=
    flat_refines (writeFixed_eq width addr sized) (by rw [FlatArray.write_length]; exact valid)

end VecMemory

end TinyWasm
