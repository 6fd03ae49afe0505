import TinyWasm.Memory.FlatMemory

namespace TinyWasm.Provided
open ListRange FlatMemory

-- The provided methods over a backend whose own methods act as the flat array
-- does: each loop carries the part of the range it has already moved.
theorem checked_range {β : Type} {size : Nat} (fits : size ≤ usizeMax) (addr n : Nat) (inside outside : β) :
    (match checkedAdd addr n with
      | none => outside
      | some last => if last > size then outside else inside) =
      if addr + n ≤ size then inside else outside := by
  by_cases within : addr + n ≤ size
  · rw [checkedAdd_fits (by omega),if_pos within]
    exact if_neg (by omega)
  · rw [if_neg within]
    split
    · rfl
    · rename_i last sum
      rw [if_pos (by rw [checkedAdd_some sum]; omega)]

section Reads
variable {M : Type} {len : M → Nat} {read : M → Nat → Nat → Checked (List Byte)}
  {readExact : M → Nat → Nat → Checked (Option (List Byte))} {m : M} {xs : List Byte} {addr n : Nat}

-- A read whose range lies in bounds and is not empty takes at least one byte.
def Progresses (read : M → Nat → Nat → Checked (List Byte)) (m : M) (xs : List Byte) : Prop :=
  ∀ addr n, addr + n ≤ xs.length → 0 < n → ∃ k, 0 < k ∧ k ≤ n ∧ read m addr n = .ok (slice xs addr k)

theorem Transfers.progresses (transfers : ∀ addr n, addr + n ≤ xs.length →
    ∃ k, Transfers xs addr n k ∧ read m addr n = .ok (slice xs addr k)) : Progresses read m xs := by
  intro addr n within some_byte
  obtain ⟨k,⟨most,least⟩,got⟩ := transfers addr n within
  exact ⟨k,least (by omega),by omega,got⟩

theorem readLoop_eq (progresses : Progresses read m xs) (within : addr + n ≤ xs.length) {done : Nat}
    (part : done ≤ n) :
    readLoop read m addr n (slice xs addr done) = .ok (some (slice xs addr n)) := by
  have size : (slice xs addr done).length = done := slice_length (by omega)
  rw [readLoop,size]
  split
  · rename_i unfinished
    obtain ⟨k,least,most,got⟩ := progresses (addr + done) (n - done) (by omega) (by omega)
    have moved : (slice xs (addr + done) k).length = k := slice_length (by omega)
    rw [got,ok_bind,dif_neg (by omega),←slice_add]
    exact readLoop_eq progresses within (by omega)
  · have finished : done = n := by omega
    rw [finished]
termination_by n - done

theorem readExact_eq (sized : len m = xs.length) (fits : xs.length ≤ usizeMax)
    (progresses : Progresses read m xs) (addr n : Nat) :
    Provided.readExact len read m addr n = .ok (FlatArray.read xs addr n) := by
  have ranged : Provided.readExact len read m addr n =
      if addr + n ≤ xs.length then readLoop read m addr n [] else .ok none := by
    unfold Provided.readExact
    rw [sized]
    exact checked_range fits addr n _ _
  rw [ranged]
  unfold FlatArray.read
  split
  · exact readLoop_eq progresses ‹_› (Nat.zero_le n)
  · rfl

theorem readVec_eq (sized : len m = xs.length) (fits : xs.length ≤ usizeMax)
    (exact_law : ∀ addr n, readExact m addr n = .ok (FlatArray.read xs addr n)) (addr n : Nat) :
    Provided.readVec len readExact m addr n = .ok (FlatArray.read xs addr n) := by
  have ranged : Provided.readVec len readExact m addr n =
      if addr + n ≤ xs.length then readExact m addr n else .ok none := by
    unfold Provided.readVec
    rw [sized]
    exact checked_range fits addr n _ _
  rw [ranged,exact_law]
  unfold FlatArray.read
  split <;> rfl

theorem readFixed_eq (sized : len m = xs.length)
    (exact_law : ∀ addr n, readExact m addr n = .ok (FlatArray.read xs addr n)) (width : AccessWidth)
    (addr : Nat) : Provided.readFixed len readExact m width addr =
      .ok (orOob (FlatArray.read xs addr width.bytes) addr width.bytes xs) := by
  rw [Provided.readFixed,exact_law,ok_bind,sized]
  cases FlatArray.read xs addr width.bytes <;> rfl

end Reads

section Writes
variable {M : Type} [FlatMemory M] {m : M}

theorem writeFixed_refines (sized : ∀ {m : M}, Valid m → LinearMemory.len m = (bytes m).length)
    {writeAll : M → Nat → List Byte → Checked (Option Unit × M)} {addr : Nat} {src : List Byte}
    (law : Refines m (writeAll m addr src) (FlatArray.write (bytes m) addr src)) (width : AccessWidth) :
    Refines m (Provided.writeFixed LinearMemory.len writeAll m width addr src)
      (orOob (FlatArray.write (bytes m) addr src).1 addr width.bytes (bytes m),
        (FlatArray.write (bytes m) addr src).2) := by
  obtain ⟨m',called,valid,same,after⟩ := law
  refine ⟨m',?_,valid,same,after⟩
  have length : LinearMemory.len m' = (bytes m).length := by
    rw [sized valid,after,FlatArray.write_length]
  rw [Provided.writeFixed,called,ok_bind]
  dsimp only
  rw [length]
  cases (FlatArray.write (bytes m) addr src).1 <;> rfl

-- What one block of a copy does when both ranges are in bounds.
def CopiesBlocks (copyBlock : M → Nat → Nat → Nat → Checked (Option Unit × M)) : Prop :=
  ∀ {m : M}, Valid m → ∀ dst src n : Nat, src + n ≤ (bytes m).length → dst + n ≤ (bytes m).length →
    Refines m (copyBlock m dst src n) (some (),splice (bytes m) dst (slice (bytes m) src n))

theorem copyBlock_refines {readExact : M → Nat → Nat → Checked (Option (List Byte))}
    {writeAll : M → Nat → List Byte → Checked (Option Unit × M)}
    (exact_law : ∀ {m : M}, Valid m → ∀ addr n, readExact m addr n = .ok (FlatArray.read (bytes m) addr n))
    (write_law : ∀ {m : M}, Valid m → ∀ addr src,
      Refines m (writeAll m addr src) (FlatArray.write (bytes m) addr src)) :
    CopiesBlocks (Provided.copyBlock readExact writeAll) := by
  intro m valid dst src n readable writable
  have law := write_law valid dst (slice (bytes m) src n)
  rw [FlatArray.write,if_pos (by rw [slice_length readable]; exact writable)] at law
  rw [Provided.copyBlock,exact_law valid,FlatArray.read,if_pos readable,ok_bind]
  exact law

variable {copyBlock : M → Nat → Nat → Nat → Checked (Option Unit × M)} {dst src n unit : Nat}

theorem copyForward_refines (blocks : CopiesBlocks copyBlock) (some_unit : 0 < unit) {xs : List Byte}
    (disjoint : dst ≤ src ∨ src + n ≤ dst) (readable : src + n ≤ xs.length)
    (writable : dst + n ≤ xs.length) {done : Nat} (part : done ≤ n) {now : M} (valid : Valid now)
    (moved : bytes now = splice xs dst (slice xs src done)) :
    Refines now (copyForward copyBlock unit now dst src n done)
      (some (),splice xs dst (slice xs src n)) := by
  have size : (slice xs src done).length = done := slice_length (by omega)
  have length : (bytes now).length = xs.length := by rw [moved]; exact splice_length (by omega)
  rw [copyForward]
  split
  · rename_i unfinished
    obtain ⟨next,called,valid',same,after⟩ := blocks valid (dst + done) (src + done) (min (n - done) unit)
      (by omega) (by omega)
    have block := FlatArray.ascending_block disjoint readable writable (min (n - done) unit)
      (show done + min (n - done) unit ≤ n by omega)
    have advanced : bytes next = splice xs dst (slice xs src (done + min (n - done) unit)) := by
      rw [after,moved]
      exact block.2
    obtain ⟨last,rest,valid'',same',final⟩ :=
      copyForward_refines blocks some_unit disjoint readable writable (by omega) valid' advanced
    exact ⟨last,by dsimp only; rw [called]; exact rest,valid'',same'.trans same,final⟩
  · have finished : done = n := by omega
    refine ⟨now,rfl,valid,rfl,?_⟩
    rw [moved,finished]
termination_by n - done

theorem copyBackward_refines (blocks : CopiesBlocks copyBlock) (some_unit : 0 < unit) {xs : List Byte}
    (above : src ≤ dst) (readable : src + n ≤ xs.length) (writable : dst + n ≤ xs.length)
    {left : Nat} (part : left ≤ n) {now : M} (valid : Valid now)
    (moved : bytes now = splice xs (dst + left) (slice xs (src + left) (n - left))) :
    Refines now (copyBackward copyBlock unit now dst src left)
      (some (),splice xs dst (slice xs src n)) := by
  have size : (slice xs (src + left) (n - left)).length = n - left := slice_length (by omega)
  have length : (bytes now).length = xs.length := by rw [moved]; exact splice_length (by omega)
  rw [copyBackward]
  split
  · rename_i unfinished
    obtain ⟨next,called,valid',same,after⟩ := blocks valid (dst + (left - min left unit))
      (src + (left - min left unit)) (min left unit) (by omega) (by omega)
    have step : left - min left unit + min left unit = left := by omega
    have block := FlatArray.descending_block above readable writable (min left unit)
      (show left - min left unit + min left unit ≤ n by omega)
    rw [step] at block
    have advanced : bytes next = splice xs (dst + (left - min left unit))
        (slice xs (src + (left - min left unit)) (n - (left - min left unit))) := by
      rw [after,moved]
      exact block.2
    obtain ⟨last,rest,valid'',same',final⟩ :=
      copyBackward_refines blocks some_unit above readable writable (by omega) valid' advanced
    exact ⟨last,by dsimp only; rw [called]; exact rest,valid'',same'.trans same,final⟩
  · have finished : left = 0 := by omega
    refine ⟨now,rfl,valid,rfl,?_⟩
    rw [moved,finished]
    rfl
termination_by left

end Writes

end TinyWasm.Provided
