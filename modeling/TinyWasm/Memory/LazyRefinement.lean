import TinyWasm.Memory.Lazy

namespace TinyWasm
open FlatMemory LawfulMemory ListRange

section Backends
variable [Allocator] [Generous]

theorem MemoryBackend.enough {storage : EagerStorage} {initialLen : Nat} (valid : Valid storage)
    (zeros : bytes storage = List.replicate initialLen 0) : ¬LinearMemory.len storage < initialLen := by
  rw [len_law valid,zeros,List.length_replicate]
  omega

theorem MemoryBackend.create_paged {chunkSize initialLen : Nat} (powerOfTwo : PagedMemory.IsChunkSize chunkSize)
    (fits : initialLen ≤ usizeMax) : ∃ memory,
      (MemoryBackend.paged chunkSize powerOfTwo).create initialLen = .ok (.paged memory) ∧
        Valid memory ∧ unit memory = chunkSize ∧ bytes memory = List.replicate initialLen 0 := by
  obtain ⟨memory,made,valid,same,zeros⟩ := PagedMemory.tryNew_fresh powerOfTwo fits
  refine ⟨memory,?_,valid,same,zeros⟩
  simp only [create,made]
  exact if_neg (enough (show Valid (EagerStorage.paged memory) from valid) zeros)

theorem MemoryBackend.create_fresh (backend : MemoryBackend) {initialLen : Nat} (fits : initialLen ≤ usizeMax) :
    ∃ storage, backend.create initialLen = .ok storage ∧ Valid storage ∧ unit storage = backend.granularity ∧
      bytes storage = List.replicate initialLen 0 := by
  cases backend with
  | vec =>
    have valid : Valid (EagerStorage.vec ⟨List.replicate initialLen 0⟩) := by
      simp only [Valid,List.length_replicate]
      exact fits
    refine ⟨.vec ⟨List.replicate initialLen 0⟩,?_,valid,rfl,rfl⟩
    simp only [create,VecMemory.tryNew_eq]
    exact if_neg (enough valid rfl)
  | paged chunkSize powerOfTwo =>
    obtain ⟨memory,made,valid,same,zeros⟩ := create_paged powerOfTwo fits
    exact ⟨.paged memory,made,valid,same,zeros⟩

end Backends

namespace LazyLinearMemory
variable [Allocator]

-- A memory that was never materialised stands for zeros.
instance : FlatMemory LazyLinearMemory where
  bytes m := match m.inner with
    | some storage => bytes storage
    | none => List.replicate m.initialLen 0
  Valid m := match m.inner with
    | some storage => Valid storage ∧ unit storage = m.backend.granularity
    | none => m.initialLen ≤ usizeMax
  unit m := m.backend.granularity

variable {m : LazyLinearMemory} {storage : EagerStorage}

theorem bytes_some (inner : m.inner = some storage) : bytes m = bytes storage := by
  simp only [bytes,inner]

theorem bytes_none (inner : m.inner = none) : bytes m = List.replicate m.initialLen 0 := by
  simp only [bytes,inner]

theorem onStorage_refines {α : Type} {result : Checked (α × EagerStorage)} {flat : α × List Byte}
    (law : Refines storage result flat) (same : unit storage = m.backend.granularity) :
    Refines m (m.onStorage result) flat := by
  obtain ⟨storage',called,valid,kept,after⟩ := law
  exact ⟨{m with inner := some storage'},by rw [called]; rfl,⟨valid,kept.trans same⟩,rfl,after⟩

theorem keeps_refines {α : Type} {r : α} {xs : List Byte} (valid : Valid m) (same : xs = bytes m) :
    Refines m (.ok (r,m)) (r,xs) := ⟨m,rfl,valid,rfl,same.symm⟩

variable [Generous]

theorem len_eq (valid : Valid m) : m.len = (bytes m).length := by
  unfold len
  cases inner : m.inner with
  | some storage =>
    simp only [Valid,inner] at valid
    rw [bytes_some inner]
    exact len_law valid.1
  | none =>
    rw [bytes_none inner]
    exact List.length_replicate.symm

theorem fits (valid : Valid m) : (bytes m).length ≤ usizeMax := by
  cases inner : m.inner with
  | some storage =>
    simp only [Valid,inner] at valid
    rw [bytes_some inner]
    exact fits_law valid.1
  | none =>
    simp only [Valid,inner] at valid
    rw [bytes_none inner,List.length_replicate]
    exact valid

-- The storage an operation runs on, created now or earlier.
theorem backed (valid : Valid m) : ∃ storage, m.materialize = .ok storage ∧
    m.tryMaterialize = .ok (.ok storage) ∧ Valid storage ∧ unit storage = m.backend.granularity ∧
      bytes storage = bytes m := by
  unfold materialize tryMaterialize
  cases inner : m.inner with
  | some storage =>
    simp only [Valid,inner] at valid
    exact ⟨storage,rfl,rfl,valid.1,valid.2,(bytes_some inner).symm⟩
  | none =>
    simp only [Valid,inner] at valid
    obtain ⟨storage,made,fresh,same,zeros⟩ := m.backend.create_fresh valid
    exact ⟨storage,by rw [made],by rw [made],fresh,same,zeros.trans (bytes_none inner).symm⟩

theorem growTo_refines {n : Nat} (valid : Valid m) (fits : n ≤ usizeMax) :
    Refines m (m.growTo n) (if (bytes m).length ≤ n then (.ok (),FlatArray.extend (bytes m) n 0)
      else (.error (memoryOob n 0 (bytes m).length),bytes m)) := by
  obtain ⟨storage,_,created,fresh,same,equal⟩ := backed valid
  rw [growTo,created,ok_bind,←equal]
  exact onStorage_refines (grow_law fresh fits) same

theorem read_transfers {addr n : Nat} (valid : Valid m)
    (reachable : Roomy m (bytes m).length ∨ addr + n ≤ (bytes m).length) :
    ∃ k, Transfers (bytes m) addr n k ∧ m.read addr n = .ok (slice (bytes m) addr k) := by
  unfold read
  cases inner : m.inner with
  | some storage =>
    simp only [Valid,inner] at valid
    simp only [Roomy,unit,bytes_some inner] at reachable
    rw [bytes_some inner]
    exact read_law valid.1 (by simpa only [Roomy,valid.2] using reachable)
  | none =>
    rw [bytes_none inner]
    refine ⟨min n (m.initialLen - addr),⟨?_,?_⟩,?_⟩
    · simp only [List.length_replicate,Nat.le_refl]
    · rw [List.length_replicate]
      exact id
    · simp only
      split
      · have nothing : min n (m.initialLen - addr) = 0 := by omega
        rw [nothing,slice_zero]
      · rw [slice_replicate (by omega)]

theorem write_refines (valid : Valid m) (addr : Nat) (src : List Byte) :
    ∃ k, Transfers (bytes m) addr src.length k ∧
      Refines m (m.write addr src) (k,splice (bytes m) addr (src.take k)) := by
  rw [write,len_eq valid]
  split
  · rename_i nothing
    refine ⟨0,⟨Nat.zero_le _,?_⟩,keeps_refines valid (by simp)⟩
    rcases nothing with empty | outside
    · rw [List.isEmpty_iff.mp empty]
      simp
    · omega
  · obtain ⟨storage,created,_,fresh,same,equal⟩ := backed valid
    rw [created,ok_bind,←equal]
    obtain ⟨k,part,law⟩ := write_law fresh addr src
    exact ⟨k,part,onStorage_refines law same⟩

-- Each shortcut before the storage exists refuses what the flat array refuses
-- and leaves alone what the flat array would leave alone.
theorem writeAll_refines (valid : Valid m) (addr : Nat) (src : List Byte) :
    Refines m (m.writeAll addr src) (FlatArray.write (bytes m) addr src) := by
  have bound := fits valid
  rw [writeAll,len_eq valid]
  by_cases within : addr + src.length ≤ (bytes m).length
  · have flat : FlatArray.write (bytes m) addr src = (some (),splice (bytes m) addr src) := if_pos within
    rw [checkedAdd_fits (by omega)]
    simp only
    rw [if_neg (by omega)]
    split
    · rename_i empty
      have nothing : src = [] := List.isEmpty_iff.mp empty
      rw [flat,nothing]
      exact keeps_refines valid (splice_nil _ _)
    · obtain ⟨storage,created,_,fresh,same,equal⟩ := backed valid
      rw [created,ok_bind,←equal]
      exact onStorage_refines (writeAll_law fresh addr src) same
  · have flat : FlatArray.write (bytes m) addr src = (none,bytes m) := if_neg within
    rw [flat]
    split
    · exact keeps_refines valid rfl
    · rename_i last sum
      rw [if_pos (by rw [checkedAdd_some sum]; omega)]
      exact keeps_refines valid rfl

theorem fill_refines (valid : Valid m) (roomy : Roomy m (bytes m).length) (addr n : Nat) (val : Byte) :
    Refines m (m.fill addr n val) (FlatArray.fill (bytes m) addr n val) := by
  have bound := fits valid
  rw [fill,len_eq valid]
  by_cases within : addr + n ≤ (bytes m).length
  · have flat : FlatArray.fill (bytes m) addr n val = (some (),splice (bytes m) addr (List.replicate n val)) := by
      rw [FlatArray.fill,FlatArray.write,List.length_replicate,if_pos within]
    rw [checkedAdd_fits (by omega)]
    simp only
    rw [if_neg (by omega)]
    split
    · rename_i stays
      rw [flat]
      apply keeps_refines valid
      rcases stays with rfl | ⟨rfl,virtual⟩
      · exact splice_nil _ _
      · -- Zeros written over the zeros of a memory that does not exist yet.
        have zeros := bytes_none (Option.isNone_iff_eq_none.mp virtual)
        rw [zeros,List.length_replicate] at within
        rw [zeros,←slice_replicate (x := (0 : Byte)) within]
        exact splice_slice_self (by rw [List.length_replicate]; exact within)
    · obtain ⟨storage,created,_,fresh,same,equal⟩ := backed valid
      rw [created,ok_bind,←equal]
      refine onStorage_refines (fill_law fresh ?_ addr n val) same
      rw [Roomy,same,equal]
      exact roomy
  · have flat : FlatArray.fill (bytes m) addr n val = (none,bytes m) := by
      rw [FlatArray.fill,FlatArray.write,List.length_replicate,if_neg within]
    rw [flat]
    split
    · exact keeps_refines valid rfl
    · rename_i last sum
      rw [if_pos (by rw [checkedAdd_some sum]; omega)]
      exact keeps_refines valid rfl

theorem copyWithin_refines (valid : Valid m) (dst src n : Nat) :
    Refines m (m.copyWithin dst src n) (FlatArray.copyWithin (bytes m) dst src n) := by
  have bound := fits valid
  rw [copyWithin,len_eq valid]
  by_cases within : src + n ≤ (bytes m).length ∧ dst + n ≤ (bytes m).length
  · have flat : FlatArray.copyWithin (bytes m) dst src n =
        (some (),splice (bytes m) dst (slice (bytes m) src n)) := if_pos within
    obtain ⟨readable,writable⟩ := within
    rw [checkedAdd_fits (by omega),checkedAdd_fits (by omega)]
    simp only
    rw [if_neg (by omega)]
    split
    · rename_i stays
      rw [flat]
      apply keeps_refines valid
      rcases stays with virtual | rfl | rfl
      · have zeros := bytes_none (Option.isNone_iff_eq_none.mp virtual)
        rw [zeros,List.length_replicate] at readable writable
        rw [zeros,slice_replicate readable,←slice_replicate (x := (0 : Byte)) writable]
        exact splice_slice_self (by rw [List.length_replicate]; exact writable)
      · rw [slice_zero,splice_nil]
      · exact splice_slice_self readable
    · obtain ⟨storage,created,_,fresh,same,equal⟩ := backed valid
      rw [created,ok_bind,←equal]
      exact onStorage_refines (copyWithin_law fresh dst src n) same
  · have flat : FlatArray.copyWithin (bytes m) dst src n = (none,bytes m) := if_neg within
    rw [flat]
    split
    · rename_i srcEnd dstEnd srcSum dstSum
      have first := checkedAdd_some srcSum
      have second := checkedAdd_some dstSum
      rw [if_pos (by omega)]
      exact keeps_refines valid rfl
    · exact keeps_refines valid rfl

theorem readExact_eq (valid : Valid m) (addr n : Nat) :
    LinearMemory.readExact m addr n = .ok (FlatArray.read (bytes m) addr n) :=
  Provided.readExact_eq (len_eq valid) (fits valid)
    (Provided.Transfers.progresses fun _ _ within => read_transfers valid (Or.inr within)) addr n

instance : LawfulMemory LazyLinearMemory where
  len_law := len_eq
  fits_law := fits
  grow_law := growTo_refines
  read_law valid := read_transfers valid
  write_law := write_refines
  readExact_law := readExact_eq
  readVec_law valid := Provided.readVec_eq (len_eq valid) (fits valid) (readExact_eq valid)
  writeAll_law := writeAll_refines
  fill_law := fill_refines
  copyWithin_law := copyWithin_refines
  readFixed_law valid := Provided.readFixed_eq (len_eq valid) (readExact_eq valid)
  writeFixed_law valid width addr src _ :=
    Provided.writeFixed_refines len_eq (writeAll_refines valid addr src) width

end LazyLinearMemory

end TinyWasm
