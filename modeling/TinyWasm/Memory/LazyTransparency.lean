import TinyWasm.Memory.LazyRefinement

namespace TinyWasm
open FlatMemory LawfulMemory ListRange

-- The chunk of the last byte ends at the end of the address space once the
-- length leaves no room for a whole chunk above it.
theorem PagedMemory.last_chunk_end {m : PagedMemory} (fits : m.len ≤ usizeMax)
    (tight : 2 ^ usizeBits < m.len + m.chunkSize) :
    ((m.len - 1) / m.chunkSize + 1) * m.chunkSize = 2 ^ usizeBits := by
  obtain ⟨blocks,whole⟩ := m.unit_dvd
  have upper := m.chunk_end_le (show m.len - 1 ≤ usizeMax by omega)
  have inside := Nat.mod_lt (m.len - 1) m.chunk_pos
  have ends := m.chunk_bounds (m.len - 1)
  have next : blocks * m.chunkSize < ((m.len - 1) / m.chunkSize + 1 + 1) * m.chunkSize := by
    rw [Nat.mul_comm,←whole,Nat.add_mul,ends]
    omega
  have lower : blocks ≤ (m.len - 1) / m.chunkSize + 1 := by
    have below := Nat.lt_of_mul_lt_mul_right next
    omega
  have product := Nat.mul_le_mul_right m.chunkSize lower
  rw [Nat.mul_comm blocks,←whole] at product
  omega

theorem PagedMemory.fill_last_diverges [Allocator] {m : PagedMemory} (valid : PagedMemory.Represents m)
    (tight : 2 ^ usizeBits < m.len + m.chunkSize) : m.fill (m.len - 1) 1 0 = .error .diverges := by
  have fits := valid.fits
  have narrow := m.chunk_small
  have some_bytes : 0 < m.len := by omega
  have last := last_chunk_end fits tight
  have ends := m.chunk_bounds (m.len - 1)
  have inside := Nat.mod_lt (m.len - 1) m.chunk_pos
  have present := chunk_present valid (show m.len - 1 < m.len by omega)
  have length := chunkBytes_length valid ((m.len - 1) / m.chunkSize)
  have cleared (full fillLen : Nat) (room : (m.len - 1) % m.chunkSize + fillLen ≤ m.chunkSize) :
      ∃ m', m.fillChunk ((m.len - 1) / m.chunkSize) ((m.len - 1) % m.chunkSize) full fillLen 0 =
        .ok (.ok (),m') := by
    unfold fillChunk
    rw [if_pos rfl]
    split
    · exact ⟨_,rfl⟩
    · cases found : m.chunks[(m.len - 1) / m.chunkSize]? with
      | none => exact ⟨m,rfl⟩
      | some chunk =>
        cases chunk with
        | none => exact ⟨m,rfl⟩
        | some chunk =>
          simp only [chunkBytes,found] at length
          have stored := copyFromSlice_ok (show (m.len - 1) % m.chunkSize +
            (List.replicate fillLen (0 : Byte)).length ≤ chunk.length by rw [List.length_replicate]; omega)
          exact ⟨_,by simp only [stored,ok_bind]; rfl⟩
  have sum : wrappingAdd (((m.len - 1) / m.chunkSize) <<< m.chunkShift) m.chunkSize = 0 := by
    rw [wrappingAdd,Nat.shiftLeft_eq,←m.size_eq]
    rw [Nat.add_mul,Nat.one_mul] at last
    rw [last,Nat.mod_self]
  have fillLen : wrappingSub 0 (m.len - 1) = 2 ^ usizeBits - (m.len - 1) := by
    rw [last] at ends
    simp only [wrappingSub,usizeBits] at *
    omega
  obtain ⟨m',called⟩ := cleared (min m.chunkSize (m.len - ((m.len - 1) / m.chunkSize) <<< m.chunkShift))
    (2 ^ usizeBits - (m.len - 1)) (by omega)
  rw [fill,checkedEnd_eq valid,bytes_length,if_pos (by omega)]
  simp only
  rw [fillLoop,if_pos (by omega)]
  simp only [shift_div,mask_mod]
  rw [sum,Nat.zero_min,fillLen,called,ok_bind]
  simp

-- What a client can observe of a lazy memory and of its eager counterpart: the
-- outcome of every call, and then the length and every readable range.
def Unobservable [Allocator] (backend : MemoryBackend) (initialLen : Nat) (ops : List MemoryOp) : Prop :=
  ∃ eager outs lazy' eager', backend.create initialLen = .ok eager ∧
    MemoryOp.runAll (LazyLinearMemory.newWithInitialLen initialLen backend) ops = .ok (outs,lazy') ∧
    MemoryOp.runAll eager ops = .ok (outs,eager') ∧
    LinearMemory.len lazy' = LinearMemory.len eager' ∧
    ∀ addr n, LinearMemory.readVec lazy' addr n = LinearMemory.readVec eager' addr n

theorem MemoryBackend.granularity_pos (backend : MemoryBackend) : 0 < backend.granularity := by
  cases backend with
  | vec => exact Nat.one_pos
  | paged chunkSize powerOfTwo =>
    obtain ⟨k,_,rfl⟩ := powerOfTwo
    exact Nat.two_pow_pos k

section Transparency
variable [Allocator] [Generous] {backend : MemoryBackend} {initialLen : Nat}

theorem lazy_unobservable {ops : List MemoryOp} (room : initialLen + backend.granularity ≤ 2 ^ usizeBits)
    (whole : ∀ op ∈ ops, op.Whole)
    (growths : ∀ newLen, MemoryOp.growTo newLen ∈ ops → newLen + backend.granularity ≤ 2 ^ usizeBits) :
    Unobservable backend initialLen ops := by
  have positive := backend.granularity_pos
  have fits : 2 ^ usizeBits - backend.granularity ≤ usizeMax := by simp only [usizeMax,usizeBits]; omega
  have grows : ∀ op ∈ ops, op.Grows (2 ^ usizeBits - backend.granularity) := by
    intro op member
    cases op with
    | growTo newLen =>
      have bound := growths newLen member
      simp only [MemoryOp.Grows]
      omega
    | _ => trivial
  obtain ⟨eager,made,valid,same,zeros⟩ :=
    backend.create_fresh (show initialLen ≤ usizeMax by omega)
  have size : (List.replicate initialLen (0 : Byte)).length = initialLen := List.length_replicate
  have eager_running : Running backend.granularity (2 ^ usizeBits - backend.granularity) eager :=
    ⟨valid,same,by rw [zeros,size]; omega,by omega,fits⟩
  have lazy_running : Running backend.granularity (2 ^ usizeBits - backend.granularity)
      (LazyLinearMemory.newWithInitialLen initialLen backend) :=
    ⟨show initialLen ≤ usizeMax by omega,rfl,by
      change (List.replicate initialLen (0 : Byte)).length ≤ _
      rw [size]
      omega,by omega,fits⟩
  obtain ⟨outs,eager',ran,path,after⟩ := run_refines eager_running grows
  obtain ⟨outs',lazy',ran',path',after'⟩ := run_refines lazy_running grows
  rw [zeros] at path
  obtain ⟨rfl,equal⟩ := FlatRun.functional whole path path'
  refine ⟨eager,outs,lazy',eager',made,ran',ran,?_,?_⟩
  · rw [len_law after.valid,len_law after'.valid,equal]
  · intro addr n
    rw [readVec_law after.valid,readVec_law after'.valid,equal]

-- The lazy memory clears nothing where the eager one cannot leave its loop.
theorem tight_observable (fits : initialLen ≤ usizeMax) (tight : 2 ^ usizeBits < initialLen + backend.granularity) :
    ¬Unobservable backend initialLen [.fill (initialLen - 1) 1 0] := by
  rintro ⟨eager,outs,lazy',eager',made,_,ran,_⟩
  cases backend with
  | vec =>
    simp only [MemoryBackend.granularity,usizeMax,usizeBits] at *
    omega
  | paged chunkSize powerOfTwo =>
    obtain ⟨paged,created,valid,same,zeros⟩ := MemoryBackend.create_paged powerOfTwo fits
    have eager_eq : eager = .paged paged := by
      rw [made] at created
      exact Except.ok.inj created
    have length : paged.len = initialLen := by
      rw [←PagedMemory.bytes_length,zeros,List.length_replicate]
    have size : paged.chunkSize = chunkSize := same
    have stuck := PagedMemory.fill_last_diverges valid (by rw [length,size]; exact tight)
    rw [length] at stuck
    rw [eager_eq] at ran
    have failed : MemoryOp.run (EagerStorage.paged paged) (.fill (initialLen - 1) 1 0) = .error .diverges := by
      simp only [MemoryOp.run,LinearMemory.fill,stuck]
      rfl
    rw [MemoryOp.runAll,failed] at ran
    cases ran

theorem lazy_unobservable_iff (fits : initialLen ≤ usizeMax) :
    (∀ ops : List MemoryOp, (∀ op ∈ ops, op.Whole) →
      (∀ newLen, MemoryOp.growTo newLen ∈ ops → newLen + backend.granularity ≤ 2 ^ usizeBits) →
      Unobservable backend initialLen ops) ↔ initialLen + backend.granularity ≤ 2 ^ usizeBits := by
  constructor
  · intro always
    by_contra tight
    refine tight_observable fits (show _ < initialLen + backend.granularity by omega) (always _ ?_ ?_)
    · simp [MemoryOp.Whole]
    · simp
  · exact fun room ops whole growths => lazy_unobservable room whole growths

end Transparency

theorem lazy_unobservable_iff_small_vec :
    letI := Allocator.unlimited
    (∀ ops : List MemoryOp, (∀ op ∈ ops, op.Whole) →
      (∀ newLen, MemoryOp.growTo newLen ∈ ops → newLen + MemoryBackend.vec.granularity ≤ 2 ^ usizeBits) →
      Unobservable .vec 8 ops) ↔ 8 + MemoryBackend.vec.granularity ≤ 2 ^ usizeBits := by
  let _ := Allocator.unlimited
  have _ := Allocator.unlimited_generous
  exact lazy_unobservable_iff (by simp only [usizeMax,usizeBits]; omega)

-- A paged memory of 2^64 - 1 bytes in chunks of 2^62, cleared in its last byte.
theorem lazy_fill_at_address_limit_observable :
    letI := Allocator.unlimited
    ¬∀ (initialLen : Nat) (backend : MemoryBackend) (ops : List MemoryOp), initialLen ≤ usizeMax →
      (∀ op ∈ ops, op.Whole) → (∀ newLen, MemoryOp.growTo newLen ∈ ops → newLen ≤ usizeMax) →
      Unobservable backend initialLen ops := by
  let _ := Allocator.unlimited
  have _ := Allocator.unlimited_generous
  intro always
  refine tight_observable (show 2 ^ 64 - 1 ≤ usizeMax by simp only [usizeMax,usizeBits]; omega)
    (show _ < _ + (MemoryBackend.paged (2 ^ 62) ⟨62,by decide,rfl⟩).granularity by
      simp only [MemoryBackend.granularity,usizeBits]; omega)
    (always _ _ _ (by simp only [usizeMax,usizeBits]; omega) ?_ ?_)
  · simp [MemoryOp.Whole]
  · simp

end TinyWasm
