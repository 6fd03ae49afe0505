import TinyWasm.Memory.Paged

namespace TinyWasm.PagedMemory
open ListRange FlatMemory

-- The stored chunk, with the zeros of an absent one made explicit.
def chunkBytes (m : PagedMemory) (idx : Nat) : List Byte :=
  match m.chunks[idx]? with
  | some (some chunk) => chunk
  | _ => List.replicate m.chunkSize 0

def byteAt (m : PagedMemory) (i : Nat) : Byte :=
  (m.chunkBytes (i / m.chunkSize)).getD (i % m.chunkSize) 0

-- Chunks cover exactly the length, and the rest of the last one is kept zero:
-- growing inside it exposes those bytes.
structure Represents (m : PagedMemory) : Prop where
  count : m.chunks.length = divCeil m.len m.chunkSize
  sized : ∀ chunk, some chunk ∈ m.chunks → chunk.length = m.chunkSize
  tail : ∀ i, m.len ≤ i → m.byteAt i = 0
  fits : m.len ≤ usizeMax

instance [Allocator] : FlatMemory PagedMemory where
  bytes m := (List.range m.len).map m.byteAt
  Valid := Represents
  unit := PagedMemory.chunkSize

variable {m m' : PagedMemory} {addr n idx off i : Nat}

theorem divCeil_le {a c : Nat} (positive : 0 < c) : a ≤ divCeil a c * c := by
  have whole := Nat.div_add_mod a c
  have below := Nat.mod_lt a positive
  have comm := Nat.mul_comm c (a / c)
  unfold divCeil
  split
  · rw [Nat.add_mul]
    omega
  · rw [Nat.add_zero]
    omega

theorem divCeil_lt {a c : Nat} (positive : 0 < c) : divCeil a c * c < a + c := by
  have whole := Nat.div_add_mod a c
  have comm := Nat.mul_comm c (a / c)
  unfold divCeil
  split
  · rw [Nat.add_mul]
    omega
  · rw [Nat.add_zero]
    omega

section Bytes
variable [Allocator]

theorem bytes_length (m : PagedMemory) : (bytes m).length = m.len := by
  simp [bytes]

theorem bytes_getElem? (small : i < m.len) : (bytes m)[i]? = some (m.byteAt i) := by
  simp [bytes,small]

theorem bytes_splice {ys : List Byte} (same : m'.len = m.len) (within : addr + ys.length ≤ m.len)
    (inside : ∀ i, addr ≤ i → (upper : i < addr + ys.length) → ys[i - addr]? = some (m'.byteAt i))
    (outside : ∀ i, i < addr ∨ addr + ys.length ≤ i → m'.byteAt i = m.byteAt i) :
    bytes m' = splice (bytes m) addr ys := by
  have length := bytes_length m
  apply List.ext_getElem?
  intro i
  by_cases small : i < m.len
  · rw [bytes_getElem? (by omega)]
    by_cases range : addr ≤ i ∧ i < addr + ys.length
    · rw [splice_getElem?_inside (by omega) range.1 range.2,inside i range.1 range.2]
    · rw [splice_getElem?_outside (by omega) (by omega),bytes_getElem? small,outside i (by omega)]
  · rw [List.getElem?_eq_none (by rw [bytes_length]; omega),
      List.getElem?_eq_none (by rw [splice_length (by omega)]; omega)]

theorem slice_bytes {ys : List Byte} (within : addr + ys.length ≤ m.len)
    (inside : ∀ i, addr ≤ i → i < addr + ys.length → ys[i - addr]? = some (m.byteAt i)) :
    ys = slice (bytes m) addr ys.length := by
  apply List.ext_getElem?
  intro i
  by_cases small : i < ys.length
  · have here := inside (addr + i) (by omega) (by omega)
    rw [Nat.add_sub_cancel_left] at here
    rw [slice_getElem? small,bytes_getElem? (by omega),here]
  · rw [slice_getElem?_outside (by omega),List.getElem?_eq_none (by omega)]

end Bytes

theorem chunk_present (valid : Represents m) (small : addr < m.len) :
    addr / m.chunkSize < m.chunks.length := by
  rw [valid.count,Nat.div_lt_iff_lt_mul m.chunk_pos]
  exact Nat.lt_of_lt_of_le small (divCeil_le m.chunk_pos)

-- An index inside the chunk of `addr`, as far as the chunk reaches.
theorem same_chunk {c : Nat} (positive : 0 < c) (lower : addr ≤ i) (upper : addr % c + (i - addr) < c) :
    i / c = addr / c ∧ i % c = addr % c + (i - addr) := by
  have start := Nat.div_add_mod addr c
  have split : i = addr % c + (i - addr) + c * (addr / c) := by omega
  constructor
  · rw [split,Nat.add_mul_div_left _ _ positive,Nat.div_eq_of_lt upper,Nat.zero_add]
  · conv_lhs => rw [split]
    rw [Nat.add_mul_mod_self_left,Nat.mod_eq_of_lt upper]

theorem chunkBytes_length (valid : Represents m) (idx : Nat) : (m.chunkBytes idx).length = m.chunkSize := by
  unfold chunkBytes
  split
  · rename_i chunk present
    exact valid.sized chunk (List.mem_of_getElem? present)
  · exact List.length_replicate

theorem chunkBytes_getElem? (valid : Represents m) (i : Nat) :
    (m.chunkBytes (i / m.chunkSize))[i % m.chunkSize]? = some (m.byteAt i) := by
  have small := Nat.mod_lt i m.chunk_pos
  have length := chunkBytes_length valid (i / m.chunkSize)
  rw [byteAt,List.getD_eq_getElem?_getD,List.getElem?_eq_getElem (by omega),Option.getD_some]

theorem setChunk_other {chunk : Option (List Byte)} {other : Nat} (differs : other ≠ idx) :
    (m.setChunk idx chunk).chunkBytes other = m.chunkBytes other := by
  simp only [chunkBytes,setChunk]
  rw [List.getElem?_set_ne (Ne.symm differs)]

theorem setChunk_some {chunk : List Byte} (present : idx < m.chunks.length) :
    (m.setChunk idx (some chunk)).chunkBytes idx = chunk := by
  simp only [chunkBytes,setChunk]
  rw [List.getElem?_set_self present]

theorem setChunk_none (present : idx < m.chunks.length) :
    (m.setChunk idx none).chunkBytes idx = List.replicate m.chunkSize 0 := by
  simp only [chunkBytes,setChunk]
  rw [List.getElem?_set_self present]

-- Every write ends in replacing one chunk by itself with a part overwritten.
theorem store_chunk [Allocator] (chunk : Option (List Byte)) {ys : List Byte} (valid : Represents m)
    (within : addr + ys.length ≤ m.len) (room : addr % m.chunkSize + ys.length ≤ m.chunkSize)
    (sized : ∀ stored, chunk = some stored → stored.length = m.chunkSize)
    (new : (m.setChunk (addr / m.chunkSize) chunk).chunkBytes (addr / m.chunkSize) =
      splice (m.chunkBytes (addr / m.chunkSize)) (addr % m.chunkSize) ys) :
    Represents (m.setChunk (addr / m.chunkSize) chunk) ∧
      bytes (m.setChunk (addr / m.chunkSize) chunk) = splice (bytes m) addr ys := by
  have length := chunkBytes_length valid (addr / m.chunkSize)
  have outside (i : Nat) (apart : i < addr ∨ addr + ys.length ≤ i) :
      (m.setChunk (addr / m.chunkSize) chunk).byteAt i = m.byteAt i := by
    have start := Nat.div_add_mod addr m.chunkSize
    have here := Nat.div_add_mod i m.chunkSize
    simp only [byteAt]
    by_cases same : i / m.chunkSize = addr / m.chunkSize
    · rw [same] at here
      change (chunkBytes _ (i / m.chunkSize)).getD (i % m.chunkSize) 0 = _
      rw [same,new,List.getD_eq_getElem?_getD,List.getD_eq_getElem?_getD,
        splice_getElem?_outside (by omega) (by omega)]
    · change (chunkBytes _ (i / m.chunkSize)).getD (i % m.chunkSize) 0 = _
      rw [setChunk_other same]
  refine ⟨⟨?_,?_,?_,valid.fits⟩,bytes_splice rfl within ?_ outside⟩
  · simpa [setChunk] using valid.count
  · intro stored member
    rcases List.mem_or_eq_of_mem_set member with old | replaced
    · exact valid.sized stored old
    · exact sized stored replaced.symm
  · intro i beyond
    have beyond' : m.len ≤ i := beyond
    rw [outside i (by omega)]
    exact valid.tail i beyond'
  · intro i lower upper
    obtain ⟨quotient,remainder⟩ := same_chunk m.chunk_pos lower
      (show addr % m.chunkSize + (i - addr) < m.chunkSize by omega)
    change ys[i - addr]? = some ((chunkBytes _ (i / m.chunkSize)).getD (i % m.chunkSize) 0)
    rw [quotient,new,remainder,List.getD_eq_getElem?_getD,
      splice_getElem?_inside (by omega) (by omega) (by omega),Nat.add_sub_cancel_left,
      List.getElem?_eq_getElem (by omega),Option.getD_some]

-- The chunk a caller is handed to write, absent or not.
theorem chunkMut_refines [Allocator] [Generous] (addr : Nat) (ys : List Byte) (valid : Represents m)
    (some_bytes : 0 < ys.length) (within : addr + ys.length ≤ m.len)
    (room : addr % m.chunkSize + ys.length ≤ m.chunkSize) :
    Refines m (m.chunkMut (addr / m.chunkSize) (copyFromSlice · (addr % m.chunkSize) ys))
      (.ok (),splice (bytes m) addr ys) := by
  have present := chunk_present valid (show addr < m.len by omega)
  have length := chunkBytes_length valid (addr / m.chunkSize)
  have stored := store_chunk (some (splice (m.chunkBytes (addr / m.chunkSize)) (addr % m.chunkSize) ys)) valid within room
    (fun stored same => by rw [←Option.some.inj same,splice_length (by omega),length])
    (setChunk_some present)
  refine ⟨_,?_,stored.1,rfl,stored.2⟩
  unfold chunkMut
  cases found : m.chunks[addr / m.chunkSize]? with
  | none => rw [List.getElem?_eq_none_iff] at found; omega
  | some chunk =>
    cases chunk with
    | some chunk =>
      have same : m.chunkBytes (addr / m.chunkSize) = chunk := by rw [chunkBytes,found]
      rw [same] at length ⊢
      simp only [copyFromSlice_ok (show addr % m.chunkSize + ys.length ≤ chunk.length by omega),ok_bind]
    | none =>
      have same : m.chunkBytes (addr / m.chunkSize) = List.replicate m.chunkSize 0 := by
        rw [chunkBytes,found]
      rw [same] at length ⊢
      simp only [allocateChunk,Generous.grants,if_true]
      rw [copyFromSlice_ok (by omega),ok_bind]

theorem chunkSlice_eq (valid : Represents m) (small : addr < m.len) :
    ∃ chunk, m.chunkSlice (addr / m.chunkSize) = .ok chunk ∧
      chunk.getD (List.replicate m.chunkSize 0) = m.chunkBytes (addr / m.chunkSize) := by
  have present := chunk_present valid small
  refine ⟨_,by rw [chunkSlice,List.getElem?_eq_getElem present],?_⟩
  rw [chunkBytes,List.getElem?_eq_getElem present]
  cases m.chunks[addr / m.chunkSize] <;> rfl

theorem slice_chunk [Allocator] (valid : Represents m) (within : addr + n ≤ m.len)
    (room : addr % m.chunkSize + n ≤ m.chunkSize) :
    slice (m.chunkBytes (addr / m.chunkSize)) (addr % m.chunkSize) n = slice (bytes m) addr n := by
  have length := chunkBytes_length valid (addr / m.chunkSize)
  have size : (slice (m.chunkBytes (addr / m.chunkSize)) (addr % m.chunkSize) n).length = n :=
    slice_length (by omega)
  have read := slice_bytes (show addr + (slice (m.chunkBytes (addr / m.chunkSize)) (addr % m.chunkSize) n).length ≤
    m.len by omega) (by
      intro i lower upper
      obtain ⟨quotient,remainder⟩ := same_chunk m.chunk_pos lower
        (show addr % m.chunkSize + (i - addr) < m.chunkSize by omega)
      rw [slice_getElem? (by omega),←remainder,←quotient,chunkBytes_getElem? valid])
  rwa [size] at read

theorem unit_dvd (m : PagedMemory) : m.chunkSize ∣ 2 ^ usizeBits := by
  rw [m.size_eq]
  exact Nat.pow_dvd_pow 2 (Nat.le_of_lt m.shift_lt)

theorem chunk_small (m : PagedMemory) : m.chunkSize < 2 ^ usizeBits := by
  rw [m.size_eq]
  exact Nat.pow_lt_pow_right (by omega) m.shift_lt

-- The end of a chunk that holds an address is itself an address, except for the
-- chunk at the end of the address space.
theorem chunk_end_le (m : PagedMemory) (small : addr ≤ usizeMax) :
    (addr / m.chunkSize + 1) * m.chunkSize ≤ 2 ^ usizeBits := by
  obtain ⟨blocks,whole⟩ := m.unit_dvd
  have below : addr < m.chunkSize * blocks := by rw [←whole]; simp only [usizeMax,usizeBits] at *; omega
  have quotient : addr / m.chunkSize < blocks := Nat.div_lt_of_lt_mul below
  rw [whole,Nat.mul_comm m.chunkSize]
  exact Nat.mul_le_mul_right _ quotient

theorem chunk_bounds (m : PagedMemory) (addr : Nat) :
    (addr / m.chunkSize + 1) * m.chunkSize = addr + (m.chunkSize - addr % m.chunkSize) := by
  have start := Nat.div_add_mod addr m.chunkSize
  have inside := Nat.mod_lt addr m.chunk_pos
  rw [Nat.add_mul,Nat.mul_comm,Nat.one_mul]
  omega

theorem transfers_chunk [Allocator] (small : addr < m.len) (n : Nat) :
    Transfers (bytes m) addr n (min (min (m.chunkSize - addr % m.chunkSize) (m.len - addr)) n) := by
  have inside := Nat.mod_lt addr m.chunk_pos
  constructor <;> rw [bytes_length] <;> omega

theorem transfers_none [Allocator] (done : addr ≥ m.len ∨ n = 0) : Transfers (bytes m) addr n 0 := by
  constructor <;> rw [bytes_length] <;> omega

theorem read_transfers [Allocator] (valid : Represents m)
    (reachable : Roomy m (bytes m).length ∨ addr + n ≤ (bytes m).length) :
    ∃ k, Transfers (bytes m) addr n k ∧ m.read addr n = .ok (slice (bytes m) addr k) := by
  rw [bytes_length] at reachable
  unfold read
  split
  · rename_i done
    exact ⟨0,transfers_none done,by rw [slice_zero]⟩
  · rename_i unfinished
    have fits := valid.fits
    have small : addr < m.len := by omega
    have ends := m.chunk_bounds addr
    have limit := m.chunk_end_le (show addr ≤ usizeMax by omega)
    have inside := Nat.mod_lt addr m.chunk_pos
    have narrow := m.chunk_small
    have readLen : min (wrappingSub (min (wrappingShl (addr / m.chunkSize + 1) m.chunkShift) m.len) addr) n =
        min (min (m.chunkSize - addr % m.chunkSize) (m.len - addr)) n := by
      rw [wrappingShl,Nat.shiftLeft_eq,←m.size_eq]
      by_cases wraps : (addr / m.chunkSize + 1) * m.chunkSize = 2 ^ usizeBits
      · -- The chunk ends at the end of the address space, so the length does not reach its end.
        rw [wraps,Nat.mod_self,Nat.zero_min]
        rw [wraps] at ends
        rcases reachable with roomy | within
        · simp only [Roomy,unit,usizeBits] at roomy ends
          omega
        · simp only [wrappingSub,usizeMax,usizeBits] at *
          omega
      · rw [Nat.mod_eq_of_lt (by omega),wrappingSub_fits (by omega) (by omega)]
        omega
    simp only [shift_div,mask_mod]
    rw [readLen]
    obtain ⟨chunk,found,same⟩ := chunkSlice_eq valid small
    have part := slice_chunk valid
      (show addr + min (min (m.chunkSize - addr % m.chunkSize) (m.len - addr)) n ≤ m.len by omega) (by omega)
    refine ⟨_,transfers_chunk small n,?_⟩
    rw [found,ok_bind,←part,←same]
    cases chunk with
    | some chunk =>
      have length := chunkBytes_length valid (addr / m.chunkSize)
      rw [←same] at length
      simp only [Option.getD_some] at length ⊢
      exact sliceAt_ok (by omega)
    | none =>
      simp only [Option.getD_none]
      rw [slice_replicate (by omega)]

theorem write_refines [Allocator] [Generous] (valid : Represents m) (addr : Nat) (src : List Byte) :
    ∃ k, Transfers (bytes m) addr src.length k ∧
      Refines m (m.write addr src) (k,splice (bytes m) addr (src.take k)) := by
  unfold write
  split
  · rename_i done
    have done' : addr ≥ m.len ∨ src.length = 0 := by simpa using done
    exact ⟨0,transfers_none done',m,rfl,valid,rfl,by simp⟩
  · rename_i unfinished
    simp only [ge_iff_le,List.isEmpty_iff,not_or,Nat.not_le] at unfinished
    have some_bytes := List.length_pos_of_ne_nil unfinished.2
    have inside := Nat.mod_lt addr m.chunk_pos
    simp only [shift_div,mask_mod]
    obtain ⟨m',called,law⟩ := chunkMut_refines addr
      (src.take (min (min (m.chunkSize - addr % m.chunkSize) (m.len - addr)) src.length)) valid
      (by simp only [List.length_take]; omega) (by simp only [List.length_take]; omega)
      (by simp only [List.length_take]; omega)
    exact ⟨_,transfers_chunk unfinished.1 src.length,m',by rw [called]; rfl,law⟩

theorem checkedEnd_eq [Allocator] (valid : Represents m) (addr n : Nat) :
    m.checkedEnd addr n = if addr + n ≤ (bytes m).length then some (addr + n) else none := by
  have fits := valid.fits
  rw [bytes_length]
  unfold checkedEnd
  by_cases within : addr + n ≤ m.len
  · rw [checkedAdd_fits (by omega),if_pos within]
    exact if_neg (by omega)
  · rw [if_neg within]
    split
    · rfl
    · rename_i last sum
      rw [if_pos (by rw [checkedAdd_some sum]; omega)]

-- The part of the source already written is the invariant of the loop.
theorem writeAllLoop_refines [Allocator] [Generous] {m : PagedMemory} {xs src : List Byte}
    (within : addr + src.length ≤ xs.length) {done : Nat} (part : done ≤ src.length)
    (valid : Represents m) (written : bytes m = splice xs addr (src.take done)) :
    Refines m (m.writeAllLoop (addr + done) (addr + src.length) src done) (some (),splice xs addr src) := by
  have taken : (src.take done).length = done := by simp only [List.length_take]; omega
  have length : m.len = xs.length := by
    rw [←bytes_length,written]
    exact splice_length (by omega)
  rw [writeAllLoop]
  split
  · rename_i unfinished
    have room := m.room_in_chunk (addr + done)
    have inside := Nat.mod_lt (addr + done) m.chunk_pos
    simp only [shift_div,mask_mod] at room ⊢
    generalize copied : min (m.chunkSize - (addr + done) % m.chunkSize) (addr + src.length - (addr + done)) = k
    have piece : (slice src done k).length = k := slice_length (by omega)
    obtain ⟨m',called,valid',same,after⟩ := chunkMut_refines (addr + done) (slice src done k) valid
      (by omega) (by omega) (by omega)
    rw [sliceAt_ok (by omega),ok_bind,called]
    have grown : src.take (done + k) = src.take done ++ slice src done k := List.take_add
    have advanced : bytes m' = splice xs addr (src.take (done + k)) := by
      rw [after,written,grown,splice_append (by simp only [List.length_append]; omega),taken]
    obtain ⟨last,rest,valid'',same',final⟩ :=
      writeAllLoop_refines within (show done + k ≤ src.length by omega) valid' advanced
    exact ⟨last,by rw [←Nat.add_assoc] at rest; rw [ok_bind]; exact rest,valid'',same'.trans same,final⟩
  · have finished : done = src.length := by omega
    rw [finished,List.take_length] at written
    exact ⟨m,rfl,valid,rfl,written⟩
termination_by src.length - done
decreasing_by omega

theorem writeAll_refines [Allocator] [Generous] (valid : Represents m) (addr : Nat) (src : List Byte) :
    Refines m (m.writeAll addr src) (FlatArray.write (bytes m) addr src) := by
  rw [writeAll,checkedEnd_eq valid,FlatArray.write]
  by_cases within : addr + src.length ≤ (bytes m).length
  · rw [if_pos within,if_pos within]
    exact writeAllLoop_refines within (Nat.zero_le _) valid (by simp)
  · rw [if_neg within,if_neg within]
    exact ⟨m,rfl,valid,rfl,rfl⟩

theorem fillChunk_refines [Allocator] [Generous] (addr k : Nat) (val : Byte) (valid : Represents m)
    (some_bytes : 0 < k) (within : addr + k ≤ m.len) (room : addr % m.chunkSize + k ≤ m.chunkSize) :
    Refines m (m.fillChunk (addr / m.chunkSize) (addr % m.chunkSize)
      (min m.chunkSize (m.len - m.chunkSize * (addr / m.chunkSize))) k val)
      (.ok (),splice (bytes m) addr (List.replicate k val)) := by
  have present := chunk_present valid (show addr < m.len by omega)
  have length := chunkBytes_length valid (addr / m.chunkSize)
  have start := Nat.div_add_mod addr m.chunkSize
  have size : (List.replicate k val).length = k := List.length_replicate
  unfold fillChunk
  split
  · rename_i zero
    subst zero
    split
    · -- The bytes of the chunk that the fill does not reach lie beyond the length.
      rename_i whole
      have new : (m.setChunk (addr / m.chunkSize) none).chunkBytes (addr / m.chunkSize) =
          splice (m.chunkBytes (addr / m.chunkSize)) (addr % m.chunkSize) (List.replicate k 0) := by
        rw [setChunk_none present,whole.1]
        apply List.ext_getElem?
        intro j
        by_cases small : j < m.chunkSize
        · rw [List.getElem?_replicate_of_lt small]
          by_cases filled : j < k
          · rw [splice_getElem?_inside (by omega) (Nat.zero_le _) (by omega),Nat.sub_zero,
              List.getElem?_replicate_of_lt filled]
          · rw [splice_getElem?_outside (by omega) (by omega)]
            obtain ⟨quotient,remainder⟩ := same_chunk m.chunk_pos
              (Nat.le_add_right addr j) (by omega)
            have old := chunkBytes_getElem? valid (addr + j)
            rw [quotient,remainder,whole.1,Nat.zero_add,Nat.add_sub_cancel_left] at old
            rw [old,valid.tail (addr + j) (by omega)]
        · rw [List.getElem?_eq_none (by rw [List.length_replicate]; omega),
            List.getElem?_eq_none (by rw [splice_length (by omega)]; omega)]
      have stored := store_chunk none valid (by omega) (by omega) (by simp) new
      exact ⟨_,rfl,stored.1,rfl,stored.2⟩
    · cases found : m.chunks[addr / m.chunkSize]? with
      | none => rw [List.getElem?_eq_none_iff] at found; omega
      | some chunk =>
        cases chunk with
        | some chunk =>
          have same : m.chunkBytes (addr / m.chunkSize) = chunk := by rw [chunkBytes,found]
          rw [same] at length
          have stored := store_chunk (some (splice chunk (addr % m.chunkSize) (List.replicate k 0))) valid
            (show addr + (List.replicate k (0 : Byte)).length ≤ m.len by omega) (by omega)
            (fun stored eq => by rw [←Option.some.inj eq,splice_length (by omega),length])
            (by rw [setChunk_some present,same])
          refine ⟨_,?_,stored.1,rfl,stored.2⟩
          simp only [copyFromSlice_ok (show addr % m.chunkSize + (List.replicate k (0 : Byte)).length ≤
            chunk.length by omega),ok_bind]
        | none =>
          -- An absent chunk already reads as zeros.
          have same : m.chunkBytes (addr / m.chunkSize) = List.replicate m.chunkSize 0 := by
            rw [chunkBytes,found]
          have already : slice (bytes m) addr k = List.replicate k 0 := by
            rw [←slice_chunk valid (by omega) (by omega),same,slice_replicate (by omega)]
          refine ⟨m,rfl,valid,rfl,?_⟩
          rw [←already,splice_slice_self (by rw [bytes_length]; exact within)]
  · exact chunkMut_refines _ _ valid (by omega) (by omega) (by omega)

theorem fillLoop_refines [Allocator] [Generous] {m : PagedMemory} {xs : List Byte} {val : Byte}
    (within : addr + n ≤ xs.length) {done : Nat} (part : done ≤ n) (valid : Represents m)
    (roomy : m.len + m.chunkSize ≤ 2 ^ usizeBits) (filled : bytes m = splice xs addr (List.replicate done val)) :
    Refines m (m.fillLoop (addr + done) (addr + n) val) (some (),splice xs addr (List.replicate n val)) := by
  have size : (List.replicate done val).length = done := List.length_replicate
  have length : m.len = xs.length := by
    rw [←bytes_length,filled]
    exact splice_length (by omega)
  rw [fillLoop]
  split
  · rename_i unfinished
    have inside := Nat.mod_lt (addr + done) m.chunk_pos
    have start := Nat.div_add_mod (addr + done) m.chunkSize
    have comm := Nat.mul_comm m.chunkSize ((addr + done) / m.chunkSize)
    have fits := valid.fits
    have start_eq : ((addr + done) / m.chunkSize) <<< m.chunkShift =
        m.chunkSize * ((addr + done) / m.chunkSize) := by rw [Nat.shiftLeft_eq,←m.size_eq,comm]
    simp only [shift_div,mask_mod,start_eq]
    have sum : wrappingAdd (m.chunkSize * ((addr + done) / m.chunkSize)) m.chunkSize =
        m.chunkSize * ((addr + done) / m.chunkSize) + m.chunkSize := by
      apply wrappingAdd_fits
      simp only [usizeMax,usizeBits] at *
      omega
    rw [sum]
    generalize chunkEnd : min (m.chunkSize * ((addr + done) / m.chunkSize) + m.chunkSize) (addr + n) = e
    rw [wrappingSub_fits (by omega) (by omega)]
    obtain ⟨m',called,valid',same,after⟩ := fillChunk_refines (addr + done) (e - (addr + done)) val valid
      (by omega) (by omega) (by omega)
    rw [called,ok_bind]
    dsimp only
    rw [dif_neg (by omega)]
    have grown : List.replicate (done + (e - (addr + done))) val =
        List.replicate done val ++ List.replicate (e - (addr + done)) val := List.replicate_add _ _ _
    have advanced : bytes m' = splice xs addr (List.replicate (done + (e - (addr + done))) val) := by
      rw [after,filled,grown,splice_append (by simp only [List.length_append,List.length_replicate]; omega),
        size]
    have roomy' : m'.len + m'.chunkSize ≤ 2 ^ usizeBits := by
      have unchanged : m'.len = m.len := by
        rw [←bytes_length m',←bytes_length m,after]
        exact splice_length (by simp only [bytes_length,List.length_replicate]; omega)
      have unit_eq : m'.chunkSize = m.chunkSize := same
      rw [unchanged,unit_eq]
      exact roomy
    obtain ⟨last,rest,valid'',same',final⟩ := fillLoop_refines within
      (show done + (e - (addr + done)) ≤ n by omega) valid' roomy' advanced
    have here : addr + (done + (e - (addr + done))) = e := by omega
    rw [here] at rest
    exact ⟨last,rest,valid'',same'.trans same,final⟩
  · have finished : done = n := by omega
    rw [finished] at filled
    exact ⟨m,rfl,valid,rfl,filled⟩
termination_by n - done
decreasing_by omega

theorem fill_refines [Allocator] [Generous] (valid : Represents m) (roomy : Roomy m (bytes m).length)
    (addr n : Nat) (val : Byte) : Refines m (m.fill addr n val) (FlatArray.fill (bytes m) addr n val) := by
  rw [bytes_length] at roomy
  rw [fill,checkedEnd_eq valid,FlatArray.fill,FlatArray.write,List.length_replicate]
  by_cases within : addr + n ≤ (bytes m).length
  · rw [if_pos within,if_pos within]
    exact fillLoop_refines within (Nat.zero_le _) valid roomy (by simp)
  · rw [if_neg within,if_neg within]
    exact ⟨m,rfl,valid,rfl,rfl⟩

theorem readExact_eq [Allocator] (valid : Represents m) (addr n : Nat) :
    m.readExact addr n = .ok (FlatArray.read (bytes m) addr n) :=
  Provided.readExact_eq (bytes_length m).symm (by rw [bytes_length]; exact valid.fits)
    (Provided.Transfers.progresses fun _ _ within => read_transfers valid (Or.inr within)) addr n

-- Inside one chunk the copy is a single move; an absent chunk has only zeros to move.
theorem copyWithinSingleChunk_cases [Allocator] {dst src : Nat} (valid : Represents m)
    (readable : src + n ≤ (bytes m).length) (writable : dst + n ≤ (bytes m).length) (some_bytes : n ≠ 0) :
    m.copyWithinSingleChunk dst src n = .ok (false,m) ∨
      Refines m (m.copyWithinSingleChunk dst src n) (true,splice (bytes m) dst (slice (bytes m) src n)) := by
  rw [bytes_length] at readable writable
  rw [copyWithinSingleChunk,checkedEnd_eq valid,checkedEnd_eq valid,bytes_length,if_neg some_bytes,
    if_pos readable,if_pos writable]
  simp only [shift_div,mask_mod,Option.isNone_some,Bool.false_eq_true,or_self,if_false]
  split
  · exact Or.inl rfl
  · rename_i same_idx
    split
    · exact Or.inl rfl
    · rename_i inside
      right
      simp only [ne_eq,not_not] at same_idx
      have present := chunk_present valid (show src < m.len by omega)
      have length := chunkBytes_length valid (src / m.chunkSize)
      have moved := slice_chunk valid readable (by omega)
      have size : (slice (bytes m) src n).length = n := slice_length (by rw [bytes_length]; omega)
      cases found : m.chunks[src / m.chunkSize]? with
      | none => rw [List.getElem?_eq_none_iff] at found; omega
      | some chunk =>
        cases chunk with
        | some chunk =>
          have same : m.chunkBytes (src / m.chunkSize) = chunk := by rw [chunkBytes,found]
          rw [same] at length moved
          have stored := store_chunk (some (splice chunk (dst % m.chunkSize) (slice (bytes m) src n))) valid
            (show dst + (slice (bytes m) src n).length ≤ m.len by omega) (by omega)
            (fun stored eq => by rw [←Option.some.inj eq,splice_length (by omega),length])
            (by rw [←same_idx,setChunk_some present,same])
          rw [←same_idx] at stored
          refine ⟨_,?_,stored.1,rfl,stored.2⟩
          simp only [sliceAt_ok (show src % m.chunkSize + n ≤ chunk.length by omega),ok_bind,moved,
            copyFromSlice_ok (show dst % m.chunkSize + (slice (bytes m) src n).length ≤ chunk.length by omega)]
        | none =>
          have same : m.chunkBytes (src / m.chunkSize) = List.replicate m.chunkSize 0 := by
            rw [chunkBytes,found]
          have already : slice (bytes m) dst n = slice (bytes m) src n := by
            rw [←moved,←slice_chunk valid writable (by omega),←same_idx,same,slice_replicate (by omega),
              slice_replicate (by omega)]
          refine ⟨m,rfl,valid,rfl,?_⟩
          rw [←already,splice_slice_self (by rw [bytes_length]; exact writable)]

theorem copyWithin_refines [Allocator] [Generous] (valid : Represents m) (dst src n : Nat) :
    Refines m (m.copyWithin dst src n) (FlatArray.copyWithin (bytes m) dst src n) := by
  by_cases within : src + n ≤ (bytes m).length ∧ dst + n ≤ (bytes m).length
  · obtain ⟨readable,writable⟩ := within
    have flat : FlatArray.copyWithin (bytes m) dst src n =
        (some (),splice (bytes m) dst (slice (bytes m) src n)) := if_pos ⟨readable,writable⟩
    rw [flat,copyWithin,checkedEnd_eq valid,checkedEnd_eq valid,if_pos readable,if_pos writable]
    dsimp only
    split
    · rename_i trivial_copy
      refine ⟨m,rfl,valid,rfl,?_⟩
      rcases trivial_copy with rfl | rfl
      · simp
      · rw [splice_slice_self readable]
    · rename_i moves
      have blocks : Provided.CopiesBlocks (Provided.copyBlock PagedMemory.readExact PagedMemory.writeAll) :=
        Provided.copyBlock_refines (fun valid => readExact_eq valid) (fun valid => writeAll_refines valid)
      rcases copyWithinSingleChunk_cases valid readable writable (by omega) with refused | ⟨m',called,law⟩
      · rw [refused,ok_bind]
        simp only [Bool.false_eq_true,if_false]
        split
        · exact Provided.copyForward_refines blocks (by omega) (by omega) readable writable
            (Nat.zero_le _) valid (by simp)
        · exact Provided.copyBackward_refines blocks (by omega) (by omega) readable writable
            (Nat.le_refl _) valid (by simp)
      · rw [called,ok_bind]
        exact ⟨m',rfl,law⟩
  · have flat : FlatArray.copyWithin (bytes m) dst src n = (none,bytes m) := if_neg within
    refine ⟨m,?_,valid,rfl,by rw [flat]⟩
    rw [flat,copyWithin,checkedEnd_eq valid,checkedEnd_eq valid]
    by_cases readable : src + n ≤ (bytes m).length
    · rw [if_pos readable,if_neg (fun writable => within ⟨readable,writable⟩)]
    · rw [if_neg readable]

theorem chunkBytes_grown {extra : Nat} (longer : m'.chunks = m.chunks ++ List.replicate extra none)
    (same : m'.chunkSize = m.chunkSize) (idx : Nat) : m'.chunkBytes idx = m.chunkBytes idx := by
  simp only [chunkBytes,longer,same]
  by_cases old : idx < m.chunks.length
  · rw [List.getElem?_append_left old]
  · rw [List.getElem?_append_right (by omega),List.getElem?_eq_none (Nat.le_of_not_lt old)]
    rcases Nat.lt_or_ge (idx - m.chunks.length) extra with fresh | beyond
    · rw [List.getElem?_replicate_of_lt fresh]
    · rw [List.getElem?_eq_none (by rw [List.length_replicate]; omega)]

-- A longer memory with more absent chunks, or with none more when the last chunk has room.
theorem grown_represents [Allocator] (extra : Nat) (valid : Represents m)
    (longer : m'.chunks = m.chunks ++ List.replicate extra none) (same : m'.chunkSize = m.chunkSize)
    (grows : m.len ≤ m'.len) (count : m'.chunks.length = divCeil m'.len m'.chunkSize)
    (fits : m'.len ≤ usizeMax) :
    Represents m' ∧ bytes m' = FlatArray.extend (bytes m) m'.len 0 := by
  have byte (i : Nat) : m'.byteAt i = m.byteAt i := by
    rw [byteAt,byteAt,chunkBytes_grown longer same,same]
  refine ⟨⟨count,?_,?_,fits⟩,?_⟩
  · intro stored member
    rw [longer,List.mem_append,List.mem_replicate] at member
    rcases member with old | ⟨_,none⟩
    · rw [same]
      exact valid.sized stored old
    · cases none
  · intro i beyond
    rw [byte,valid.tail i (by omega)]
  · have length := bytes_length m
    apply List.ext_getElem?
    intro i
    by_cases old : i < m.len
    · rw [bytes_getElem? (by omega),FlatArray.extend_getElem?_old _ (by omega),bytes_getElem? old,byte]
    · by_cases new : i < m'.len
      · rw [bytes_getElem? new,FlatArray.extend_getElem?_new _ (by omega) new,byte,valid.tail i (by omega)]
      · rw [List.getElem?_eq_none (by rw [bytes_length]; omega),
          List.getElem?_eq_none (by rw [FlatArray.extend_length (by omega)]; omega)]

theorem divCeil_mono {a b c : Nat} (positive : 0 < c) (le : a ≤ b) : divCeil a c ≤ divCeil b c := by
  have covered := divCeil_le (a := b) positive
  have tight := divCeil_lt (a := a) positive
  by_contra more
  have next : (divCeil b c + 1) * c ≤ divCeil a c * c := Nat.mul_le_mul_right c (by omega)
  rw [Nat.add_mul] at next
  omega

theorem growTo_refines [Allocator] [Generous] (valid : Represents m) (fits : n ≤ usizeMax) :
    Refines m (.ok (m.growTo n)) (if (bytes m).length ≤ n then (.ok (),FlatArray.extend (bytes m) n 0)
      else (.error (memoryOob n 0 (bytes m).length),bytes m)) := by
  rw [bytes_length,growTo]
  by_cases shrinks : n < m.len
  · rw [if_pos shrinks,if_neg (by omega)]
    exact ⟨m,rfl,valid,rfl,rfl⟩
  · have count : (if n = 0 then 0 else divCeil n m.chunkSize) = divCeil n m.chunkSize := by
      split
      · rename_i zero
        simp [zero,divCeil]
      · rfl
    have more := divCeil_mono m.chunk_pos (show m.len ≤ n by omega)
    have old := valid.count
    rw [if_neg shrinks,if_pos (show m.len ≤ n by omega)]
    simp only [count,Generous.grants,if_true]
    split
    · have law := grown_represents (divCeil n m.chunkSize - m.chunks.length) valid
        (show PagedMemory.chunks {m with
          chunks := m.chunks ++ List.replicate (divCeil n m.chunkSize - m.chunks.length) none,len := n} = _ from rfl) rfl (by simp only; omega)
        (by simp only [List.length_append,List.length_replicate]; omega) fits
      exact ⟨_,rfl,law.1,rfl,law.2⟩
    · have law := grown_represents 0 valid
        (show PagedMemory.chunks {m with chunks := m.chunks.take (divCeil n m.chunkSize),len := n} = _ by
          simp only [List.replicate_zero,List.append_nil]; exact List.take_of_length_le (by omega))
        rfl (by simp only; omega) (by simp only [List.length_take]; omega) fits
      exact ⟨_,rfl,law.1,rfl,law.2⟩

theorem read8_eq [Allocator] (valid : Represents m) (addr : Nat) :
    m.read8 addr = .ok (orOob (FlatArray.read (bytes m) addr 1) addr 1 (bytes m)) := by
  rw [read8,FlatArray.read,bytes_length]
  by_cases small : addr < m.len
  · have inside := Nat.mod_lt addr m.chunk_pos
    obtain ⟨chunk,found,same⟩ := chunkSlice_eq valid small
    have length := chunkBytes_length valid (addr / m.chunkSize)
    have part := slice_chunk valid (show addr + 1 ≤ m.len by omega) (by omega)
    rw [if_neg (by omega),if_pos (by omega),shift_div,mask_mod,found,ok_bind,←part,←same]
    rw [←same] at length
    cases chunk with
    | none => simp only [Option.getD_none]; rw [slice_replicate (by omega)]; rfl
    | some chunk =>
      simp only [Option.getD_some] at length ⊢
      rw [sliceAt_ok (by omega)]
      rfl
  · rw [if_pos (by omega),if_neg (by omega)]
    simp only [orOob,bytes_length]

theorem write8_refines [Allocator] [Generous] (valid : Represents m) (addr : Nat) {src : List Byte}
    (sized : src.length = 1) : Refines m (m.write8 addr src)
      (orOob (FlatArray.write (bytes m) addr src).1 addr 1 (bytes m),(FlatArray.write (bytes m) addr src).2) := by
  rw [write8,FlatArray.write,bytes_length,sized]
  by_cases small : addr < m.len
  · have inside := Nat.mod_lt addr m.chunk_pos
    have all : src.take 1 = src := List.take_of_length_le (by omega)
    rw [if_neg (by omega),if_pos (by omega),shift_div,mask_mod,all]
    exact chunkMut_refines _ _ valid (by omega) (by omega) (by omega)
  · rw [if_pos (by omega),if_neg (by omega)]
    simp only [orOob,bytes_length]
    exact ⟨m,rfl,valid,rfl,rfl⟩

instance [Allocator] [Generous] : LawfulMemory PagedMemory where
  len_law {m} _ := (bytes_length m).symm
  fits_law {m} valid := by rw [bytes_length]; exact valid.fits
  grow_law := growTo_refines
  read_law valid := read_transfers valid
  write_law := write_refines
  readExact_law := readExact_eq
  readVec_law {m} valid addr n := Provided.readVec_eq (bytes_length m).symm
    (by rw [bytes_length]; exact valid.fits) (readExact_eq valid) addr n
  writeAll_law := writeAll_refines
  fill_law := fill_refines
  copyWithin_law := copyWithin_refines
  readFixed_law {m} valid width addr := by
    simp only [LinearMemory.readFixed]
    split
    · rename_i narrow
      rw [narrow]
      exact read8_eq valid addr
    · exact Provided.readFixed_eq (bytes_length m).symm (readExact_eq valid) width addr
  writeFixed_law valid width addr src sized := by
    simp only [LinearMemory.writeFixed]
    split
    · rename_i narrow
      rw [narrow] at sized ⊢
      exact write8_refines valid addr sized
    · exact Provided.writeFixed_refines (fun {m} _ => (bytes_length m).symm)
        (writeAll_refines valid addr src) width

end TinyWasm.PagedMemory
