import TinyWasm.Interpreter.BulkMemory
import TinyWasm.Interpreter.MemoryExactness

namespace TinyWasm
open ListRange FlatMemory LawfulMemory

-- Operands from 2^31 on come out of the cast at the top of the address space.
theorem asUsize_eq (v : Value .s32) :
    asUsize v = if v.toNat < 2 ^ 31 then v.toNat else v.toNat + (2 ^ 64 - 2 ^ 32) := by
  have range : v.toNat < 2 ^ 32 := v.isLt
  have msb : v.msb = decide (2 ^ 31 ≤ v.toNat) := BitVec.msb_eq_decide v
  rw [asUsize,BitVec.toNat_signExtend,BitVec.toNat_setWidth,Nat.mod_eq_of_lt (by simp only [usizeBits]; omega),msb]
  by_cases small : v.toNat < 2 ^ 31
  · rw [if_pos small,if_neg (by simpa using small),Nat.add_zero]
  · rw [if_neg small,if_pos (by simpa using small)]
    rfl

theorem asUsize_add (v w : Value .s32) : asUsize (v + w) =
    if (v.toNat + w.toNat) % 2 ^ 32 < 2 ^ 31 then (v.toNat + w.toNat) % 2 ^ 32
    else (v.toNat + w.toNat) % 2 ^ 32 + (2 ^ 64 - 2 ^ 32) := by
  rw [asUsize_eq,BitVec.toNat_add]
  rfl

-- The check the code makes, on sums that wrap at 2^32 and are then extended.
structure SumsInside (dst src size segment memory : Nat) : Prop where
  small : (src + size) % 2 ^ 32 < 2 ^ 31 ∧ (dst + size) % 2 ^ 32 < 2 ^ 31
  source : (src + size) % 2 ^ 32 ≤ segment
  target : (dst + size) % 2 ^ 32 ≤ memory

theorem init_check_iff {dst offset size : Value .s32} {segment memory : Nat} (sized : segment < 2 ^ 63)
    (bounded : memory ≤ maxMemorySize) :
    ¬(asUsize (size + offset) > segment ∨ asUsize (dst + size) > memory) ↔
      SumsInside dst.toNat offset.toNat size.toNat segment memory := by
  rw [BitVec.add_comm,asUsize_add,asUsize_add]
  simp only [maxMemorySize] at bounded
  constructor
  · intro inside
    constructor <;> split at inside <;> split at inside <;> omega
  · rintro ⟨small,source,target⟩
    rw [if_pos small.1,if_pos small.2]
    omega

def Machine.withMemory (m : Machine) (addr : MemAddr) (mem : MemoryInstance) : Machine :=
  {m with state := {m.state with memories := m.state.memories.set addr mem}}

-- An index of a memory with 32-bit addresses, of up to 4 GiB.
structure Names32 [Allocator] (ctx : Context) (m : Machine) (memIdx : MemAddr) (addr : MemAddr) (mem : MemoryInstance) :
    Prop where
  resolves : ctx.module.memAddrs[memIdx]? = some addr
  found : m.state.memories[addr]? = some mem
  arch : mem.kind.arch = .i32
  backed : Valid mem.inner
  bounded : (bytes mem.inner).length ≤ maxMemorySize

-- A bulk instruction as it is specified: inside its bounds the memory holds the
-- bytes it is to hold, outside them it traps and no byte is another.
structure BulkExact [Allocator] (m : Machine) (addr : MemAddr) (mem : MemoryInstance) (inside : Prop) (written : List Byte)
    (result : Checked (Except Trap Unit × Machine)) : Prop where
  within : inside → ∃ inner, Valid inner ∧ bytes inner = written ∧
    result = .ok (.ok (),m.withMemory addr {mem with inner})
  refused : ¬inside → ∃ trap inner, Valid inner ∧ bytes inner = bytes mem.inner ∧
    result = .ok (.error trap,m.withMemory addr {mem with inner})

-- The two forms of a fill, with their operands on the stack or in the code.
inductive MemoryFill where
  | plain | fused

section Bulk
variable [Allocator] {ctx : Context} {m : Machine} {addr memIdx : MemAddr} {mem : MemoryInstance}
  {inside : Prop} {written : List Byte} {result : Checked (Except Trap Unit × Machine)}

def MemoryFill.exec (ctx : Context) (memIdx : MemAddr) (dst val size : Value .s32) (m : Machine) :
    MemoryFill → Checked (Except Trap Unit × Machine)
  | plain => execMemoryFill ctx memIdx (((m.onTop .s32 dst).onTop .s32 val).onTop .s32 size)
  | fused => execMemoryFillImm ctx memIdx (.ofNat val.toNat) size (m.onTop .s32 dst)

theorem Names32.memory_run (names : Names32 ctx m memIdx addr mem) : ctx.memory memIdx m = .ok (.ok (addr,mem),m) := by
  simp only [Context.memory,State.at_some names.resolves,Exec.ofChecked_bind,Exec.get_bind,
    State.at_some names.found,Exec.pure_run]

theorem Names32.withMemory_same (names : Names32 ctx m memIdx addr mem) : m.withMemory addr mem = m := by
  obtain ⟨below,same⟩ := List.getElem?_eq_some_iff.mp names.found
  rw [Machine.withMemory,←same,List.set_getElem_self below]

theorem BulkExact.of_trap {trap : Trap} {inner : MemoryStorage} (outside : ¬inside) (valid : Valid inner)
    (same : bytes inner = bytes mem.inner) (ran : result = .ok (.error trap,m.withMemory addr {mem with inner})) :
    BulkExact m addr mem inside written result :=
  ⟨fun within => absurd within outside,fun _ => ⟨trap,inner,valid,same,ran⟩⟩

theorem BulkExact.of_done {inner : MemoryStorage} (within : inside) (valid : Valid inner)
    (after : bytes inner = written) (ran : result = .ok (.ok (),m.withMemory addr {mem with inner})) :
    BulkExact m addr mem inside written result :=
  ⟨fun _ => ⟨inner,valid,after,ran⟩,fun outside => absurd within outside⟩

-- A trap inside the bounds is no exact result, nor is a panic anywhere.
theorem BulkExact.trapped {trap : Trap} {m' : Machine} (exact : BulkExact m addr mem inside written (.ok (.error trap,m'))) :
    ¬inside := by
  intro within
  obtain ⟨_,_,_,ran⟩ := exact.within within
  cases ran

theorem BulkExact.trap_iff {trap : Trap} {inner : MemoryStorage} (valid : Valid inner) (same : bytes inner = bytes mem.inner)
    (ran : result = .ok (.error trap,m.withMemory addr {mem with inner})) :
    BulkExact m addr mem inside written result ↔ ¬inside :=
  ⟨fun exact => (ran ▸ exact).trapped,fun outside => .of_trap outside valid same ran⟩

theorem BulkExact.not_panic : ¬BulkExact m addr mem inside written (.error .panic) := by
  intro exact
  by_cases within : inside
  · obtain ⟨_,_,_,ran⟩ := exact.within within
    cases ran
  · obtain ⟨_,_,_,_,ran⟩ := exact.refused within
    cases ran

-- A storage of at most 4 GiB ends a chunk or more below the end of the address
-- space: chunks are powers of two.
theorem EagerStorage.unit_le (storage : EagerStorage) : unit storage ≤ 2 ^ 63 := by
  cases storage with
  | left memory => exact Nat.one_le_two_pow
  | right memory =>
    change memory.chunkSize ≤ 2 ^ 63
    rw [memory.size_eq]
    exact Nat.pow_le_pow_right (by decide) (Nat.le_of_lt_succ memory.shift_lt)

theorem MemoryStorage.unit_le (storage : MemoryStorage) : unit storage ≤ 2 ^ 63 := by
  cases storage with
  | left memory => exact EagerStorage.unit_le memory
  | right memory =>
    change memory.backend.granularity ≤ 2 ^ 63
    cases memory.backend with
    | vec => decide
    | paged chunkSize powerOfTwo =>
      obtain ⟨k,small,rfl⟩ := powerOfTwo
      exact Nat.pow_le_pow_right (by decide) (Nat.le_of_lt_succ small)

theorem Names32.roomy (names : Names32 ctx m memIdx addr mem) : Roomy mem.inner (bytes mem.inner).length := by
  have bounded := names.bounded
  have unit_le := MemoryStorage.unit_le mem.inner
  simp only [Roomy,maxMemorySize,usizeBits] at *
  omega

-- The code runs on the extended operands, which are in bounds only where all of
-- them are what they are read as.
theorem BulkExact.iff_small {small : Prop} (inside' : Prop) [Decidable inside'] (written' : List Byte) (trap : Trap)
    {inner : MemoryStorage} (valid : Valid inner) (after : bytes inner = if inside' then written' else bytes mem.inner)
    (ran : result = .ok (if inside' then .ok () else .error trap,m.withMemory addr {mem with inner}))
    (agrees : small → (inside' ↔ inside) ∧ written' = written) (beyond : ¬small → ¬inside') :
    BulkExact m addr mem inside written result ↔ (inside → small) := by
  by_cases fits : small
  · obtain ⟨same,rfl⟩ := agrees fits
    refine iff_of_true ?_ fun _ => fits
    by_cases within : inside
    · rw [if_pos (same.mpr within)] at after ran
      exact .of_done within valid after ran
    · rw [if_neg fun within' => within (same.mp within')] at after ran
      exact .of_trap within valid after ran
  · rw [if_neg (beyond fits)] at after ran
    rw [BulkExact.trap_iff valid after ran]
    exact ⟨fun outside within => absurd within outside,fun holds within => fits (holds within)⟩

theorem Names32.fillImpl_ran (names : Names32 ctx m memIdx addr mem) {dst size : Value .s32} {val : Byte} {r : Option Unit}
    {inner : MemoryStorage} (filled : LinearMemory.fill mem.inner (asUsize dst) (asUsize size) val = .ok (r,inner)) :
    ∃ trap, execMemoryFillImpl ctx memIdx dst val size m =
      .ok (if r = some () then .ok () else .error trap,m.withMemory addr {mem with inner}) := by
  refine ⟨memoryOob (asUsize dst) (asUsize size) (LinearMemory.len inner),(Exec.bind_ok names.memory_run).trans ?_⟩
  dsimp only
  rw [filled]
  cases r <;> rfl

theorem MemoryFill.exec_eq (form : MemoryFill) (dst val size : Value .s32) :
    form.exec ctx memIdx dst val size m = execMemoryFillImpl ctx memIdx dst (.ofNat val.toNat) size m := by
  cases form with
  | plain =>
    refine (Exec.bind_ok (Machine.pop_onTop _ .s32 size)).trans ?_
    refine (Exec.bind_ok (Machine.pop_onTop _ .s32 val)).trans ?_
    exact Exec.bind_ok (Machine.pop_onTop _ .s32 dst)
  | fused => exact Exec.bind_ok (Machine.pop_onTop _ .s32 dst)

-- A call that writes all it is to write, or is refused and writes nothing.
def MemoryInstance.Writes (mem : MemoryInstance) (within : Prop) [Decidable within] (written : List Byte)
    (call : Checked (Except Trap Unit × MemoryInstance)) : Prop :=
  ∃ trap inner, Valid inner ∧ bytes inner = (if within then written else bytes mem.inner) ∧
    call = .ok (if within then .ok () else .error trap,{mem with inner})

theorem MemoryInstance.Writes.done {mem : MemoryInstance} {within : Prop} [Decidable within] {written : List Byte} {inner : MemoryStorage}
    {call : Checked (Except Trap Unit × MemoryInstance)} (inside : within) (valid : Valid inner)
    (after : bytes inner = written) (called : call = .ok (.ok (),{mem with inner})) : mem.Writes within written call :=
  ⟨.unreachable,inner,valid,by rw [if_pos inside,after],by rw [if_pos inside,called]⟩

theorem MemoryInstance.Writes.refused {mem : MemoryInstance} {within : Prop} [Decidable within] {written : List Byte} {trap : Trap}
    {inner : MemoryStorage} {call : Checked (Except Trap Unit × MemoryInstance)} (outside : ¬within) (valid : Valid inner)
    (same : bytes inner = bytes mem.inner) (called : call = .ok (.error trap,{mem with inner})) :
    mem.Writes within written call :=
  ⟨trap,inner,valid,by rw [if_neg outside,same],by rw [if_neg outside,called]⟩

variable [Generous]

theorem Names32.fillImpl_exact_iff (names : Names32 ctx m memIdx addr mem) (dst : Value .s32) (val : Byte) (size : Value .s32) :
    let inside := dst.toNat + size.toNat ≤ (bytes mem.inner).length
    let written := splice (bytes mem.inner) dst.toNat (List.replicate size.toNat val)
    BulkExact m addr mem inside written (execMemoryFillImpl ctx memIdx dst val size m) ↔
      (inside → dst.toNat < 2 ^ 31 ∧ size.toNat < 2 ^ 31) := by
  intro inside written
  have bounded := names.bounded
  simp only [maxMemorySize] at bounded
  obtain ⟨inner,filled,valid,_,after⟩ := fill_law names.backed names.roomy (asUsize dst) (asUsize size) val
  obtain ⟨trap,ran⟩ := names.fillImpl_ran filled
  unfold FlatArray.fill FlatArray.write at ran after
  rw [List.length_replicate] at ran after
  refine BulkExact.iff_small (asUsize dst + asUsize size ≤ (bytes mem.inner).length)
    (splice (bytes mem.inner) (asUsize dst) (List.replicate (asUsize size) val)) trap valid ?_ (ran.trans ?_) ?_ ?_
  · rw [after]
    split <;> rfl
  · split <;> rfl
  · rintro ⟨dstSmall,sizeSmall⟩
    rw [asUsize_eq,asUsize_eq,if_pos dstSmall,if_pos sizeSmall]
    exact ⟨Iff.rfl,rfl⟩
  · intro large
    rw [asUsize_eq,asUsize_eq]
    split <;> split <;> omega

theorem memory_fill_exact_iff (names : Names32 ctx m memIdx addr mem) (form : MemoryFill) (dst val size : Value .s32) :
    let inside := dst.toNat + size.toNat ≤ (bytes mem.inner).length
    let written := splice (bytes mem.inner) dst.toNat (List.replicate size.toNat (UInt8.ofNat val.toNat))
    BulkExact m addr mem inside written (form.exec ctx memIdx dst val size m) ↔
      (inside → dst.toNat < 2 ^ 31 ∧ size.toNat < 2 ^ 31) := by
  intro inside written
  rw [form.exec_eq]
  exact names.fillImpl_exact_iff dst (.ofNat val.toNat) size

namespace MemoryInstance

theorem checkRange_cases {memory : MemoryStorage} (valid : Valid memory) (start len : Nat) :
    (start + len ≤ (bytes memory).length → checkRange memory start len = .ok ()) ∧
    (¬start + len ≤ (bytes memory).length → ∃ trap, checkRange memory start len = .error trap) := by
  have fits := fits_law valid
  unfold checkRange checkedAdd
  rw [len_law valid]
  refine ⟨fun within => ?_,fun outside => ?_⟩
  · rw [if_pos (by omega)]
    exact if_neg (by omega)
  · split
    · exact ⟨_,rfl⟩
    · rename_i last added
      split at added
      · cases added
        exact ⟨_,if_pos (by omega)⟩
      · cases added

-- The front of the range is copied, the rest is as it was.
theorem copyLoop_run {srcMemory memory : MemoryStorage} {xs : List Byte} {dst src len copied : Nat} (source : Valid srcMemory)
    (readable : src + len ≤ (bytes srcMemory).length) (writable : dst + len ≤ xs.length) (part : copied ≤ len)
    (valid : Valid memory) (moved : bytes memory = splice xs dst (slice (bytes srcMemory) src copied)) :
    ∃ memory', copyLoop dst srcMemory src len memory copied = .ok (.ok (),memory') ∧ Valid memory' ∧
      bytes memory' = splice xs dst (slice (bytes srcMemory) src len) := by
  rw [copyLoop]
  split
  · rename_i unfinished
    have front : (slice (bytes srcMemory) src copied).length = copied := slice_length (by omega)
    have chunk : (slice (bytes srcMemory) (src + copied) (min copyChunkSize (len - copied))).length =
        min copyChunkSize (len - copied) := slice_length (by omega)
    have length : (bytes memory).length = xs.length := by rw [moved]; exact splice_length (by omega)
    have some_bytes : 0 < min copyChunkSize (len - copied) := by simp only [copyChunkSize]; omega
    obtain ⟨memory',written,valid',_,after⟩ := writeAll_law valid (dst + copied)
      (slice (bytes srcMemory) (src + copied) (min copyChunkSize (len - copied)))
    rw [FlatArray.write,if_pos (by omega)] at written after
    dsimp only
    rw [readExact_law source,FlatArray.read,if_pos (by omega)]
    simp only [ok_bind]
    rw [written]
    refine copyLoop_run source readable writable (by omega) valid' ?_
    rw [after,moved,slice_add,splice_append (by rw [List.length_append]; omega),front]
  · have finished : copied = len := by omega
    rw [finished] at moved
    exact ⟨memory,rfl,valid,moved⟩
termination_by len - copied
decreasing_by simp only [copyChunkSize]; omega

theorem copyFromMemory_writes {target source : MemoryInstance} (valid : Valid target.inner) (backed : Valid source.inner)
    (dst src len : Nat) :
    target.Writes (src + len ≤ (bytes source.inner).length ∧ dst + len ≤ (bytes target.inner).length)
      (splice (bytes target.inner) dst (slice (bytes source.inner) src len)) (target.copyFromMemory dst source src len) := by
  obtain ⟨readable,unreadable⟩ := checkRange_cases backed src len
  obtain ⟨writable,unwritable⟩ := checkRange_cases valid dst len
  unfold copyFromMemory
  by_cases source_range : src + len ≤ (bytes source.inner).length
  · rw [readable source_range]
    by_cases target_range : dst + len ≤ (bytes target.inner).length
    · rw [writable target_range]
      dsimp only
      split
      · rename_i empty
        exact .done ⟨source_range,target_range⟩ valid (by rw [empty,slice_zero,splice_nil]) rfl
      · obtain ⟨inner,copied,valid',after⟩ := copyLoop_run backed source_range target_range (Nat.zero_le len) valid
          (show bytes target.inner = splice (bytes target.inner) dst (slice (bytes source.inner) src 0) by simp)
        exact .done ⟨source_range,target_range⟩ valid' after (by rw [copied]; rfl)
    · obtain ⟨trap,refused⟩ := unwritable target_range
      rw [refused]
      exact .refused (fun inside => target_range inside.2) valid rfl rfl
  · obtain ⟨trap,refused⟩ := unreadable source_range
    rw [refused]
    exact .refused (fun inside => source_range inside.1) valid rfl rfl

theorem copyWithin_writes {mem : MemoryInstance} (valid : Valid mem.inner) (dst src len : Nat) :
    mem.Writes (src + len ≤ (bytes mem.inner).length ∧ dst + len ≤ (bytes mem.inner).length)
      (splice (bytes mem.inner) dst (slice (bytes mem.inner) src len)) (mem.copyWithin dst src len) := by
  obtain ⟨inner,copied,valid',_,after⟩ := copyWithin_law valid dst src len
  unfold FlatArray.copyWithin at copied after
  unfold copyWithin
  rw [copied]
  split at after
  · exact .done ‹_› valid' after (by rw [if_pos ‹_›]; rfl)
  · exact .refused ‹_› valid' after (by rw [if_neg ‹_›]; rfl)

end MemoryInstance

section Copy
variable {dstMem srcMem : MemAddr} {dstAddr srcAddr : MemAddr} {target source : MemoryInstance}

omit [Generous] in
theorem execMemoryCopy_popped (dst src size : Value .s32) :
    execMemoryCopy ctx dstMem srcMem (((m.onTop .s32 dst).onTop .s32 src).onTop .s32 size) = (do
      let (dstAddr,mem) ← ctx.memory dstMem
      if dstMem = srcMem then do
        let (r,mem) ← .ofChecked (mem.copyWithin (asUsize dst) (asUsize src) (asUsize size))
        Machine.setMemory dstAddr mem
        .ofExcept r
      else do
        let (srcAddr,srcMemory) ← ctx.memory srcMem
        if dstAddr = srcAddr then .ofChecked (.error .panic)
        else do
          let (r,mem) ← .ofChecked (mem.copyFromMemory (asUsize dst) srcMemory (asUsize src) (asUsize size))
          Machine.setMemory dstAddr mem
          .ofExcept r : Step Unit) m := by
  refine (Exec.bind_ok (Machine.pop_onTop _ .s32 size)).trans ?_
  refine (Exec.bind_ok (Machine.pop_onTop _ .s32 src)).trans ?_
  exact Exec.bind_ok (Machine.pop_onTop _ .s32 dst)

theorem copy_run (dest : Names32 ctx m dstMem dstAddr target) (origin : Names32 ctx m srcMem srcAddr source)
    (apart : dstMem ≠ srcMem → dstAddr ≠ srcAddr) (dst src size : Value .s32) :
    let within := asUsize src + asUsize size ≤ (bytes source.inner).length ∧
      asUsize dst + asUsize size ≤ (bytes target.inner).length
    ∃ trap inner, Valid inner ∧ bytes inner = (if within then
        splice (bytes target.inner) (asUsize dst) (slice (bytes source.inner) (asUsize src) (asUsize size))
      else bytes target.inner) ∧
      execMemoryCopy ctx dstMem srcMem (((m.onTop .s32 dst).onTop .s32 src).onTop .s32 size) =
        .ok (if within then .ok () else .error trap,m.withMemory dstAddr {target with inner}) := by
  intro within
  rw [execMemoryCopy_popped]
  by_cases one : dstMem = srcMem
  · obtain rfl : dstAddr = srcAddr := Option.some.inj (dest.resolves.symm.trans (one ▸ origin.resolves))
    obtain rfl : target = source := Option.some.inj (dest.found.symm.trans origin.found)
    obtain ⟨trap,inner,valid,after,copied⟩ :=
      MemoryInstance.copyWithin_writes dest.backed (asUsize dst) (asUsize src) (asUsize size)
    refine ⟨trap,inner,valid,after,(Exec.bind_ok dest.memory_run).trans ?_⟩
    dsimp only
    rw [if_pos one,copied]
    rfl
  · obtain ⟨trap,inner,valid,after,copied⟩ :=
      MemoryInstance.copyFromMemory_writes dest.backed origin.backed (asUsize dst) (asUsize src) (asUsize size)
    refine ⟨trap,inner,valid,after,(Exec.bind_ok dest.memory_run).trans ?_⟩
    dsimp only
    rw [if_neg one]
    refine (Exec.bind_ok origin.memory_run).trans ?_
    dsimp only
    rw [if_neg (apart one),copied]
    rfl

omit [Generous] in
theorem copy_aliased (dest : Names32 ctx m dstMem dstAddr target) (origin : Names32 ctx m srcMem srcAddr source)
    (different : dstMem ≠ srcMem) (aliased : dstAddr = srcAddr) (dst src size : Value .s32) :
    execMemoryCopy ctx dstMem srcMem (((m.onTop .s32 dst).onTop .s32 src).onTop .s32 size) = .error .panic := by
  rw [execMemoryCopy_popped]
  refine (Exec.bind_ok dest.memory_run).trans ?_
  dsimp only
  rw [if_neg different]
  refine (Exec.bind_ok origin.memory_run).trans ?_
  dsimp only
  rw [if_pos aliased]
  rfl

theorem memory_copy_exact_iff (dest : Names32 ctx m dstMem dstAddr target) (origin : Names32 ctx m srcMem srcAddr source)
    (dst src size : Value .s32) :
    let inside := src.toNat + size.toNat ≤ (bytes source.inner).length ∧ dst.toNat + size.toNat ≤ (bytes target.inner).length
    let written := splice (bytes target.inner) dst.toNat (slice (bytes source.inner) src.toNat size.toNat)
    BulkExact m dstAddr target inside written
      (execMemoryCopy ctx dstMem srcMem (((m.onTop .s32 dst).onTop .s32 src).onTop .s32 size)) ↔
      (dstMem ≠ srcMem → dstAddr ≠ srcAddr) ∧
        (inside → dst.toNat < 2 ^ 31 ∧ src.toNat < 2 ^ 31 ∧ size.toNat < 2 ^ 31) := by
  intro inside written
  have targetBound := dest.bounded
  have sourceBound := origin.bounded
  simp only [maxMemorySize] at targetBound sourceBound
  by_cases apart : dstMem ≠ srcMem → dstAddr ≠ srcAddr
  · rw [and_iff_right apart]
    obtain ⟨trap,inner,valid,after,ran⟩ := copy_run dest origin apart dst src size
    refine BulkExact.iff_small _ _ trap valid after ran ?_ ?_
    · rintro ⟨dstSmall,srcSmall,sizeSmall⟩
      rw [asUsize_eq,asUsize_eq,asUsize_eq,if_pos dstSmall,if_pos srcSmall,if_pos sizeSmall]
      exact ⟨Iff.rfl,rfl⟩
    · intro large
      rw [asUsize_eq,asUsize_eq,asUsize_eq]
      split <;> split <;> split <;> omega
  · refine iff_of_false ?_ fun holds => apart holds.1
    obtain ⟨different,same⟩ := Classical.not_imp.mp apart
    rw [copy_aliased dest origin different (not_not.mp same)]
    exact BulkExact.not_panic

end Copy

section Init
variable {dataIndex dataAddr : DataAddr} {data : DataInstance}

-- A slice of the host holds fewer than 2^63 bytes.
structure NamesSegment (ctx : Context) (m : Machine) (dataIndex : DataAddr) (dataAddr : DataAddr) (data : DataInstance) :
    Prop where
  resolves : ctx.module.dataAddrs[dataIndex]? = some dataAddr
  found : m.state.data[dataAddr]? = some data
  sized : (data.data.getD []).length < 2 ^ 63

-- What is left of the instruction once its operands are popped and its segment
-- and memory found, and what is left of it behind the check of the sums.
def initChecked (addr : MemAddr) (mem : MemoryInstance) (data : Option (List Byte)) (dst offset size : Value .s32) : Step Unit :=
  if size = 0 then pure ()
  else match data with
    | none => .trap (memoryOob 0 0 0)
    | some bytes =>
      if asUsize offset ≤ asUsize (offset + size) ∧ asUsize (offset + size) ≤ bytes.length then do
        let src := slice bytes (asUsize offset) (asUsize (offset + size) - asUsize offset)
        let (r,inner) ← .ofChecked (LinearMemory.writeAll mem.inner (asUsize dst) src)
        Machine.setMemory addr {mem with inner}
        match r with
        | some () => pure ()
        | none => .trap (memoryOob (asUsize dst) (asUsize size) (LinearMemory.len inner))
      else .ofChecked (.error .panic)

def initFound (addr : MemAddr) (mem : MemoryInstance) (data : Option (List Byte)) (dst offset size : Value .s32) : Step Unit :=
  let dataLen := (data.map List.length).getD 0
  if asUsize (size + offset) > dataLen ∨ asUsize (dst + size) > LinearMemory.len mem.inner then
    .trap (memoryOob (asUsize offset) (asUsize size) dataLen)
  else initChecked addr mem data dst offset size

omit [Generous] in
theorem execMemoryInit_found (names : Names32 ctx m memIdx addr mem) (segment : NamesSegment ctx m dataIndex dataAddr data)
    (dst offset size : Value .s32) :
    execMemoryInit ctx dataIndex memIdx (((m.onTop .s32 dst).onTop .s32 offset).onTop .s32 size) =
      initFound addr mem data.data dst offset size m := by
  refine (Exec.bind_ok (Machine.pop_onTop _ .s32 size)).trans ?_
  refine (Exec.bind_ok (Machine.pop_onTop _ .s32 offset)).trans ?_
  refine (Exec.bind_ok (Machine.pop_onTop _ .s32 dst)).trans ?_
  rw [State.at_some segment.resolves]
  simp only [Exec.ofChecked_bind,Exec.get_bind]
  rw [State.at_some segment.found]
  simp only [Exec.ofChecked_bind]
  exact Exec.bind_ok names.memory_run

section Found
variable {segment : Option (List Byte)} {dst offset size : Value .s32}

-- The exits of the source in their order.
omit [Generous] in
theorem init_refused (refused : asUsize (size + offset) > (segment.getD []).length ∨ asUsize (dst + size) > LinearMemory.len mem.inner) :
    ∃ trap, initFound addr mem segment dst offset size m = .ok (.error trap,m) := by
  have dataLen : (segment.map List.length).getD 0 = (segment.getD []).length := by cases segment <;> rfl
  unfold initFound
  rw [dataLen,if_pos refused]
  exact ⟨_,rfl⟩

omit [Generous] in
theorem init_passed (passed : ¬(asUsize (size + offset) > (segment.getD []).length ∨ asUsize (dst + size) > LinearMemory.len mem.inner)) :
    initFound addr mem segment dst offset size = initChecked addr mem segment dst offset size := by
  have dataLen : (segment.map List.length).getD 0 = (segment.getD []).length := by cases segment <;> rfl
  unfold initFound
  rw [dataLen,if_neg passed]

-- The writing part, for a sum that did not wrap.
theorem init_writes (names : Names32 ctx m memIdx addr mem) {held : List Byte}
    (start : asUsize offset = offset.toNat) (last : asUsize (offset + size) = offset.toNat + size.toNat)
    (readable : offset.toNat + size.toNat ≤ held.length) (nonempty : size ≠ 0)
    (passed : ¬(asUsize (size + offset) > held.length ∨ asUsize (dst + size) > LinearMemory.len mem.inner)) :
    ∃ trap inner, Valid inner ∧ bytes inner = (if asUsize dst + size.toNat ≤ (bytes mem.inner).length then
        splice (bytes mem.inner) (asUsize dst) (slice held offset.toNat size.toNat) else bytes mem.inner) ∧
      initFound addr mem (some held) dst offset size m =
        .ok (if asUsize dst + size.toNat ≤ (bytes mem.inner).length then .ok () else .error trap,
          m.withMemory addr {mem with inner}) := by
  have length : (slice held offset.toNat size.toNat).length = size.toNat := slice_length readable
  obtain ⟨inner,written,valid,_,after⟩ := writeAll_law names.backed (asUsize dst) (slice held offset.toNat size.toNat)
  unfold FlatArray.write at written after
  rw [length] at written after
  refine ⟨memoryOob (asUsize dst) (asUsize size) (LinearMemory.len inner),inner,valid,?_,?_⟩
  · rw [after]
    split <;> rfl
  · rw [show initFound addr mem (some held) dst offset size = _ from init_passed passed,initChecked,if_neg nonempty]
    dsimp only
    rw [start,last,if_pos ⟨Nat.le_add_right _ _,readable⟩,Nat.add_sub_cancel_left,written]
    split <;> rfl

-- Where the code's check fails the sums are out of bounds, or too large for it.
theorem init_refused_iff (names : Names32 ctx m memIdx addr mem) (sized : (segment.getD []).length < 2 ^ 63)
    {written : List Byte} (refused : asUsize (size + offset) > (segment.getD []).length ∨ asUsize (dst + size) > LinearMemory.len mem.inner) :
    let inside := offset.toNat + size.toNat ≤ (segment.getD []).length ∧ dst.toNat + size.toNat ≤ (bytes mem.inner).length
    BulkExact m addr mem inside written (initFound addr mem segment dst offset size m) ↔
      (inside → offset.toNat + size.toNat < 2 ^ 31 ∧ dst.toNat + size.toNat < 2 ^ 31) ∧
        ¬(segment.isSome ∧ 2 ^ 32 ≤ offset.toNat + size.toNat ∧
          SumsInside dst.toNat offset.toNat size.toNat (segment.getD []).length (bytes mem.inner).length) := by
  intro inside
  obtain ⟨trap,ran⟩ := (init_refused refused : ∃ trap, initFound addr mem segment dst offset size m = .ok (.error trap,m))
  rw [len_law names.backed] at refused
  have failed := fun sums => (init_check_iff sized names.bounded).mpr sums refused
  rw [BulkExact.trap_iff names.backed rfl (ran.trans (by rw [names.withMemory_same]))]
  refine ⟨fun outside => ⟨fun within => absurd within outside,fun wraps => failed wraps.2.2⟩,fun holds within => ?_⟩
  obtain ⟨src,dst⟩ := holds.1 within
  exact failed ⟨by omega,by omega,by omega⟩

theorem init_held_iff (names : Names32 ctx m memIdx addr mem) {held : List Byte} (nonempty : size ≠ 0)
    (passed : ¬(asUsize (size + offset) > held.length ∨ asUsize (dst + size) > LinearMemory.len mem.inner))
    (sums : SumsInside dst.toNat offset.toNat size.toNat held.length (bytes mem.inner).length) :
    let inside := offset.toNat + size.toNat ≤ held.length ∧ dst.toNat + size.toNat ≤ (bytes mem.inner).length
    BulkExact m addr mem inside (splice (bytes mem.inner) dst.toNat (slice held offset.toNat size.toNat))
      (initFound addr mem (some held) dst offset size m) ↔
      (inside → offset.toNat + size.toNat < 2 ^ 31 ∧ dst.toNat + size.toNat < 2 ^ 31) ∧ ¬2 ^ 32 ≤ offset.toNat + size.toNat := by
  intro inside
  obtain ⟨small,source,target⟩ := sums
  have bounded := names.bounded
  have dstRange : dst.toNat < 2 ^ 32 := dst.isLt
  have sizeRange : size.toNat < 2 ^ 32 := size.isLt
  have last := asUsize_add offset size
  have start := asUsize_eq offset
  have place := asUsize_eq dst
  rw [if_pos small.1] at last
  simp only [maxMemorySize] at bounded
  by_cases wraps : 2 ^ 32 ≤ offset.toNat + size.toNat
  · have backwards : ¬(asUsize offset ≤ asUsize (offset + size) ∧ asUsize (offset + size) ≤ held.length) := by
      split at start <;> omega
    rw [show initFound addr mem (some held) dst offset size = _ from init_passed passed,initChecked,if_neg nonempty]
    dsimp only
    rw [if_neg backwards]
    exact iff_of_false BulkExact.not_panic fun holds => holds.2 wraps
  · have whole : (offset.toNat + size.toNat) % 2 ^ 32 = offset.toNat + size.toNat := Nat.mod_eq_of_lt (by omega)
    rw [whole] at last source small
    rw [if_pos (by omega)] at start
    obtain ⟨trap,inner,valid,after,ran⟩ := init_writes names start last source nonempty passed
    rw [and_iff_left wraps]
    refine BulkExact.iff_small _ _ trap valid after ran (fun fits => ?_) fun large => ?_
    · rw [if_pos (by omega)] at place
      rw [place]
      exact ⟨(and_iff_right source).symm,rfl⟩
    · rw [if_neg (by omega)] at place
      omega

theorem init_exact_iff (names : Names32 ctx m memIdx addr mem) (segment : Option (List Byte))
    (sized : (segment.getD []).length < 2 ^ 63) (dst offset size : Value .s32) :
    let inside := offset.toNat + size.toNat ≤ (segment.getD []).length ∧ dst.toNat + size.toNat ≤ (bytes mem.inner).length
    BulkExact m addr mem inside (splice (bytes mem.inner) dst.toNat (slice (segment.getD []) offset.toNat size.toNat))
      (initFound addr mem segment dst offset size m) ↔
      (inside → offset.toNat + size.toNat < 2 ^ 31 ∧ dst.toNat + size.toNat < 2 ^ 31) ∧
        ¬(segment.isSome ∧ 2 ^ 32 ≤ offset.toNat + size.toNat ∧
          SumsInside dst.toNat offset.toNat size.toNat (segment.getD []).length (bytes mem.inner).length) := by
  intro inside
  by_cases refused : asUsize (size + offset) > (segment.getD []).length ∨ asUsize (dst + size) > LinearMemory.len mem.inner
  · exact init_refused_iff names sized refused
  have sums := refused
  rw [len_law names.backed] at sums
  have sums := (init_check_iff sized names.bounded).mp sums
  by_cases empty : size = 0
  · have none : size.toNat = 0 := by rw [empty]; rfl
    have offsetRange : offset.toNat < 2 ^ 32 := offset.isLt
    have dstRange : dst.toNat < 2 ^ 32 := dst.isLt
    obtain ⟨small,source,target⟩ := sums
    have ran : initFound addr mem segment dst offset size m = .ok (.ok (),m) := by
      rw [init_passed refused]
      unfold initChecked
      rw [if_pos empty]
      rfl
    refine iff_of_true (.of_done ⟨by omega,by omega⟩ names.backed ?_ (ran.trans ?_)) ⟨fun _ => by omega,fun wraps => by omega⟩
    · rw [none,slice_zero,splice_nil]
    · rw [names.withMemory_same]
  cases segment with
  | none =>
    have ran : initFound addr mem none dst offset size m = .ok (.error (memoryOob 0 0 0),m) := by
      rw [init_passed refused,initChecked,if_neg empty]
      rfl
    have outside : ¬inside := by
      rintro ⟨within,_⟩
      exact empty (BitVec.eq_of_toNat_eq (Nat.eq_zero_of_le_zero (Nat.le_trans (Nat.le_add_left _ _) within)))
    rw [BulkExact.trap_iff names.backed rfl (ran.trans (by rw [names.withMemory_same]))]
    exact iff_of_true outside ⟨fun within => absurd within outside,fun wraps => by cases wraps.1⟩
  | some held =>
    refine (init_held_iff names empty refused sums).trans (and_congr_right fun _ => not_congr ?_)
    exact ⟨fun wraps => ⟨rfl,wraps,sums⟩,fun wraps => wraps.2.1⟩

end Found

theorem memory_init_exact_iff (names : Names32 ctx m memIdx addr mem) (segment : NamesSegment ctx m dataIndex dataAddr data)
    (dst src size : Value .s32) :
    let held := data.data.getD []
    let inside := src.toNat + size.toNat ≤ held.length ∧ dst.toNat + size.toNat ≤ (bytes mem.inner).length
    let written := splice (bytes mem.inner) dst.toNat (slice held src.toNat size.toNat)
    BulkExact m addr mem inside written
      (execMemoryInit ctx dataIndex memIdx (((m.onTop .s32 dst).onTop .s32 src).onTop .s32 size)) ↔
      (inside → src.toNat + size.toNat < 2 ^ 31 ∧ dst.toNat + size.toNat < 2 ^ 31) ∧
        ¬(data.data.isSome ∧ 2 ^ 32 ≤ src.toNat + size.toNat ∧
          SumsInside dst.toNat src.toNat size.toNat held.length (bytes mem.inner).length) := by
  intro held inside written
  rw [execMemoryInit_found names segment]
  exact init_exact_iff names data.data segment.sized dst src size

end Init

end Bulk

-- A memory of eight bytes under two indices, a segment of four, and a memory
-- of 4 GiB that was never touched.
namespace BulkRegion

def small : MemoryInstance := ⟨⟨.i32,1,none,some 8⟩,.left (.vec ⟨[0,1,2,3,4,5,6,7]⟩),1⟩

def large : MemoryInstance := ⟨⟨.i32,65536,none,none⟩,.right ⟨2 ^ 32,.vec,none⟩,65536⟩

def context : Context where
  cf := .new 0 (fun _ => 0) (fun _ => 0)
  func := ⟨[],⟨[],[]⟩,fun _ => 0,fun _ => 0,fun _ => 0,⟨[],[]⟩⟩
  module := ⟨0,[],[],[],[],[0,0,1],[],[],[0]⟩
  config := ⟨fun _ => ⟨8,8,false⟩,⟨8,8,false⟩,.perInstruction,.vec,false⟩

def machine : Machine :=
  ⟨⟨fun _ => .new ⟨8,8,false⟩⟩,{State.empty with memories := [small,large],data := [⟨some [10,11,12,13]⟩]}⟩

variable [Allocator]

theorem small_names (memIdx : MemAddr) (first : memIdx < 2) : Names32 context machine memIdx 0 small where
  resolves := by match memIdx,first with
    | 0,_ => rfl
    | 1,_ => rfl
  found := rfl
  arch := rfl
  backed := by simp [small,FlatMemory.Valid,usizeMax,usizeBits]
  bounded := by simp [small,FlatMemory.bytes,maxMemorySize]

theorem large_bytes : bytes large.inner = List.replicate (2 ^ 32) 0 := rfl

theorem large_names : Names32 context machine 2 1 large where
  resolves := rfl
  found := rfl
  arch := rfl
  backed := by simp [large,FlatMemory.Valid,usizeMax,usizeBits]
  bounded := by rw [large_bytes,List.length_replicate]; decide

omit [Allocator] in
theorem segment_names : NamesSegment context machine 0 0 ⟨some [10,11,12,13]⟩ := ⟨rfl,rfl,by decide⟩

end BulkRegion

open BulkRegion in
theorem memory_fill_exact_iff_small :
    let _ := Allocator.unlimited
    BulkExact machine 0 small (2 + 3 ≤ 8) [0,1,9,9,9,5,6,7] (MemoryFill.plain.exec context 0 2 0x109 3 machine) := by
  let _ := Allocator.unlimited
  have _ := Allocator.unlimited_generous
  exact (memory_fill_exact_iff (small_names 0 (by decide)) .plain 2 0x109 3).mpr fun _ => by decide

open BulkRegion in
-- The upper half of a full memory is out of reach.
theorem memory_fill_upper_half :
    let _ := Allocator.unlimited
    let inside := 0x80000000 + 1 ≤ (bytes large.inner).length
    let written := splice (bytes large.inner) 0x80000000 (List.replicate 1 7)
    inside ∧ ¬BulkExact machine 1 large inside written (MemoryFill.plain.exec context 2 0x80000000 7 1 machine) := by
  let _ := Allocator.unlimited
  have _ := Allocator.unlimited_generous
  have inside : 0x80000000 + 1 ≤ (bytes large.inner).length := by rw [large_bytes,List.length_replicate]; decide
  refine ⟨inside,?_⟩
  rw [MemoryFill.exec_eq]
  intro exact
  exact absurd ((large_names.fillImpl_exact_iff 0x80000000 7 1).mp exact inside).1 (by decide)

open BulkRegion in
theorem memory_copy_exact_iff_overlap :
    let _ := Allocator.unlimited
    BulkExact machine 0 small (0 + 4 ≤ 8 ∧ 2 + 4 ≤ 8) [0,1,0,1,2,3,6,7]
      (execMemoryCopy context 0 0 (((machine.onTop .s32 2).onTop .s32 0).onTop .s32 4)) := by
  let _ := Allocator.unlimited
  have _ := Allocator.unlimited_generous
  exact (memory_copy_exact_iff (small_names 0 (by decide)) (small_names 0 (by decide)) 2 0 4).mpr
    ⟨fun different => absurd rfl different,fun _ => by decide⟩

open BulkRegion in
-- Two indices that name one memory.
theorem memory_copy_aliased :
    let _ := Allocator.unlimited
    execMemoryCopy context 0 1 (((machine.onTop .s32 2).onTop .s32 0).onTop .s32 4) = .error .panic := by
  let _ := Allocator.unlimited
  exact copy_aliased (small_names 0 (by decide)) (small_names 1 (by decide)) (by decide) rfl 2 0 4

open BulkRegion in
theorem memory_init_exact_iff_part :
    let _ := Allocator.unlimited
    BulkExact machine 0 small (1 + 2 ≤ 4 ∧ 3 + 2 ≤ 8) [0,1,2,11,12,5,6,7]
      (execMemoryInit context 0 0 (((machine.onTop .s32 3).onTop .s32 1).onTop .s32 2)) := by
  let _ := Allocator.unlimited
  have _ := Allocator.unlimited_generous
  exact (memory_init_exact_iff (small_names 0 (by decide)) segment_names 3 1 2).mpr
    ⟨fun _ => by decide,fun wraps => absurd wraps.2.1 (by decide)⟩

open BulkRegion in
-- The sum of offset and size wraps to 0, and the slice runs backwards.
theorem memory_init_wraps :
    let _ := Allocator.unlimited
    execMemoryInit context 0 0 (((machine.onTop .s32 0).onTop .s32 0xffffffff).onTop .s32 1) = .error .panic := by
  let _ := Allocator.unlimited
  exact (execMemoryInit_found (small_names 0 (by decide)) segment_names 0 0xffffffff 1).trans rfl

end TinyWasm
