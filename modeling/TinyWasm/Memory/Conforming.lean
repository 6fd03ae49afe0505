import TinyWasm.Memory.Provided

namespace TinyWasm
open ListRange

-- What a user's backend brings to the memory trait. Everything else is provided.
structure Backend (M : Type) where
  len : M → Nat
  growTo : M → Nat → Checked (Except Trap Unit × M)
  read : M → Nat → Nat → Checked (List Byte)
  write : M → Nat → List Byte → Checked (Nat × M)

namespace Backend
variable {M : Type}

@[reducible] def memory (b : Backend M) : LinearMemory M where
  len := b.len
  growTo := b.growTo
  read := b.read
  write := b.write

-- The trait's contract on the two transfers. Each moves a prefix of the range,
-- as short as one byte. A short write may leave anything in the rest of its
-- range, and nothing is promised of an empty range or one past the end.
structure Conforms (b : Backend M) (bytes : M → List Byte) (Valid : M → Prop) : Prop where
  sized {m : M} (valid : Valid m) : b.len m = (bytes m).length
  fits {m : M} (valid : Valid m) : (bytes m).length ≤ usizeMax
  reads {m : M} (valid : Valid m) (addr n : Nat) (below : addr < (bytes m).length) (some_byte : 0 < n) :
    ∃ k, 0 < k ∧ k ≤ min n ((bytes m).length - addr) ∧ b.read m addr n = .ok (slice (bytes m) addr k)
  writes {m : M} (valid : Valid m) (addr : Nat) (src : List Byte) (below : addr < (bytes m).length)
    (some_byte : 0 < src.length) :
    ∃ k rest m', 0 < k ∧ k + rest.length = min src.length ((bytes m).length - addr) ∧
      b.write m addr src = .ok (k,m') ∧ Valid m' ∧ bytes m' = splice (bytes m) addr (src.take k ++ rest)

@[reducible] def flat (b : Backend M) (bytes : M → List Byte) (Valid : M → Prop) : FlatMemory M where
  toLinearMemory := b.memory
  bytes := bytes
  Valid := Valid
  unit _ := 0

variable {b : Backend M} {bytes : M → List Byte} {Valid : M → Prop} {m : M}

-- What a call did to the backend: its answer, and the bytes it left behind.
def Leaves (bytes : M → List Byte) (Valid : M → Prop) (call : Checked (Option Unit × M))
    (flat : Option Unit × List Byte) : Prop :=
  ∃ m', call = .ok (flat.1,m') ∧ Valid m' ∧ bytes m' = flat.2

theorem Leaves.refines {call : Checked (Option Unit × M)} {flat : Option Unit × List Byte}
    (leaves : Leaves bytes Valid call flat) : @FlatMemory.Refines M (b.flat bytes Valid) _ m call flat := by
  obtain ⟨m',called,valid,after⟩ := leaves
  exact ⟨m',called,valid,rfl,after⟩

theorem Leaves.ofRefines {call : Checked (Option Unit × M)} {flat : Option Unit × List Byte}
    (refines : @FlatMemory.Refines M (b.flat bytes Valid) _ m call flat) : Leaves bytes Valid call flat := by
  obtain ⟨m',called,valid,_,after⟩ := refines
  exact ⟨m',called,valid,after⟩

namespace Conforms
theorem progresses (conforms : b.Conforms bytes Valid) (valid : Valid m) : Provided.Progresses b.read m (bytes m) := by
  intro addr n within some_byte
  obtain ⟨k,least,most,got⟩ := conforms.reads valid addr n (by omega) some_byte
  exact ⟨k,least,by omega,got⟩

theorem readExact_eq (conforms : b.Conforms bytes Valid) (valid : Valid m) (addr n : Nat) :
    b.memory.readExact m addr n = .ok (FlatArray.read (bytes m) addr n) :=
  Provided.readExact_eq (conforms.sized valid) (conforms.fits valid) (conforms.progresses valid) addr n

theorem readVec_eq (conforms : b.Conforms bytes Valid) (valid : Valid m) (addr n : Nat) :
    b.memory.readVec m addr n = .ok (FlatArray.read (bytes m) addr n) :=
  Provided.readVec_eq (conforms.sized valid) (conforms.fits valid) (conforms.readExact_eq valid) addr n

-- Between two writes the front of the range holds what was written and the rest
-- holds whatever the backend left there.
theorem writeLoop_leaves (conforms : b.Conforms bytes Valid) {xs src : List Byte} (rest : List Byte) {addr done : Nat}
    (within : addr + src.length ≤ xs.length) (part : done + rest.length = src.length) {now : M}
    (valid : Valid now) (written : bytes now = splice xs addr (src.take done ++ rest)) :
    Leaves bytes Valid (Provided.writeLoop b.write now addr src done) (some (),splice xs addr src) := by
  have front : (src.take done).length = done := by simp only [List.length_take]; omega
  have length : (bytes now).length = xs.length := by
    rw [written]
    exact splice_length (by simp only [List.length_append,front]; omega)
  rw [Provided.writeLoop]
  split
  · rename_i unfinished
    have left : (src.drop done).length = rest.length := by simp only [List.length_drop]; omega
    obtain ⟨k,rest',m',least,total,called,valid',after⟩ :=
      conforms.writes valid (addr + done) (src.drop done) (by omega) (by omega)
    rw [called,ok_bind]
    dsimp only
    rw [dif_neg (by omega)]
    refine writeLoop_leaves conforms rest' within (by omega) valid' ?_
    have moved : (src.drop done).take k ++ rest' = slice src done k ++ rest' := rfl
    have sized : (slice src done k ++ rest').length = rest.length := by
      rw [List.length_append,slice_length (by omega)]
      omega
    have joined : src.take (done + k) = src.take done ++ slice src done k := List.take_add
    have room : addr + (src.take done ++ rest).length ≤ xs.length := by
      simp only [List.length_append,front]
      omega
    have overlaid := splice_rest room sized
    rw [front] at overlaid
    rw [after,written,moved,overlaid,joined,List.append_assoc]
  · have finished : done = src.length := by omega
    have nothing : rest = [] := List.eq_nil_of_length_eq_zero (by omega)
    rw [finished,nothing,List.take_length,List.append_nil] at written
    exact ⟨now,rfl,valid,written⟩
termination_by src.length - done
decreasing_by omega

theorem writeAll_leaves (conforms : b.Conforms bytes Valid) (valid : Valid m) (addr : Nat) (src : List Byte) :
    Leaves bytes Valid (b.memory.writeAll m addr src) (FlatArray.write (bytes m) addr src) := by
  have ranged : b.memory.writeAll m addr src = if addr + src.length ≤ (bytes m).length then
      Provided.writeLoop b.write m addr src 0 else .ok (none,m) := by
    rw [←conforms.sized valid]
    exact Provided.checked_range (by rw [conforms.sized valid]; exact conforms.fits valid) addr src.length _ _
  rw [ranged]
  unfold FlatArray.write
  split
  · rename_i within
    refine conforms.writeLoop_leaves (slice (bytes m) addr src.length) within ?_ valid ?_
    · rw [Nat.zero_add,slice_length within]
    · exact (splice_slice_self within).symm
  · exact ⟨m,rfl,valid,rfl⟩

theorem fillLoop_leaves (conforms : b.Conforms bytes Valid) {xs : List Byte} {addr n done : Nat} {val : Byte}
    (within : addr + n ≤ xs.length) (part : done ≤ n) {now : M} (valid : Valid now)
    (filled : bytes now = splice xs addr (List.replicate done val)) :
    Leaves bytes Valid (Provided.fillLoop b.memory.writeAll now addr n val done)
      (some (),splice xs addr (List.replicate n val)) := by
  have size : (List.replicate done val).length = done := List.length_replicate
  have length : (bytes now).length = xs.length := by
    rw [filled]
    exact splice_length (by omega)
  rw [Provided.fillLoop]
  split
  · rename_i unfinished
    have law := conforms.writeAll_leaves valid (addr + done) (List.replicate (min (n - done) 1024) val)
    rw [FlatArray.write,List.length_replicate,if_pos (by omega)] at law
    obtain ⟨m',called,valid',after⟩ := law
    dsimp only
    rw [called,ok_bind]
    refine fillLoop_leaves conforms within (by omega) valid' ?_
    rw [after,filled,List.replicate_add,splice_append,size]
    simp only [List.length_append,List.length_replicate]
    omega
  · have finished : done = n := by omega
    rw [finished] at filled
    exact ⟨now,rfl,valid,filled⟩
termination_by n - done
decreasing_by omega

theorem fill_leaves (conforms : b.Conforms bytes Valid) (valid : Valid m) (addr n : Nat) (val : Byte) :
    Leaves bytes Valid (b.memory.fill m addr n val) (FlatArray.fill (bytes m) addr n val) := by
  have ranged : b.memory.fill m addr n val = if addr + n ≤ (bytes m).length then
      Provided.fillLoop b.memory.writeAll m addr n val 0 else .ok (none,m) := by
    rw [←conforms.sized valid]
    exact Provided.checked_range (by rw [conforms.sized valid]; exact conforms.fits valid) addr n _ _
  rw [ranged]
  unfold FlatArray.fill FlatArray.write
  rw [List.length_replicate]
  split
  · exact conforms.fillLoop_leaves ‹_› (Nat.zero_le n) valid (splice_nil (bytes m) addr).symm
  · exact ⟨m,rfl,valid,rfl⟩

theorem copyBlocks (conforms : b.Conforms bytes Valid) :
    @Provided.CopiesBlocks M (b.flat bytes Valid) (Provided.copyBlock b.memory.readExact b.memory.writeAll) :=
  @Provided.copyBlock_refines M (b.flat bytes Valid) _ _ (fun valid => conforms.readExact_eq valid)
    (fun valid addr src => (conforms.writeAll_leaves valid addr src).refines)

-- Ascending blocks where the destination starts below the source or past its
-- end, descending blocks where it starts inside the source.
theorem copyWithin_leaves (conforms : b.Conforms bytes Valid) (valid : Valid m) (dst src n : Nat) :
    Leaves bytes Valid (b.memory.copyWithin m dst src n) (FlatArray.copyWithin (bytes m) dst src n) := by
  have fits := conforms.fits valid
  change Leaves bytes Valid (Provided.copyWithin b.len b.memory.readExact b.memory.writeAll m dst src n) _
  unfold Provided.copyWithin FlatArray.copyWithin
  rw [conforms.sized valid]
  by_cases within : src + n ≤ (bytes m).length ∧ dst + n ≤ (bytes m).length
  · obtain ⟨readable,writable⟩ := within
    rw [checkedAdd_fits (by omega),checkedAdd_fits (by omega),if_pos ⟨readable,writable⟩]
    dsimp only
    rw [if_neg (by omega)]
    split
    · rename_i idle
      refine ⟨m,rfl,valid,?_⟩
      rcases idle with rfl | rfl
      · rw [slice_zero,splice_nil]
      · exact (splice_slice_self readable).symm
    · split
      · rename_i order
        have start : bytes m = splice (bytes m) dst (slice (bytes m) src 0) := by simp
        exact .ofRefines (@Provided.copyForward_refines M (b.flat bytes Valid) _ dst src n 1024 conforms.copyBlocks
          (by decide) (bytes m) (by omega) readable writable 0 (Nat.zero_le n) m valid start)
      · rename_i order
        have start : bytes m = splice (bytes m) (dst + n) (slice (bytes m) (src + n) (n - n)) := by simp
        exact .ofRefines (@Provided.copyBackward_refines M (b.flat bytes Valid) _ dst src n 1024 conforms.copyBlocks
          (by decide) (bytes m) (by omega) readable writable n (Nat.le_refl n) m valid start)
  · rw [if_neg within]
    split
    · rename_i srcEnd dstEnd srcSum dstSum
      rw [if_pos (by rw [checkedAdd_some srcSum,checkedAdd_some dstSum]; omega)]
      exact ⟨m,rfl,valid,rfl⟩
    · exact ⟨m,rfl,valid,rfl⟩

end Conforms

-- Over any conforming backend the provided methods are the bounds-checked array:
-- they return, refuse exactly the ranges past the end, and a copy is memmove.
theorem provided_methods_exact (conforms : b.Conforms bytes Valid) (valid : Valid m) :
    (∀ addr n, b.memory.readExact m addr n = .ok (FlatArray.read (bytes m) addr n)) ∧
    (∀ addr n, b.memory.readVec m addr n = .ok (FlatArray.read (bytes m) addr n)) ∧
    (∀ addr src, Leaves bytes Valid (b.memory.writeAll m addr src) (FlatArray.write (bytes m) addr src)) ∧
    (∀ addr n val, Leaves bytes Valid (b.memory.fill m addr n val) (FlatArray.fill (bytes m) addr n val)) ∧
    (∀ dst src n, Leaves bytes Valid (b.memory.copyWithin m dst src n)
      (FlatArray.copyWithin (bytes m) dst src n)) :=
  ⟨conforms.readExact_eq valid,conforms.readVec_eq valid,conforms.writeAll_leaves valid,
    conforms.fill_leaves valid,conforms.copyWithin_leaves valid⟩

-- A backend that moves one byte at a time.
def drip : Backend (List Byte) where
  len xs := xs.length
  growTo xs n := .ok (.ok (),FlatArray.extend xs n 0)
  read xs addr _ := .ok (slice xs addr 1)
  write xs addr src := .ok (1,splice xs addr (src.take 1))

theorem drip_conforms : drip.Conforms id fun xs => xs.length ≤ usizeMax where
  sized _ := rfl
  fits valid := valid
  reads valid addr n below some_byte := ⟨1,Nat.one_pos,by simp only [id] at *; omega,rfl⟩
  writes {m} valid addr src below some_byte := by
    simp only [id] at *
    have first : (src.take 1).length = 1 := by simp only [List.length_take]; omega
    have size : (splice m addr (src.take 1)).length = m.length := splice_length (by omega)
    refine ⟨1,slice m (addr + 1) (min src.length (m.length - addr) - 1),_,Nat.one_pos,?_,rfl,?_,?_⟩
    · rw [slice_length (by omega)]
      omega
    · rw [size]
      exact valid
    · have beside : slice (splice m addr (src.take 1)) (addr + 1) (min src.length (m.length - addr) - 1) =
          slice m (addr + 1) (min src.length (m.length - addr) - 1) := slice_splice_outside (by omega) (by omega)
      rw [splice_append (by rw [List.length_append,first,slice_length (by omega)]; omega),first,←beside,
        splice_slice_self (by omega)]

theorem provided_methods_exact_drip :
    ∃ m', drip.memory.copyWithin [1,2,3,4] 1 0 3 = .ok (some (),m') ∧ m' = [1,1,2,3] := by
  obtain ⟨m',called,_,after⟩ := (provided_methods_exact drip_conforms
    (show ([1,2,3,4] : List Byte).length ≤ usizeMax by decide)).2.2.2.2 1 0 3
  exact ⟨m',called,after⟩

end Backend

end TinyWasm
