import TinyWasm.Memory.LazyTransparency

namespace TinyWasm
open FlatMemory LawfulMemory

theorem LawfulMemory.grown {M : Type} [FlatMemory M] [LawfulMemory M] {m : M} {n : Nat} (valid : Valid m)
    (longer : (bytes m).length ≤ n) (fits : n ≤ usizeMax) :
    Refines m (LinearMemory.growTo m n) (.ok (),FlatArray.extend (bytes m) n 0) := by
  have law := grow_law valid fits
  rwa [if_pos longer] at law

-- What a host with too little memory refuses; all else is as on an unlimited one.
theorem VecMemory.growTo_limited [Allocator] (m : VecMemory) (n : Nat) :
    m.growTo n = (.error .outOfMemory,m) ∨ m.growTo n = @VecMemory.growTo .unlimited m n := by
  unfold growTo
  split
  · exact .inr rfl
  · split
    · exact .inr rfl
    · exact .inl rfl

theorem PagedMemory.growTo_limited [Allocator] (m : PagedMemory) (n : Nat) :
    m.growTo n = (.error .outOfMemory,m) ∨ m.growTo n = @PagedMemory.growTo .unlimited m n := by
  unfold growTo
  generalize (if n = 0 then 0 else divCeil n m.chunkSize) = count
  by_cases shrinks : n < m.len
  · simp [shrinks]
  by_cases more : count > m.chunks.length
  · cases granted : Allocator.tryReserveExact (count - m.chunks.length) with
    | true => exact .inr (by simp [shrinks,more,granted])
    | false => exact .inl (by simp [shrinks,more,granted])
  · simp [shrinks,more]

theorem MemoryBackend.create_limited [Allocator] (backend : MemoryBackend) (initialLen : Nat) :
    backend.create initialLen = .error (.trap .outOfMemory) ∨
      backend.create initialLen = @MemoryBackend.create .unlimited backend initialLen := by
  cases backend with
  | vec =>
    cases granted : Allocator.tryReserveExact initialLen with
    | true => exact .inr (by simp only [create,VecMemory.tryNew,granted]; rfl)
    | false => exact .inl (by simp only [create,VecMemory.tryNew,granted]; rfl)
  | paged chunkSize powerOfTwo =>
    unfold create PagedMemory.tryNew
    dsimp only
    generalize PagedMemory.mk 0 chunkSize chunkSize.log2 (chunkSize - 1) [] _ _ _ = empty
    rcases empty.growTo_limited initialLen with refused | granted
    · exact .inl (by rw [refused]; rfl)
    · exact .inr (by rw [granted]; rfl)

section Limited
variable [Allocator]

theorem MemoryStorage.len_bytes {m : Boxed EagerStorage LazyLinearMemory} (valid : Valid m) :
    LinearMemory.len m = (bytes m).length :=
  let _ := Allocator.unlimited
  have := Allocator.unlimited_generous
  len_law (M := Boxed EagerStorage LazyLinearMemory) valid

-- A backend grows by zeros or stays as it is.
theorem EagerStorage.growTo_cases {m : EagerStorage} {n : Nat} (valid : Valid m) (longer : (bytes m).length ≤ n)
    (fits : n ≤ usizeMax) :
    LinearMemory.growTo m n = .ok (.error .outOfMemory,m) ∨
      Refines m (LinearMemory.growTo m n) (.ok (),FlatArray.extend (bytes m) n 0) := by
  cases m with
  | left vec =>
    rcases vec.growTo_limited n with refused | granted
    · exact .inl (by simp only [LinearMemory.growTo,refused]; rfl)
    · obtain ⟨m',called,kept⟩ :=
        let _ := Allocator.unlimited
        have _ := Allocator.unlimited_generous
        grown (M := VecMemory) (m := vec) valid longer fits
      refine .inr ⟨.left m',?_,kept⟩
      simp only [LinearMemory.growTo,granted]
      exact congrArg (Boxed.lift Boxed.left) called
  | right paged =>
    rcases paged.growTo_limited n with refused | granted
    · exact .inl (by simp only [LinearMemory.growTo,refused]; rfl)
    · obtain ⟨m',called,kept⟩ :=
        let _ := Allocator.unlimited
        have _ := Allocator.unlimited_generous
        grown (M := PagedMemory) (m := paged) valid longer fits
      refine .inr ⟨.right m',?_,kept⟩
      simp only [LinearMemory.growTo,granted]
      exact congrArg (Boxed.lift Boxed.right) called

theorem MemoryBackend.create_cases (backend : MemoryBackend) {initialLen : Nat} (fits : initialLen ≤ usizeMax) :
    backend.create initialLen = .error (.trap .outOfMemory) ∨
      ∃ storage, backend.create initialLen = .ok storage ∧ Valid storage ∧ unit storage = backend.granularity ∧
        bytes storage = List.replicate initialLen 0 := by
  rcases backend.create_limited initialLen with refused | granted
  · exact .inl refused
  · obtain ⟨storage,made,fresh⟩ :=
      let _ := Allocator.unlimited
      have _ := Allocator.unlimited_generous
      backend.create_fresh fits
    exact .inr ⟨storage,granted.trans made,fresh⟩

-- Storage that is made for a growth which is then refused holds the same zeros.
theorem LazyLinearMemory.growTo_cases {m : LazyLinearMemory} {n : Nat} (valid : Valid m) (longer : (bytes m).length ≤ n)
    (fits : n ≤ usizeMax) :
    Refines m (m.growTo n) (.error .outOfMemory,bytes m) ∨ Refines m (m.growTo n) (.ok (),FlatArray.extend (bytes m) n 0) := by
  have onStored {storage : EagerStorage} (fresh : Valid storage) (same : unit storage = m.backend.granularity)
      (equal : bytes storage = bytes m) :
      Refines m (m.onStorage (LinearMemory.growTo storage n)) (.error .outOfMemory,bytes m) ∨
        Refines m (m.onStorage (LinearMemory.growTo storage n)) (.ok (),FlatArray.extend (bytes m) n 0) := by
    rcases EagerStorage.growTo_cases fresh (equal ▸ longer) fits with refused | grown
    · exact .inl (onStorage_refines ⟨storage,refused,fresh,rfl,equal⟩ same)
    · rw [equal] at grown
      exact .inr (onStorage_refines grown same)
  unfold growTo tryMaterialize
  cases inner : m.inner with
  | some storage =>
    simp only [Valid,inner] at valid
    exact onStored valid.1 valid.2 (bytes_some inner).symm
  | none =>
    have zeros := bytes_none inner
    have small : m.initialLen ≤ usizeMax := by simpa only [Valid,inner] using valid
    rcases m.backend.create_cases small with refused | ⟨storage,made,fresh,same,equal⟩
    · simp only [refused]
      exact .inl (keeps_refines valid rfl)
    · simp only [made]
      exact onStored fresh same (equal.trans zeros.symm)

theorem MemoryStorage.growTo_cases {m : Boxed EagerStorage LazyLinearMemory} {n : Nat} (valid : Valid m)
    (longer : (bytes m).length ≤ n) (fits : n ≤ usizeMax) :
    Refines m (LinearMemory.growTo m n) (.error .outOfMemory,bytes m) ∨
      Refines m (LinearMemory.growTo m n) (.ok (),FlatArray.extend (bytes m) n 0) := by
  cases m with
  | left storage =>
    rcases EagerStorage.growTo_cases valid longer fits with refused | grown
    · exact .inl (Boxed.left_refines ⟨storage,refused,valid,rfl,rfl⟩)
    · exact .inr (Boxed.left_refines grown)
  | right memory =>
    rcases LazyLinearMemory.growTo_cases valid longer fits with refused | grown
    · exact .inl (Boxed.right_refines refused)
    · exact .inr (Boxed.right_refines grown)

end Limited

end TinyWasm
