import TinyWasm.Store.MemoryGrowth

namespace TinyWasm
open FlatMemory

-- The memory type that the parser reads off a module.
structure WasmMemoryType where
  memory64 : Bool
  initial : Nat
  maximum : Option Nat
  pageSizeLog2 : Option Nat

namespace WasmMemoryType

def pageSize (ty : WasmMemoryType) : Nat := 2 ^ ty.pageSizeLog2.getD 16

-- 2^32 or 2^64 bytes in pages, and no more pages than a u64 counts.
def pageLimit (ty : WasmMemoryType) : Nat :=
  if ty.memory64 then min (2 ^ 64 / ty.pageSize) (2 ^ 64 - 1) else 2 ^ 32 / ty.pageSize

-- What the validator admits with 64-bit memories and custom page sizes.
structure Admitted (ty : WasmMemoryType) : Prop where
  pages : ty.pageSizeLog2 = none ∨ ty.pageSizeLog2 = some 0 ∨ ty.pageSizeLog2 = some 16
  minimum : ty.initial ≤ ty.pageLimit
  maximum (limit) : ty.maximum = some limit → ty.initial ≤ limit ∧ limit ≤ ty.pageLimit

end WasmMemoryType

def convertModuleMemory (memory : WasmMemoryType) : MemoryType where
  arch := if memory.memory64 then .i64 else .i32
  pageCountInitial := memory.initial
  pageCountMax := memory.maximum
  pageSize := memory.pageSizeLog2.map fun x => 1 <<< x

namespace WasmMemoryType
variable {ty : WasmMemoryType}

theorem Admitted.pageBytes (admitted : ty.Admitted) : (convertModuleMemory ty).pageBytes = ty.pageSize := by
  rcases admitted.pages with pages | pages | pages <;>
    simp [MemoryType.pageBytes,convertModuleMemory,pageSize,memPageSize,pages]

theorem Admitted.pageSize_cases (admitted : ty.Admitted) : ty.pageSize = 1 ∨ ty.pageSize = 65536 := by
  unfold pageSize
  rcases admitted.pages with pages | pages | pages <;> simp [pages]

-- Only 2^48 pages of 65536 bytes come to 2^64.
theorem Admitted.initial_bytes (admitted : ty.Admitted) : ty.initial * ty.pageSize ≤ 2 ^ 64 := by
  have minimum := admitted.minimum
  unfold pageLimit at minimum
  rcases admitted.pageSize_cases with one | whole
  · rw [one] at minimum ⊢
    split at minimum <;> omega
  · rw [whole] at minimum ⊢
    split at minimum <;> omega

end WasmMemoryType

namespace MemoryInstance
variable [Allocator] {kind : MemoryType} {backend : MemoryBackend}

theorem new_panics (exceeds : kind.pageCountInitial > kind.pageLimit) : new kind backend = .error .panic := if_pos exceeds

omit [Allocator] in
theorem newLazy_panics (exceeds : kind.pageCountInitial > kind.pageLimit) : newLazy kind backend = .error .panic := if_pos exceeds

-- A memory is made with its length, or the host has none for it.
theorem new_answers (admitted : kind.pageCountInitial ≤ kind.pageLimit) (small : kind.initialSize ≤ usizeMax) :
    ∃ r, new kind backend = .ok r ∧ ∀ mem, r = .ok mem → LinearMemory.len mem.inner = kind.initialSize := by
  have whole : initialLen kind = kind.initialSize :=
    Nat.mod_eq_of_lt (by simp only [usizeMax,usizeBits] at small; omega)
  unfold new
  rw [if_neg (Nat.not_lt_of_le admitted),whole]
  rcases backend.create_cases small with refused | ⟨storage,created,valid,_,zeros⟩
  · rw [refused]
    exact ⟨_,rfl,fun _ made => by cases made⟩
  · have len : LinearMemory.len storage = kind.initialSize :=
      (MemoryStorage.len_bytes (m := .left storage) valid).trans ((congrArg List.length zeros).trans List.length_replicate)
    rw [created]
    refine ⟨.ok ⟨kind,.left storage,kind.pageCountInitial⟩,?_,fun mem made => ?_⟩
    · simp only [bind,Except.bind,len,ne_eq,not_true,if_false]
    · cases made
      exact len

omit [Allocator] in
theorem newLazy_answers (admitted : kind.pageCountInitial ≤ kind.pageLimit) :
    newLazy kind backend = .ok (.ok ⟨kind,.right (.newWithInitialLen (initialLen kind) backend),kind.pageCountInitial⟩) :=
  if_neg (Nat.not_lt_of_le admitted)

end MemoryInstance

-- A type under its own maximum or the default one, whose length a u64 can hold.
def MemoryType.Sound (kind : MemoryType) : Prop := kind.pageCountInitial ≤ kind.pageLimit ∧ kind.initialSize ≤ usizeMax

namespace State
variable [Allocator] {s : State} {backend : MemoryBackend} {m : Module}

def HasLength (mem : MemoryInstance) (kind : MemoryType) : Prop := LinearMemory.len mem.inner = kind.pageCountInitial * kind.pageBytes

-- The local memories are made without overflow or panic, and those that are made
-- have the length of their types.
structure MemoriesSafe (s : State) (backend : MemoryBackend) (m : Module) : Prop where
  products : m.localMemoryAllocation ≠ .skip → ∀ kind ∈ m.memoryTypes, kind.initialSize ≤ usizeMax
  answers : ∃ r s', s.initLocalMemories backend m = .ok (r,s') ∧ (r.isOk → m.localMemoryAllocation ≠ .skip →
    ∃ added, s'.memories = s.memories ++ added ∧ List.Forall₂ HasLength added m.memoryTypes)

-- One memory after the other, until the host has none for the next.
theorem pushMemories_answers {make : MemoryType → Checked (Except Error MemoryInstance)} {kinds : List MemoryType}
    (each : ∀ kind ∈ kinds, ∃ r, make kind = .ok r ∧ ∀ mem, r = .ok mem → HasLength mem kind) :
    ∃ r s', s.pushMemories make kinds = .ok (r,s') ∧
      (r = .ok () → ∃ added, s'.memories = s.memories ++ added ∧ List.Forall₂ HasLength added kinds) := by
  induction kinds generalizing s with
  | nil => exact ⟨_,s,rfl,fun _ => ⟨[],(List.append_nil _).symm,.nil⟩⟩
  | cons kind kinds ih =>
    obtain ⟨r,made,length⟩ := each kind List.mem_cons_self
    cases r with
    | error error => exact ⟨.error error,s,by simp only [pushMemories,made,ok_bind],nofun⟩
    | ok mem =>
      obtain ⟨r,s',rest,added⟩ := ih (s := {s with memories := s.memories ++ [mem]})
        fun kind later => each kind (List.mem_cons_of_mem _ later)
      refine ⟨r,s',by simp only [pushMemories,made,ok_bind,rest],fun finished => ?_⟩
      obtain ⟨others,grown,lengths⟩ := added finished
      exact ⟨mem :: others,by rw [grown,List.append_assoc]; rfl,.cons (length mem rfl) lengths⟩

theorem initMemories_answers {make : MemoryType → Checked (Except Error MemoryInstance)} {kinds : List MemoryType}
    (each : ∀ kind ∈ kinds, ∃ r, make kind = .ok r ∧ ∀ mem, r = .ok mem → HasLength mem kind) :
    ∃ r s', s.initMemories make kinds = .ok (r,s') ∧
      (r.isOk → ∃ added, s'.memories = s.memories ++ added ∧ List.Forall₂ HasLength added kinds) := by
  obtain ⟨r,s',pushed,added⟩ := pushMemories_answers (s := s) each
  refine ⟨_,s',by simp only [initMemories,pushed,ok_bind]; rfl,fun ok => added ?_⟩
  cases r with
  | error error => cases ok
  | ok _ => rfl

theorem memories_safe (sound : m.localMemoryAllocation ≠ .skip → ∀ kind ∈ m.memoryTypes, kind.Sound) :
    s.MemoriesSafe backend m := by
  refine ⟨fun used kind declared => (sound used kind declared).2,?_⟩
  unfold initLocalMemories
  cases allocation : m.localMemoryAllocation with
  | skip => exact ⟨_,_,rfl,fun _ used => absurd rfl used⟩
  | eager =>
    have eager (kind : MemoryType) (declared : kind ∈ m.memoryTypes) := by
      have held := sound (by rw [allocation]; nofun) kind declared
      exact @MemoryInstance.new_answers _ kind backend held.1 held.2
    obtain ⟨r,s',made,lengths⟩ := initMemories_answers (s := s) eager
    exact ⟨r,s',made,fun ok _ => lengths ok⟩
  | «lazy» =>
    obtain ⟨r,s',made,lengths⟩ := initMemories_answers (s := s) fun kind declared => by
      have held := sound (by rw [allocation]; nofun) kind declared
      have small := held.2
      refine ⟨_,@MemoryInstance.newLazy_answers kind backend held.1,fun mem made => ?_⟩
      cases made
      exact Nat.mod_eq_of_lt (by simp only [usizeMax,usizeBits] at small; omega)
    exact ⟨r,s',made,fun ok _ => lengths ok⟩

theorem memory_unsafe {kind : MemoryType} (single : m.memoryTypes = [kind]) (used : m.localMemoryAllocation ≠ .skip)
    (safe : s.MemoriesSafe backend m) : kind.Sound := by
  refine ⟨Nat.le_of_not_lt fun exceeds => ?_,safe.products used kind (by rw [single]; exact List.mem_singleton_self _)⟩
  obtain ⟨r,s',made,_⟩ := safe.answers
  unfold initLocalMemories at made
  rw [single] at made
  cases allocation : m.localMemoryAllocation with
  | skip => exact used allocation
  | eager =>
    rw [allocation] at made
    simp only [initMemories,pushMemories,MemoryInstance.new_panics exceeds,error_bind] at made
    cases made
  | «lazy» =>
    rw [allocation] at made
    simp only [initMemories,pushMemories,MemoryInstance.newLazy_panics exceeds,error_bind] at made
    cases made

end State

-- A type without a maximum is held under 2^32 bytes whatever its address type,
-- and the one length a u64 cannot hold is 2^64.
def WasmMemoryType.InRange (ty : WasmMemoryType) : Prop :=
  (ty.maximum = none → ty.initial * ty.pageSize ≤ 2 ^ 32) ∧ ty.initial * ty.pageSize ≠ 2 ^ 64

theorem WasmMemoryType.Admitted.sound_iff {ty : WasmMemoryType} (admitted : ty.Admitted) :
    (convertModuleMemory ty).Sound ↔ ty.InRange := by
  have whole := admitted.initial_bytes
  have limited : ty.initial ≤ (convertModuleMemory ty).pageLimit ↔ (ty.maximum = none → ty.initial * ty.pageSize ≤ 2 ^ 32) := by
    unfold MemoryType.pageLimit
    rw [admitted.pageBytes]
    cases declared : ty.maximum with
    | some limit => simpa [convertModuleMemory,declared] using (admitted.maximum limit declared).1
    | none =>
      have positive : 0 < ty.pageSize := Nat.two_pow_pos _
      simp [convertModuleMemory,declared,Nat.le_div_iff_mul_le positive,maxMemorySize]
  have fits : (convertModuleMemory ty).initialSize ≤ usizeMax ↔ ty.initial * ty.pageSize ≠ 2 ^ 64 := by
    unfold MemoryType.initialSize
    rw [admitted.pageBytes]
    simp only [convertModuleMemory,usizeMax,usizeBits]
    omega
  exact and_congr limited fits

theorem memory_types_safe_iff [Allocator] {s : State} {backend : MemoryBackend} {m : Module} {tys : List WasmMemoryType}
    (admitted : ∀ ty ∈ tys, ty.Admitted) (declared : m.memoryTypes = tys.map convertModuleMemory) :
    ((∀ ty ∈ tys, ty.InRange) → s.MemoriesSafe backend m) ∧
      ∀ ty, tys = [ty] → (s.MemoriesSafe backend m ↔ (m.localMemoryAllocation ≠ .skip → ty.InRange)) := by
  have sound (inRange : m.localMemoryAllocation ≠ .skip → ∀ ty ∈ tys, ty.InRange) : s.MemoriesSafe backend m := by
    refine State.memories_safe fun used kind listed => ?_
    rw [declared] at listed
    obtain ⟨ty,member,rfl⟩ := List.mem_map.mp listed
    exact (admitted ty member).sound_iff.mpr (inRange used ty member)
  refine ⟨fun inRange => sound fun _ => inRange,?_⟩
  rintro ty rfl
  refine ⟨fun safe used => ?_,fun inRange => sound fun used => List.forall_mem_singleton.mpr (inRange used)⟩
  exact (admitted ty (List.mem_singleton_self _)).sound_iff.mp (State.memory_unsafe declared used safe)

namespace MemoryTypesRun

def module (ty : WasmMemoryType) : Module := ⟨none,[],[],[],[],[],[],[convertModuleMemory ty],[],[],[],.eager⟩

def small : WasmMemoryType := ⟨true,1,some 65537,some 0⟩

def undeclared : WasmMemoryType := ⟨true,65537,none,none⟩

def full : WasmMemoryType := ⟨true,2 ^ 48,some (2 ^ 48),none⟩

theorem small_admitted : small.Admitted := ⟨.inr (.inl rfl),by decide,fun limit declared => by cases declared; decide⟩

theorem undeclared_admitted : undeclared.Admitted := ⟨.inl rfl,by decide,fun _ declared => by cases declared⟩

theorem full_admitted : full.Admitted := ⟨.inl rfl,by decide,fun limit declared => by cases declared; decide⟩

end MemoryTypesRun

open MemoryTypesRun in
theorem memory_types_safe_iff_small :
    let _ := Allocator.unlimited
    State.empty.MemoriesSafe .vec (module small) := by
  intro _
  have inRange : small.InRange := ⟨(fun undeclared => by cases undeclared),by decide⟩
  exact (memory_types_safe_iff (List.forall_mem_singleton.mpr small_admitted) rfl).1 (List.forall_mem_singleton.mpr inRange)

open MemoryTypesRun in
-- An assertion fails; and a product wraps around to a memory of 2^48 pages and no
-- bytes.
theorem admitted_memories_unsafe :
    let _ := Allocator.unlimited
    undeclared.Admitted ∧ State.empty.initLocalMemories .vec (module undeclared) = .error .panic ∧
      ¬State.empty.MemoriesSafe .vec (module undeclared) ∧
      full.Admitted ∧ MemoryInstance.new (convertModuleMemory full) .vec = .ok (.ok ⟨convertModuleMemory full,.left (.vec ⟨[]⟩),2 ^ 48⟩) ∧
      ¬State.empty.MemoriesSafe .vec (module full) := by
  intro _
  refine ⟨undeclared_admitted,rfl,fun safe => ?_,full_admitted,rfl,fun safe => ?_⟩
  · have inRange := undeclared_admitted.sound_iff.mp (State.memory_unsafe rfl (fun skipped => by cases skipped) safe)
    exact absurd (inRange.1 rfl) (by decide)
  · exact (full_admitted.sound_iff.mp (State.memory_unsafe rfl (fun skipped => by cases skipped) safe)).2 rfl

end TinyWasm
