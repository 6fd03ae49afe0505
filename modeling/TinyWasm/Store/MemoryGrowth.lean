import TinyWasm.Memory.Reservation
import TinyWasm.Store.Instantiate

namespace TinyWasm
open FlatMemory

-- A page is one byte or more, and the largest length is a u64.
structure MemoryType.Fits (kind : MemoryType) : Prop where
  paged : 0 < kind.pageBytes
  small : kind.pageLimit * kind.pageBytes ≤ usizeMax

namespace MemoryInstance

section Growth
variable [Allocator] {mem mem' : MemoryInstance} {delta : Int} {trapOnOom : Bool}

structure Sized (mem : MemoryInstance) : Prop where
  valid : Valid mem.inner
  length : (bytes mem.inner).length = mem.pageCount * mem.kind.pageBytes
  within : mem.pageCount ≤ mem.kind.pageLimit

-- What the code makes of a memory: it is created, grown, and written in place.
inductive Lived : MemoryInstance → Prop where
  | made {kind backend mem} (ran : new kind backend = .ok (.ok mem)) : Lived mem
  | madeLazy {kind backend mem} (ran : newLazy kind backend = .ok (.ok mem)) : Lived mem
  | grown {mem delta trapOnOom r mem'} (lived : Lived mem) (ran : mem.grow delta trapOnOom = .ok (r,mem')) : Lived mem'
  | written {mem : MemoryInstance} {inner : MemoryStorage} (lived : Lived mem) (valid : Valid inner)
    (length : (bytes inner).length = (bytes mem.inner).length) : Lived {mem with inner}

-- A growth that the host has no memory for.
def Refuses (mem : MemoryInstance) (delta : Int) : Prop :=
  0 < delta ∧ ∀ inner, LinearMemory.growTo mem.inner ((mem.pageCount + delta.toNat) * mem.kind.pageBytes) ≠ .ok (.ok (),inner)

-- A negative delta is an unsigned one past every limit.
def Exceeds (mem : MemoryInstance) (delta : Int) : Prop := delta < 0 ∨ (mem.kind.pageLimit : Int) < mem.pageCount + delta

def Unchanged (mem mem' : MemoryInstance) : Prop := mem'.pageCount = mem.pageCount ∧ bytes mem'.inner = bytes mem.inner

-- What growing has to answer and to leave behind.
def Grown (mem : MemoryInstance) (delta : Int) (trapOnOom : Bool) : Except Trap (Option Nat) → MemoryInstance → Prop
  | .ok (some old),mem' => old = mem.pageCount ∧ (mem'.pageCount : Int) = mem.pageCount + delta ∧
    bytes mem'.inner = bytes mem.inner ++ List.replicate (delta.toNat * mem.kind.pageBytes) 0
  | .ok none,mem' => (mem.Exceeds delta ∨ trapOnOom = false ∧ mem.Refuses delta) ∧ mem.Unchanged mem'
  | .error trap,mem' => trap = .outOfMemory ∧ trapOnOom = true ∧ mem.Refuses delta ∧ mem.Unchanged mem'

def GrowsExactly (mem : MemoryInstance) (delta : Int) (trapOnOom : Bool) : Prop :=
  ∃ r mem', mem.grow delta trapOnOom = .ok (r,mem') ∧ mem'.kind = mem.kind ∧ mem'.Sized ∧ mem.Grown delta trapOnOom r mem'

-- What is not negative and within the limit comes to the backend.
theorem grow_exceeding (exceeds : mem.Exceeds delta) :
    mem.grow delta trapOnOom = .ok (.ok none,mem) := by
  unfold grow
  split
  · rfl
  · rename_i positive
    have beyond : mem.kind.pageLimit < mem.pageCount + delta.toNat := by
      rcases exceeds with negative | beyond <;> omega
    cases sum : checkedAdd mem.pageCount delta.toNat with
    | none => rfl
    | some newPages =>
      obtain rfl := checkedAdd_some sum
      dsimp only
      rw [if_pos beyond]

omit [Allocator] in
theorem newSize (within : ¬mem.Exceeds delta) :
    0 ≤ delta ∧ mem.pageCount + delta.toNat ≤ mem.kind.pageLimit ∧
      (mem.pageCount + delta.toNat) * mem.kind.pageBytes ≤ mem.kind.pageLimit * mem.kind.pageBytes := by
  have inside : 0 ≤ delta ∧ mem.pageCount + delta.toNat ≤ mem.kind.pageLimit := by
    simp only [Exceeds,not_or] at within
    omega
  exact ⟨inside.1,inside.2,Nat.mul_le_mul_right _ inside.2⟩

-- The old count is an i64, or it is lost.
def answer (mem : MemoryInstance) : Option Nat := if mem.pageCount < 2 ^ 63 then some mem.pageCount else none

-- What is made of the backend's answer.
def settle (mem : MemoryInstance) (newPages : Nat) (trapOnOom : Bool) :
    Except Trap Unit × MemoryStorage → Except Trap (Option Nat) × MemoryInstance
  | (.error trap,inner) => (if trapOnOom then .error trap else .ok none,{mem with inner})
  | (.ok (),inner) => (.ok mem.answer,{mem with inner := inner,pageCount := newPages})

theorem grow_within (sized : mem.Sized) (fits : mem.kind.Fits) (within : ¬mem.Exceeds delta) :
    mem.grow delta trapOnOom =
      if delta = 0 then .ok (.ok mem.answer,mem)
      else (LinearMemory.growTo mem.inner ((mem.pageCount + delta.toNat) * mem.kind.pageBytes)).map
        (mem.settle (mem.pageCount + delta.toNat) trapOnOom) := by
  obtain ⟨positive,inside,smaller⟩ := newSize within
  have counted : mem.kind.pageLimit ≤ usizeMax := Nat.le_trans (Nat.le_mul_of_pos_right _ fits.paged) fits.small
  have small := fits.small
  have whole : mem.kind.maxSize = mem.kind.pageLimit * mem.kind.pageBytes :=
    Nat.mod_eq_of_lt (by simp only [usizeMax,usizeBits] at small; omega)
  unfold grow
  rw [if_neg (by omega),checkedAdd_fits (by omega)]
  dsimp only
  rw [if_neg (by omega),whole,if_neg (by simp only [usizeMax,usizeBits] at small; omega),MemoryStorage.len_bytes sized.valid,
    sized.length]
  by_cases still : delta = 0
  · subst still
    rw [if_pos rfl,if_pos (by rw [Int.toNat_zero,Nat.add_zero])]
    rfl
  · rw [if_neg still,if_neg ?_]
    · rcases LinearMemory.growTo mem.inner ((mem.pageCount + delta.toNat) * mem.kind.pageBytes) with abort | ⟨trap | _,inner⟩
      · rfl
      · cases trapOnOom <;> rfl
      · rfl
    · intro same
      have pages := Nat.eq_of_mul_eq_mul_right fits.paged same
      omega

-- One growth, by what becomes of it.
theorem grow_cases (sized : mem.Sized) (fits : mem.kind.Fits) (within : ¬mem.Exceeds delta) (moves : delta ≠ 0) :
    (mem.Refuses delta ∧ ∃ inner, Valid inner ∧ bytes inner = bytes mem.inner ∧
      mem.grow delta trapOnOom = .ok (if trapOnOom then .error .outOfMemory else .ok none,{mem with inner})) ∨
    (¬mem.Refuses delta ∧ ∃ inner, Valid inner ∧
      bytes inner = bytes mem.inner ++ List.replicate (delta.toNat * mem.kind.pageBytes) 0 ∧
      mem.grow delta trapOnOom = .ok (.ok mem.answer,{mem with inner := inner,pageCount := mem.pageCount + delta.toNat})) := by
  obtain ⟨positive,inside,smaller⟩ := newSize within
  have longer : (bytes mem.inner).length ≤ (mem.pageCount + delta.toNat) * mem.kind.pageBytes := by
    rw [sized.length]
    exact Nat.mul_le_mul_right _ (Nat.le_add_right _ _)
  have ran : mem.grow delta trapOnOom = _ := grow_within sized fits within
  rw [if_neg moves] at ran
  rcases MemoryStorage.growTo_cases sized.valid longer (Nat.le_trans smaller fits.small) with refused | grown
  · obtain ⟨inner,called,valid,_,same⟩ := refused
    rw [called] at ran
    refine .inl ⟨⟨by omega,fun inner granted => ?_⟩,inner,valid,same,ran⟩
    rw [called] at granted
    cases granted
  · obtain ⟨inner,called,valid,_,same⟩ := grown
    rw [called] at ran
    refine .inr ⟨fun refuses => refuses.2 inner called,inner,valid,?_,ran⟩
    rw [same,FlatArray.extend,sized.length,Nat.add_mul,Nat.add_sub_cancel_left]

theorem Sized.rewritten (sized : mem.Sized) {inner : MemoryStorage} (valid : Valid inner)
    (length : (bytes inner).length = (bytes mem.inner).length) : Sized {mem with inner} :=
  ⟨valid,length.trans sized.length,sized.within⟩

theorem Sized.extended (sized : mem.Sized) (within : ¬mem.Exceeds delta) {inner : MemoryStorage} (valid : Valid inner)
    (same : bytes inner = bytes mem.inner ++ List.replicate (delta.toNat * mem.kind.pageBytes) 0) :
    Sized {mem with inner := inner,pageCount := mem.pageCount + delta.toNat} := by
  refine ⟨valid,?_,(newSize within).2.1⟩
  rw [same,List.length_append,List.length_replicate,sized.length,Nat.add_mul]

theorem grow_sized {r : Except Trap (Option Nat)} (sized : mem.Sized) (fits : mem.kind.Fits)
    (ran : mem.grow delta trapOnOom = .ok (r,mem')) : mem'.Sized := by
  by_cases exceeds : mem.Exceeds delta
  · rw [grow_exceeding exceeds] at ran
    cases ran
    exact sized
  by_cases still : delta = 0
  · rw [grow_within sized fits exceeds,if_pos still] at ran
    cases ran
    exact sized
  rcases grow_cases sized fits exceeds still with ⟨_,inner,valid,same,refused⟩ | ⟨_,inner,valid,same,grown⟩
  · rw [refused] at ran
    cases ran
    exact sized.rewritten valid (congrArg _ same)
  · rw [grown] at ran
    cases ran
    exact sized.extended exceeds valid same

omit [Allocator] in
theorem initial_fits {kind : MemoryType} (fits : kind.Fits) (admitted : ¬kind.pageCountInitial > kind.pageLimit) :
    kind.initialSize ≤ usizeMax ∧ initialLen kind = kind.initialSize := by
  have small : kind.initialSize ≤ usizeMax :=
    Nat.le_trans (Nat.mul_le_mul_right _ (Nat.le_of_not_lt admitted)) fits.small
  exact ⟨small,Nat.mod_eq_of_lt (by simp only [usizeMax,usizeBits] at small; omega)⟩

theorem new_made {kind : MemoryType} {backend : MemoryBackend} (ran : new kind backend = .ok (.ok mem)) :
    ¬kind.pageCountInitial > kind.pageLimit ∧
      ∃ storage, backend.create (initialLen kind) = .ok storage ∧ mem = ⟨kind,.left storage,kind.pageCountInitial⟩ := by
  unfold new at ran
  split at ran
  · cases ran
  · rename_i admitted
    cases created : backend.create (initialLen kind) with
    | error error => rw [created] at ran; cases ran
    | ok storage =>
      rw [created] at ran
      by_cases whole : LinearMemory.len storage = initialLen kind
      · simp only [bind,Except.bind,ne_eq,whole,not_true,if_false,Except.ok.injEq] at ran
        exact ⟨admitted,storage,rfl,ran.symm⟩
      · simp only [bind,Except.bind,ne_eq,whole,not_false_eq_true,if_true,Except.ok.injEq] at ran
        cases ran

omit [Allocator] in
theorem newLazy_made {kind : MemoryType} {backend : MemoryBackend} (ran : newLazy kind backend = .ok (.ok mem)) :
    ¬kind.pageCountInitial > kind.pageLimit ∧
      mem = ⟨kind,.right (.newWithInitialLen (initialLen kind) backend),kind.pageCountInitial⟩ := by
  unfold newLazy at ran
  split at ran
  · cases ran
  · rename_i admitted
    cases ran
    exact ⟨admitted,rfl⟩

theorem grow_pages {r : Except Trap (Option Nat)} (ran : mem.grow delta trapOnOom = .ok (r,mem')) :
    mem.pageCount ≤ mem'.pageCount := by
  unfold grow at ran
  split at ran
  · cases ran; exact Nat.le_refl _
  split at ran
  · cases ran; exact Nat.le_refl _
  rename_i newPages sum
  split at ran
  · cases ran; exact Nat.le_refl _
  dsimp only at ran
  split at ran
  · cases ran; exact Nat.le_refl _
  split at ran
  · cases ran; exact Nat.le_refl _
  rcases grown : LinearMemory.growTo mem.inner (newPages * mem.kind.pageBytes) with abort | ⟨trap | _,inner⟩
  · rw [grown] at ran; cases ran
  · rw [grown] at ran
    cases trapOnOom <;> cases ran <;> exact Nat.le_refl _
  · rw [grown] at ran
    cases ran
    exact checkedAdd_some sum ▸ Nat.le_add_right _ _

-- Page count and length agree in every state of every life.
theorem Lived.sized (lived : mem.Lived) (fits : mem.kind.Fits) : mem.Sized := by
  induction lived with
  | made ran =>
    obtain ⟨admitted,storage,created,rfl⟩ := new_made ran
    obtain ⟨small,whole⟩ := initial_fits fits admitted
    rw [whole] at created
    rcases MemoryBackend.create_cases _ small with refused | ⟨storage',created',valid,_,zeros⟩
    · rw [refused] at created; cases created
    · cases created.symm.trans created'
      exact ⟨valid,(congrArg List.length zeros).trans List.length_replicate,Nat.le_of_not_lt admitted⟩
  | madeLazy ran =>
    obtain ⟨admitted,rfl⟩ := newLazy_made ran
    obtain ⟨small,whole⟩ := initial_fits fits admitted
    exact ⟨whole ▸ small,List.length_replicate.trans whole,Nat.le_of_not_lt admitted⟩
  | grown lived ran ih =>
    have same := grow_kind ran
    rw [same] at fits
    exact grow_sized (ih fits) fits ran
  | written lived valid length ih => exact (ih fits).rewritten valid length

theorem lost (within : ¬mem.Exceeds delta) (granted : ¬mem.Refuses delta)
    (ran : mem.grow delta trapOnOom = .ok (.ok none,mem')) : ¬mem.GrowsExactly delta trapOnOom := by
  rintro ⟨r,mem'',ran',_,_,grown⟩
  cases ran.symm.trans ran'
  rcases grown.1 with beyond | ⟨_,refuses⟩
  · exact within beyond
  · exact granted refuses

end Growth

-- One page of one byte under a limit of two, and 2^63 of them in chunks that are
-- not there until they are written.
namespace GrowthRun

def pair : MemoryInstance := ⟨⟨.i32,1,some 2,some 1⟩,.left (.vec ⟨[0]⟩),1⟩

def chunks : MemoryBackend := .paged (2 ^ 62) ⟨62,by decide,rfl⟩

def hugeKind : MemoryType := ⟨.i64,2 ^ 63,some (2 ^ 63 + 1),some 1⟩

def storage (len : Nat) (count : Nat) : PagedMemory :=
  ⟨len,2 ^ 62,62,2 ^ 62 - 1,List.replicate count none,rfl,rfl,by decide⟩

def huge : MemoryInstance := ⟨hugeKind,.left (.paged (storage (2 ^ 63) 2)),2 ^ 63⟩

def grownHuge : MemoryInstance := ⟨hugeKind,.left (.paged (storage (2 ^ 63 + 1) 3)),2 ^ 63 + 1⟩

end GrowthRun

end MemoryInstance

end TinyWasm
