import TinyWasm.Memory.PagedAgreement

namespace TinyWasm
open FlatMemory

-- A memory behind a trait object, of one of two kinds: every call dispatches.
inductive Boxed (M N : Type) where
  | left (memory : M)
  | right (memory : N)

namespace Boxed
variable {M N : Type}

def lift {α K : Type} (wrap : K → Boxed M N) (result : Checked (α × K)) : Checked (α × Boxed M N) := do
  let (r,m) ← result
  .ok (r,wrap m)

instance [LinearMemory M] [LinearMemory N] : LinearMemory (Boxed M N) where
  len
    | .left m => LinearMemory.len m
    | .right m => LinearMemory.len m
  growTo
    | .left m,n => lift .left (LinearMemory.growTo m n)
    | .right m,n => lift .right (LinearMemory.growTo m n)
  read
    | .left m,addr,n => LinearMemory.read m addr n
    | .right m,addr,n => LinearMemory.read m addr n
  write
    | .left m,addr,src => lift .left (LinearMemory.write m addr src)
    | .right m,addr,src => lift .right (LinearMemory.write m addr src)
  writeAll
    | .left m,addr,src => lift .left (LinearMemory.writeAll m addr src)
    | .right m,addr,src => lift .right (LinearMemory.writeAll m addr src)
  fill
    | .left m,addr,n,val => lift .left (LinearMemory.fill m addr n val)
    | .right m,addr,n,val => lift .right (LinearMemory.fill m addr n val)
  readExact
    | .left m,addr,n => LinearMemory.readExact m addr n
    | .right m,addr,n => LinearMemory.readExact m addr n
  copyWithin
    | .left m,dst,src,n => lift .left (LinearMemory.copyWithin m dst src n)
    | .right m,dst,src,n => lift .right (LinearMemory.copyWithin m dst src n)
  readVec
    | .left m,addr,n => LinearMemory.readVec m addr n
    | .right m,addr,n => LinearMemory.readVec m addr n
  readFixed
    | .left m,width,addr => LinearMemory.readFixed m width addr
    | .right m,width,addr => LinearMemory.readFixed m width addr
  writeFixed
    | .left m,width,addr,bytes => lift .left (LinearMemory.writeFixed m width addr bytes)
    | .right m,width,addr,bytes => lift .right (LinearMemory.writeFixed m width addr bytes)

instance [FlatMemory M] [FlatMemory N] : FlatMemory (Boxed M N) where
  bytes
    | .left m => bytes m
    | .right m => bytes m
  Valid
    | .left m => Valid m
    | .right m => Valid m
  unit
    | .left m => unit m
    | .right m => unit m

variable [FlatMemory M] [FlatMemory N]

theorem left_refines {α : Type} {m : M} {result : Checked (α × M)} {flat : α × List Byte}
    (law : Refines m result flat) : Refines (left m : Boxed M N) (lift left result) flat := by
  obtain ⟨m',called,valid,same,after⟩ := law
  exact ⟨left m',by rw [called]; rfl,valid,same,after⟩

theorem right_refines {α : Type} {m : N} {result : Checked (α × N)} {flat : α × List Byte}
    (law : Refines m result flat) : Refines (right m : Boxed M N) (lift right result) flat := by
  obtain ⟨m',called,valid,same,after⟩ := law
  exact ⟨right m',by rw [called]; rfl,valid,same,after⟩

open LawfulMemory

instance [LawfulMemory M] [LawfulMemory N] : LawfulMemory (Boxed M N) where
  len_law {m} valid := match m with
    | .left _ => len_law (M := M) valid
    | .right _ => len_law (M := N) valid
  fits_law {m} valid := match m with
    | .left _ => fits_law (M := M) valid
    | .right _ => fits_law (M := N) valid
  grow_law {m} _ valid fits := match m with
    | .left _ => left_refines (grow_law (M := M) valid fits)
    | .right _ => right_refines (grow_law (M := N) valid fits)
  read_law {m} valid := match m with
    | .left _ => read_law (M := M) valid
    | .right _ => read_law (M := N) valid
  write_law {m} valid addr src := match m with
    | .left _ =>
      let ⟨k,part,law⟩ := write_law (M := M) valid addr src
      ⟨k,part,left_refines law⟩
    | .right _ =>
      let ⟨k,part,law⟩ := write_law (M := N) valid addr src
      ⟨k,part,right_refines law⟩
  readExact_law {m} valid := match m with
    | .left _ => readExact_law (M := M) valid
    | .right _ => readExact_law (M := N) valid
  readVec_law {m} valid := match m with
    | .left _ => readVec_law (M := M) valid
    | .right _ => readVec_law (M := N) valid
  writeAll_law {m} valid addr src := match m with
    | .left _ => left_refines (writeAll_law (M := M) valid addr src)
    | .right _ => right_refines (writeAll_law (M := N) valid addr src)
  fill_law {m} valid roomy addr n val := match m with
    | .left _ => left_refines (fill_law (M := M) valid roomy addr n val)
    | .right _ => right_refines (fill_law (M := N) valid roomy addr n val)
  copyWithin_law {m} valid dst src n := match m with
    | .left _ => left_refines (copyWithin_law (M := M) valid dst src n)
    | .right _ => right_refines (copyWithin_law (M := N) valid dst src n)
  readFixed_law {m} valid := match m with
    | .left _ => readFixed_law (M := M) valid
    | .right _ => readFixed_law (M := N) valid
  writeFixed_law {m} valid width addr _ sized := match m with
    | .left _ => left_refines (writeFixed_law (M := M) valid width addr sized)
    | .right _ => right_refines (writeFixed_law (M := N) valid width addr sized)

end Boxed

end TinyWasm
