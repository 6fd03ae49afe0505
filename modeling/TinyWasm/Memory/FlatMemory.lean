import TinyWasm.FlatArray
import TinyWasm.Memory.LinearMemory

namespace TinyWasm
open ListRange

-- Every call a client can make through the memory trait. A fixed-width store
-- carries exactly the bytes of its width.
inductive MemoryOp where
  | len
  | growTo (newLen : Nat)
  | read (addr n : Nat)
  | write (addr : Nat) (src : List Byte)
  | readExact (addr n : Nat)
  | readVec (addr n : Nat)
  | writeAll (addr : Nat) (src : List Byte)
  | fill (addr n : Nat) (val : Byte)
  | copyWithin (dst src n : Nat)
  | readFixed (width : AccessWidth) (addr : Nat)
  | writeFixed (width : AccessWidth) (addr : Nat) (bytes : {bytes : List Byte // bytes.length = width.bytes})
  deriving DecidableEq

inductive Outcome where
  | length (n : Nat)
  | grown (result : Except Trap Unit)
  | transferred (bytes : List Byte)
  | wrote (count : Nat)
  | exact (result : Option (List Byte))
  | done (result : Option Unit)
  | loaded (result : Except Trap (List Byte))
  | stored (result : Except Trap Unit)

def MemoryOp.run {M : Type} [LinearMemory M] (m : M) : MemoryOp → Checked (Outcome × M)
  | .len => .ok (.length (LinearMemory.len m),m)
  | .growTo newLen => do let (r,m') ← LinearMemory.growTo m newLen; .ok (.grown r,m')
  | .read addr n => do let r ← LinearMemory.read m addr n; .ok (.transferred r,m)
  | .write addr src => do let (r,m') ← LinearMemory.write m addr src; .ok (.wrote r,m')
  | .readExact addr n => do let r ← LinearMemory.readExact m addr n; .ok (.exact r,m)
  | .readVec addr n => do let r ← LinearMemory.readVec m addr n; .ok (.exact r,m)
  | .writeAll addr src => do let (r,m') ← LinearMemory.writeAll m addr src; .ok (.done r,m')
  | .fill addr n val => do let (r,m') ← LinearMemory.fill m addr n val; .ok (.done r,m')
  | .copyWithin dst src n => do let (r,m') ← LinearMemory.copyWithin m dst src n; .ok (.done r,m')
  | .readFixed width addr => do let r ← LinearMemory.readFixed m width addr; .ok (.loaded r,m)
  | .writeFixed width addr bytes => do
    let (r,m') ← LinearMemory.writeFixed m width addr bytes.val; .ok (.stored r,m')

def MemoryOp.runAll {M : Type} [LinearMemory M] (m : M) : List MemoryOp → Checked (List Outcome × M)
  | [] => .ok ([],m)
  | op :: rest => do
    let (out,m') ← op.run m
    let (outs,last) ← runAll m' rest
    .ok (out :: outs,last)

-- The flat zero-initialised byte array. A partial transfer may stop early but
-- takes at least one byte when one is there.
def Transfers (xs : List Byte) (addr n k : Nat) : Prop :=
  k ≤ min n (xs.length - addr) ∧ (0 < min n (xs.length - addr) → 0 < k)

def orOob (r : Option α) (addr n : Nat) (xs : List Byte) : Except Trap α :=
  match r with
  | some a => .ok a
  | none => .error (memoryOob addr n xs.length)

inductive FlatStep : MemoryOp → List Byte → Outcome → List Byte → Prop where
  | len : FlatStep .len xs (.length xs.length) xs
  | grown (grows : xs.length ≤ n) : FlatStep (.growTo n) xs (.grown (.ok ())) (FlatArray.extend xs n 0)
  | shrink (shrinks : n < xs.length) :
      FlatStep (.growTo n) xs (.grown (.error (memoryOob n 0 xs.length))) xs
  | read (part : Transfers xs addr n k) : FlatStep (.read addr n) xs (.transferred (slice xs addr k)) xs
  | write (part : Transfers xs addr src.length k) :
      FlatStep (.write addr src) xs (.wrote k) (splice xs addr (src.take k))
  | readExact : FlatStep (.readExact addr n) xs (.exact (FlatArray.read xs addr n)) xs
  | readVec : FlatStep (.readVec addr n) xs (.exact (FlatArray.read xs addr n)) xs
  | writeAll : FlatStep (.writeAll addr src) xs (.done (FlatArray.write xs addr src).1)
      (FlatArray.write xs addr src).2
  | fill : FlatStep (.fill addr n val) xs (.done (FlatArray.fill xs addr n val).1)
      (FlatArray.fill xs addr n val).2
  | copyWithin : FlatStep (.copyWithin dst src n) xs (.done (FlatArray.copyWithin xs dst src n).1)
      (FlatArray.copyWithin xs dst src n).2
  | readFixed : FlatStep (.readFixed width addr) xs
      (.loaded (orOob (FlatArray.read xs addr width.bytes) addr width.bytes xs)) xs
  | writeFixed : FlatStep (.writeFixed width addr bytes) xs
      (.stored (orOob (FlatArray.write xs addr bytes.val).1 addr width.bytes xs))
      (FlatArray.write xs addr bytes.val).2

inductive FlatRun : List MemoryOp → List Byte → List Outcome → List Byte → Prop where
  | nil : FlatRun [] xs [] xs
  | cons (step : FlatStep op xs out ys) (rest : FlatRun ops ys outs zs) :
      FlatRun (op :: ops) xs (out :: outs) zs

-- A partial transfer leaves its length to the backend; every other call has one
-- outcome on the flat array.
def MemoryOp.Whole : MemoryOp → Prop
  | .read _ _ => False
  | .write _ _ => False
  | _ => True

theorem FlatStep.functional {op : MemoryOp} {xs ys ys' : List Byte} {out out' : Outcome}
    (whole : op.Whole) (left : FlatStep op xs out ys) (right : FlatStep op xs out' ys') :
    out = out' ∧ ys = ys' := by
  cases left with
  | read | write => cases whole
  | grown grows =>
    cases right with
    | grown => exact ⟨rfl,rfl⟩
    | shrink shrinks => omega
  | shrink shrinks =>
    cases right with
    | grown grows => omega
    | shrink => exact ⟨rfl,rfl⟩
  | _ => cases right; exact ⟨rfl,rfl⟩

theorem FlatRun.functional {ops : List MemoryOp} {xs ys ys' : List Byte} {outs outs' : List Outcome}
    (whole : ∀ op ∈ ops, op.Whole) (left : FlatRun ops xs outs ys) (right : FlatRun ops xs outs' ys') :
    outs = outs' ∧ ys = ys' := by
  induction left generalizing outs' with
  | nil => cases right; exact ⟨rfl,rfl⟩
  | cons step rest ih =>
    cases right with
    | cons step' rest' =>
      obtain ⟨rfl,rfl⟩ := step.functional (whole _ List.mem_cons_self) step'
      obtain ⟨rfl,rfl⟩ := ih (fun op later => whole op (List.mem_cons_of_mem _ later)) rest'
      exact ⟨rfl,rfl⟩

-- The bytes a backend stands for, the invariant of its representation and the
-- unit it allocates in. A fill, and a short read across the end, also need the
-- length rounded up to a unit to be an address.
class FlatMemory (M : Type) extends LinearMemory M where
  bytes : M → List Byte
  Valid : M → Prop
  unit : M → Nat

namespace FlatMemory
variable {M : Type} [FlatMemory M] {m : M} {α : Type}

def Roomy (m : M) (n : Nat) : Prop := n + unit m ≤ 2 ^ usizeBits

-- A call on the backend answers as the flat array does and leaves a valid state
-- with the flat array's bytes.
def Refines (m : M) (result : Checked (α × M)) (flat : α × List Byte) : Prop :=
  ∃ m', result = .ok (flat.1,m') ∧ Valid m' ∧ unit m' = unit m ∧ bytes m' = flat.2

end FlatMemory
open FlatMemory

class LawfulMemory (M : Type) [FlatMemory M] : Prop where
  len_law {m : M} (valid : Valid m) : LinearMemory.len m = (bytes m).length
  fits_law {m : M} (valid : Valid m) : (bytes m).length ≤ usizeMax
  grow_law {m : M} {n : Nat} (valid : Valid m) (fits : n ≤ usizeMax) :
    Refines m (LinearMemory.growTo m n) (if (bytes m).length ≤ n then (.ok (),FlatArray.extend (bytes m) n 0)
      else (.error (memoryOob n 0 (bytes m).length),bytes m))
  read_law {m : M} (valid : Valid m) {addr n : Nat}
    (reachable : Roomy m (bytes m).length ∨ addr + n ≤ (bytes m).length) :
    ∃ k, Transfers (bytes m) addr n k ∧ LinearMemory.read m addr n = .ok (slice (bytes m) addr k)
  write_law {m : M} (valid : Valid m) (addr : Nat) (src : List Byte) :
    ∃ k, Transfers (bytes m) addr src.length k ∧
      Refines m (LinearMemory.write m addr src) (k,splice (bytes m) addr (src.take k))
  readExact_law {m : M} (valid : Valid m) (addr n : Nat) :
    LinearMemory.readExact m addr n = .ok (FlatArray.read (bytes m) addr n)
  readVec_law {m : M} (valid : Valid m) (addr n : Nat) :
    LinearMemory.readVec m addr n = .ok (FlatArray.read (bytes m) addr n)
  writeAll_law {m : M} (valid : Valid m) (addr : Nat) (src : List Byte) :
    Refines m (LinearMemory.writeAll m addr src) (FlatArray.write (bytes m) addr src)
  fill_law {m : M} (valid : Valid m) (roomy : Roomy m (bytes m).length) (addr n : Nat) (val : Byte) :
    Refines m (LinearMemory.fill m addr n val) (FlatArray.fill (bytes m) addr n val)
  copyWithin_law {m : M} (valid : Valid m) (dst src n : Nat) :
    Refines m (LinearMemory.copyWithin m dst src n) (FlatArray.copyWithin (bytes m) dst src n)
  readFixed_law {m : M} (valid : Valid m) (width : AccessWidth) (addr : Nat) :
    LinearMemory.readFixed m width addr =
      .ok (orOob (FlatArray.read (bytes m) addr width.bytes) addr width.bytes (bytes m))
  writeFixed_law {m : M} (valid : Valid m) (width : AccessWidth) (addr : Nat) {src : List Byte}
    (sized : src.length = width.bytes) :
    Refines m (LinearMemory.writeFixed m width addr src)
      (orOob (FlatArray.write (bytes m) addr src).1 addr width.bytes (bytes m),
        (FlatArray.write (bytes m) addr src).2)

-- The lengths a run may request.
def MemoryOp.Grows (limit : Nat) : MemoryOp → Prop
  | .growTo n => n ≤ limit
  | _ => True

theorem Transfers.splice_length {xs src : List Byte} {addr k : Nat} (part : Transfers xs addr src.length k) :
    (splice xs addr (src.take k)).length = xs.length := by
  have bound := part.1
  rcases Nat.eq_zero_or_pos k with rfl | positive
  · simp
  · exact ListRange.splice_length (by simp only [List.length_take]; omega)

theorem FlatStep.length_bound {op : MemoryOp} {xs ys : List Byte} {out : Outcome} {limit : Nat}
    (step : FlatStep op xs out ys) (small : xs.length ≤ limit) (grows : op.Grows limit) :
    ys.length ≤ limit := by
  cases step with
  | grown longer =>
    rw [FlatArray.extend_length longer]
    exact grows
  | write part =>
    rw [part.splice_length]
    exact small
  | writeAll | writeFixed | fill | copyWithin => simpa using small
  | _ => exact small

-- The invariant a run carries: a valid backend no longer than a length that
-- leaves room for one more unit below the end of the address space.
structure Running {M : Type} [FlatMemory M] (c limit : Nat) (m : M) : Prop where
  valid : Valid m
  unit_eq : unit m = c
  bound : (bytes m).length ≤ limit
  room : limit + c ≤ 2 ^ usizeBits
  fits : limit ≤ usizeMax

section Runs
variable {M : Type} [FlatMemory M] {m : M} {c limit : Nat}
open LawfulMemory

theorem Running.next {op : MemoryOp} {out : Outcome} {m' : M} (running : Running c limit m)
    (grows : op.Grows limit) (valid : Valid m') (same : unit m' = unit m)
    (step : FlatStep op (bytes m) out (bytes m')) : Running c limit m' :=
  ⟨valid,same.trans running.unit_eq,step.length_bound running.bound grows,running.room,running.fits⟩

theorem Running.roomy (running : Running c limit m) : Roomy m (bytes m).length := by
  have room := running.room
  have bound := running.bound
  simp only [Roomy,running.unit_eq]
  omega

variable [LawfulMemory M]

theorem step_refines {op : MemoryOp} (running : Running c limit m) (grows : op.Grows limit) :
    ∃ out m', op.run m = .ok (out,m') ∧ FlatStep op (bytes m) out (bytes m') ∧
      Running c limit m' := by
  have valid := running.valid
  -- A call that may change the backend goes through its law, the others leave it alone.
  have changes {α : Type} {call : Checked (α × M)} {flat : α × List Byte} (wrap : α → Outcome)
      (law : Refines m call flat) (step : FlatStep op (bytes m) (wrap flat.1) flat.2)
      (form : op.run m = call >>= fun r => .ok (wrap r.1,r.2)) :
      ∃ out m', op.run m = .ok (out,m') ∧ FlatStep op (bytes m) out (bytes m') ∧
        Running c limit m' := by
    obtain ⟨m',called,valid',same,after⟩ := law
    rw [←after] at step
    exact ⟨_,m',by rw [form,called]; rfl,step,running.next grows valid' same step⟩
  have keeps {out : Outcome} (step : FlatStep op (bytes m) out (bytes m))
      (form : op.run m = .ok (out,m)) :
      ∃ out m', op.run m = .ok (out,m') ∧ FlatStep op (bytes m) out (bytes m') ∧
        Running c limit m' := ⟨out,m,form,step,running⟩
  cases op with
  | len =>
    refine keeps .len ?_
    rw [MemoryOp.run,len_law valid]
  | growTo n =>
    have fits : n ≤ usizeMax := Nat.le_trans grows running.fits
    have law := grow_law valid fits
    split at law
    · exact changes .grown law (.grown ‹_›) rfl
    · exact changes .grown law (.shrink (by omega)) rfl
  | read addr n =>
    obtain ⟨k,part,got⟩ := read_law valid
      (show Roomy m (bytes m).length ∨ addr + n ≤ (bytes m).length from Or.inl running.roomy)
    exact keeps (.read part) (by rw [MemoryOp.run,got]; rfl)
  | write addr src =>
    obtain ⟨k,part,law⟩ := write_law valid addr src
    exact changes .wrote law (.write part) rfl
  | readExact addr n => exact keeps .readExact (by rw [MemoryOp.run,readExact_law valid]; rfl)
  | readVec addr n => exact keeps .readVec (by rw [MemoryOp.run,readVec_law valid]; rfl)
  | writeAll addr src => exact changes .done (writeAll_law valid addr src) .writeAll rfl
  | fill addr n val =>
    exact changes .done (fill_law valid running.roomy addr n val) .fill rfl
  | copyWithin dst src n =>
    exact changes .done (copyWithin_law valid dst src n) .copyWithin rfl
  | readFixed width addr => exact keeps .readFixed (by rw [MemoryOp.run,readFixed_law valid]; rfl)
  | writeFixed width addr src =>
    exact changes .stored (writeFixed_law valid width addr src.property) .writeFixed rfl

theorem run_refines {ops : List MemoryOp} (running : Running c limit m)
    (grows : ∀ op ∈ ops, op.Grows limit) :
    ∃ outs m', MemoryOp.runAll m ops = .ok (outs,m') ∧ FlatRun ops (bytes m) outs (bytes m') ∧
      Running c limit m' := by
  induction ops generalizing m with
  | nil => exact ⟨[],m,rfl,.nil,running⟩
  | cons op rest ih =>
    obtain ⟨out,m',called,step,running'⟩ := step_refines running (grows op List.mem_cons_self)
    obtain ⟨outs,last,ran,path,final⟩ :=
      ih running' (fun next later => grows next (List.mem_cons_of_mem _ later))
    exact ⟨out :: outs,last,by simp [MemoryOp.runAll,called,ran],.cons step path,final⟩

end Runs

end TinyWasm
