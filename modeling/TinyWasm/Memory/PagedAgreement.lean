import TinyWasm.Memory.PagedRefinement

namespace TinyWasm
open FlatMemory ListRange

-- A partial write is replayed with the bytes the other backend took.
def MemoryOp.replay : MemoryOp → Outcome → MemoryOp
  | .write addr src,.wrote k => .write addr (src.take k)
  | op,_ => op

def MemoryOp.replayAll : List MemoryOp → List Outcome → List MemoryOp
  | op :: ops,out :: outs => op.replay out :: replayAll ops outs
  | _,_ => []

-- The same outcome, or a partial read that stopped early but not at once.
inductive Shortened : Outcome → Outcome → Prop where
  | same : Shortened out out
  | transferred (part : xs <+: ys) (progress : ys ≠ [] → xs ≠ []) :
      Shortened (.transferred xs) (.transferred ys)

-- What a backend in one piece transfers.
def Full : MemoryOp → List Byte → Outcome → Prop
  | .read addr n,xs,out => out = .transferred (slice xs addr (min n (xs.length - addr)))
  | .write addr src,xs,out => out = .wrote (min src.length (xs.length - addr))
  | _,_,_ => True

theorem slice_shorter {xs : List Byte} {addr j k : Nat} (shorter : j ≤ k) : slice xs addr j <+: slice xs addr k := by
  obtain ⟨rest,rfl⟩ := Nat.exists_eq_add_of_le shorter
  rw [slice_add]
  exact List.prefix_append _ _

theorem FlatStep.agrees {op : MemoryOp} {xs ys zs : List Byte} {out full : Outcome}
    (step : FlatStep op xs out ys) (replayed : FlatStep (op.replay out) xs full zs)
    (whole : Full (op.replay out) xs full) : Shortened out full ∧ zs = ys := by
  cases step with
  | @read _ addr n k part =>
    cases replayed with
    | @read _ _ _ j _ =>
      have size : (slice xs addr k).length = k := by
        have bound := part.1
        rcases Nat.eq_zero_or_pos k with rfl | positive
        · simp
        · exact slice_length (by omega)
      refine ⟨?_,rfl⟩
      rw [Outcome.transferred.inj whole]
      refine .transferred (slice_shorter part.1) ?_
      intro some_bytes empty
      rw [empty,List.length_nil] at size
      apply some_bytes
      rcases Nat.eq_zero_or_pos (min n (xs.length - addr)) with zero | positive
      · rw [zero,slice_zero]
      · have progress := part.2 positive
        omega
  | @write _ addr k src part =>
    have bound := part.1
    cases replayed with
    | @write _ _ j _ _ =>
      have taken : (src.take k).length = k := by simp only [List.length_take]; omega
      have count : j = k := by
        have exactly := Outcome.wrote.inj whole
        rw [taken] at exactly
        omega
      subst count
      rw [List.take_take,Nat.min_self]
      exact ⟨.same,rfl⟩
  | grown grows =>
    obtain ⟨rfl,rfl⟩ := FlatStep.functional (show (MemoryOp.growTo _).Whole from trivial) (.grown grows) replayed
    exact ⟨.same,rfl⟩
  | shrink shrinks =>
    obtain ⟨rfl,rfl⟩ := FlatStep.functional (show (MemoryOp.growTo _).Whole from trivial) (.shrink shrinks) replayed
    exact ⟨.same,rfl⟩
  | _ => cases replayed; exact ⟨.same,rfl⟩

theorem MemoryOp.Grows.replay {op : MemoryOp} {out : Outcome} {limit : Nat} (grows : op.Grows limit) :
    (op.replay out).Grows limit := by
  unfold MemoryOp.replay
  split
  · trivial
  · exact grows

section Agreement
variable [Allocator]

theorem VecMemory.full {op : MemoryOp} {m m' : VecMemory} {out : Outcome}
    (ran : op.run m = .ok (out,m')) : Full op (bytes m) out := by
  cases op with
  | read addr n =>
    simp only [MemoryOp.run,LinearMemory.read,VecMemory.read_eq,ok_bind] at ran
    cases ran
    rfl
  | write addr src =>
    simp only [MemoryOp.run,LinearMemory.write,VecMemory.write_eq,ok_bind] at ran
    cases ran
    rfl
  | _ => trivial

variable [Generous]

theorem replay_run {ops : List MemoryOp} {xs ys : List Byte} {outs : List Outcome} {vec : VecMemory}
    {c limit : Nat} (path : FlatRun ops xs outs ys) (grows : ∀ op ∈ ops, op.Grows limit)
    (running : Running c limit vec) (same : bytes vec = xs) :
    ∃ fulls vec', MemoryOp.runAll vec (MemoryOp.replayAll ops outs) = .ok (fulls,vec') ∧
      List.Forall₂ Shortened outs fulls ∧ bytes vec' = ys := by
  induction path generalizing vec with
  | nil => exact ⟨[],vec,rfl,.nil,same⟩
  | @cons op xs out ys ops outs zs step rest ih =>
    obtain ⟨full,vec',ran,replayed,running'⟩ := step_refines running
      (show (op.replay out).Grows _ from (grows op List.mem_cons_self).replay)
    have whole := VecMemory.full ran
    rw [same] at replayed whole
    obtain ⟨short,agree⟩ := step.agrees replayed whole
    obtain ⟨fulls,last,ran',shorts,final⟩ :=
      ih (fun next later => grows next (List.mem_cons_of_mem _ later)) running' agree
    exact ⟨full :: fulls,last,by simp [MemoryOp.replayAll,MemoryOp.runAll,ran,ran'],.cons short shorts,final⟩

theorem VecMemory.tryNew_eq (len : Nat) : VecMemory.tryNew len = .ok ⟨List.replicate len 0⟩ := by
  rw [VecMemory.tryNew,if_pos (Generous.grants len)]

theorem PagedMemory.tryNew_fresh {len chunkSize : Nat} (powerOfTwo : PagedMemory.IsChunkSize chunkSize)
    (fits : len ≤ usizeMax) : ∃ m, PagedMemory.tryNew len chunkSize powerOfTwo = .ok m ∧
      Valid m ∧ unit m = chunkSize ∧ bytes m = List.replicate len 0 := by
  unfold PagedMemory.tryNew
  generalize start : PagedMemory.mk 0 chunkSize chunkSize.log2 (chunkSize - 1) [] _ _ _ = empty
  have parts : empty.len = 0 ∧ empty.chunkSize = chunkSize ∧ empty.chunks = [] := by
    rw [←start]
    exact ⟨rfl,rfl,rfl⟩
  have fresh : PagedMemory.Represents empty := by
    refine ⟨?_,?_,?_,?_⟩
    · rw [parts.2.2,parts.1]
      simp [divCeil]
    · rw [parts.2.2]
      simp
    · intro i _
      have absent : empty.chunkBytes (i / empty.chunkSize) = List.replicate empty.chunkSize 0 := by
        simp [PagedMemory.chunkBytes,parts.2.2]
      simp [PagedMemory.byteAt,absent,Nat.mod_lt i empty.chunk_pos]
    · rw [parts.1]
      exact Nat.zero_le _
  have none_yet : bytes empty = [] := by
    rw [List.eq_nil_iff_length_eq_zero,PagedMemory.bytes_length,parts.1]
  obtain ⟨m,grown,valid,same,after⟩ := PagedMemory.growTo_refines fresh fits
  rw [none_yet,List.length_nil,if_pos (Nat.zero_le len)] at grown after
  refine ⟨m,?_,valid,same.trans parts.2.1,by simpa [FlatArray.extend] using after⟩
  have grown' : empty.growTo len = (.ok (),m) := by simpa using grown
  simp only [grown']

-- Every run on chunked storage is a run on the flat array, and with the partial
-- writes it made it is a run on the vector with the same bytes.
theorem paged_refines_flat {len chunkSize : Nat} {ops : List MemoryOp}
    (powerOfTwo : PagedMemory.IsChunkSize chunkSize) (representable : len + chunkSize ≤ usizeMax)
    (growths : ∀ newLen, MemoryOp.growTo newLen ∈ ops → newLen + chunkSize ≤ usizeMax) :
    ∃ paged, PagedMemory.tryNew len chunkSize powerOfTwo = .ok paged ∧
      bytes paged = List.replicate len 0 ∧
      ∃ outs paged', MemoryOp.runAll paged ops = .ok (outs,paged') ∧
        FlatRun ops (List.replicate len 0) outs (bytes paged') ∧
        ∃ vec, VecMemory.tryNew len = .ok vec ∧
          ∃ fulls vec', MemoryOp.runAll vec (MemoryOp.replayAll ops outs) = .ok (fulls,vec') ∧
            List.Forall₂ Shortened outs fulls ∧ bytes vec' = bytes paged' := by
  obtain ⟨paged,made,valid,unit_eq,zeros⟩ := PagedMemory.tryNew_fresh powerOfTwo
    (show len ≤ usizeMax by omega)
  have grows : ∀ op ∈ ops, op.Grows (usizeMax - chunkSize) := by
    intro op member
    cases op with
    | growTo newLen =>
      have bound := growths newLen member
      simp only [MemoryOp.Grows]
      omega
    | _ => trivial
  have total : usizeMax - chunkSize + chunkSize ≤ 2 ^ usizeBits := by simp only [usizeMax,usizeBits] at *; omega
  have running : Running chunkSize (usizeMax - chunkSize) paged :=
    ⟨valid,unit_eq,by rw [zeros,List.length_replicate]; omega,total,by omega⟩
  obtain ⟨outs,paged',ran,path,_⟩ := run_refines running grows
  rw [zeros] at path
  have vec_running : Running 1 (usizeMax - chunkSize) (VecMemory.mk (List.replicate len 0)) := by
    have short : len ≤ usizeMax - chunkSize := by omega
    refine ⟨?_,rfl,?_,?_,by omega⟩
    · simp only [Valid,List.length_replicate]
      omega
    · simp only [bytes,List.length_replicate]
      exact short
    · simp only [usizeMax,usizeBits]
      omega
  obtain ⟨fulls,vec',ran',shorts,final⟩ := replay_run path grows vec_running rfl
  exact ⟨paged,made,zeros,outs,paged',ran,path,_,VecMemory.tryNew_eq len,fulls,vec',ran',shorts,final⟩

end Agreement

theorem paged_refines_flat_across_chunks :
    letI := Allocator.unlimited
    letI ops : List MemoryOp := [.writeAll 2 [1,2,3,4],.copyWithin 1 2 4,.fill 0 5 0,.growTo 9,.readVec 3 6]
    ∃ paged, PagedMemory.tryNew 6 4 ⟨2,by decide,rfl⟩ = .ok paged ∧
      bytes paged = List.replicate 6 0 ∧
      ∃ outs paged', MemoryOp.runAll paged ops = .ok (outs,paged') ∧
        FlatRun ops (List.replicate 6 0) outs (bytes paged') ∧
        ∃ vec, VecMemory.tryNew 6 = .ok vec ∧
          ∃ fulls vec', MemoryOp.runAll vec (MemoryOp.replayAll ops outs) = .ok (fulls,vec') ∧
            List.Forall₂ Shortened outs fulls ∧ bytes vec' = bytes paged' := by
  let _ := Allocator.unlimited
  have _ := Allocator.unlimited_generous
  refine paged_refines_flat ⟨2,by decide,rfl⟩ (by simp only [usizeMax,usizeBits]; omega) ?_
  intro newLen member
  simp only [List.mem_cons,reduceCtorEq,MemoryOp.growTo.injEq,List.not_mem_nil,false_or,or_false] at member
  simp only [member,usizeMax,usizeBits]
  omega

end TinyWasm
