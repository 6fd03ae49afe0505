import TinyWasm.Parser.Optimize

namespace TinyWasm

-- A rewrite that takes no more than its block and puts no jump in its place.
structure Rewrite.Fits (block : Block) (rewrite : Rewrite) : Prop where
  within : rewrite.consumed ≤ block.length
  plain : ∀ i ∈ rewrite.out, i.target = none

-- What a function may answer for a block.
def Fitting (block : Block) (answer : Option Rewrite) : Prop := ∀ rewrite, answer = some rewrite → rewrite.Fits block

namespace Fitting
variable {block : Block} {a b : Option Rewrite}

theorem none : Fitting block none := nofun

theorem some {rewrite : Rewrite} (fits : rewrite.Fits block) : Fitting block (some rewrite) := by
  rintro _ ⟨⟩
  exact fits

theorem or (first : Fitting block a) (second : Fitting block b) : Fitting block (a.or b) := by
  cases a with
  | none => exact second
  | some rewrite => exact first

theorem bind {α : Type} {x : Option α} {f : α → Option Rewrite} (each : ∀ a, Fitting block (f a)) : Fitting block (x.bind f) := by
  cases x with
  | none => exact none
  | some a => exact each a

end Fitting

theorem Rewrite.Fits.one {block : Block} {consumed : Nat} {i : Instruction} (within : consumed ≤ block.length)
    (plain : i.target = none) : Rewrite.Fits block ⟨consumed,[i]⟩ :=
  ⟨within,fun _ listed => List.mem_singleton.mp listed ▸ plain⟩

namespace Lane

-- No instruction of a lane is a jump.
structure Plain (lane : Lane) : Prop where
  instr (form : Form lane.Op lane.Imm) : (lane.instr form).target = none
  constSet (dst src : LocalAddr) (op : lane.Op) (c : lane.Imm) : (lane.constSet dst src op c).target = none
  loadTee (i set : Instruction) (dst : LocalAddr) : lane.loadTee i = some (set,dst) → set.target = none

theorem scalar_plain (width : ScalarSize) : (scalar width).Plain where
  instr form := by cases form <;> rfl
  constSet dst src op c := by
    dsimp only [scalar]
    split
    · split <;> rfl
    · rfl
  loadTee i set dst made := by
    dsimp only [scalar] at made
    split at made
    · cases made; rfl
    · cases made

theorem vector_plain : vector.Plain where
  instr form := by cases form <;> rfl
  constSet _ _ _ _ := rfl
  loadTee i set dst made := by
    dsimp only [vector] at made
    split at made
    · cases made; rfl
    · cases made

theorem of_plain (size : OperandSize) : (of size).Plain := by
  cases size with
  | s32 => exact scalar_plain _
  | s64 => exact scalar_plain _
  | s128 => exact vector_plain

variable {lane : Lane} (plain : lane.Plain) {block : Block}
include plain

theorem resolveLocalSource_plain {i set : Instruction} {dst : LocalAddr}
    (resolved : lane.resolveLocalSource i = some (some set,dst)) : set.target = none := by
  unfold resolveLocalSource at resolved
  split at resolved
  · cases resolved
  · cases resolved; exact plain.instr _
  · cases resolved; exact plain.instr _
  · cases resolved; exact plain.instr _
  · cases made : lane.loadTee i with
    | none => rw [made] at resolved; cases resolved
    | some tee =>
      rw [made] at resolved
      cases resolved
      exact plain.loadTee i _ _ made

theorem foldLocalBinop_fits {localLocal : lane.Op → LocalAddr → LocalAddr → Instruction}
    {localConst : LocalAddr → lane.Op → lane.Imm → Instruction} (locals : ∀ op a b, (localLocal op a b).target = none)
    (consts : ∀ a op c, (localConst a op c).target = none) : Fitting block (lane.foldLocalBinop localLocal localConst block) := by
  unfold foldLocalBinop
  split
  · rename_i rawOp rhsSrc lhsSrc rest
    have within : 3 ≤ (rawOp :: rhsSrc :: lhsSrc :: rest).length := by simp only [List.length_cons]; omega
    have source {i : Instruction} {set : Option Instruction} {a : LocalAddr} (resolved : lane.resolveLocalSource i = some (set,a)) :
        ∀ j ∈ set.toList, j.target = none := by
      intro j listed
      cases set with
      | none => cases listed
      | some set =>
        obtain rfl := List.mem_singleton.mp listed
        exact resolveLocalSource_plain plain resolved
    cases lhsResolved : lane.resolveLocalSource lhsSrc with
    | none => exact Fitting.none
    | some lhs =>
      obtain ⟨lhsInstr,lhs⟩ := lhs
      cases lane.op rawOp with
      | none => exact Fitting.none
      | some op =>
        simp only [bind,Option.bind]
        split
        · rename_i rhsInstr rhs rhsResolved
          split
          · refine .some ⟨within,fun i listed => ?_⟩
            rcases List.mem_append.mp listed with listed | listed
            · rcases List.mem_append.mp listed with listed | listed
              · exact source lhsResolved i listed
              · exact source rhsResolved i listed
            · obtain rfl := List.mem_singleton.mp listed
              exact locals _ _ _
          · exact Fitting.none
        · split
          · refine .some ⟨within,fun i listed => ?_⟩
            rcases List.mem_append.mp listed with listed | listed
            · exact source lhsResolved i listed
            · obtain rfl := List.mem_singleton.mp listed
              exact consts _ _ _
          · exact Fitting.none
  · exact Fitting.none

theorem rewriteLocalSetDirect_fits (dst : LocalAddr) : Fitting block (lane.rewriteLocalSetDirect dst block) := by
  unfold rewriteLocalSetDirect
  split
  · rename_i last rest
    have within : 1 ≤ (last :: rest).length := Nat.succ_pos _
    split
    · split
      · exact .some (.one within (plain.instr _))
      · exact .some ⟨within,nofun⟩
    · exact .some (.one within (plain.instr _))
    · exact .some (.one within (plain.instr _))
    · exact .some (.one within (plain.constSet _ _ _ _))
    · exact Fitting.none
  · exact Fitting.none

theorem rewriteLocalTeeDirect_fits (dst : LocalAddr) : Fitting block (lane.rewriteLocalTeeDirect dst block) := by
  unfold rewriteLocalTeeDirect
  split
  · rename_i last rest
    have within : 1 ≤ (last :: rest).length := Nat.succ_pos _
    split
    · split
      · exact .some (.one within (plain.instr _))
      · exact Fitting.none
    · exact .some (.one within (plain.instr _))
    · exact .some (.one within (plain.instr _))
    · exact Fitting.none
  · exact Fitting.none

theorem rewriteDropTeeDirect_fits : Fitting block (lane.rewriteDropTeeDirect block) := by
  unfold rewriteDropTeeDirect
  split
  · rename_i last rest
    have within : 1 ≤ (last :: rest).length := Nat.succ_pos _
    split
    · exact .some (.one within (plain.instr _))
    · exact .some (.one within (plain.instr _))
    · exact .some (.one within (plain.instr _))
    · exact Fitting.none
  · exact Fitting.none

theorem rewriteLocalGet_fits (dst : LocalAddr) : Fitting block (lane.rewriteLocalGet dst block) := by
  unfold rewriteLocalGet
  split
  · rename_i last rest
    split
    · split
      · exact .some (.one (Nat.succ_pos _) (plain.instr _))
      · exact Fitting.none
    · exact Fitting.none
  · exact Fitting.none

theorem rewriteOperands_fits (op : lane.Op) (commutes : Bool) : Fitting block (lane.rewriteOperands op commutes block) := by
  unfold rewriteOperands
  split
  · rename_i second first rest
    have within : 2 ≤ (second :: first :: rest).length := Nat.succ_le_succ (Nat.succ_pos _)
    split
    · exact .some (.one within (plain.instr _))
    · exact .some (.one within (plain.instr _))
    · split
      · exact .some (.one within (plain.instr _))
      · exact Fitting.none
    · exact Fitting.none
  · exact Fitting.none

end Lane

section Widths
variable (width : ScalarSize) {block : Block}

theorem rewriteStackGlobal_fits (op : BinOp) : Fitting block (rewriteStackGlobal width op block) := by
  unfold rewriteStackGlobal
  split
  · exact .some (.one (Nat.succ_pos _) rfl)
  · exact Fitting.none

theorem rewriteAdd_fits : Fitting block (rewriteAdd width block) := by
  unfold rewriteAdd
  split
  · split
    · exact .some (.one (Nat.succ_pos _) rfl)
    · exact Fitting.none
  · split
    · exact .some (.one (Nat.succ_pos _) rfl)
    · exact Fitting.none
  · exact Fitting.none

theorem rewriteShiftPair_fits : Fitting block (rewriteShiftPair width block) := by
  unfold rewriteShiftPair
  split
  · split
    · rintro _ made
      obtain ⟨extend,_,rfl⟩ := Option.map_eq_some_iff.mp made
      refine ⟨Nat.succ_le_succ (Nat.succ_pos _),fun i listed => ?_⟩
      rcases List.mem_cons.mp listed with rfl | listed
      · rfl
      · obtain rfl := List.mem_singleton.mp listed
        rfl
    · exact Fitting.none
  · exact Fitting.none

theorem rewriteIntBinary_fits (op : BinOp) : Fitting block (rewriteIntBinary width op block) := by
  refine (Lane.rewriteOperands_fits (Lane.scalar_plain width) op op.commutes).or ((rewriteStackGlobal_fits width op).or ?_)
  split
  · exact rewriteAdd_fits width
  · split
    · exact rewriteShiftPair_fits width
    · exact Fitting.none

theorem rewriteIncMemory_fits (arg : MemoryArg) : Fitting block (rewriteIncMemory width arg block) := by
  unfold rewriteIncMemory
  split
  · rename_i w c load size addr rest
    have within : 3 ≤ (Instruction.addConst w c :: load :: Instruction.localGet size addr :: rest).length := by
      simp only [List.length_cons]
      omega
    split
    · split
      · split
        · exact .some (.one within rfl)
        · exact Fitting.none
      · split
        · exact .some (.one within rfl)
        · exact Fitting.none
      · exact Fitting.none
    · exact Fitting.none
  · exact Fitting.none

theorem rewriteFmaStore_fits (arg : MemoryArg) : Fitting block (rewriteFmaStore width arg block) := by
  unfold rewriteFmaStore
  split
  · split
    · exact .some (.one (Nat.succ_le_succ (Nat.succ_pos _)) rfl)
    · exact Fitting.none
  · exact Fitting.none

theorem rewriteMulAcc_fits (dst : LocalAddr) : Fitting block (rewriteMulAcc width dst block) := by
  unfold rewriteMulAcc
  split
  · split
    · exact .some (.one (Nat.succ_le_succ (Nat.succ_le_succ (Nat.succ_pos _))) rfl)
    · exact Fitting.none
  · split
    · exact .some (.one (Nat.succ_le_succ (Nat.succ_le_succ (Nat.succ_pos _))) rfl)
    · exact Fitting.none
  · exact Fitting.none

theorem rewriteConstTee_fits (dst : LocalAddr) : Fitting block (rewriteConstTee width dst block) := by
  unfold rewriteConstTee
  split
  · split
    · exact .some (.one (Nat.succ_le_succ (Nat.succ_pos _)) rfl)
    · exact Fitting.none
  · split
    · exact .some (.one (Nat.succ_le_succ (Nat.succ_pos _)) rfl)
    · exact Fitting.none
  · exact Fitting.none

end Widths

section Memory
variable {block : Block}

theorem rewriteStoreLocals_fits (size : OperandSize) (arg : MemoryArg) : Fitting block (rewriteStoreLocals size arg block) := by
  unfold rewriteStoreLocals
  split
  · split
    · exact .some (.one (Nat.succ_le_succ (Nat.succ_pos _)) rfl)
    · exact Fitting.none
  · exact Fitting.none

theorem rewriteStore_fits (arg : MemoryArg) (op : StoreOp) : Fitting block (rewriteStore arg block op) := by
  have scalar (width : ScalarSize) (size : OperandSize) : Fitting block
      ((rewriteIncMemory width arg block).or ((rewriteFmaStore width arg block).or (rewriteStoreLocals size arg block))) :=
    (rewriteIncMemory_fits width arg).or ((rewriteFmaStore_fits width arg).or (rewriteStoreLocals_fits size arg))
  unfold rewriteStore
  split
  · exact scalar _ _
  · exact scalar _ _
  · exact scalar _ _
  · exact scalar _ _
  · exact rewriteStoreLocals_fits _ _
  · exact Fitting.none

theorem loadLocal_plain {arg : MemoryArg} {addrLocal : LocalAddr} {op : LoadOp} {i : Instruction}
    (made : loadLocal arg addrLocal op = some i) : i.target = none := by
  unfold loadLocal at made
  split at made <;> cases made <;> rfl

theorem rewriteLoad_fits (op : LoadOp) (arg : MemoryArg) : Fitting block (rewriteLoad op arg block) := by
  unfold rewriteLoad
  split
  · split
    · rintro _ answered
      obtain ⟨load,made,rfl⟩ := Option.map_eq_some_iff.mp answered
      exact .one (Nat.succ_pos _) (loadLocal_plain made)
    · exact Fitting.none
  · exact Fitting.none

theorem rewriteMemoryFill_fits (mem : MemAddr) : Fitting block (rewriteMemoryFill mem block) := by
  unfold rewriteMemoryFill
  split
  · exact .some (.one (Nat.succ_le_succ (Nat.succ_pos _)) rfl)
  · exact Fitting.none

theorem rewriteLoadSet_fits (size : OperandSize) (dst : LocalAddr) : Fitting block (rewriteLoadSet size dst block) := by
  unfold rewriteLoadSet
  split
  · split
    · exact .some (.one (Nat.succ_pos _) rfl)
    · exact Fitting.none
  · split
    · exact .some (.one (Nat.succ_le_succ (Nat.succ_pos _)) rfl)
    · exact Fitting.none
  · split
    · exact .some (.one (Nat.succ_le_succ (Nat.succ_pos _)) rfl)
    · exact Fitting.none
  · exact Fitting.none

theorem rewriteLoadTee_fits (size : OperandSize) (dst : LocalAddr) : Fitting block (rewriteLoadTee size dst block) := by
  unfold rewriteLoadTee
  split
  · split
    · exact .some (.one (Nat.succ_pos _) rfl)
    · exact Fitting.none
  · split
    · exact .some (.one (Nat.succ_le_succ (Nat.succ_pos _)) rfl)
    · exact Fitting.none
  · split
    · exact .some (.one (Nat.succ_le_succ (Nat.succ_pos _)) rfl)
    · exact Fitting.none
  · split
    · exact .some (.one (Nat.succ_le_succ (Nat.succ_pos _)) rfl)
    · exact Fitting.none
  · exact Fitting.none

theorem rewriteLocalSet_fits (size : OperandSize) (dst : LocalAddr) : Fitting block (rewriteLocalSet size dst block) := by
  have plain := Lane.of_plain size
  refine (Lane.foldLocalBinop_fits plain (fun _ _ _ => plain.instr _) fun _ _ _ => plain.constSet _ _ _ _).or ?_
  refine (Fitting.bind fun width => rewriteMulAcc_fits width dst).or ?_
  exact (Lane.rewriteLocalSetDirect_fits plain dst).or (rewriteLoadSet_fits size dst)

theorem rewriteLocalTee_fits (size : OperandSize) (dst : LocalAddr) : Fitting block (rewriteLocalTee size dst block) := by
  have plain := Lane.of_plain size
  refine (Lane.foldLocalBinop_fits plain (fun _ _ _ => plain.instr _) fun _ _ _ => plain.instr _).or ?_
  refine (Lane.rewriteLocalTeeDirect_fits plain dst).or ?_
  exact (Fitting.bind fun width => rewriteConstTee_fits width dst).or (rewriteLoadTee_fits size dst)

theorem fuse_fits (i : Instruction) : Fitting block (fuse block i) := by
  unfold fuse
  split
  · exact .bind fun op => rewriteIntBinary_fits _ op
  · exact .bind fun op => Lane.rewriteOperands_fits (Lane.scalar_plain _) op op.commutes
  · exact .bind fun op => Lane.rewriteOperands_fits Lane.vector_plain op op.commutes
  · exact rewriteStore_fits _ _
  · exact rewriteLoad_fits _ _
  · exact rewriteMemoryFill_fits _
  · exact Lane.rewriteLocalGet_fits (Lane.of_plain _) _
  · exact rewriteLocalSet_fits _ _
  · exact rewriteLocalTee_fits _ _
  · exact Lane.rewriteDropTeeDirect_fits (Lane.of_plain _)
  · exact Fitting.none

end Memory

def Instruction.isTable : Instruction → Bool
  | .branchTable _ _ _ => true
  | _ => false

-- A jump to a place, of whatever kind.
structure Instruction.Aims (target : Nat) (i : Instruction) : Prop where
  target : i.target = some target
  alone : i.isTable = false

theorem Instruction.aims_withTarget {i : Instruction} {t target : Nat} (named : i.target = some t) (alone : i.isTable = false) :
    (i.withTarget target).Aims target := by
  cases i
  case branchTable => cases alone
  case jump | jumpIfZero | jumpIfNonZero | jumpIfLocalZero | jumpIfLocalNonZero | jumpCmpStackConst | jumpCmpLocalConst | jumpCmpLocalLocal => exact ⟨rfl,rfl⟩
  all_goals cases named

section Conditions
variable (zero : Bool) (width : ScalarSize) (target : Nat)

theorem jumpIf_aims : (jumpIf zero width target).Aims target := by
  unfold jumpIf
  split <;> exact ⟨rfl,rfl⟩

theorem jumpIfLocal_aims (index : LocalAddr) : (jumpIfLocal zero width target index).Aims target := by
  unfold jumpIfLocal
  split <;> exact ⟨rfl,rfl⟩

theorem jumpCmpLocalConst_aims (index : LocalAddr) (imm : Value .s32) (op : CmpOp) :
    (jumpCmpLocalConst width target index imm op).Aims target := by
  unfold jumpCmpLocalConst
  split
  · split <;> exact ⟨rfl,rfl⟩
  · split <;> exact ⟨rfl,rfl⟩
  · exact ⟨rfl,rfl⟩

theorem jumpCmpStackConst_aims (imm : Value width.size) (op : CmpOp) : (jumpCmpStackConst width target imm op).Aims target := by
  unfold jumpCmpStackConst
  split
  · split <;> exact ⟨rfl,rfl⟩
  · split <;> exact ⟨rfl,rfl⟩
  · exact ⟨rfl,rfl⟩

-- The one instruction that a test and the last ones of its block give way to.
def Retests (block : Block) (answer : Option Rewrite) : Prop :=
  ∀ rewrite, answer = some rewrite → rewrite.consumed ≤ block.length ∧ ∀ i ∈ rewrite.out, i.Aims target

variable {target}

theorem Retests.none {block : Block} : Retests target block none := nofun

theorem Retests.one {block : Block} {consumed : Nat} {i : Instruction} (within : consumed ≤ block.length) (aims : i.Aims target) :
    Retests target block (some ⟨consumed,[i]⟩) := by
  rintro _ ⟨⟩
  exact ⟨within,fun _ listed => List.mem_singleton.mp listed ▸ aims⟩

theorem rewriteJumpIf_retests (block : Block) : Retests target block (rewriteJumpIf zero target block) := by
  have one {i : Instruction} {rest : Block} : 1 ≤ (i :: rest).length := Nat.succ_le_succ (Nat.zero_le _)
  have two {i j : Instruction} {rest : Block} : 2 ≤ (i :: j :: rest).length := Nat.succ_le_succ one
  have three {i j k : Instruction} {rest : Block} : 3 ≤ (i :: j :: k :: rest).length := Nat.succ_le_succ two
  unfold rewriteJumpIf
  split
  · split
    · exact .one two (jumpIfLocal_aims _ _ _ _)
    · exact .one one (jumpIf_aims _ _ _)
  · exact .one one (jumpIf_aims _ _ _)
  · exact .one one (jumpIfLocal_aims _ _ _ _)
  · rename_i cmp last block _ _ _
    cases cmpOp cmp with
    | none => exact .none
    | some op =>
      dsimp only [bind,Option.bind]
      split
      · exact .one three (jumpCmpLocalConst_aims _ _ _ _ _)
      · split
        · exact .one three (jumpCmpLocalConst_aims _ _ _ _ _)
        · exact .one two (jumpCmpStackConst_aims _ _ _ _)
      · exact .one three ⟨rfl,rfl⟩
      · exact .one three ⟨rfl,rfl⟩
      · exact .one two (jumpCmpStackConst_aims _ _ _ _)
      · exact .none
  · exact .none

theorem rewriteJumpIfWide_retests (block : Block) : Retests target block (rewriteJumpIfWide zero target block) := by
  unfold rewriteJumpIfWide
  split
  · exact .one (Nat.succ_le_succ (Nat.zero_le _)) (jumpIfLocal_aims _ _ _ _)
  · exact .none

end Conditions

end TinyWasm
