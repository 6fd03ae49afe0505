import TinyWasm.Fallible
import TinyWasm.Parser.Builder

namespace TinyWasm
open Fallible

-- The part of the stack that lies below a frame.
def ControlFrame.place (frame : ControlFrame) : Nat × ValueCounts := ⟨frame.height,frame.base⟩

namespace FunctionBuilder

-- The counts are those of the operands, and each frame's base is that of the
-- operands below it.
structure Bookkept (b : FunctionBuilder) : Prop where
  lanes : ∀ size, b.laneCounts size = b.operandStack.count size
  narrow : ∀ size, b.laneCounts size < 2 ^ 16
  frames : ∀ frame ∈ b.controlStack, frame.height ≤ b.operandStack.length ∧
    ∀ size, frame.base size = (b.operandStack.take frame.height).count size
  nested : b.controlStack.Pairwise fun inner outer => outer.height ≤ inner.height

-- The operands that an operator takes.
def inputs (b : FunctionBuilder) : Operator → Except ParseError (List OperandSize)
  | .row inputs _ _ _ | .effect inputs _ => .ok inputs
  | .i8x16Shuffle _ => .ok [.s128,.s128]
  | .call functionIndex | .returnCall functionIndex => do
    let signature ← b.metadata.functionSignature functionIndex
    .ok signature.params
  | .callIndirect typeIndex tableIndex | .returnCallIndirect typeIndex tableIndex => do
    let signature ← b.metadata.signature typeIndex
    let index ← b.metadata.tableSize tableIndex
    .ok (signature.params ++ [index])
  | .globalSet globalIndex => do
    let size ← b.metadata.globalSize globalIndex
    .ok [size]
  | .drop => .ok [b.operandStack.getLast?.getD .s32]
  | .select =>
    let size := b.operandStack.reverse[1]?.getD .s32
    .ok [size,size,.s32]
  | .localSet idx | .localTee idx => do
    let (size,_) ← b.builderLocal idx
    .ok [size]
  | .block ty | .loop ty => do
    let signature ← b.blockSignature ty
    .ok signature.params
  | .if_ ty => do
    let signature ← b.blockSignature ty
    .ok (signature.params ++ [.s32])
  | .brIf _ | .brTable _ _ => .ok [.s32]
  | .v128Const _ | .unreachable | .return_ | .localGet _ | .else_ | .end_ | .br _ => .ok []

end FunctionBuilder

-- The labels that an operator can branch to.
def Operator.labels : Operator → List Nat
  | .br depth | .brIf depth => [depth]
  | .brTable targetDepths defaultDepth => targetDepths ++ [defaultDepth]
  | _ => []

namespace FunctionBuilder

-- The builder over another operand stack.
def withOperands (b : FunctionBuilder) (operandStack : List OperandSize) (laneCounts : ValueCounts) : FunctionBuilder :=
  {b with operandStack,laneCounts}

section
variable (b : FunctionBuilder) (operands : List OperandSize) (counts : ValueCounts)

@[simp] theorem withOperands_instructions : (b.withOperands operands counts).instructions = b.instructions := rfl

@[simp] theorem withOperands_data : (b.withOperands operands counts).data = b.data := rfl

@[simp] theorem withOperands_controlStack : (b.withOperands operands counts).controlStack = b.controlStack := rfl

@[simp] theorem withOperands_isUnreachable : (b.withOperands operands counts).isUnreachable = b.isUnreachable := rfl

@[simp] theorem withOperands_operandStack : (b.withOperands operands counts).operandStack = operands := rfl

@[simp] theorem withOperands_laneCounts : (b.withOperands operands counts).laneCounts = counts := rfl

end

-- What validation has found in live code: above the base of the frame lie the
-- operands, and below them the values of every label.
structure Admitted (b : FunctionBuilder) (op : Operator) : Prop where
  inputs {inputs : List OperandSize} : b.isUnreachable = false → b.inputs op = .ok inputs →
    ∃ lower, b.operandStack = lower ++ inputs ∧ b.frameHeight ≤ lower.length
  labels {inputs : List OperandSize} {depth : Nat} {frame : ControlFrame} : b.isUnreachable = false →
    b.inputs op = .ok inputs → depth ∈ op.labels → b.controlStack[depth]? = some frame →
      ∃ lower, b.operandStack = lower ++ frame.labelTypes ++ inputs ∧ b.frameHeight ≤ lower.length

-- The builders that the operators of a validated body lead to.
inductive Visited (start : FunctionBuilder) : FunctionBuilder → Prop where
  | start : Visited start start
  | visit {b b' : FunctionBuilder} {op : Operator} : Visited start b → b.Admitted op → b.visit op = .ok b' → Visited start b'

variable {b b' : FunctionBuilder} {sizes : List OperandSize} {size : OperandSize}

theorem new_bookkept (metadata : ModuleMetadata) (signature : Signature) (localTypes : List OperandSize)
    (localAddrMap : List LocalAddr) : (new metadata signature localTypes localAddrMap).Bookkept where
  lanes _ := rfl
  narrow _ := Nat.two_pow_pos 16
  frames frame listed := by
    obtain rfl := List.mem_singleton.mp listed
    exact ⟨Nat.le_refl _,fun _ => rfl⟩
  nested := List.pairwise_singleton _ _

-- The same operands over the same frames, whatever the code.
structure Alike (b b' : FunctionBuilder) : Prop where
  operands : b'.operandStack = b.operandStack
  counts : b'.laneCounts = b.laneCounts
  places : b'.controlStack.map ControlFrame.place = b.controlStack.map ControlFrame.place

namespace Alike

theorem refl (b : FunctionBuilder) : b.Alike b := ⟨rfl,rfl,rfl⟩

theorem trans {b'' : FunctionBuilder} (first : b.Alike b') (rest : b'.Alike b'') : b.Alike b'' :=
  ⟨rest.operands.trans first.operands,rest.counts.trans first.counts,rest.places.trans first.places⟩

theorem code (b : FunctionBuilder) (instructions : List Instruction) (data : WasmFunctionData) :
    b.Alike {b with instructions,data} := ⟨rfl,rfl,rfl⟩

-- Leaving a jump with a frame moves nothing.
theorem owned (b : FunctionBuilder) (depth jumpIp : Nat) (instructions : List Instruction) :
    b.Alike {b with instructions,controlStack := b.controlStack.modify depth (ownJump jumpIp)} := by
  refine ⟨rfl,rfl,List.ext_getElem? fun k => ?_⟩
  rw [List.getElem?_map,List.getElem?_map,List.getElem?_modify]
  cases b.controlStack[k]? with
  | none => rfl
  | some frame =>
    change some (if depth = k then ownJump jumpIp frame else frame).place = some frame.place
    split <;> rfl

end Alike

namespace Bookkept

theorem same (kept : b.Bookkept) (alike : b.Alike b') : b'.Bookkept := by
  refine ⟨?_,?_,fun frame listed => ?_,?_⟩
  · rw [alike.counts,alike.operands]; exact kept.lanes
  · rw [alike.counts]; exact kept.narrow
  · have there := List.mem_map_of_mem (f := ControlFrame.place) listed
    rw [alike.places] at there
    obtain ⟨old,listed,same⟩ := List.mem_map.mp there
    have found := kept.frames old listed
    have height : frame.height = old.height := congrArg Prod.fst same.symm
    have base : frame.base = old.base := congrArg Prod.snd same.symm
    rw [height,base,alike.operands]
    exact found
  · have nested := kept.nested
    have heights (frames : List ControlFrame) : frames.Pairwise (fun inner outer => outer.height ≤ inner.height) ↔
        (frames.map ControlFrame.place).Pairwise fun inner outer => outer.1 ≤ inner.1 := by
      rw [List.pairwise_map]
      rfl
    rw [heights,alike.places,←heights]
    exact nested

theorem within (kept : b.Bookkept) {frame : ControlFrame} (listed : frame ∈ b.controlStack) : frame.height ≤ b.frameHeight := by
  have nested := kept.nested
  unfold frameHeight
  cases control : b.controlStack with
  | nil => rw [control] at listed; cases listed
  | cons inner outer =>
    rw [control] at listed nested
    rcases List.mem_cons.mp listed with rfl | listed
    · exact Nat.le_refl _
    · exact List.rel_of_pairwise_cons nested listed

theorem frameHeight_le (kept : b.Bookkept) : b.frameHeight ≤ b.operandStack.length := by
  unfold frameHeight
  cases control : b.controlStack with
  | nil => exact Nat.zero_le _
  | cons inner outer => exact (kept.frames inner (by rw [control]; exact List.mem_cons_self)).1

theorem pushed (kept : b.Bookkept) (room : b.laneCounts size + 1 < 2 ^ 16) :
    (b.withOperands (b.operandStack ++ [size]) (Function.update b.laneCounts size (b.laneCounts size + 1))).Bookkept := by
  refine ⟨fun other => ?_,fun other => ?_,fun frame listed => ?_,kept.nested⟩
  · rw [withOperands_laneCounts,withOperands_operandStack,List.count_append,List.count_singleton,Function.update_apply]
    by_cases own : other = size
    · subst own
      simp [kept.lanes]
    · simp [own,Ne.symm own,kept.lanes]
  · rw [withOperands_laneCounts,Function.update_apply]
    split
    · exact room
    · exact kept.narrow other
  · obtain ⟨height,base⟩ := kept.frames frame listed
    refine ⟨Nat.le_trans height (by rw [withOperands_operandStack,List.length_append]; exact Nat.le_add_right _ _),fun size => ?_⟩
    rw [base,withOperands_operandStack,List.take_append_of_le_length height]

theorem popped {lower : List OperandSize} (kept : b.Bookkept) (operands : b.operandStack = lower ++ [size])
    (above : b.frameHeight ≤ lower.length) :
    (b.withOperands lower (Function.update b.laneCounts size ((b.laneCounts size + (2 ^ 16 - 1)) % 2 ^ 16))).Bookkept := by
  have held (other : OperandSize) :
      Function.update b.laneCounts size ((b.laneCounts size + (2 ^ 16 - 1)) % 2 ^ 16) other = lower.count other := by
    have total := kept.lanes other
    have narrow := kept.narrow other
    rw [operands,List.count_append,List.count_singleton] at total
    rw [Function.update_apply]
    by_cases own : other = size
    · subst own
      simp only [beq_self_eq_true,if_true] at total ⊢
      omega
    · rw [if_neg own]
      simpa [Ne.symm own] using total
  refine ⟨held,fun other => ?_,fun frame listed => ?_,kept.nested⟩
  · have narrow := kept.narrow other
    rw [kept.lanes,operands,List.count_append] at narrow
    rw [withOperands_laneCounts,held]
    omega
  · have height := Nat.le_trans (kept.within listed) above
    refine ⟨height,fun size => ?_⟩
    rw [(kept.frames frame listed).2 size,operands,List.take_append_of_le_length height]
    rfl

-- At a frame's base there are just the operands the frame has found.
theorem reset {frame : ControlFrame} (kept : b.Bookkept) (listed : frame ∈ b.controlStack) {outer : List ControlFrame}
    (inside : outer.Sublist b.controlStack) (below : ∀ other ∈ outer, other.height ≤ frame.height) :
    ({b with controlStack := outer}.resetStack frame.height frame.base).Bookkept := by
  obtain ⟨height,base⟩ := kept.frames frame listed
  refine ⟨base,fun size => ?_,fun other listed' => ?_,kept.nested.sublist inside⟩
  · refine Nat.lt_of_le_of_lt ?_ (kept.narrow size)
    rw [kept.lanes]
    change frame.base size ≤ _
    rw [base]
    exact (List.take_sublist _ _).count_le _
  · obtain ⟨_,counts⟩ := kept.frames other (inside.subset listed')
    have low := below other listed'
    change other.height ≤ (b.operandStack.take frame.height).length ∧
      ∀ size, other.base size = ((b.operandStack.take frame.height).take other.height).count size
    rw [List.length_take,List.take_take,Nat.min_eq_left low,Nat.min_eq_left height]
    exact ⟨low,counts⟩

end Bookkept

theorem pushSizes_parts (ran : b.pushSizes sizes = .ok b') :
    ∃ counts, b' = b.withOperands (b.operandStack ++ sizes) counts := by
  induction sizes generalizing b with
  | nil =>
    obtain rfl := Except.ok.inj ran
    exact ⟨b.laneCounts,by rw [List.append_nil]; rfl⟩
  | cons size sizes ih =>
    unfold pushSizes at ran
    split at ran
    · obtain ⟨counts,rfl⟩ := ih ran
      exact ⟨counts,by simp only [List.append_assoc,List.singleton_append]; rfl⟩
    · cases ran

theorem pushSizes_bookkept (kept : b.Bookkept) (ran : b.pushSizes sizes = .ok b') : b'.Bookkept := by
  induction sizes generalizing b with
  | nil => cases ran; exact kept
  | cons size sizes ih =>
    unfold pushSizes at ran
    split at ran
    · rename_i room
      exact ih (kept.pushed room) ran
    · cases ran

theorem popExpect_parts (ran : b.popExpect size = .ok b') :
    (b.operandStack.length = b.frameHeight ∧ b.isUnreachable = true) ∧ b' = b ∨
      ¬(b.operandStack.length = b.frameHeight ∧ b.isUnreachable = true) ∧ ∃ lower, b.operandStack = lower ++ [size] ∧
        b' = b.withOperands lower (Function.update b.laneCounts size ((b.laneCounts size + (2 ^ 16 - 1)) % 2 ^ 16)) := by
  unfold popExpect at ran
  split at ran
  · rename_i dead
    cases ran
    exact .inl ⟨dead,rfl⟩
  · rename_i taken
    split at ran
    · cases ran
    · rename_i actual top
      split at ran
      · cases ran
      · rename_i same
        cases ran
        obtain rfl := not_not.mp same
        exact .inr ⟨taken,_,(List.dropLast_append_getLast? _ top).symm,rfl⟩

theorem popExpect_live {lower : List OperandSize} (live : b.isUnreachable = false) (operands : b.operandStack = lower ++ [size])
    (ran : b.popExpect size = .ok b') : ∃ counts, b' = b.withOperands lower counts := by
  rcases popExpect_parts ran with ⟨⟨_,dead⟩,_⟩ | ⟨_,below,operands',rfl⟩
  · rw [live] at dead; cases dead
  · obtain rfl := List.append_inj_left' (operands'.symm.trans operands) rfl
    exact ⟨_,rfl⟩

-- In live code the operand lies above the frame; in dead code the builder itself
-- stops at the frame's base.
theorem popExpect_bookkept (kept : b.Bookkept)
    (room : b.isUnreachable = false → b.frameHeight < b.operandStack.length) (ran : b.popExpect size = .ok b') : b'.Bookkept := by
  rcases popExpect_parts ran with ⟨_,rfl⟩ | ⟨taken,lower,operands,rfl⟩
  · exact kept
  refine kept.popped operands ?_
  have length := congrArg List.length operands
  rw [List.length_append,List.length_singleton] at length
  have low := kept.frameHeight_le
  cases dead : b.isUnreachable with
  | false => have := room dead; omega
  | true =>
    have different : b.operandStack.length ≠ b.frameHeight := fun same => taken ⟨same,dead⟩
    omega

theorem popAll_concat (b : FunctionBuilder) (sizes : List OperandSize) (size : OperandSize) :
    b.popAll (sizes ++ [size]) = b.popExpect size >>= fun b => b.popAll sizes := by
  unfold popAll
  rw [List.reverse_append,List.reverse_singleton,List.singleton_append,List.foldlM_cons]

theorem popAll_parts (ran : b.popAll sizes = .ok b') : ∃ operands counts, b' = b.withOperands operands counts := by
  induction sizes using List.reverseRecOn generalizing b with
  | nil =>
    obtain rfl := Except.ok.inj ran
    exact ⟨_,_,rfl⟩
  | append_singleton sizes size ih =>
    rw [popAll_concat] at ran
    obtain ⟨b₁,first,ran⟩ := except_bind_ok ran
    obtain ⟨operands,counts,rfl⟩ := ih ran
    rcases popExpect_parts first with ⟨_,rfl⟩ | ⟨_,_,_,rfl⟩ <;> exact ⟨operands,counts,rfl⟩

theorem popAll_bookkept (kept : b.Bookkept)
    (room : b.isUnreachable = false → ∃ lower, b.operandStack = lower ++ sizes ∧ b.frameHeight ≤ lower.length)
    (ran : b.popAll sizes = .ok b') : b'.Bookkept := by
  induction sizes using List.reverseRecOn generalizing b with
  | nil => obtain rfl := Except.ok.inj ran; exact kept
  | append_singleton sizes size ih =>
    rw [popAll_concat] at ran
    obtain ⟨b₁,first,ran⟩ := except_bind_ok ran
    refine ih (popExpect_bookkept kept (fun live => ?_) first) (fun live => ?_) ran
    · obtain ⟨lower,operands,above⟩ := room live
      rw [operands,List.length_append,List.length_append,List.length_singleton]
      omega
    · have live' : b.isUnreachable = false := by
        rcases popExpect_parts first with ⟨_,rfl⟩ | ⟨_,_,_,rfl⟩ <;> exact live
      obtain ⟨lower,operands,above⟩ := room live'
      rw [←List.append_assoc] at operands
      obtain ⟨counts,rfl⟩ := popExpect_live live' operands first
      exact ⟨lower,rfl,above⟩

theorem applyEffect_parts {inputs outputs : List OperandSize} (ran : b.applyEffect inputs outputs = .ok b') :
    ∃ operands counts, b' = b.withOperands operands counts := by
  obtain ⟨b₁,popped,pushed⟩ := except_bind_ok ran
  obtain ⟨_,_,rfl⟩ := popAll_parts popped
  obtain ⟨_,rfl⟩ := pushSizes_parts pushed
  exact ⟨_,_,rfl⟩

theorem applyEffect_bookkept {inputs outputs : List OperandSize} (kept : b.Bookkept)
    (room : b.isUnreachable = false → ∃ lower, b.operandStack = lower ++ inputs ∧ b.frameHeight ≤ lower.length)
    (ran : b.applyEffect inputs outputs = .ok b') : b'.Bookkept := by
  obtain ⟨b₁,popped,pushed⟩ := except_bind_ok ran
  exact pushSizes_bookkept (popAll_bookkept kept room popped) pushed

theorem emit_parts {inputs outputs : List OperandSize} {i : Instruction} (ran : b.emit inputs outputs i = .ok b') :
    ∃ applied, b.applyEffect inputs outputs = .ok applied ∧ b' = applied.push i := by
  obtain ⟨applied,effect,ran⟩ := except_bind_ok ran
  cases ran
  exact ⟨applied,effect,rfl⟩

theorem emit_bookkept {inputs outputs : List OperandSize} {i : Instruction} (kept : b.Bookkept)
    (room : b.isUnreachable = false → ∃ lower, b.operandStack = lower ++ inputs ∧ b.frameHeight ≤ lower.length)
    (ran : b.emit inputs outputs i = .ok b') : b'.Bookkept := by
  obtain ⟨applied,effect,rfl⟩ := emit_parts ran
  exact (applyEffect_bookkept kept room effect).same (.code _ _ _)

theorem markUnreachable_bookkept (kept : b.Bookkept) : b.markUnreachable.Bookkept := by
  have nested := kept.nested
  unfold markUnreachable
  split
  · exact kept
  · rename_i frame outer control
    rw [control] at nested
    have below (other : ControlFrame) (listed : other ∈ frame :: outer) : other.height ≤ frame.height := by
      rcases List.mem_cons.mp listed with rfl | listed
      · exact Nat.le_refl _
      · exact List.rel_of_pairwise_cons nested listed
    have inside : (frame :: outer).Sublist b.controlStack := by rw [control]
    exact (kept.reset (by rw [control]; exact List.mem_cons_self) inside below).same ⟨rfl,rfl,rfl⟩

theorem patchJump_alike (b : FunctionBuilder) (jumpIp target : Nat) : b.Alike (b.patchJump jumpIp target) := .code _ _ _

theorem emitDropkeepToLabel_alike {depth : Nat} (ran : b.emitDropkeepToLabel depth = .ok b') : b.Alike b' := by
  unfold emitDropkeepToLabel at ran
  split at ran
  · cases ran; exact .refl _
  · obtain ⟨frame,_,ran⟩ := except_bind_ok ran
    cases ran
    unfold emitDropkeep
    split
    · exact .refl _
    · exact .code _ _ _

theorem emitBranchJumpOrReturn_alike {depth : Nat} (ran : b.emitBranchJumpOrReturn depth = .ok b') : b.Alike b' := by
  obtain ⟨frame,_,ran⟩ := except_bind_ok ran
  split at ran
  · cases ran; exact .code _ _ _
  · cases ran; exact .code _ _ _
  all_goals cases ran; exact .owned _ _ _ _

theorem addPads_alike {depths : List Nat} {pads pads' : List PadInfo} (ran : b.addPads depths pads = .ok (b',pads')) :
    b.Alike b' := by
  induction depths generalizing b pads with
  | nil => cases ran; exact .refl _
  | cons depth depths ih =>
    unfold addPads at ran
    split at ran
    · exact ih ran
    · split at ran
      · exact (Alike.code _ _ _).trans (ih ran)
      · obtain ⟨frame,_,ran⟩ := except_bind_ok ran
        refine Alike.trans ?_ (ih ran)
        unfold emitDropkeep
        split <;> exact .code _ _ _

theorem patchPads_alike {pads : List PadInfo} (ran : b.patchPads pads = .ok b') : b.Alike b' := by
  induction pads generalizing b with
  | nil => cases ran; exact .refl _
  | cons pad pads ih =>
    unfold patchPads at ran
    split at ran
    · exact ih ran
    · obtain ⟨frame,_,ran⟩ := except_bind_ok ran
      split at ran
      · exact (Alike.code _ _ _).trans (ih ran)
      · exact (Alike.code _ _ _).trans (ih ran)
      all_goals exact (Alike.owned _ _ _ _).trans (ih ran)

theorem patchEndJumps_alike (b : FunctionBuilder) (frame : ControlFrame) (endIp : Nat) : b.Alike (b.patchEndJumps frame endIp) := by
  have patched (jumps : List Nat) (target : Nat) (b : FunctionBuilder) :
      b.Alike (jumps.foldl (fun b jump => b.patchJump jump target) b) := by
    induction jumps generalizing b with
    | nil => exact .refl _
    | cons jump jumps ih => exact (Alike.code _ _ _).trans (ih _)
  unfold patchEndJumps
  split
  · exact patched _ _ _
  · split
    · exact patched _ _ _
    · exact (Alike.code _ _ _).trans (patched _ _ _)
  · exact patched _ _ _

theorem pushControl_parts {kind : BlockKind} {ty : BlockType} {initialJump : Option Nat}
    (ran : b.pushControl kind ty initialJump = .ok b') :
    ∃ signature popped pushed, b.blockSignature ty = .ok signature ∧ b.popAll signature.params = .ok popped ∧
      popped.pushSizes signature.params = .ok pushed ∧
      b' = {pushed with controlStack := ⟨kind,false,pushed.instructions.length,initialJump.toList,popped.operandStack.length,
        popped.laneCounts,signature.params,signature.results,pushed.isUnreachable,pushed.isUnreachable,false⟩ ::
          pushed.controlStack} := by
  obtain ⟨signature,named,ran⟩ := except_bind_ok ran
  obtain ⟨popped,taken,ran⟩ := except_bind_ok ran
  obtain ⟨pushed,given,ran⟩ := except_bind_ok ran
  cases ran
  exact ⟨signature,popped,pushed,named,taken,given,rfl⟩

theorem pushControl_bookkept {kind : BlockKind} {ty : BlockType} {initialJump : Option Nat} (kept : b.Bookkept)
    (room : b.isUnreachable = false → ∀ signature, b.blockSignature ty = .ok signature →
      ∃ lower, b.operandStack = lower ++ signature.params ∧ b.frameHeight ≤ lower.length)
    (ran : b.pushControl kind ty initialJump = .ok b') : b'.Bookkept := by
  obtain ⟨signature,popped,pushed,named,taken,given,rfl⟩ := pushControl_parts ran
  have kept₁ := popAll_bookkept kept (fun live => room live signature named) taken
  have kept₂ := pushSizes_bookkept kept₁ given
  obtain ⟨counts,rfl⟩ := pushSizes_parts given
  refine ⟨kept₂.lanes,kept₂.narrow,fun frame listed => ?_,?_⟩
  · rcases List.mem_cons.mp listed with rfl | listed
    · refine ⟨by rw [withOperands_operandStack,List.length_append]; exact Nat.le_add_right _ _,fun size => ?_⟩
      change popped.laneCounts size = ((popped.operandStack ++ signature.params).take popped.operandStack.length).count size
      rw [List.take_left,kept₁.lanes]
    · exact kept₂.frames frame listed
  · exact List.pairwise_cons.mpr ⟨fun frame listed => (kept₁.frames frame listed).1,kept₂.nested⟩

theorem visitElse_parts (ran : b.visitElse = .ok b') :
    ∃ frame outer reset, b.controlStack = frame :: outer ∧ frame.kind = .if_ ∧
      (resetStack {(b.push (.jump 0)).patchJump (frame.branchJumps.headD 0) (b.instructions.length + 1) with
        controlStack := enterElse b.instructions.length frame :: outer} frame.height frame.base).pushSizes frame.params =
          .ok reset ∧
      b' = {reset with controlStack :=
        {enterElse b.instructions.length frame with unreachable := frame.entryUnreachable} :: outer} := by
  unfold visitElse at ran
  split at ran
  · cases ran
  · rename_i frame outer control
    split at ran
    · cases ran
    · rename_i kind
      obtain ⟨reset,given,ran⟩ := except_bind_ok ran
      cases ran
      exact ⟨frame,outer,reset,control,not_not.mp kind,given,rfl⟩

theorem visitEnd_parts (ran : b.visitEnd = .ok b') :
    ∃ frame outer, b.controlStack = frame :: outer ∧
      (frame.kind = .function ∧ b' = {b with controlStack := outer}.push .return_ ∨
        frame.kind ≠ .function ∧ ∃ reset,
          (resetStack {b with controlStack := outer} frame.height frame.base).pushSizes frame.results = .ok reset ∧
          b' = ({reset with controlStack := setUnreachable (!endsReachable frame) outer} : FunctionBuilder).patchEndJumps frame
            b.instructions.length) := by
  unfold visitEnd at ran
  split at ran
  · cases ran
  · rename_i frame outer control
    refine ⟨frame,outer,control,?_⟩
    split at ran
    · rename_i kind
      cases ran
      exact .inl ⟨kind,rfl⟩
    · rename_i kind
      obtain ⟨reset,given,ran⟩ := except_bind_ok ran
      cases ran
      obtain ⟨counts,rfl⟩ := pushSizes_parts given
      exact .inr ⟨kind,_,given,rfl⟩

theorem Bookkept.outside {frame : ControlFrame} {outer : List ControlFrame} (kept : b.Bookkept)
    (control : b.controlStack = frame :: outer) : ∀ other ∈ outer, other.height ≤ frame.height := by
  have nested := kept.nested
  rw [control] at nested
  exact fun _ listed => List.rel_of_pairwise_cons nested listed

theorem visitElse_bookkept (kept : b.Bookkept) (ran : b.visitElse = .ok b') : b'.Bookkept := by
  obtain ⟨frame,outer,reset,control,_,given,rfl⟩ := visitElse_parts ran
  have entered : Bookkept {(b.push (.jump 0)).patchJump (frame.branchJumps.headD 0) (b.instructions.length + 1) with
      controlStack := enterElse b.instructions.length frame :: outer} :=
    kept.same ⟨rfl,rfl,by rw [control]; rfl⟩
  have emptied := entered.reset List.mem_cons_self (List.Sublist.refl _) fun other listed => by
    rcases List.mem_cons.mp listed with rfl | listed
    · exact Nat.le_refl _
    · exact kept.outside control other listed
  have restored := pushSizes_bookkept emptied given
  obtain ⟨counts,rfl⟩ := pushSizes_parts given
  exact restored.same ⟨rfl,rfl,rfl⟩

theorem visitEnd_bookkept (kept : b.Bookkept) (ran : b.visitEnd = .ok b') : b'.Bookkept := by
  obtain ⟨frame,outer,control,⟨_,rfl⟩ | ⟨_,reset,given,rfl⟩⟩ := visitEnd_parts ran
  · refine ⟨kept.lanes,kept.narrow,fun other listed => kept.frames other ?_,?_⟩
    · rw [control]
      exact List.mem_cons_of_mem _ listed
    · have nested := kept.nested
      rw [control] at nested
      exact nested.of_cons
  · have inside : outer.Sublist b.controlStack := by
      rw [control]
      exact List.sublist_cons_self _ _
    have emptied := kept.reset (by rw [control]; exact List.mem_cons_self) inside (kept.outside control)
    have ended := pushSizes_bookkept emptied given
    obtain ⟨counts,rfl⟩ := pushSizes_parts given
    have places : (setUnreachable (!endsReachable frame) outer).map ControlFrame.place = outer.map ControlFrame.place := by
      cases outer <;> rfl
    have marked : Bookkept {(resetStack {b with controlStack := outer} frame.height frame.base).withOperands
        ((b.operandStack.take frame.height) ++ frame.results) counts with
      controlStack := setUnreachable (!endsReachable frame) outer} := ended.same ⟨rfl,rfl,places⟩
    exact marked.same (patchEndJumps_alike _ _ _)

theorem visitBr_bookkept {depth : Nat} (kept : b.Bookkept) (ran : b.visitBr depth = .ok b') : b'.Bookkept := by
  obtain ⟨b₁,shaped,ran⟩ := except_bind_ok ran
  obtain ⟨b₂,left,ran⟩ := except_bind_ok ran
  cases ran
  exact markUnreachable_bookkept (kept.same ((emitDropkeepToLabel_alike shaped).trans (emitBranchJumpOrReturn_alike left)))

theorem visitBrIf_parts {depth : Nat} (ran : b.visitBrIf depth = .ok b') :
    ∃ popped, b.popExpect .s32 = .ok popped ∧ ∃ shaped, (popped.push (.jumpIfZero .s32 0)).emitDropkeepToLabel depth = .ok shaped ∧
      ((∃ frame, shaped.controlStack[depth]? = some frame ∧ frame.kind ≠ .function ∧
          shaped.instructions.length = popped.instructions.length + 1 ∧
          b' = {shaped with
            instructions := shaped.instructions.set popped.instructions.length (.jumpIfNonZero .s32 0)
            controlStack := shaped.controlStack.modify depth (ownJump popped.instructions.length)}) ∨
        ∃ branched, shaped.emitBranchJumpOrReturn depth = .ok branched ∧
          b' = branched.patchJump popped.instructions.length branched.instructions.length) := by
  obtain ⟨popped,tested,ran⟩ := except_bind_ok ran
  obtain ⟨shaped,shape,ran⟩ := except_bind_ok ran
  refine ⟨popped,tested,shaped,shape,?_⟩
  dsimp only at ran
  have branch (ran : (shaped.emitBranchJumpOrReturn depth >>= fun branched =>
      .ok (branched.patchJump popped.instructions.length branched.instructions.length)) = .ok b') :
      ∃ branched, shaped.emitBranchJumpOrReturn depth = .ok branched ∧
        b' = branched.patchJump popped.instructions.length branched.instructions.length := by
    obtain ⟨branched,left,ran⟩ := except_bind_ok ran
    cases ran
    exact ⟨branched,left,rfl⟩
  split at ran
  · rename_i short
    split at ran
    · rename_i frame named
      split at ran
      · rename_i kind
        cases ran
        exact .inl ⟨frame,named,kind,by rw [short]; exact List.length_append,rfl⟩
      · exact .inr (branch ran)
    · exact .inr (branch ran)
  · exact .inr (branch ran)

theorem visitBrIf_bookkept {depth : Nat} (kept : b.Bookkept)
    (room : b.isUnreachable = false → b.frameHeight < b.operandStack.length) (ran : b.visitBrIf depth = .ok b') : b'.Bookkept := by
  obtain ⟨popped,tested,shaped,shape,branch⟩ := visitBrIf_parts ran
  have alike : popped.Alike shaped := (Alike.code _ _ _).trans (emitDropkeepToLabel_alike shape)
  refine (popExpect_bookkept kept room tested).same (alike.trans ?_)
  rcases branch with ⟨_,_,_,_,rfl⟩ | ⟨branched,left,rfl⟩
  · exact .owned _ _ _ _
  · exact (emitBranchJumpOrReturn_alike left).trans (patchJump_alike _ _ _)

theorem visitBrTable_bookkept {targetDepths : List Nat} {defaultDepth : Nat} (kept : b.Bookkept)
    (room : b.isUnreachable = false → b.frameHeight < b.operandStack.length)
    (ran : b.visitBrTable targetDepths defaultDepth = .ok b') : b'.Bookkept := by
  obtain ⟨popped,filled,pads,found,defaultPad,patched,tested,added,_,_,patching,rfl⟩ := visitBrTable_parts ran
  have alike : popped.Alike filled := (Alike.code _ _ _).trans (addPads_alike added)
  exact markUnreachable_bookkept ((popExpect_bookkept kept room tested).same
    (alike.trans ((Alike.code _ _ _).trans (patchPads_alike patching))))

theorem Bookkept.free (kept : b.Bookkept) (_ : b.isUnreachable = false) :
    ∃ lower, b.operandStack = lower ++ [] ∧ b.frameHeight ≤ lower.length :=
  ⟨_,(List.append_nil _).symm,kept.frameHeight_le⟩

theorem Bookkept.admits {op : Operator} (kept : b.Bookkept) (none : b.inputs op = .ok []) (unlabelled : op.labels = []) :
    b.Admitted op where
  inputs live taken := by
    obtain rfl := Except.ok.inj (none.symm.trans taken)
    exact kept.free live
  labels _ _ labelled := by
    rw [unlabelled] at labelled
    cases labelled

theorem terminating_bookkept {i : Instruction} (kept : b.Bookkept) (ran : b.terminating i = .ok b') : b'.Bookkept :=
  emit_bookkept (markUnreachable_bookkept kept) (markUnreachable_bookkept kept).free ran

theorem visitIf_bookkept {ty : BlockType} (kept : b.Bookkept)
    (room : b.isUnreachable = false → ∀ signature, b.blockSignature ty = .ok signature →
      ∃ lower, b.operandStack = lower ++ (signature.params ++ [.s32]) ∧ b.frameHeight ≤ lower.length)
    (ran : b.visitIf ty = .ok b') : b'.Bookkept := by
  obtain ⟨popped,tested,ran⟩ := except_bind_ok ran
  obtain ⟨signature,_,_,named,_⟩ := pushControl_parts ran
  have alike : popped.Alike (popped.push (.jumpIfZero .s32 0)) := .code _ _ _
  have named' : b.blockSignature ty = .ok signature := by
    rcases popExpect_parts tested with ⟨_,rfl⟩ | ⟨_,_,_,rfl⟩ <;> exact named
  have live' (live : popped.isUnreachable = false) : b.isUnreachable = false := by
    rcases popExpect_parts tested with ⟨_,rfl⟩ | ⟨_,_,_,rfl⟩ <;> exact live
  have kept' : popped.Bookkept := popExpect_bookkept kept (fun live => by
    obtain ⟨lower,operands,above⟩ := room live signature named'
    rw [operands,List.length_append,List.length_append]
    exact Nat.lt_of_le_of_lt above (Nat.lt_add_of_pos_right (Nat.succ_pos _))) tested
  refine pushControl_bookkept (kept'.same alike) (fun live other named => ?_) ran
  have same : popped.blockSignature ty = b.blockSignature ty := by
    rcases popExpect_parts tested with ⟨_,rfl⟩ | ⟨_,_,_,rfl⟩ <;> rfl
  obtain ⟨lower,operands,above⟩ := room (live' live) other (same.symm.trans named)
  rw [←List.append_assoc] at operands
  obtain ⟨counts,rfl⟩ := popExpect_live (live' live) operands tested
  exact ⟨lower,rfl,above⟩

theorem visit_bookkept {op : Operator} (kept : b.Bookkept) (admitted : b.Admitted op) (ran : b.visit op = .ok b') :
    b'.Bookkept := by
  have room {inputs : List OperandSize} (taken : b.inputs op = .ok inputs) (live : b.isUnreachable = false) :=
    admitted.inputs live taken
  have tested (taken : b.inputs op = .ok [.s32]) (live : b.isUnreachable = false) : b.frameHeight < b.operandStack.length := by
    obtain ⟨lower,operands,above⟩ := room taken live
    rw [operands,List.length_append]
    exact Nat.lt_succ_of_le above
  cases op with
  | row inputs outputs i continues => exact emit_bookkept kept (room rfl) ran
  | effect inputs outputs => exact applyEffect_bookkept kept (room rfl) ran
  | v128Const value =>
    obtain ⟨b₁,emitted,ran⟩ := except_bind_ok ran
    cases ran
    exact (emit_bookkept kept (room rfl) emitted).same (.code _ _ _)
  | i8x16Shuffle lanes =>
    obtain ⟨b₁,emitted,ran⟩ := except_bind_ok ran
    cases ran
    exact (emit_bookkept kept (room rfl) emitted).same (.code _ _ _)
  | unreachable => exact terminating_bookkept kept ran
  | return_ => exact terminating_bookkept kept ran
  | call functionIndex =>
    obtain ⟨signature,named,ran⟩ := except_bind_ok ran
    exact emit_bookkept kept (room (by rw [inputs,named]; rfl)) ran
  | callIndirect typeIndex tableIndex =>
    obtain ⟨signature,named,ran⟩ := except_bind_ok ran
    obtain ⟨index,sized,ran⟩ := except_bind_ok ran
    exact emit_bookkept kept (room (by rw [inputs,named,sized]; rfl)) ran
  | returnCall functionIndex =>
    obtain ⟨signature,named,ran⟩ := except_bind_ok ran
    obtain ⟨applied,effect,ran⟩ := except_bind_ok ran
    cases ran
    exact (markUnreachable_bookkept (applyEffect_bookkept kept (room (by rw [inputs,named]; rfl)) effect)).same (.code _ _ _)
  | returnCallIndirect typeIndex tableIndex =>
    obtain ⟨signature,named,ran⟩ := except_bind_ok ran
    obtain ⟨index,sized,ran⟩ := except_bind_ok ran
    obtain ⟨applied,effect,ran⟩ := except_bind_ok ran
    cases ran
    exact (markUnreachable_bookkept (applyEffect_bookkept kept (room (by rw [inputs,named,sized]; rfl)) effect)).same (.code _ _ _)
  | globalSet globalIndex =>
    obtain ⟨size,named,ran⟩ := except_bind_ok ran
    exact emit_bookkept kept (room (by rw [inputs,named]; rfl)) ran
  | drop => exact emit_bookkept kept (room rfl) ran
  | select => exact emit_bookkept kept (room rfl) ran
  | localGet idx =>
    obtain ⟨⟨size,localIdx⟩,named,ran⟩ := except_bind_ok ran
    exact emit_bookkept kept kept.free ran
  | localSet idx =>
    obtain ⟨⟨size,localIdx⟩,named,ran⟩ := except_bind_ok ran
    exact emit_bookkept kept (room (by rw [inputs,named]; rfl)) ran
  | localTee idx =>
    obtain ⟨⟨size,localIdx⟩,named,ran⟩ := except_bind_ok ran
    obtain ⟨applied,effect,ran⟩ := except_bind_ok ran
    refine (applyEffect_bookkept kept (room (by rw [inputs,named]; rfl)) effect).same ?_
    split at ran <;> cases ran <;> exact .code _ _ _
  | block ty => exact pushControl_bookkept kept (fun live signature named => room (by rw [inputs,named]; rfl) live) ran
  | loop ty => exact pushControl_bookkept kept (fun live signature named => room (by rw [inputs,named]; rfl) live) ran
  | if_ ty => exact visitIf_bookkept kept (fun live signature named => room (by rw [inputs,named]; rfl) live) ran
  | else_ => exact visitElse_bookkept kept ran
  | end_ => exact visitEnd_bookkept kept ran
  | br depth => exact visitBr_bookkept kept ran
  | brIf depth => exact visitBrIf_bookkept kept (tested rfl) ran
  | brTable targetDepths defaultDepth => exact visitBrTable_bookkept kept (tested rfl) ran

theorem Visited.bookkept {start : FunctionBuilder} (visited : Visited start b) (kept : start.Bookkept) : b.Bookkept := by
  induction visited with
  | start => exact kept
  | visit _ admitted ran ih => exact visit_bookkept ih admitted ran

-- Operators that take nothing are admitted everywhere.
theorem Visited.free {start : FunctionBuilder} {ops : List Operator} (visited : Visited start b) (kept : b.Bookkept)
    (free : ∀ op ∈ ops, op.labels = [] ∧ ∀ b : FunctionBuilder, b.inputs op = .ok []) (ran : ops.foldlM FunctionBuilder.visit b = .ok b') :
    Visited start b' := by
  induction ops generalizing b with
  | nil =>
    obtain rfl := Except.ok.inj ran
    exact visited
  | cons op ops ih =>
    rw [List.foldlM_cons] at ran
    obtain ⟨b₁,first,rest⟩ := except_bind_ok ran
    obtain ⟨unlabelled,none⟩ := free op List.mem_cons_self
    have admitted := kept.admits (none b) unlabelled
    exact ih (visited.visit admitted first) (visit_bookkept kept admitted first)
      (fun op listed => free op (List.mem_cons_of_mem _ listed)) rest

-- A decrement takes one from a count that is not zero.
theorem Bookkept.decrements {b₁ : FunctionBuilder} (kept : b.Bookkept) (ran : b.popExpect size = .ok b₁) :
    b₁ = b ∨ b₁.laneCounts size + 1 = b.laneCounts size := by
  rcases popExpect_parts ran with ⟨_,rfl⟩ | ⟨_,lower,operands,rfl⟩
  · exact .inl rfl
  · have total := kept.lanes size
    have narrow := kept.narrow size
    rw [operands,List.count_append,List.count_singleton_self] at total
    refine .inr ?_
    rw [withOperands_laneCounts,Function.update_self]
    omega

-- Every operand of an admitted operator is taken off a stack that is still well
-- counted, whichever of them are gone.
theorem Admitted.decrements {op : Operator} {lower upper : List OperandSize} {b₁ b₂ : FunctionBuilder} (kept : b.Bookkept)
    (admitted : b.Admitted op) (taken : b.inputs op = .ok (lower ++ size :: upper)) (popped : b.popAll upper = .ok b₁)
    (ran : b₁.popExpect size = .ok b₂) : b₂ = b₁ ∨ b₂.laneCounts size + 1 = b₁.laneCounts size := by
  refine Bookkept.decrements (popAll_bookkept kept (fun live => ?_) popped) ran
  obtain ⟨below,operands,above⟩ := admitted.inputs live taken
  refine ⟨below ++ (lower ++ [size]),?_,?_⟩
  · rw [operands]
    simp only [List.append_assoc,List.singleton_append]
  · rw [List.length_append]
    exact Nat.le_trans above (Nat.le_add_right _ _)

-- Where a live branch goes, the values below the label and those it takes are on
-- the stack together.
theorem Admitted.narrow {op : Operator} {inputs : List OperandSize} {depth : Nat} {frame : ControlFrame} (kept : b.Bookkept)
    (admitted : b.Admitted op) (live : b.isUnreachable = false) (taken : b.inputs op = .ok inputs) (labelled : depth ∈ op.labels)
    (named : b.controlStack[depth]? = some frame) (size : OperandSize) :
    frame.base size + valueCounts frame.labelTypes size < 2 ^ 16 := by
  obtain ⟨lower,operands,above⟩ := admitted.labels live taken labelled named
  have listed := List.mem_of_getElem? named
  have low : frame.height ≤ lower.length := Nat.le_trans (kept.within listed) above
  have below : frame.base size ≤ lower.count size := by
    rw [(kept.frames frame listed).2 size,operands,List.append_assoc,List.take_append_of_le_length low]
    exact (List.take_sublist _ _).count_le _
  have total := kept.lanes size
  have narrow := kept.narrow size
  rw [operands,List.count_append,List.count_append] at total
  have keeps : valueCounts frame.labelTypes size = frame.labelTypes.count size := rfl
  omega

theorem inputs_labelled {op : Operator} {depth : Nat} (labelled : depth ∈ op.labels) : ∃ inputs, b.inputs op = .ok inputs := by
  cases op with
  | br label => exact ⟨_,rfl⟩
  | brIf label => exact ⟨_,rfl⟩
  | brTable targetDepths defaultDepth => exact ⟨_,rfl⟩
  | _ => cases labelled

end FunctionBuilder

-- What the builder keeps of the stack is right after each operator of a validated
-- body; so no count underflows, and in live code no base and keep overflow.
theorem builder_bookkeeping_consistent {metadata : FunctionBuilder.ModuleMetadata} {signature : Signature}
    {localTypes : List OperandSize} {localAddrMap : List LocalAddr} {b : FunctionBuilder}
    (visited : FunctionBuilder.Visited (.new metadata signature localTypes localAddrMap) b) :
    b.Bookkept ∧ ∀ op, b.Admitted op →
      (∀ lower size upper b₁ b₂, b.inputs op = .ok (lower ++ size :: upper) → b.popAll upper = .ok b₁ →
        b₁.popExpect size = .ok b₂ → b₂ = b₁ ∨ b₂.laneCounts size + 1 = b₁.laneCounts size) ∧
      (b.isUnreachable = false → ∀ depth ∈ op.labels, ∀ frame, b.controlStack[depth]? = some frame → ∀ size,
        frame.base size + valueCounts frame.labelTypes size < 2 ^ 16) := by
  have kept := visited.bookkept (FunctionBuilder.new_bookkept _ _ _ _)
  refine ⟨kept,fun op admitted => ⟨?_,?_⟩⟩
  · intro lower size upper b₁ b₂ taken popped ran
    exact admitted.decrements kept taken popped ran
  · intro live depth labelled frame named size
    obtain ⟨inputs,taken⟩ := FunctionBuilder.inputs_labelled (b := b) labelled
    exact admitted.narrow kept live taken labelled named size

namespace CountedBlock

def start : FunctionBuilder := .new ⟨[],[],[],[],[]⟩ ⟨[],[.s64]⟩ [] []

def body : List Operator := [.row [] [.s64] (.const .s64 41) rfl,.block (.type .s32),.row [] [.s32] (.const .s32 5) rfl]

end CountedBlock

open CountedBlock FunctionBuilder in
theorem builder_bookkeeping_consistent_block :
    ∃ b, body.foldlM FunctionBuilder.visit start = .ok b ∧ b.operandStack = [.s64,.s32] ∧ b.Bookkept := by
  obtain ⟨b,ran⟩ : ∃ b, body.foldlM FunctionBuilder.visit start = .ok b := ⟨_,rfl⟩
  have free : ∀ op ∈ body, op.labels = [] ∧ ∀ b : FunctionBuilder, b.inputs op = .ok [] := by
    intro op listed
    simp only [body,List.mem_cons,List.not_mem_nil,or_false] at listed
    rcases listed with rfl | rfl | rfl <;> exact ⟨rfl,fun _ => rfl⟩
  have visited : Visited start b := .free .start (new_bookkept _ _ _ _) free ran
  exact ⟨b,ran,by cases ran; rfl,(builder_bookkeeping_consistent visited).1⟩

end TinyWasm
