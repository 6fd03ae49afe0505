import TinyWasm.Parser.Bookkeeping

namespace TinyWasm
open Fallible

theorem LaneCounts.same_iff {a b : LaneCounts} : a.same b = true ↔ ∀ size, a size = b size := by
  simp only [same,Bool.and_eq_true,beq_iff_eq]
  constructor
  · rintro ⟨⟨first,second⟩,third⟩ size
    cases size with
    | s32 => exact first
    | s64 => exact second
    | s128 => exact third
  · exact fun same => ⟨⟨same _,same _⟩,same _⟩

-- Live code that branches to a frame, with the values its label takes on top.
structure FunctionBuilder.BranchSite (b : FunctionBuilder) (depth : Nat) (frame : ControlFrame) (lower : List OperandSize) :
    Prop where
  bookkept : b.Bookkept
  live : b.isUnreachable = false
  named : b.controlStack[depth]? = some frame
  operands : b.operandStack = lower ++ frame.labelTypes
  above : frame.height ≤ lower.length

def ControlFrame.keep (frame : ControlFrame) : ValueCounts := .wrap (valueCounts frame.labelTypes)

-- What is emitted to shape the stack for a branch to the frame.
def FunctionBuilder.shaping (b : FunctionBuilder) (frame : ControlFrame) : List Instruction :=
  if b.laneCounts.same (LaneCounts.wrap fun size => frame.base size + frame.keep size) then []
  else [.dropKeep ⟨frame.base,frame.keep⟩]

namespace FunctionBuilder.BranchSite
variable {b : FunctionBuilder} {depth : Nat} {frame : ControlFrame} {lower : List OperandSize}

theorem counts (site : b.BranchSite depth frame lower) (size : OperandSize) :
    frame.base size = (lower.take frame.height).count size ∧ frame.keep size = frame.labelTypes.count size ∧
      b.laneCounts size = (lower.take frame.height).count size + (lower.drop frame.height).count size +
        frame.labelTypes.count size := by
  have total := site.bookkept.lanes size
  have narrow := site.bookkept.narrow size
  rw [site.operands,List.count_append] at total
  have parts : lower.count size = (lower.take frame.height).count size + (lower.drop frame.height).count size := by
    rw [←List.count_append,List.take_append_drop]
  refine ⟨?_,?_,by omega⟩
  · rw [(site.bookkept.frames frame (List.mem_of_getElem? site.named)).2 size,site.operands,
      List.take_append_of_le_length site.above]
  · exact Nat.mod_eq_of_lt (by change frame.labelTypes.count size < 2 ^ 16; omega)

-- The shaping is left out where no value lies between the label's height and the
-- values it takes.
theorem shaping_nil_iff (site : b.BranchSite depth frame lower) :
    b.shaping frame = [] ↔ ∀ size, (lower.drop frame.height).count size = 0 := by
  have same : b.laneCounts.same (LaneCounts.wrap fun size => frame.base size + frame.keep size) = true ↔
      ∀ size, (lower.drop frame.height).count size = 0 := by
    rw [LaneCounts.same_iff]
    refine forall_congr' fun size => ?_
    obtain ⟨base,keep,total⟩ := site.counts size
    have narrow := site.bookkept.narrow size
    change b.laneCounts size = (frame.base size + frame.keep size) % 2 ^ 16 ↔ _
    rw [base,keep]
    omega
  unfold shaping
  rw [←same]
  split
  · rename_i equal
    exact iff_of_true rfl equal
  · rename_i different
    exact iff_of_false nofun different

end FunctionBuilder.BranchSite

-- How a branch goes on once the stack has its shape.
def Instruction.leaves : Instruction → Bool
  | .jump _ | .return_ => true
  | _ => false

structure ShapedAt (code : List Instruction) (ip : Nat) (shaping : List Instruction) : Prop where
  shapes (k : Nat) (i : Instruction) : shaping[k]? = some i → code[ip + k]? = some i
  leaves : ∃ i, code[ip + shaping.length]? = some i ∧ i.leaves = true

namespace ShapedAt
variable {code shaping : List Instruction} {ip : Nat}

theorem pushed (code shaping : List Instruction) {i : Instruction} (leaves : i.leaves = true) :
    ShapedAt (code ++ shaping ++ [i]) code.length shaping := by
  refine ⟨fun k j there => ?_,i,?_,leaves⟩
  · have within := (List.getElem?_eq_some_iff.mp there).1
    rw [List.append_assoc,List.getElem?_append_right (Nat.le_add_right _ _),Nat.add_sub_cancel_left,
      List.getElem?_append_left within]
    exact there
  · rw [←List.length_append,List.getElem?_append_right (Nat.le_refl _),Nat.sub_self]
    rfl

theorem append (shaped : ShapedAt code ip shaping) (more : List Instruction) : ShapedAt (code ++ more) ip shaping := by
  have kept {k : Nat} {i : Instruction} (there : code[k]? = some i) : (code ++ more)[k]? = some i := by
    rw [List.getElem?_append_left (List.getElem?_eq_some_iff.mp there).1]
    exact there
  obtain ⟨i,there,leaves⟩ := shaped.leaves
  exact ⟨fun k i part => kept (shaped.shapes k i part),i,kept there,leaves⟩

-- Patching changes no shaping and makes no jump anything but a jump.
theorem modify {f : Instruction → Instruction} (only : ∀ i ∈ shaping, f i = i)
    (keeps : ∀ i, i.leaves = true → (f i).leaves = true) (shaped : ShapedAt code ip shaping) (j : Nat) :
    ShapedAt (code.modify j f) ip shaping := by
  obtain ⟨i,there,leaves⟩ := shaped.leaves
  refine ⟨fun k i part => ?_,if j = ip + shaping.length then f i else i,?_,?_⟩
  · rw [List.getElem?_modify,shaped.shapes k i part]
    split
    · exact congrArg some (only i (List.mem_of_getElem? part))
    · rfl
  · rw [List.getElem?_modify,there]
    split <;> rfl
  · split
    · exact keeps i leaves
    · exact leaves

end ShapedAt

-- Patched code has other jumps in the places of its jumps.
structure Repatched (code code' : List Instruction) : Prop where
  kept (k : Nat) (i : Instruction) : code[k]? = some i → i.leaves = false → code'[k]? = some i
  leaves (k : Nat) (i : Instruction) : code[k]? = some i → i.leaves = true → ∃ j, code'[k]? = some j ∧ j.leaves = true

namespace Repatched
variable {code code' code'' : List Instruction}

theorem refl (code : List Instruction) : Repatched code code := ⟨fun _ _ there _ => there,fun _ i there leaves => ⟨i,there,leaves⟩⟩

theorem trans (first : Repatched code code') (rest : Repatched code' code'') : Repatched code code'' := by
  refine ⟨fun k i there stays => rest.kept k i (first.kept k i there stays) stays,fun k i there leaves => ?_⟩
  obtain ⟨j,there,leaves⟩ := first.leaves k i there leaves
  exact rest.leaves k j there leaves

theorem set {j : Nat} {old new : Instruction} (there : code[j]? = some old) (jumps : old.leaves = true)
    (leaves : new.leaves = true) : Repatched code (code.set j new) := by
  refine ⟨fun k i other stays => ?_,fun k i other jumps => ?_⟩
  · have different : j ≠ k := by
      rintro rfl
      obtain rfl := Option.some.inj (other.symm.trans there)
      rw [stays] at jumps
      cases jumps
    rw [List.getElem?_set_ne different]
    exact other
  · by_cases same : j = k
    · subst same
      exact ⟨new,List.getElem?_set_self (List.getElem?_eq_some_iff.mp other).1,leaves⟩
    · rw [List.getElem?_set_ne same]
      exact ⟨i,other,jumps⟩

theorem shapedAt {shaping : List Instruction} {ip : Nat} (patched : Repatched code code') (shaped : ShapedAt code ip shaping)
    (stays : ∀ i ∈ shaping, i.leaves = false) : ShapedAt code' ip shaping := by
  obtain ⟨i,there,leaves⟩ := shaped.leaves
  exact ⟨fun k i part => patched.kept _ i (shaped.shapes k i part) (stays i (List.mem_of_getElem? part)),
    patched.leaves _ i there leaves⟩

end Repatched

namespace FunctionBuilder
variable {b b' : FunctionBuilder} {depth : Nat} {frame : ControlFrame} {lower : List OperandSize}

theorem mem_shaping {i : Instruction} (part : i ∈ b.shaping frame) : i = .dropKeep ⟨frame.base,frame.keep⟩ := by
  unfold shaping at part
  split at part
  · cases part
  · exact List.mem_singleton.mp part

theorem labelFrame_named (named : b.controlStack[depth]? = some frame) : b.labelFrame depth = .ok frame := by
  rw [labelFrame,named]

theorem emitDropkeep_shaping (b : FunctionBuilder) (frame : ControlFrame) :
    b.emitDropkeep frame.base frame.keep = {b with instructions := b.instructions ++ b.shaping frame} := by
  unfold emitDropkeep shaping
  split
  · rw [List.append_nil]
  · rfl

theorem emitDropkeepToLabel_shaping (live : b.isUnreachable = false) (named : b.controlStack[depth]? = some frame) :
    b.emitDropkeepToLabel depth = .ok {b with instructions := b.instructions ++ b.shaping frame} := by
  unfold emitDropkeepToLabel
  rw [live,labelFrame_named named,←emitDropkeep_shaping]
  rfl

theorem emitBranchJumpOrReturn_leaves (ran : b.emitBranchJumpOrReturn depth = .ok b') :
    ∃ i, i.leaves = true ∧ b'.instructions = b.instructions ++ [i] := by
  unfold emitBranchJumpOrReturn at ran
  cases named : b.labelFrame depth with
  | error error => rw [named] at ran; cases ran
  | ok frame =>
    rw [named] at ran
    simp only [bind,Except.bind] at ran
    split at ran
    · cases ran; exact ⟨.return_,rfl,rfl⟩
    · cases ran; exact ⟨_,rfl,rfl⟩
    all_goals cases ran; exact ⟨.jump 0,rfl,rfl⟩

@[simp] theorem markUnreachable_instructions (b : FunctionBuilder) : b.markUnreachable.instructions = b.instructions := by
  unfold markUnreachable
  split <;> rfl

@[simp] theorem markUnreachable_data (b : FunctionBuilder) : b.markUnreachable.data = b.data := by
  unfold markUnreachable
  split <;> rfl

theorem visitBr_shapes (live : b.isUnreachable = false) (named : b.controlStack[depth]? = some frame)
    (ran : b.visitBr depth = .ok b') : ShapedAt b'.instructions b.instructions.length (b.shaping frame) := by
  unfold visitBr at ran
  rw [emitDropkeepToLabel_shaping live named] at ran
  cases left : emitBranchJumpOrReturn {b with instructions := b.instructions ++ b.shaping frame} depth with
  | error error => simp only [bind,Except.bind,left] at ran; cases ran
  | ok next =>
    simp only [bind,Except.bind,left] at ran
    cases ran
    obtain ⟨i,leaves,code⟩ := emitBranchJumpOrReturn_leaves left
    rw [markUnreachable_instructions,code]
    exact .pushed _ _ leaves

theorem patchTarget_leaves (target : Nat) (i : Instruction) (leaves : i.leaves = true) : (patchTarget target i).leaves = true := by
  cases i
  case jump _ => rfl
  case return_ => rfl
  all_goals cases leaves

theorem shaping_patched (target : Nat) (i : Instruction) (part : i ∈ b.shaping frame) : patchTarget target i = i := by
  rw [mem_shaping part]
  rfl

-- The branch lies behind a test that jumps over it, or it is the test itself.
theorem visitBrIf_shapes {popped : FunctionBuilder} (tested : b.popExpect .s32 = .ok popped)
    (live : popped.isUnreachable = false) (named : popped.controlStack[depth]? = some frame) (ran : b.visitBrIf depth = .ok b') :
    (b'.instructions[popped.instructions.length]? = some (.jumpIfZero .s32 b'.instructions.length) ∧
      ShapedAt b'.instructions (popped.instructions.length + 1) (popped.shaping frame)) ∨
    (popped.shaping frame = [] ∧ b'.instructions = popped.instructions ++ [.jumpIfNonZero .s32 0]) := by
  let shaped : FunctionBuilder :=
    {popped with instructions := popped.instructions ++ [.jumpIfZero .s32 0] ++ popped.shaping frame}
  have shapes : (popped.push (.jumpIfZero .s32 0)).emitDropkeepToLabel depth = .ok shaped :=
    emitDropkeepToLabel_shaping (b := popped.push (.jumpIfZero .s32 0)) live named
  have branch (taken : (do
      let branched ← shaped.emitBranchJumpOrReturn depth
      .ok (branched.patchJump popped.instructions.length branched.instructions.length) : Except ParseError FunctionBuilder) =
        .ok b') :
      b'.instructions[popped.instructions.length]? = some (.jumpIfZero .s32 b'.instructions.length) ∧
        ShapedAt b'.instructions (popped.instructions.length + 1) (popped.shaping frame) := by
    cases left : shaped.emitBranchJumpOrReturn depth with
    | error error => rw [left] at taken; cases taken
    | ok branched =>
      rw [left] at taken
      cases taken
      obtain ⟨i,leaves,code⟩ := emitBranchJumpOrReturn_leaves left
      have there : ShapedAt branched.instructions (popped.instructions.length + 1) (popped.shaping frame) := by
        have pushed := ShapedAt.pushed (popped.instructions ++ [.jumpIfZero .s32 0]) (popped.shaping frame) leaves
        rw [List.length_append,List.length_singleton] at pushed
        rw [code]
        exact pushed
      refine ⟨?_,there.modify (shaping_patched _) (patchTarget_leaves _) _⟩
      have test : branched.instructions[popped.instructions.length]? = some (.jumpIfZero .s32 0) := by
        rw [code]
        simp [shaped]
      simp only [patchJump,List.getElem?_modify_eq,test,List.length_modify]
      rfl
  unfold visitBrIf at ran
  rw [tested] at ran
  simp only [bind,Except.bind,shapes] at ran
  split at ran
  · rename_i short
    have nothing : popped.shaping frame = [] := by
      refine List.eq_nil_of_length_eq_zero ?_
      simp only [shaped,push,List.length_append] at short
      omega
    split at ran
    · split at ran
      · cases ran
        refine .inr ⟨nothing,?_⟩
        simp only [shaped,nothing,List.append_nil]
        rw [List.set_append_right _ _ (Nat.le_refl _),Nat.sub_self]
        rfl
      · exact .inl (branch ran)
    · exact .inl (branch ran)
  · exact .inl (branch ran)

theorem patchJump_set {j : Nat} {target : Nat} {old : Instruction} (there : b.instructions[j]? = some old) :
    (b.patchJump j target).instructions = b.instructions.set j (patchTarget target old) := by
  unfold patchJump
  dsimp only
  rw [List.modify_eq_set_getElem?,there]
  rfl

-- Each pad ends in its jump, and patching keeps it so.
theorem patchPads_repatched {pads : List PadInfo}
    (jumps : ∀ pad ∈ pads, pad.isReturn = false → ∃ i, b.instructions[pad.jumpOrRetIp]? = some i ∧ i.leaves = true)
    (ran : b.patchPads pads = .ok b') : Repatched b.instructions b'.instructions ∧ b'.data = b.data := by
  induction pads generalizing b with
  | nil => cases ran; exact ⟨.refl _,rfl⟩
  | cons pad pads ih =>
    have later := fun pad' listed => jumps pad' (List.mem_cons_of_mem _ listed)
    unfold patchPads at ran
    split at ran
    · exact ih later ran
    · rename_i branches
      obtain ⟨old,there,leaves⟩ := jumps pad List.mem_cons_self (by simpa using branches)
      have next {b₁ : FunctionBuilder} (ran : b₁.patchPads pads = .ok b')
          (patched : Repatched b.instructions b₁.instructions) (data : b₁.data = b.data) : Repatched b.instructions b'.instructions ∧ b'.data = b.data := by
        have jumps' (pad' : PadInfo) (listed : pad' ∈ pads) (returns : pad'.isReturn = false) :
            ∃ i, b₁.instructions[pad'.jumpOrRetIp]? = some i ∧ i.leaves = true := by
          obtain ⟨i,there,leaves⟩ := later pad' listed returns
          exact patched.leaves _ i there leaves
        obtain ⟨rest,same⟩ := ih jumps' ran
        exact ⟨patched.trans rest,same.trans data⟩
      cases named : b.labelFrame pad.depth with
      | error error => rw [named] at ran; cases ran
      | ok frame =>
        rw [named] at ran
        simp only [bind,Except.bind] at ran
        split at ran
        · exact next ran (.set there leaves rfl) rfl
        · refine next ran ?_ rfl
          rw [patchJump_set there]
          exact .set there leaves (patchTarget_leaves _ _ leaves)
        all_goals exact next ran (.refl _) rfl

-- The pads made so far, each shaped for the frame of its depth.
structure PadsShaped (b : FunctionBuilder) (pads : List PadInfo) : Prop where
  shaped (pad : PadInfo) : pad ∈ pads → pad.isReturn = false ∧ ∃ frame, b.controlStack[pad.depth]? = some frame ∧
    ShapedAt b.instructions pad.padStart (b.shaping frame) ∧ pad.jumpOrRetIp = pad.padStart + (b.shaping frame).length

theorem PadsShaped.add {pads : List PadInfo} (shaped : b.PadsShaped pads) (named : b.controlStack[depth]? = some frame) :
    PadsShaped {b with instructions := b.instructions ++ b.shaping frame ++ [.jump 0]}
      (pads ++ [⟨depth,b.instructions.length,(b.instructions ++ b.shaping frame).length,false⟩]) := by
  refine ⟨fun pad listed => ?_⟩
  rcases List.mem_append.mp listed with old | new
  · obtain ⟨branches,frame',there,code,jump⟩ := shaped.shaped pad old
    refine ⟨branches,frame',there,?_,jump⟩
    dsimp only
    rw [List.append_assoc]
    exact code.append _
  · obtain rfl := List.mem_singleton.mp new
    exact ⟨rfl,frame,named,.pushed _ _ rfl,List.length_append⟩

theorem addPads_shaped {depths : List Nat} {pads pads' : List PadInfo} (live : b.isUnreachable = false)
    (shaped : b.PadsShaped pads) (ran : b.addPads depths pads = .ok (b',pads')) :
    ∃ more, b' = {b with instructions := b.instructions ++ more} ∧ b'.PadsShaped pads' ∧ pads <+: pads' ∧
      ∀ depth ∈ depths, ∃ pad ∈ pads', pad.depth = depth := by
  induction depths generalizing b pads with
  | nil =>
    cases ran
    exact ⟨[],by rw [List.append_nil],shaped,List.prefix_refl _,fun _ listed => absurd listed List.not_mem_nil⟩
  | cons depth depths ih =>
    unfold addPads at ran
    split at ran
    · rename_i made
      obtain ⟨more,rfl,shaped,grown,all⟩ := ih live shaped ran
      refine ⟨more,rfl,shaped,grown,fun depth' listed => ?_⟩
      rcases List.mem_cons.mp listed with rfl | later
      · obtain ⟨pad,there,same⟩ := List.any_eq_true.mp made
        exact ⟨pad,grown.subset there,eq_of_beq same⟩
      · exact all depth' later
    · rw [if_neg (by rw [live]; exact Bool.false_ne_true)] at ran
      cases named : b.labelFrame depth with
      | error error => rw [named] at ran; cases ran
      | ok frame =>
        rw [named] at ran
        simp only [bind,Except.bind] at ran
        have emitted := b.emitDropkeep_shaping frame
        unfold ControlFrame.keep at emitted
        rw [emitted] at ran
        have there : b.controlStack[depth]? = some frame := by
          unfold labelFrame at named
          split at named
          · cases named; assumption
          · cases named
        obtain ⟨more,rfl,shaped,grown,all⟩ :=
          ih (b := {b with instructions := b.instructions ++ b.shaping frame ++ [.jump 0]}) live (shaped.add there) ran
        refine ⟨b.shaping frame ++ [.jump 0] ++ more,?_,shaped,(List.prefix_append _ _).trans grown,fun depth' listed => ?_⟩
        · simp only [List.append_assoc]
        · rcases List.mem_cons.mp listed with rfl | later
          · exact ⟨_,grown.subset (List.mem_append_right _ List.mem_cons_self),rfl⟩
          · exact all depth' later

theorem padFor_found {pads : List PadInfo} {missing : String} {pad : PadInfo} (found : padFor pads missing depth = .ok pad) :
    pad ∈ pads ∧ pad.depth = depth := by
  unfold padFor at found
  split at found
  · rename_i there
    cases found
    exact ⟨List.mem_of_find?_eq_some there,by simpa using List.find?_some there⟩
  · cases found

theorem setDefault_leaves (defaultIp : Nat) (i : Instruction) (leaves : i.leaves = true) : (setDefault defaultIp i).leaves = true := by
  cases i
  case jump _ => exact leaves
  case return_ => exact leaves
  all_goals cases leaves

theorem setDefault_shaping (defaultIp : Nat) (i : Instruction) (part : i ∈ b.shaping frame) : setDefault defaultIp i = i := by
  rw [mem_shaping part]
  rfl

-- Every entry of the table leads to the shaping for its own depth.
theorem visitBrTable_shapes {popped : FunctionBuilder} {targetDepths : List Nat} {defaultDepth : Nat}
    (tested : b.popExpect .s32 = .ok popped) (live : popped.isUnreachable = false)
    (ran : b.visitBrTable targetDepths defaultDepth = .ok b') :
    (∃ defaultIp, b'.instructions[popped.instructions.length]? =
        some (.branchTable defaultIp popped.data.branchTableTargets.length targetDepths.length) ∧
      ∀ frame, popped.controlStack[defaultDepth]? = some frame →
        ShapedAt b'.instructions defaultIp (popped.shaping frame)) ∧
    ∀ k depth frame, targetDepths[k]? = some depth → popped.controlStack[depth]? = some frame →
      ∃ ip, b'.data.branchTableTargets[popped.data.branchTableTargets.length + k]? = some ip ∧
        ShapedAt b'.instructions ip (popped.shaping frame) := by
  obtain ⟨popped',filled,pads,found,defaultPad,patched,tested',added,looked,default,patching,rfl⟩ := visitBrTable_parts ran
  obtain rfl := Except.ok.inj (tested.symm.trans tested')
  let header := popped.push (.branchTable 0 popped.data.branchTableTargets.length targetDepths.length)
  have open_ : header.isUnreachable = false := live
  have none : header.PadsShaped [] := ⟨nofun⟩
  obtain ⟨more,rfl,shaped,_,_⟩ := addPads_shaped open_ none added
  let tabled : FunctionBuilder :=
    {popped with
      data := {popped.data with branchTableTargets := popped.data.branchTableTargets ++ found.map PadInfo.padStart}
      instructions := ((popped.push (.branchTable 0 popped.data.branchTableTargets.length targetDepths.length)).instructions ++
        more).modify popped.instructions.length (setDefault defaultPad.padStart)}
  have jumps (pad : PadInfo) (listed : pad ∈ pads) (_ : pad.isReturn = false) :
      ∃ i, tabled.instructions[pad.jumpOrRetIp]? = some i ∧ i.leaves = true := by
    obtain ⟨_,frame,_,code,jump⟩ := shaped.shaped pad listed
    obtain ⟨i,there,leaves⟩ := (code.modify (setDefault_shaping _) (setDefault_leaves defaultPad.padStart)
      popped.instructions.length).leaves
    rw [jump]
    exact ⟨i,there,leaves⟩
  obtain ⟨repatched,data⟩ := patchPads_repatched (b := tabled) jumps patching
  have at_pad {pad : PadInfo} (listed : pad ∈ pads) {frame : ControlFrame} (named : popped.controlStack[pad.depth]? = some frame) :
      ShapedAt patched.markUnreachable.instructions pad.padStart (popped.shaping frame) := by
    obtain ⟨_,frame',named',code,_⟩ := shaped.shaped pad listed
    obtain rfl := Option.some.inj (named.symm.trans named')
    rw [markUnreachable_instructions]
    exact repatched.shapedAt (code.modify (setDefault_shaping _) (setDefault_leaves _) _) fun i part => by
      rw [mem_shaping part]
      rfl
  refine ⟨⟨defaultPad.padStart,?_,fun frame named => ?_⟩,fun k depth frame listed named => ?_⟩
  · rw [markUnreachable_instructions]
    refine repatched.kept _ _ ?_ rfl
    simp [tabled,push,setDefault]
  · obtain ⟨there,rfl⟩ := padFor_found default
    exact at_pad there named
  · obtain ⟨pad,there,looked⟩ := mapM_getElem? looked listed
    obtain ⟨made,rfl⟩ := padFor_found looked
    refine ⟨pad.padStart,?_,at_pad made named⟩
    rw [markUnreachable_data,data]
    change (popped.data.branchTableTargets ++ found.map PadInfo.padStart)[popped.data.branchTableTargets.length + k]? = _
    rw [List.getElem?_append_right (Nat.le_add_right _ _),Nat.add_sub_cancel_left,List.getElem?_map,there]
    rfl

-- The builder once the operand of a test is gone.
def tested (b : FunctionBuilder) : Operator → Except ParseError FunctionBuilder
  | .brIf _ | .brTable _ _ => b.popExpect .s32
  | _ => .ok b

end FunctionBuilder

-- From where the code of a branch operator starts to the shaping for one of its
-- labels.
def BranchCode (code : List Instruction) (targets : List Nat) (start depth : Nat) (shaping : List Instruction) : Operator → Prop
  | .brIf _ => code[start]? = some (.jumpIfZero .s32 code.length) ∧ ShapedAt code (start + 1) shaping ∨
      shaping = [] ∧ code[start]? = some (.jumpIfNonZero .s32 0)
  | .brTable targetDepths defaultDepth => ∃ defaultIp first,
      code[start]? = some (.branchTable defaultIp first targetDepths.length) ∧
      (depth = defaultDepth → ShapedAt code defaultIp shaping) ∧
      ∀ k, targetDepths[k]? = some depth → ∃ ip, targets[first + k]? = some ip ∧ ShapedAt code ip shaping
  | _ => ShapedAt code start shaping

namespace FunctionBuilder
variable {b b' : FunctionBuilder} {depth : Nat} {frame : ControlFrame} {op : Operator}

-- What validation and the bookkeeping say of a live branch.
theorem branchSite (kept : b.Bookkept) (admitted : b.Admitted op) (live : b.isUnreachable = false) (labelled : depth ∈ op.labels)
    (named : b.controlStack[depth]? = some frame) (ran : b.visit op = .ok b') :
    ∃ popped lower, b.tested op = .ok popped ∧ popped.instructions = b.instructions ∧ popped.BranchSite depth frame lower := by
  have above {lower : List OperandSize} (low : b.frameHeight ≤ lower.length) : frame.height ≤ lower.length :=
    Nat.le_trans (kept.within (List.mem_of_getElem? named)) low
  have popped (taken : b.inputs op = .ok [.s32]) {p : FunctionBuilder} (ran : b.popExpect .s32 = .ok p) :
      ∃ lower, p.instructions = b.instructions ∧ p.BranchSite depth frame lower := by
    obtain ⟨lower,operands,low⟩ := admitted.labels live taken labelled named
    have kept' : p.Bookkept := popExpect_bookkept kept (fun _ => by
      rw [operands,List.length_append,List.length_append]
      exact Nat.lt_succ_of_le (Nat.le_trans low (Nat.le_add_right _ _))) ran
    obtain ⟨counts,rfl⟩ := popExpect_live live operands ran
    exact ⟨lower,rfl,kept',live,named,rfl,above low⟩
  cases op with
  | br label =>
    obtain ⟨lower,operands,low⟩ := admitted.labels live rfl labelled named
    exact ⟨b,lower,rfl,rfl,kept,live,named,by rw [operands,List.append_nil],above low⟩
  | brIf label =>
    obtain ⟨p,ran,_⟩ := except_bind_ok ran
    obtain ⟨lower,site⟩ := popped rfl ran
    exact ⟨p,lower,ran,site⟩
  | brTable targetDepths defaultDepth =>
    obtain ⟨p,ran,_⟩ := except_bind_ok ran
    obtain ⟨lower,site⟩ := popped rfl ran
    exact ⟨p,lower,ran,site⟩
  | _ => cases labelled

theorem visit_shapes {popped : FunctionBuilder} (labelled : depth ∈ op.labels) (pops : b.tested op = .ok popped)
    (code : popped.instructions = b.instructions) (live : popped.isUnreachable = false)
    (named : popped.controlStack[depth]? = some frame) (ran : b.visit op = .ok b') :
    BranchCode b'.instructions b'.data.branchTableTargets b.instructions.length depth (popped.shaping frame) op := by
  cases op with
  | br label =>
    obtain rfl := List.mem_singleton.mp labelled
    cases pops
    exact visitBr_shapes live named ran
  | brIf label =>
    obtain rfl := List.mem_singleton.mp labelled
    rcases visitBrIf_shapes pops live named ran with shaped | ⟨nothing,own⟩
    · rw [code] at shaped
      exact .inl shaped
    · refine .inr ⟨nothing,?_⟩
      rw [own,code,List.getElem?_append_right (Nat.le_refl _),Nat.sub_self]
      rfl
  | brTable targetDepths defaultDepth =>
    obtain ⟨⟨defaultIp,header,default⟩,entries⟩ := visitBrTable_shapes pops live ran
    rw [code] at header
    exact ⟨defaultIp,_,header,fun same => default frame (same ▸ named),fun k listed => entries k depth frame listed named⟩
  | _ => cases labelled

end FunctionBuilder

end TinyWasm
