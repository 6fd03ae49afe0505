import TinyWasm.Parser.BranchCode
import TinyWasm.Parser.LaneLevels

namespace TinyWasm
open Fallible

-- The levels once a visit has added to the code, which it did from `top` on.
structure Rises (top : Option ValueCounts) (levels levels' : List (Option ValueCounts)) : Prop where
  kept : levels <+: levels'
  first (l : Option ValueCounts) : levels'[levels.length]? = some l → l = top

namespace Rises
variable {top x : Option ValueCounts} {levels levels' : List (Option ValueCounts)}

theorem refl (top : Option ValueCounts) (levels : List (Option ValueCounts)) : Rises top levels levels := by
  refine ⟨List.prefix_refl _,fun l there => ?_⟩
  rw [List.getElem?_eq_none (Nat.le_refl _)] at there
  cases there

theorem push (rises : Rises top levels levels') (follows : levels' = levels → x = top) : Rises top levels (levels' ++ [x]) := by
  refine ⟨rises.kept.trans (List.prefix_append _ _),fun l there => ?_⟩
  rcases Nat.lt_or_eq_of_le rises.kept.length_le with longer | same
  · rw [List.getElem?_append_left longer] at there
    exact rises.first l there
  · obtain rfl := rises.kept.eq_of_length same
    rw [List.getElem?_concat_length] at there
    exact (Option.some.inj there).symm.trans (follows rfl)

theorem once (top : Option ValueCounts) (levels : List (Option ValueCounts)) : Rises top levels (levels ++ [top]) :=
  (refl top levels).push fun _ => rfl

-- What has risen may be added to.
theorem across {levels'' : List (Option ValueCounts)} (rises : levels ++ [top] <+: levels') (more : levels' <+: levels'') :
    Rises top levels levels'' := by
  obtain ⟨added,rfl⟩ := rises.trans more
  refine ⟨⟨[top] ++ added,by rw [List.append_assoc]⟩,fun l there => ?_⟩
  rw [List.append_assoc,List.getElem?_append_right (Nat.le_refl _),Nat.sub_self] at there
  exact (Option.some.inj there).symm

end Rises

namespace FunctionBuilder
variable {E : Effects} {results : List OperandSize} {b b' : FunctionBuilder} {levels levels' : List (Option ValueCounts)}
  {top top' : Option ValueCounts} {hole hole' : Nat → Prop} {i : Instruction} {c : ValueCounts}

-- How high the builder counts the lanes; in dead code no height is right.
def level (b : FunctionBuilder) : Option ValueCounts := if b.isUnreachable then none else some b.laneCounts

theorem level_some (b : FunctionBuilder) : b.level = some c ↔ b.isUnreachable = false ∧ b.laneCounts = c := by
  unfold level
  cases b.isUnreachable <;> simp

theorem level_dead (dead : b.isUnreachable = true) : b.level = none := if_pos dead

theorem level_live (live : b.isUnreachable = false) : b.level = some b.laneCounts := (level_some b).mpr ⟨live,rfl⟩

-- The state of the levels within a visit: `top` is the one at the end of the code.
structure Levelling (b : FunctionBuilder) (E : Effects) (results : List OperandSize) (levels : List (Option ValueCounts))
    (top : Option ValueCounts) (hole : Nat → Prop) : Prop where
  described : E.Describes b.metadata results
  code : LevelCode E b.instructions b.data.branchTableTargets levels top hole
  frames : ∀ frame ∈ b.controlStack, LevelFrame E results b.instructions levels top frame
  flags : Flagged b.controlStack

-- Between visits the lanes at the end are as the builder counts them, and what is
-- open is left to the ends of frames.
def Levelled (b : FunctionBuilder) (E : Effects) (results : List OperandSize) (levels : List (Option ValueCounts)) : Prop :=
  b.Levelling E results levels b.level b.Opens

namespace Levelling

theorem same (levelling : b.Levelling E results levels top hole) (metadata : b'.metadata = b.metadata)
    (code : b'.instructions = b.instructions) (table : b'.data.branchTableTargets = b.data.branchTableTargets)
    (control : b'.controlStack = b.controlStack) : b'.Levelling E results levels top hole := by
  refine ⟨?_,?_,?_,?_⟩
  · rw [metadata]; exact levelling.described
  · rw [code,table]; exact levelling.code
  · rw [code,control]; exact levelling.frames
  · rw [control]; exact levelling.flags

theorem withOperands (levelling : b.Levelling E results levels top hole) (operands : List OperandSize) (counts : ValueCounts) :
    (b.withOperands operands counts).Levelling E results levels top hole := levelling.same rfl rfl rfl rfl

theorem open_ (levelling : b.Levelling E results levels top hole) (more : ∀ k, hole k → hole' k) :
    b.Levelling E results levels top hole' :=
  ⟨levelling.described,levelling.code.open_ more,levelling.frames,levelling.flags⟩

theorem raise (levelling : b.Levelling E results levels top hole) (raised : ∀ c, top = some c → top' = some c) :
    b.Levelling E results levels top' hole :=
  ⟨levelling.described,levelling.code.raise raised,fun frame listed =>
    (levelling.frames frame listed).persists (fun _ _ known => known.raise raised) fun _ _ _ arrives => arrives.raise raised,
    levelling.flags⟩

theorem push (levelling : b.Levelling E results levels top hole)
    (fits : ∀ c, top = some c → ¬hole b.instructions.length →
      i.Fits E b.data.branchTableTargets (levels ++ [top]) top' b.instructions.length c) :
    (b.push i).Levelling E results (levels ++ [top]) top' hole := by
  refine ⟨levelling.described,levelling.code.push fits,fun frame listed => ?_,levelling.flags⟩
  exact (levelling.frames frame listed).persists (fun _ _ known => known.push) fun _ _ _ arrives =>
    arrives.push levelling.code.length i

-- An instruction that passes control on falls out of the code.
theorem pushStraight (levelling : b.Levelling E results levels top hole) (room : ∀ c, top = some c → E.Room c i)
    (next : ∀ c, top = some c → top' = some (E.after c i)) (none : i.target = none) :
    (b.push i).Levelling E results (levels ++ [top]) top' hole := by
  refine levelling.push fun c falls _ => .straight (room c falls) (.inr ⟨?_,next c falls⟩) none
  rw [List.length_append,levelling.code.length]
  rfl

theorem pushEnd (levelling : b.Levelling E results levels top hole) (room : ∀ c, top = some c → E.Room c i)
    (terminates : i.isUnconditionalTerminator = true) (none : i.target = none) :
    (b.push i).Levelling E results (levels ++ [top]) top' hole :=
  levelling.push fun c falls _ => .ends (room c falls) terminates none

-- An instruction that is not made yet.
theorem pushHole (levelling : b.Levelling E results levels top hole) (i : Instruction) (top' : Option ValueCounts)
    (more : ∀ k, hole k → hole' k) (own : hole' b.instructions.length) :
    (b.push i).Levelling E results (levels ++ [top]) top' hole' :=
  (levelling.open_ more).push fun _ _ filled => absurd own filled

-- One instruction is made anew, and awaits what the one before it did.
theorem alter {instructions : List Instruction} (levelling : b.Levelling E results levels top hole) (j : Nat)
    (same : instructions.length = b.instructions.length) (others : ∀ k, k ≠ j → instructions[k]? = b.instructions[k]?)
    (holes : ∀ k, k ≠ j → hole k → hole' k)
    (own : ∀ i, b.instructions[j]? = some i → i.continues = false → ∃ i', instructions[j]? = some i' ∧ i'.continues = false ∧
      ∀ c wanted, levels[j]? = some (some c) → i.Awaits E levels top j c wanted → i'.Awaits E levels top j c wanted)
    (fits : ∀ i c, levels[j]? = some (some c) → instructions[j]? = some i → ¬hole' j →
      i.Fits E b.data.branchTableTargets levels top j c) :
    Levelling {b with instructions} E results levels top hole' := by
  refine ⟨levelling.described,levelling.code.alter j same others holes fits,fun frame listed => ?_,levelling.flags⟩
  exact (levelling.frames frame listed).persists (fun _ _ known => known) fun _ _ _ arrives => arrives.alter others own

-- Other frames over the same code.
theorem control {controlStack : List ControlFrame} (levelling : b.Levelling E results levels top hole)
    (raised : ∀ c, top = some c → top' = some c)
    (frames : ∀ frame ∈ controlStack, LevelFrame E results b.instructions levels top' frame) (flags : Flagged controlStack) :
    Levelling {b with controlStack} E results levels top' hole :=
  ⟨levelling.described,levelling.code.raise raised,frames,flags⟩

theorem extend (levelling : b.Levelling E results levels top hole) (more : List Nat) :
    Levelling {b with data := {b.data with branchTableTargets := b.data.branchTableTargets ++ more}} E results levels top hole :=
  ⟨levelling.described,levelling.code.extend more,levelling.frames,levelling.flags⟩

end Levelling

end FunctionBuilder

theorem Instruction.patchTarget_of (t : Nat) {i : Instruction} (fixed : i.patchable = false) :
    FunctionBuilder.patchTarget t i = i := by
  unfold FunctionBuilder.patchTarget
  split <;> first | cases fixed | rfl

theorem Instruction.patchTarget_aims (t : Nat) {i : Instruction} (patchable : i.patchable = true) :
    (FunctionBuilder.patchTarget t i).target = some t ∧
      ∀ default first len, FunctionBuilder.patchTarget t i ≠ .branchTable default first len := by
  unfold Instruction.patchable at patchable
  split at patchable
  · exact ⟨rfl,nofun⟩
  · exact ⟨rfl,nofun⟩
  · exact ⟨rfl,nofun⟩
  · cases patchable

open FunctionBuilder in
-- Wherever a patched jump aims, it asks and leaves the same.
theorem Effects.Describes.patched {E : Effects} {metadata : ModuleMetadata} {results : List OperandSize}
    (described : E.Describes metadata results) (t : Nat) (i : Instruction) (c : ValueCounts) :
    (E.Room c i → E.Room c (patchTarget t i)) ∧ E.after c (patchTarget t i) = E.after c i ∧
      (patchTarget t i).patchable = i.patchable ∧
      (patchTarget t i).isUnconditionalTerminator = i.isUnconditionalTerminator := by
  have alike {i j : Instruction} {ins outs : List OperandSize} (has : E.Has i ins outs) (has' : E.Has j ins outs) :
      (E.Room c i → E.Room c j) ∧ E.after c j = E.after c i :=
    ⟨fun room => (has'.room c).mpr ((has.room c).mp room),(has'.after c).trans (has.after c).symm⟩
  unfold patchTarget
  split
  · exact ⟨(alike (described.jump _) (described.jump t)).1,(alike (described.jump _) (described.jump t)).2,rfl,rfl⟩
  · exact ⟨(alike (described.jumpIfZero _) (described.jumpIfZero t)).1,
      (alike (described.jumpIfZero _) (described.jumpIfZero t)).2,rfl,rfl⟩
  · exact ⟨(alike (described.jumpIfNonZero _) (described.jumpIfNonZero t)).1,
      (alike (described.jumpIfNonZero _) (described.jumpIfNonZero t)).2,rfl,rfl⟩
  · exact ⟨id,rfl,rfl,rfl⟩

namespace FunctionBuilder
variable {E : Effects} {results : List OperandSize} {b b' : FunctionBuilder} {levels levels' : List (Option ValueCounts)}
  {top top' : Option ValueCounts} {hole hole' : Nat → Prop} {i : Instruction} {c wanted : ValueCounts} {j t : Nat}
  {live : Prop}

theorem awaits_patched (described : E.Describes b.metadata results) (awaits : i.Awaits E levels top j c wanted) :
    (patchTarget t i).Awaits E levels top j c wanted := by
  obtain ⟨room,after,patchable,ends⟩ := described.patched t i c
  refine ⟨room awaits.room,fun patches => ?_,fun falls => awaits.next (ends.symm.trans falls),fun fixed => ?_⟩
  · rw [after]
    exact awaits.after (patchable.symm.trans patches)
  · have fixed : i.patchable = false := patchable.symm.trans fixed
    rw [Instruction.patchTarget_of t fixed]
    exact awaits.ends fixed

theorem awaits_fits {table : List Nat} (described : E.Describes b.metadata results) (awaits : i.Awaits E levels top j c wanted)
    (entered : LevelAt levels top t wanted) : (patchTarget t i).Fits E table levels top j c := by
  obtain ⟨room,after,_,ends⟩ := described.patched t i c
  cases patches : i.patchable with
  | false =>
    obtain ⟨terminates,none⟩ := awaits.ends patches
    rw [Instruction.patchTarget_of t patches]
    exact .ends awaits.room terminates none
  | true =>
    obtain ⟨aims,alone⟩ := Instruction.patchTarget_aims t patches
    have left : E.after c (patchTarget t i) = wanted := after.trans (awaits.after patches)
    refine ⟨room awaits.room,fun falls => ?_,fun u target => ?_,fun default first len same => absurd same (alone default first len)⟩
    · rw [left]
      exact awaits.next (ends.symm.trans falls)
    · cases aims.symm.trans target
      rw [left]
      exact entered

theorem modify_patched (b : FunctionBuilder) (j t : Nat) : (b.patchJump j t).instructions.length = b.instructions.length ∧
    (∀ k, k ≠ j → (b.patchJump j t).instructions[k]? = b.instructions[k]?) ∧
      (b.patchJump j t).instructions[j]? = b.instructions[j]?.map (patchTarget t) := by
  refine ⟨List.length_modify ..,fun k other => List.getElem?_modify_ne _ _ (Ne.symm other),?_⟩
  unfold patchJump
  rw [List.getElem?_modify_eq]
  rfl

theorem patchJump_keeps (described : E.Describes b.metadata results) (j t : Nat) (i : Instruction) (there : b.instructions[j]? = some i)
    (jumps : i.continues = false) : ∃ i', (b.patchJump j t).instructions[j]? = some i' ∧ i'.continues = false ∧
      ∀ c wanted, levels[j]? = some (some c) → i.Awaits E levels top j c wanted → i'.Awaits E levels top j c wanted := by
  refine ⟨patchTarget t i,?_,patchTarget_waits t i jumps,fun _ _ _ awaits => awaits_patched described awaits⟩
  rw [(modify_patched b j t).2.2,there]
  rfl

namespace Levelling

-- Where the jump is live, the place it is patched to has the lanes it leaves.
theorem patchJump (levelling : b.Levelling E results levels top hole) (arrives : Arrives E b.instructions levels top j live wanted)
    (entered : live → LevelAt levels top t wanted) :
    (b.patchJump j t).Levelling E results levels top (fun k => hole k ∧ k ≠ j) := by
  obtain ⟨same,others,here⟩ := modify_patched b j t
  refine levelling.alter j same others (fun k other hollow => ⟨hollow,other⟩) (patchJump_keeps levelling.described j t) ?_
  intro i c lives there _
  obtain ⟨old,found,_,goes⟩ := arrives
  rw [found] at here
  obtain rfl := Option.some.inj (here.symm.trans there)
  obtain ⟨alive,awaits⟩ := goes c lives
  exact awaits_fits levelling.described awaits (entered alive)

theorem patchJumps {jumps : List Nat} (levelling : b.Levelling E results levels top hole)
    (arrives : ∀ j ∈ jumps, Arrives E b.instructions levels top j live wanted) (entered : live → LevelAt levels top t wanted) :
    Levelling (jumps.foldl (fun b jump => b.patchJump jump t) b) E results levels top (fun k => hole k ∧ k ∉ jumps) := by
  induction jumps generalizing b hole with
  | nil => exact levelling.open_ fun k hollow => ⟨hollow,List.not_mem_nil⟩
  | cons j jumps ih =>
    refine (ih (levelling.patchJump (arrives j List.mem_cons_self) entered) fun k listed => ?_).open_ fun k hollow => ?_
    · exact (arrives k (List.mem_cons_of_mem _ listed)).alter (modify_patched b j t).2.1 (patchJump_keeps levelling.described j t)
    · exact ⟨hollow.1.1,fun listed => (List.mem_cons.mp listed).elim hollow.1.2 hollow.2⟩

-- A jump to the label of a frame that its end patches.
theorem owned {depth : Nat} {frame : ControlFrame} (levelling : b.Levelling E results levels top hole)
    (named : b.controlStack[depth]? = some frame) (function : frame.kind ≠ .function)
    (arrives : Arrives E b.instructions levels top j (b.isUnreachable = false) (frame.holding frame.labelTypes)) :
    Levelling {b with controlStack := b.controlStack.modify depth (ownJump j)} E results levels top hole := by
  refine levelling.control (fun _ => id) (fun other listed => ?_) (levelling.flags.modify depth j)
  obtain ⟨p,there⟩ := List.mem_iff_getElem?.mp listed
  rw [List.getElem?_modify] at there
  obtain ⟨old,found,rfl⟩ := Option.map_eq_some_iff.mp there
  have among := List.mem_of_getElem? found
  have known := levelling.frames old among
  split
  · rename_i same
    subst same
    obtain rfl := Option.some.inj (named.symm.trans found)
    have entered (alive : b.isUnreachable = false) : frame.entryUnreachable = false :=
      levelling.flags.live ((isUnreachable_eq b).symm.trans alive) frame among
    refine ⟨known.begins,fun kind => ?_,fun k own => ?_,fun kind => absurd kind function⟩
    · obtain ⟨condJump,jumps,all,rest⟩ := known.test kind
      exact ⟨condJump,jumps ++ [j],by rw [ownJump,all]; rfl,rest⟩
    · have either : k ∈ frame.ownJumps ∨ k = j := by
        unfold ControlFrame.ownJumps at own ⊢
        split at own
        · rename_i kind
          obtain ⟨condJump,jumps,all,_⟩ := known.test kind
          rw [ownJump,all] at own
          rw [if_pos (show frame.kind = .if_ from kind),all]
          exact (List.mem_append.mp own).imp id List.mem_singleton.mp
        · rename_i kind
          rw [if_neg (show ¬frame.kind = .if_ from kind)]
          exact (List.mem_append.mp own).imp id List.mem_singleton.mp
      rcases either with before | rfl
      · exact (known.own k before).mono fun alive => ⟨alive.1,rfl⟩
      · exact arrives.mono fun alive => ⟨entered alive,rfl⟩
  · exact known

-- The frame keeps the jump among those that are open.
theorem opens_owned {depth : Nat} {frame : ControlFrame} (levelling : b.Levelling E results levels top hole)
    (named : b.controlStack[depth]? = some frame) (j : Nat) :
    (∀ k, b.Opens k → Opens {b with controlStack := b.controlStack.modify depth (ownJump j)} k) ∧
      Opens {b with controlStack := b.controlStack.modify depth (ownJump j)} j := by
  have opens (frame : ControlFrame) (listed : frame ∈ b.controlStack) :
      (ownJump j frame).openJumps = frame.openJumps ++ [j] := by
    unfold ControlFrame.openJumps
    split
    · rename_i tested
      obtain ⟨condJump,jumps,all,_⟩ := (levelling.frames frame listed).test tested.1
      rw [if_pos (show frame.kind = .if_ ∧ frame.hasElse = true from tested),ownJump,all]
      rfl
    · rename_i tested
      rw [if_neg (show ¬(frame.kind = .if_ ∧ frame.hasElse = true) from tested)]
      rfl
  have place (p : Nat) (old : ControlFrame) (found : b.controlStack[p]? = some old) :
      (if depth = p then ownJump j old else old) ∈ b.controlStack.modify depth (ownJump j) := by
    refine List.mem_of_getElem? (i := p) ?_
    rw [List.getElem?_modify,found]
    split <;> rfl
  refine ⟨fun k opened => ?_,_,place depth frame named,?_⟩
  · obtain ⟨old,listed,among⟩ := opened
    obtain ⟨p,found⟩ := List.mem_iff_getElem?.mp listed
    refine ⟨_,place p old found,?_⟩
    split
    · rw [opens old listed]
      exact List.mem_append_left _ among
    · exact among
  · rw [if_pos rfl,opens frame (List.mem_of_getElem? named)]
    exact List.mem_append_right _ List.mem_cons_self

theorem markUnreachable (levelling : b.Levelling E results levels none hole) :
    b.markUnreachable.Levelling E results levels none hole := by
  unfold FunctionBuilder.markUnreachable
  have frames := levelling.frames
  have flags := levelling.flags
  split
  · exact levelling
  · rename_i inner outer stack
    rw [stack] at frames flags
    obtain ⟨_,bottom,linked,rest⟩ := flags
    have marked : Flagged ({inner with unreachable := true} :: outer) := ⟨fun _ => rfl,bottom,linked,rest⟩
    refine (levelling.control (fun _ => id) (fun frame listed => ?_) marked).same rfl rfl rfl rfl
    rcases List.mem_cons.mp listed with rfl | listed
    · have known := frames inner List.mem_cons_self
      exact ⟨known.begins,known.test,known.own,known.whole⟩
    · exact frames frame (List.mem_cons_of_mem _ listed)

end Levelling

theorem markUnreachable_opens (k : Nat) : b.markUnreachable.Opens k ↔ b.Opens k := by
  unfold markUnreachable Opens
  split
  · exact Iff.rfl
  · rename_i stack
    simp only [resetStack,stack,List.exists_mem_cons_iff]
    exact Iff.rfl

theorem Levelling.closes (levelling : b.Levelling E results levels none b.Opens) : b.markUnreachable.Levelled E results levels := by
  unfold Levelled
  rw [level_dead (markUnreachable_isUnreachable b)]
  exact levelling.markUnreachable.open_ fun k => (markUnreachable_opens k).mpr

-- The visit of an operator adds levels from that of the builder on.
def Lifts (b : FunctionBuilder) (E : Effects) (results : List OperandSize) (levels : List (Option ValueCounts))
    (b' : FunctionBuilder) : Prop := ∃ levels', Rises b.level levels levels' ∧ b'.Levelled E results levels'

theorem Bookkept.counts (kept : b.Bookkept) {sizes : List OperandSize} (operands : b.operandStack = sizes) :
    b.laneCounts = fun size => sizes.count size := by
  funext size
  rw [kept.lanes,operands]

theorem popAll_live {lower sizes : List OperandSize} (alive : b.isUnreachable = false) (operands : b.operandStack = lower ++ sizes)
    (ran : b.popAll sizes = .ok b') : b'.operandStack = lower := by
  induction sizes using List.reverseRecOn generalizing b with
  | nil =>
    obtain rfl := Except.ok.inj ran
    exact operands.trans (List.append_nil _)
  | append_singleton sizes size ih =>
    rw [popAll_concat] at ran
    obtain ⟨b₁,first,ran⟩ := except_bind_ok ran
    rw [←List.append_assoc] at operands
    obtain ⟨counts,rfl⟩ := popExpect_live alive operands first
    exact ih (b := b.withOperands (lower ++ sizes) counts) alive rfl ran

-- What an operator does to the builder's counts is what it says.
theorem applyEffect_level {ins outs : List OperandSize} (kept : b.Bookkept)
    (room : b.isUnreachable = false → ∃ lower, b.operandStack = lower ++ ins ∧ b.frameHeight ≤ lower.length)
    (ran : b.applyEffect ins outs = .ok b') (known : b.level = some c) :
    (∀ size, ins.count size ≤ c size) ∧ b'.level = some fun size => c size - ins.count size + outs.count size := by
  obtain ⟨alive,rfl⟩ := (level_some b).mp known
  obtain ⟨lower,operands,_⟩ := room alive
  have kept' := applyEffect_bookkept kept room ran
  obtain ⟨b₁,popped,pushed⟩ := except_bind_ok ran
  have left := popAll_live alive operands popped
  obtain ⟨_,_,rfl⟩ := popAll_parts popped
  obtain ⟨counts,rfl⟩ := pushSizes_parts pushed
  obtain rfl := left
  have below := kept.counts operands
  refine ⟨fun size => ?_,(level_some _).mpr ⟨alive,?_⟩⟩
  · rw [below]
    simp only [List.count_append]
    exact Nat.le_add_left _ _
  · rw [kept'.counts rfl,below]
    funext size
    simp only [withOperands_operandStack,List.count_append,Nat.add_sub_cancel]

theorem popExpect_effect {size : OperandSize} (ran : b.popExpect size = .ok b') : b.applyEffect [size] [] = .ok b' := by
  unfold applyEffect popAll
  simp only [List.reverse_singleton,List.foldlM_cons,ran]
  rfl

theorem applyEffect_isUnreachable {ins outs : List OperandSize} (ran : b.applyEffect ins outs = .ok b') :
    b'.isUnreachable = b.isUnreachable := by
  obtain ⟨_,_,rfl⟩ := applyEffect_parts ran
  rfl

namespace Levelled

theorem applyEffect {ins outs : List OperandSize} (levelled : b.Levelled E results levels)
    (ran : b.applyEffect ins outs = .ok b') : b'.Levelling E results levels b.level b.Opens := by
  obtain ⟨_,_,rfl⟩ := applyEffect_parts ran
  exact Levelling.withOperands levelled _ _

theorem emit {ins outs : List OperandSize} (levelled : b.Levelled E results levels) (kept : b.Bookkept)
    (room : b.isUnreachable = false → ∃ lower, b.operandStack = lower ++ ins ∧ b.frameHeight ≤ lower.length)
    (ran : b.emit ins outs i = .ok b') (has : E.Has i ins outs) (none : i.target = none) : b.Lifts E results levels b' := by
  obtain ⟨applied,effect,rfl⟩ := emit_parts ran
  have opens : (applied.push i).Opens = b.Opens := by
    obtain ⟨_,_,rfl⟩ := applyEffect_parts effect
    rfl
  have pushed : (applied.push i).Levelling E results (levels ++ [b.level]) applied.level b.Opens := by
    refine (levelled.applyEffect effect).pushStraight (fun c known => ?_) (fun c known => ?_) none
    · exact (has.room c).mpr (applyEffect_level kept room effect known).1
    · rw [(applyEffect_level kept room effect known).2,has.after]
  refine ⟨_,.once _ _,?_⟩
  unfold Levelled
  rw [opens]
  exact pushed

-- What ends the code of a frame is emitted behind the mark.
theorem terminates {ins : List OperandSize} {applied : FunctionBuilder} (levelled : b.Levelled E results levels)
    (effect : b.applyEffect ins [] = .ok applied) (room : ∀ c, b.level = some c → E.Room c i)
    (terminates : i.isUnconditionalTerminator = true) (none : i.target = none) :
    b.Lifts E results levels (applied.markUnreachable.push i) := by
  have opens : (applied.push i).Opens = b.Opens := by
    obtain ⟨_,_,rfl⟩ := applyEffect_parts effect
    rfl
  have ended : (applied.push i).Levelling E results (levels ++ [b.level]) Option.none b.Opens :=
    (levelled.applyEffect effect).pushEnd room terminates none
  rw [←opens] at ended
  refine ⟨_,.once _ _,?_⟩
  rw [markUnreachable_push]
  exact ended.closes

-- A frame is entered over the operands it takes.
theorem pushControl {kind : BlockKind} {ty : BlockType} {initialJump : Option Nat}
    (levelling : b.Levelling E results levels b.level hole) (kept : b.Bookkept) (function : kind ≠ .function)
    (room : b.isUnreachable = false → ∀ signature, b.blockSignature ty = .ok signature →
      ∃ lower, b.operandStack = lower ++ signature.params ∧ b.frameHeight ≤ lower.length)
    (jumps : ∀ j ∈ initialJump, Arrives E b.instructions levels b.level j (b.isUnreachable = false) b.laneCounts)
    (test : kind = .if_ → ∃ j, initialJump = some j) (bare : kind ≠ .if_ → initialJump = none)
    (holes : ∀ k, hole k → b.Opens k ∨ k ∈ initialJump)
    (ran : b.pushControl kind ty initialJump = .ok b') : b'.Levelled E results levels := by
  have kept' := pushControl_bookkept kept room ran
  obtain ⟨signature,popped,pushed,named,taken,given,built⟩ := pushControl_parts ran
  have below := popAll_bookkept kept (fun alive => room alive signature named) taken
  have counted (alive : b.isUnreachable = false) :
      (fun size => popped.laneCounts size + valueCounts signature.params size) = b.laneCounts := by
    obtain ⟨lower,operands,_⟩ := room alive signature named
    have left := popAll_live alive operands taken
    rw [kept.counts operands,below.counts left]
    funext size
    exact List.count_append.symm
  have raised (c : ValueCounts) (known : b.level = some c) : b'.level = some c := by
    obtain ⟨alive,rfl⟩ := (level_some b).mp known
    have above := pushSizes_bookkept below given
    obtain ⟨_,_,rfl⟩ := popAll_parts taken
    obtain ⟨_,rfl⟩ := pushSizes_parts given
    subst built
    refine (level_some _).mpr ⟨alive,(above.counts rfl).trans ?_⟩
    rw [←counted alive]
    funext size
    rw [withOperands_operandStack,List.count_append,below.lanes]
    rfl
  obtain ⟨_,_,rfl⟩ := popAll_parts taken
  obtain ⟨_,rfl⟩ := pushSizes_parts given
  subst built
  refine ⟨levelling.described,(levelling.code.raise raised).open_ fun k hollow => ?_,fun frame listed => ?_,
    ⟨id,fun same => absurd same function,fun _ => isUnreachable_eq b,levelling.flags⟩⟩
  · rcases holes k hollow with ⟨frame,listed,among⟩ | initial
    · exact ⟨frame,List.mem_cons_of_mem _ listed,among⟩
    · refine ⟨_,List.mem_cons_self,?_⟩
      rw [ControlFrame.openJumps,if_neg fun same => Bool.false_ne_true same.2]
      exact Option.mem_toList.mpr initial
  · rcases List.mem_cons.mp listed with rfl | listed
    · refine ⟨fun _ entered => .inr ⟨levelling.code.length.symm,raised _ ?_⟩,fun same => ?_,fun j own => ?_,fun same => absurd same function⟩
      · exact (level_live (b := b) entered).trans (congrArg some (counted entered).symm)
      · obtain ⟨condJump,rfl⟩ := test same
        exact ⟨condJump,[],rfl,fun _ => ((jumps condJump rfl).raise raised).wants fun entered => (counted entered).symm⟩
      · unfold ControlFrame.ownJumps at own
        split at own
        · rename_i same
          obtain ⟨condJump,rfl⟩ := test same
          cases own
        · rename_i different
          obtain rfl := bare different
          cases own
    · exact (levelling.frames frame listed).persists (fun _ _ known => known.raise raised) fun _ _ _ arrives =>
        arrives.raise raised

-- The test of a branch, which is to be patched.
theorem pushTest {popped : FunctionBuilder} (levelled : b.Levelled E results levels) (kept : b.Bookkept)
    (room : b.isUnreachable = false → ∃ lower, b.operandStack = lower ++ [.s32] ∧ b.frameHeight ≤ lower.length)
    (tested : b.popExpect .s32 = .ok popped) :
    (popped.push (.jumpIfZero .s32 0)).Levelling E results (levels ++ [b.level]) popped.level
        (fun k => b.Opens k ∨ k = popped.instructions.length) ∧
      Arrives E (popped.push (.jumpIfZero .s32 0)).instructions (levels ++ [b.level]) popped.level popped.instructions.length
        (popped.isUnreachable = false) popped.laneCounts := by
  have effect := popExpect_effect tested
  have levelling := levelled.applyEffect effect
  have length := levelling.code.length
  refine ⟨levelling.pushHole _ _ (fun k => .inl) (.inr rfl),_,List.getElem?_concat_length,rfl,fun c lives => ?_⟩
  rw [←length,List.getElem?_concat_length] at lives
  obtain ⟨room',left⟩ := applyEffect_level kept room effect (Option.some.inj lives)
  obtain ⟨alive,counts⟩ := (level_some popped).mp left
  refine ⟨alive,((levelling.described.jumpIfZero 0).room c).mpr room',fun _ => ?_,fun _ => .inr ⟨?_,level_live alive⟩,nofun⟩
  · rw [(levelling.described.jumpIfZero 0).after,counts]
  · rw [List.length_append,length]
    rfl

end Levelled

theorem visitIf_levelled {ty : BlockType} (levelled : b.Levelled E results levels) (kept : b.Bookkept)
    (room : b.isUnreachable = false → ∀ signature, b.blockSignature ty = .ok signature →
      ∃ lower, b.operandStack = lower ++ (signature.params ++ [.s32]) ∧ b.frameHeight ≤ lower.length)
    (ran : b.visitIf ty = .ok b') : b.Lifts E results levels b' := by
  obtain ⟨popped,tested,ran⟩ := except_bind_ok ran
  have same : popped.blockSignature ty = b.blockSignature ty ∧ popped.isUnreachable = b.isUnreachable := by
    rcases popExpect_parts tested with ⟨_,rfl⟩ | ⟨_,_,_,rfl⟩ <;> exact ⟨rfl,rfl⟩
  have below (alive : b.isUnreachable = false) : ∃ lower, b.operandStack = lower ++ [.s32] ∧ b.frameHeight ≤ lower.length := by
    obtain ⟨signature,_,_,named,_⟩ := pushControl_parts ran
    obtain ⟨lower,operands,above⟩ := room alive signature (same.1.symm.trans named)
    refine ⟨lower ++ signature.params,by rw [operands,List.append_assoc],?_⟩
    rw [List.length_append]
    exact Nat.le_add_right_of_le above
  obtain ⟨pushed,arrives⟩ := levelled.pushTest kept below tested
  have kept' : (popped.push (.jumpIfZero .s32 0)).Bookkept :=
    (applyEffect_bookkept kept below (popExpect_effect tested)).same (.code _ _ _)
  have opens : b.Opens = popped.Opens := by
    rcases popExpect_parts tested with ⟨_,rfl⟩ | ⟨_,_,_,rfl⟩ <;> rfl
  refine ⟨_,.once _ _,Levelled.pushControl pushed kept' (by nofun) (fun alive signature named => ?_) (fun j own => ?_)
    (fun _ => ⟨_,rfl⟩) (fun other => absurd rfl other) (fun k hollow => ?_) ran⟩
  · obtain ⟨lower,operands,above⟩ := room (same.2.symm.trans alive) signature (same.1.symm.trans named)
    rw [←List.append_assoc] at operands
    obtain ⟨counts,rfl⟩ := popExpect_live (same.2.symm.trans alive) operands tested
    exact ⟨lower,rfl,above⟩
  · obtain rfl := Option.some.inj own
    exact arrives
  · rw [opens] at hollow
    exact hollow.imp id fun own => congrArg some own.symm

-- The counts of operands that end with those of a frame's label.
theorem Bookkept.holding (kept : b.Bookkept) {frame : ControlFrame} (listed : frame ∈ b.controlStack) {sizes : List OperandSize}
    (operands : b.operandStack = b.operandStack.take frame.height ++ sizes) : b.laneCounts = frame.holding sizes := by
  rw [kept.counts operands]
  funext size
  rw [List.count_append,←(kept.frames frame listed).2 size]
  rfl

-- At the else the test is patched, and the first branch is left with a jump.
theorem visitElse_levelled (levelled : b.Levelled E results levels) (kept : b.Bookkept)
    (whole : ∀ frame outer, b.controlStack = frame :: outer → frame.hasElse = false ∧
      (b.isUnreachable = false → b.operandStack = b.operandStack.take frame.height ++ frame.results))
    (ran : b.visitElse = .ok b') : b.Lifts E results levels b' := by
  have kept' := visitElse_bookkept kept ran
  obtain ⟨frame,outer,reset,control,kind,given,built⟩ := visitElse_parts ran
  obtain ⟨lacks,full⟩ := whole frame outer control
  have among : frame ∈ b.controlStack := by rw [control]; exact List.mem_cons_self
  have marked : b.isUnreachable = frame.unreachable := by rw [isUnreachable_eq,control]; rfl
  have inside := (kept.frames frame among).1
  obtain ⟨counts,rfl⟩ := pushSizes_parts given
  have held : counts = frame.holding frame.params := by
    have here : {enterElse b.instructions.length frame with unreachable := frame.entryUnreachable} ∈ b'.controlStack := by
      rw [built]
      exact List.mem_cons_self
    have operands : b'.operandStack = b'.operandStack.take frame.height ++ frame.params := by
      rw [built]
      change b.operandStack.take frame.height ++ frame.params = (b.operandStack.take frame.height ++ frame.params).take frame.height ++ _
      rw [List.take_append_of_le_length (by rw [List.length_take]; omega),List.take_take,Nat.min_self]
    have counted := kept'.holding here operands
    rw [built] at counted
    exact counted
  have entered (entry : frame.entryUnreachable = false) : b'.level = some (frame.holding frame.params) := by
    subst built
    exact (level_some _).mpr ⟨entry,held⟩
  have frames := levelled.frames
  have flags := levelled.flags
  rw [control] at frames flags
  obtain ⟨dead,bottom,linked,rest⟩ := flags
  have length := levelled.code.length
  have jumped : (b.push (.jump 0)).Levelling E results (levels ++ [b.level]) b'.level (fun k => b.Opens k ∨ k = b.instructions.length) :=
    Levelling.pushHole levelled _ _ (fun k => .inl) (.inr rfl)
  have left : Arrives E (b.push (.jump 0)).instructions (levels ++ [b.level]) b'.level b.instructions.length
      (frame.entryUnreachable = false ∧ frame.unreachable = false) (frame.holding frame.results) := by
    refine ⟨_,List.getElem?_concat_length,rfl,fun c lives => ?_⟩
    rw [←length,List.getElem?_concat_length] at lives
    obtain ⟨alive,counted⟩ := (level_some b).mp (Option.some.inj lives)
    have passes := marked.symm.trans alive
    refine ⟨⟨?_,passes⟩,((levelled.described.jump 0).idle c).1,fun _ => ?_,nofun,nofun⟩
    · cases entry : frame.entryUnreachable with
      | false => rfl
      | true => exact absurd (dead entry) (by rw [passes]; exact Bool.false_ne_true)
    · rw [((levelled.described.jump 0).idle c).2,←counted]
      exact kept.holding among (full alive)
  obtain ⟨condJump,jumps,all,arrives⟩ := (jumped.frames frame among).test kind
  have patched := jumped.patchJump (t := b.instructions.length + 1) (arrives lacks) fun entry => .inr ⟨?_,entered entry⟩
  · have left := left.alter (modify_patched _ condJump (b.instructions.length + 1)).2.1
      (patchJump_keeps jumped.described condJump (b.instructions.length + 1))
    have head : frame.branchJumps.headD 0 = condJump := by rw [all]; rfl
    have frames' := patched.frames
    change ∀ other ∈ b.controlStack, _ at frames'
    rw [control] at frames'
    rw [head] at built
    refine ⟨_,.once _ _,?_⟩
    have opens (k : Nat) (hollow : (b.Opens k ∨ k = b.instructions.length) ∧ k ≠ condJump) : b'.Opens k := by
      have now : ControlFrame.openJumps {enterElse b.instructions.length frame with unreachable := frame.entryUnreachable} =
          jumps ++ [b.instructions.length] := by
        rw [ControlFrame.openJumps,if_pos ⟨kind,rfl⟩]
        exact congrArg (fun jumps => (jumps ++ [b.instructions.length]).tail) all
      have before : frame.openJumps = condJump :: jumps := by
        rw [ControlFrame.openJumps,if_neg (by rw [lacks]; exact fun same => Bool.false_ne_true same.2),all]
      obtain ⟨⟨other,listed,waits⟩ | rfl,different⟩ := hollow
      · rw [control] at listed
        rcases List.mem_cons.mp listed with rfl | listed
        · rw [before] at waits
          refine ⟨_,by rw [built]; exact List.mem_cons_self,?_⟩
          rw [now]
          exact List.mem_append_left _ ((List.mem_cons.mp waits).resolve_left different)
        · exact ⟨other,by rw [built]; exact List.mem_cons_of_mem _ listed,waits⟩
      · refine ⟨_,by rw [built]; exact List.mem_cons_self,?_⟩
        rw [now]
        exact List.mem_append_right _ List.mem_cons_self
    have known := frames' frame List.mem_cons_self
    have own := ControlFrame.ownJumps_if kind all
    subst built
    refine ⟨patched.described,patched.code.open_ opens,fun other listed => ?_,⟨id,bottom,linked,rest⟩⟩
    rcases List.mem_cons.mp listed with rfl | listed
    · have own' : ControlFrame.ownJumps {enterElse b.instructions.length frame with unreachable := frame.entryUnreachable} =
          jumps ++ [b.instructions.length] := ControlFrame.ownJumps_if kind (congrArg (· ++ [b.instructions.length]) all)
      refine ⟨known.begins,fun _ => ⟨condJump,jumps ++ [b.instructions.length],congrArg (· ++ _) all,nofun⟩,fun j listed => ?_,
        fun same => absurd (kind.symm.trans same) nofun⟩
      rw [own'] at listed
      rcases List.mem_append.mp listed with before | last
      · refine (known.own j (by rw [own]; exact before)).mono fun live => ⟨live.1,?_⟩
        rw [enterElse,live.2]
        rfl
      · obtain rfl := List.mem_singleton.mp last
        have ends (passes : frame.unreachable = false) : (frame.endReachable || !frame.unreachable) = true := by
          rw [passes,Bool.or_comm]
          rfl
        refine (left.mono fun live => ⟨live.1,ends live.2⟩).wants fun _ => ?_
        rw [ControlFrame.labelTypes,if_neg (by intro loops; cases kind.symm.trans loops)]
        rfl
    · exact frames' other (List.mem_cons_of_mem _ listed)
  · rw [List.length_append,length]
    rfl

-- Each jump to the label of a frame, and the test of an if without else, finds the
-- lanes that its end leaves.
theorem Levelling.patchEndJumps {frame : ControlFrame} (levelling : b.Levelling E results levels top hole)
    (known : LevelFrame E results b.instructions levels top frame)
    (ends : endsReachable frame = true → top = some (frame.holding frame.results))
    (bare : frame.kind = .if_ → frame.hasElse = false → frame.params = frame.results) :
    (b.patchEndJumps frame b.instructions.length).Levelling E results levels top fun k => hole k ∧ k ∉ frame.openJumps := by
  have last (reached : endsReachable frame = true) :
      LevelAt levels top b.instructions.length (frame.holding frame.results) := .inr ⟨levelling.code.length.symm,ends reached⟩
  have owned (loops : frame.kind ≠ .loop) (live : frame.entryUnreachable = false ∧ frame.endReachable = true) :
      LevelAt levels top b.instructions.length (frame.holding frame.labelTypes) := by
    rw [ControlFrame.labelTypes,if_neg loops]
    refine last ?_
    rw [endsReachable,live.1,live.2]
    simp
  unfold FunctionBuilder.patchEndJumps
  split
  · rename_i kind
    have own : frame.ownJumps = frame.branchJumps := if_neg (by simp [kind])
    have open_ : frame.openJumps = frame.branchJumps := if_neg (by simp [kind])
    rw [open_]
    refine levelling.patchJumps (fun j listed => known.own j (by rw [own]; exact listed)) fun live => ?_
    rw [ControlFrame.labelTypes,if_pos kind]
    exact known.begins kind live.1
  · rename_i condJump jumps kind all
    have own := ControlFrame.ownJumps_if kind all
    have loops : frame.kind ≠ .loop := by simp [kind]
    have arrives (j : Nat) (listed : j ∈ jumps) := known.own j (by rw [own]; exact listed)
    split
    · rename_i tested
      have open_ : frame.openJumps = jumps := by rw [ControlFrame.openJumps,if_pos ⟨kind,tested⟩,all]; rfl
      rw [open_]
      exact levelling.patchJumps arrives (owned loops)
    · rename_i lacks
      have lacks : frame.hasElse = false := by simpa using lacks
      have open_ : frame.openJumps = condJump :: jumps := by
        rw [ControlFrame.openJumps,if_neg (by rw [lacks]; exact fun same => Bool.false_ne_true same.2),all]
      obtain ⟨_,_,all',test⟩ := known.test kind
      cases all.symm.trans all'
      have tested := levelling.patchJump (test lacks) fun entered => by
        rw [bare kind lacks]
        refine last ?_
        rw [endsReachable,entered,kind,lacks]
        simp
      refine (tested.patchJumps (fun j listed => ?_) (owned loops)).open_ fun k hollow => ?_
      · exact (arrives j listed).alter (modify_patched b condJump b.instructions.length).2.1
          (patchJump_keeps levelling.described condJump b.instructions.length)
      · rw [open_]
        exact ⟨hollow.1.1,fun listed => (List.mem_cons.mp listed).elim hollow.1.2 hollow.2⟩
  · rename_i loops tests
    have different : frame.kind ≠ .if_ := by
      intro kind
      obtain ⟨condJump,jumps,all,_⟩ := known.test kind
      exact tests condJump jumps kind all
    have own : frame.ownJumps = frame.branchJumps := if_neg different
    have open_ : frame.openJumps = frame.branchJumps := if_neg fun same => different same.1
    rw [open_]
    exact levelling.patchJumps (fun j listed => known.own j (by rw [own]; exact listed)) (owned loops)

theorem visitEnd_levelled (levelled : b.Levelled E results levels) (kept : b.Bookkept)
    (whole : ∀ frame outer, b.controlStack = frame :: outer →
      (frame.kind = .if_ → frame.hasElse = false → frame.params = frame.results) ∧
      (b.isUnreachable = false → b.operandStack = b.operandStack.take frame.height ++ frame.results))
    (ran : b.visitEnd = .ok b') : b.Lifts E results levels b' := by
  have kept' := visitEnd_bookkept kept ran
  have flags := levelled.flags
  obtain ⟨frame,outer,control,⟨kind,rfl⟩ | ⟨kind,reset,given,built⟩⟩ := visitEnd_parts ran
  all_goals
    have among : frame ∈ b.controlStack := by rw [control]; exact List.mem_cons_self
    obtain ⟨bare,full⟩ := whole frame outer control
    rw [control] at flags
  · obtain ⟨_,bottom,_,_⟩ := flags
    obtain rfl := bottom kind
    obtain ⟨same,base,none⟩ := (levelled.frames frame among).whole kind
    have alone : Levelling {b with controlStack := []} E results levels b.level b.Opens :=
      Levelling.control levelled (fun _ => id) (fun _ listed => by cases listed) trivial
    refine ⟨_,.once _ _,(alone.pushEnd (fun c known => ?_) rfl rfl).open_ fun k hollow => ?_⟩
    · obtain ⟨alive,rfl⟩ := (level_some b).mp known
      refine ((levelled.described.return_).room _).mpr fun size => ?_
      rw [kept.holding among (full alive),same]
      exact Nat.le_add_left _ _
    · obtain ⟨other,listed,waits⟩ := hollow
      rw [control] at listed
      obtain rfl := List.mem_singleton.mp listed
      rw [ControlFrame.openJumps,none] at waits
      split at waits <;> cases waits
  · obtain ⟨flags',ended⟩ := flags.ended kind
    have inside : outer.Sublist b.controlStack := by
      rw [control]
      exact List.sublist_cons_self _ _
    have restored := pushSizes_bookkept (kept.reset among inside (kept.outside control)) given
    obtain ⟨counts,rfl⟩ := pushSizes_parts given
    have held : counts = frame.holding frame.results := by
      refine (restored.counts rfl).trans (funext fun size => ?_)
      rw [withOperands_operandStack,List.count_append]
      exact congrArg (· + frame.results.count size) ((kept.frames frame among).2 size).symm
    have reaches : b'.isUnreachable = !endsReachable frame := by
      rw [built,isUnreachable_eq,patchEndJumps_controlStack]
      exact ended
    have ends (reached : endsReachable frame = true) : b'.level = some (frame.holding frame.results) := by
      refine (level_some _).mpr ⟨by rw [reaches,reached]; rfl,?_⟩
      rw [built,(patchEndJumps_alike _ _ _).counts]
      exact held
    have raised (c : ValueCounts) (known : b.level = some c) : b'.level = some c := by
      obtain ⟨alive,rfl⟩ := (level_some b).mp known
      rw [kept.holding among (full alive)]
      refine ends ?_
      have passes : frame.unreachable = false := by rw [←alive,isUnreachable_eq,control]; rfl
      have entered : frame.entryUnreachable = false := by
        cases entry : frame.entryUnreachable with
        | false => rfl
        | true => rw [flags.1 entry] at passes; cases passes
      rw [endsReachable,entered,passes]
      rfl
    have raise {other : ControlFrame} (listed : other ∈ b.controlStack) : LevelFrame E results b.instructions levels b'.level other :=
      (levelled.frames other listed).persists (fun _ _ known => known.raise raised) fun _ _ _ arrives => arrives.raise raised
    have outside : Levelling {b with controlStack := setUnreachable (!endsReachable frame) outer} E results levels b'.level b.Opens := by
      refine Levelling.control levelled raised (fun other listed => ?_) flags'
      cases outer with
      | nil => cases listed
      | cons parent outer =>
        rcases List.mem_cons.mp listed with rfl | listed
        · have known := raise (show parent ∈ b.controlStack by rw [control]; exact List.mem_cons_of_mem _ List.mem_cons_self)
          exact ⟨known.begins,known.test,known.own,known.whole⟩
        · exact raise (by rw [control]; exact List.mem_cons_of_mem _ (List.mem_cons_of_mem _ listed))
    refine ⟨levels,.refl _ _,?_⟩
    unfold Levelled
    generalize b'.level = l at ends raise outside ⊢
    subst built
    have patched (x : FunctionBuilder) (code : x.instructions = b.instructions) (levelling : x.Levelling E results levels l b.Opens) :
        (x.patchEndJumps frame b.instructions.length).Levelling E results levels l fun k => b.Opens k ∧ k ∉ frame.openJumps := by
      rw [←code]
      exact levelling.patchEndJumps (by rw [code]; exact raise among) ends bare
    refine Levelling.open_ (patched _ rfl (outside.same rfl rfl rfl rfl)) fun k hollow => ?_
    obtain ⟨⟨other,listed,waits⟩,closed⟩ := hollow
    unfold Opens
    rw [patchEndJumps_controlStack]
    rw [control] at listed
    rcases List.mem_cons.mp listed with rfl | listed
    · exact absurd waits closed
    · cases outer with
      | nil => cases listed
      | cons parent outer =>
        rcases List.mem_cons.mp listed with rfl | listed
        · exact ⟨_,List.mem_cons_self,waits⟩
        · exact ⟨other,List.mem_cons_of_mem _ listed,waits⟩

section Branches
variable {depth : Nat} {frame : ControlFrame} {lower : List OperandSize}

theorem BranchSite.holding (site : b.BranchSite depth frame lower) :
    (fun size => frame.base size + frame.keep size) = frame.holding frame.labelTypes := by
  funext size
  rw [(site.counts size).2.1]
  rfl

-- The shaping leaves what lies below the label and the values it takes.
theorem BranchSite.levelling (site : b.BranchSite depth frame lower) (levelling : b.Levelling E results levels b.level hole) :
    ∃ levels', Rises b.level levels levels' ∧
      (b.emitDropkeep frame.base frame.keep).Levelling E results levels' (some (frame.holding frame.labelTypes)) hole ∧
      (levels' = levels → some (frame.holding frame.labelTypes) = b.level) ∧
      ∀ j live wanted, Arrives E b.instructions levels b.level j live wanted →
        Arrives E (b.emitDropkeep frame.base frame.keep).instructions levels' (some (frame.holding frame.labelTypes)) j live wanted := by
  have level := level_live site.live
  have enough (size : OperandSize) : frame.base size + frame.keep size ≤ b.laneCounts size := by
    obtain ⟨base,keep,total⟩ := site.counts size
    omega
  unfold emitDropkeep
  split
  · rename_i equal
    have same : some (frame.holding frame.labelTypes) = b.level := by
      rw [level,←site.holding]
      refine congrArg some (funext fun size => ?_)
      have wrapped := LaneCounts.same_iff.mp equal size
      have narrow := site.bookkept.narrow size
      change b.laneCounts size = (frame.base size + frame.keep size) % 2 ^ 16 at wrapped
      have := enough size
      omega
    rw [same]
    exact ⟨levels,.refl _ _,levelling,fun _ => rfl,fun _ _ _ arrives => arrives⟩
  · refine ⟨_,.once _ _,levelling.pushStraight (fun c known => ?_) (fun c known => ?_) rfl,fun same => ?_,
      fun _ _ _ arrives => arrives.push levelling.code.length _⟩
    · obtain ⟨_,rfl⟩ := (level_some b).mp known
      exact enough
    · exact congrArg some site.holding.symm
    · exact absurd (congrArg List.length same) (by rw [List.length_append]; exact Nat.succ_ne_self _)

theorem emitDropkeepToLabel_levelling (levelling : b.Levelling E results levels b.level hole)
    (sites : b.isUnreachable = false → ∀ frame, b.controlStack[depth]? = some frame → ∃ lower, b.BranchSite depth frame lower)
    (ran : b.emitDropkeepToLabel depth = .ok b') :
    ∃ levels' top, Rises b.level levels levels' ∧ b'.Levelling E results levels' top hole ∧ (levels' = levels → top = b.level) ∧
      (∀ j live wanted, Arrives E b.instructions levels b.level j live wanted → Arrives E b'.instructions levels' top j live wanted) ∧
      ∀ c, top = some c → b.isUnreachable = false ∧
        ∀ frame, b.controlStack[depth]? = some frame → c = frame.holding frame.labelTypes := by
  unfold emitDropkeepToLabel at ran
  split at ran
  · rename_i dead
    cases ran
    refine ⟨levels,b.level,.refl _ _,levelling,fun _ => rfl,fun _ _ _ arrives => arrives,fun c known => ?_⟩
    rw [level_dead dead] at known
    cases known
  · rename_i alive
    obtain ⟨frame,named,ran⟩ := except_bind_ok ran
    cases ran
    have alive : b.isUnreachable = false := Bool.eq_false_iff.mpr alive
    have named := labelFrame_some named
    obtain ⟨lower,site⟩ := sites alive frame named
    obtain ⟨levels',rises,shaped,same,arrives⟩ := site.levelling levelling
    refine ⟨levels',_,rises,shaped,same,arrives,fun c known => ⟨alive,fun other there => ?_⟩⟩
    obtain rfl := Option.some.inj (named.symm.trans there)
    exact (Option.some.inj known).symm

-- What falls behind the branch to a label is free.
theorem emitBranchJumpOrReturn_levelling (top' : Option ValueCounts) (levelling : b.Levelling E results levels top hole)
    (aims : ∀ c, top = some c → b.isUnreachable = false ∧
      ∀ frame, b.controlStack[depth]? = some frame → c = frame.holding frame.labelTypes)
    (ran : b.emitBranchJumpOrReturn depth = .ok b') :
    b'.Levelling E results (levels ++ [top]) top' (fun k => hole k ∨ b'.Opens k) ∧ ∀ k, b.Opens k → b'.Opens k := by
  obtain ⟨frame,named,ran⟩ := except_bind_ok ran
  have named := labelFrame_some named
  have known := levelling.frames frame (List.mem_of_getElem? named)
  have length := levelling.code.length
  split at ran
  · rename_i kind
    cases ran
    refine ⟨(levelling.pushEnd (fun c live => ?_) rfl rfl).open_ fun k => .inl,fun k => id⟩
    obtain ⟨same,base,_⟩ := known.whole kind
    refine ((levelling.described.return_).room c).mpr fun size => ?_
    rw [(aims c live).2 frame named,ControlFrame.labelTypes,if_neg (by rw [kind]; nofun),same]
    exact Nat.le_add_left _ _
  · rename_i kind
    cases ran
    refine ⟨(levelling.push fun c live _ => ⟨((levelling.described.jump _).idle c).1,.jump ?_⟩).open_ fun k => .inl,fun k => id⟩
    obtain ⟨alive,held⟩ := aims c live
    have entered := levelling.flags.live ((isUnreachable_eq b).symm.trans alive) frame (List.mem_of_getElem? named)
    rw [((levelling.described.jump _).idle c).2,held frame named,ControlFrame.labelTypes,if_pos kind]
    exact (known.begins kind entered).push
  all_goals
    rename_i kind
    cases ran
    obtain ⟨opens,own⟩ := levelling.opens_owned named b.instructions.length
    refine ⟨Levelling.owned (b := b.push (.jump 0)) (levelling.pushHole _ top' (fun k => .inl) (.inr own)) named
      (by rw [kind]; nofun) ⟨.jump 0,List.getElem?_concat_length,rfl,fun c lives => ?_⟩,opens⟩
    rw [←length,List.getElem?_concat_length] at lives
    obtain ⟨alive,held⟩ := aims c (Option.some.inj lives)
    refine ⟨alive,((levelling.described.jump 0).idle c).1,fun _ => ?_,nofun,nofun⟩
    exact ((levelling.described.jump 0).idle c).2.trans (held frame named)

theorem level_owned (b : FunctionBuilder) (depth j : Nat) :
    level {b with controlStack := b.controlStack.modify depth (ownJump j)} = b.level := by
  unfold level
  rw [isUnreachable_owned]

theorem emitBranchJumpOrReturn_level (ran : b.emitBranchJumpOrReturn depth = .ok b') : b'.level = b.level := by
  unfold level
  rw [emitBranchJumpOrReturn_isUnreachable ran,(emitBranchJumpOrReturn_alike ran).counts]

theorem visitBr_levelled (levelled : b.Levelled E results levels)
    (sites : b.isUnreachable = false → ∀ frame, b.controlStack[depth]? = some frame → ∃ lower, b.BranchSite depth frame lower)
    (ran : b.visitBr depth = .ok b') : b.Lifts E results levels b' := by
  obtain ⟨shaped,shape,ran⟩ := except_bind_ok ran
  obtain ⟨branched,left,ran⟩ := except_bind_ok ran
  cases ran
  obtain ⟨levels',top,rises,levelling,same,_,aims⟩ := emitDropkeepToLabel_levelling levelled sites shape
  obtain ⟨more,rfl⟩ := emitDropkeepToLabel_parts shape
  obtain ⟨branches,opens⟩ := emitBranchJumpOrReturn_levelling none levelling aims left
  exact ⟨_,rises.push same,Levelling.closes (branches.open_ fun k hollow => hollow.elim (opens k) id)⟩

theorem visitBrIf_levelled (levelled : b.Levelled E results levels) (kept : b.Bookkept)
    (room : b.isUnreachable = false → ∃ lower, b.operandStack = lower ++ [.s32] ∧ b.frameHeight ≤ lower.length)
    (sites : ∀ popped, b.popExpect .s32 = .ok popped → popped.isUnreachable = false →
      ∀ frame, popped.controlStack[depth]? = some frame → ∃ lower, popped.BranchSite depth frame lower)
    (ran : b.visitBrIf depth = .ok b') : b.Lifts E results levels b' := by
  obtain ⟨popped,tested,shaped,shape,branch⟩ := visitBrIf_parts ran
  obtain ⟨pushed,arrives⟩ := levelled.pushTest kept room tested
  have opens : b.Opens = popped.Opens := by
    rcases popExpect_parts tested with ⟨_,rfl⟩ | ⟨_,_,_,rfl⟩ <;> rfl
  have sites' (alive : popped.isUnreachable = false) (frame : ControlFrame) (named : popped.controlStack[depth]? = some frame) :
      ∃ lower, (popped.push (.jumpIfZero .s32 0)).BranchSite depth frame lower := by
    obtain ⟨lower,site⟩ := sites popped tested alive frame named
    exact ⟨lower,site.bookkept.same (.code _ _ _),alive,named,site.operands,site.above⟩
  obtain ⟨levels',top,rises,levelling,same,keeps,aims⟩ :=
    emitDropkeepToLabel_levelling (b := popped.push (.jumpIfZero .s32 0)) pushed sites' shape
  have arrives := keeps _ _ _ arrives
  obtain ⟨more,rfl⟩ := emitDropkeepToLabel_parts shape
  rcases branch with ⟨frame,named,kind,short,rfl⟩ | ⟨branched,left,rfl⟩
  · have level : levels ++ [b.level] = levels' := by
      refine rises.kept.eq_of_length ?_
      rw [levelling.code.length,pushed.code.length]
      exact (List.length_append.trans rfl : (popped.push (.jumpIfZero .s32 0)).instructions.length = _).trans short.symm
    obtain rfl := same level.symm
    have described : E.Describes popped.metadata results := levelling.described
    have test : (popped.instructions ++ [Instruction.jumpIfZero .s32 0] ++ more)[popped.instructions.length]? =
        some (.jumpIfZero .s32 0) := by
      rw [List.append_assoc,List.getElem?_append_right (Nat.le_refl _),Nat.sub_self]
      rfl
    have others (k : Nat) (other : k ≠ popped.instructions.length) :
        ((popped.instructions ++ [Instruction.jumpIfZero .s32 0] ++ more).set popped.instructions.length (.jumpIfNonZero .s32 0))[k]? =
          (popped.instructions ++ [Instruction.jumpIfZero .s32 0] ++ more)[k]? := List.getElem?_set_ne (Ne.symm other)
    have own (i : Instruction) (there : (popped.instructions ++ [.jumpIfZero .s32 0] ++ more)[popped.instructions.length]? = some i)
        (_ : i.continues = false) : ∃ i', ((popped.instructions ++ [Instruction.jumpIfZero .s32 0] ++ more).set popped.instructions.length
          (.jumpIfNonZero .s32 0))[popped.instructions.length]? = some i' ∧ i'.continues = false ∧
        ∀ c wanted, levels'[popped.instructions.length]? = some (some c) →
          i.Awaits E levels' popped.level popped.instructions.length c wanted →
            i'.Awaits E levels' popped.level popped.instructions.length c wanted := by
      obtain rfl := Option.some.inj (test.symm.trans there)
      refine ⟨_,List.getElem?_set_self (List.getElem?_eq_some_iff.mp there).1,rfl,fun c wanted _ awaits => ⟨?_,fun _ => ?_,
        fun _ => awaits.next rfl,nofun⟩⟩
      · exact ((described.jumpIfNonZero 0).room c).mpr (((described.jumpIfZero 0).room c).mp awaits.room)
      · exact ((described.jumpIfNonZero 0).after c).trans (((described.jumpIfZero 0).after c).symm.trans (awaits.after rfl))
    have reset := levelling.alter popped.instructions.length (List.length_set ..) others (fun k _ => id) own
      fun _ _ _ _ filled => absurd (.inr rfl) filled
    obtain ⟨opens',owned⟩ := reset.opens_owned named popped.instructions.length
    have owns := reset.owned named kind ((arrives.alter others own).wants fun alive =>
      (aims _ (level_live (b := popped) alive)).2 frame named)
    refine ⟨levels',.across (level ▸ List.prefix_refl _) (List.prefix_refl _),?_⟩
    unfold Levelled
    rw [opens] at owns
    have same : FunctionBuilder.level _ = popped.level := level_owned {popped with
      instructions := (popped.instructions ++ [Instruction.jumpIfZero .s32 0] ++ more).set popped.instructions.length
        (.jumpIfNonZero .s32 0)}
      depth popped.instructions.length
    refine Levelling.open_ (same ▸ owns) fun k hollow => ?_
    rcases hollow with before | rfl
    · exact opens' k before
    · exact owned
  · have longer := emitBranchJumpOrReturn_leaves left
    obtain ⟨branches,opens'⟩ := emitBranchJumpOrReturn_levelling popped.level levelling aims left
    obtain ⟨i,_,code⟩ := longer
    have arrives : Arrives E branched.instructions (levels' ++ [top]) popped.level popped.instructions.length
        (popped.isUnreachable = false) popped.laneCounts := by
      rw [code]
      exact arrives.push levelling.code.length i
    have patched := branches.patchJump (t := branched.instructions.length) arrives fun alive =>
      .inr ⟨branches.code.length.symm,level_live alive⟩
    have level : branched.level = popped.level := (emitBranchJumpOrReturn_level left).trans rfl
    refine ⟨levels' ++ [top],.across rises.kept (List.prefix_append _ _),?_⟩
    rw [opens] at patched
    rw [←level] at patched
    refine Levelling.open_ patched fun k hollow => ?_
    obtain ⟨(before | rfl) | now,different⟩ := hollow
    · exact opens' k before
    · exact absurd rfl different
    · exact now

-- The jumps of the pads that are to be patched.
def Padded (pads : List PadInfo) (k : Nat) : Prop := ∃ pad ∈ pads, pad.isReturn = false ∧ pad.jumpOrRetIp = k

-- Each pad is entered as high as the table is left, and its jump leaves the lanes
-- as its label wants them.
structure PadLevel (b : FunctionBuilder) (E : Effects) (levels : List (Option ValueCounts)) (pad : PadInfo) : Prop where
  start : levels[pad.padStart]? = some b.level
  jump (frame : ControlFrame) : pad.isReturn = false → b.controlStack[pad.depth]? = some frame →
    Arrives E b.instructions levels none pad.jumpOrRetIp (b.isUnreachable = false) (frame.holding frame.labelTypes) ∧
      ∀ c, levels[pad.jumpOrRetIp]? = some (some c) → c = frame.holding frame.labelTypes

theorem addPads_levelling {depths : List Nat} {pads pads' : List PadInfo} (levelling : b.Levelling E results levels none hole)
    (padded : ∀ pad ∈ pads, b.PadLevel E levels pad)
    (sites : b.isUnreachable = false → ∀ depth ∈ depths, ∀ frame, b.controlStack[depth]? = some frame →
      ∃ lower, b.BranchSite depth frame lower) (ran : b.addPads depths pads = .ok (b',pads')) :
    ∃ levels' more, levels <+: levels' ∧ pads <+: pads' ∧
      b'.Levelling E results levels' none (fun k => hole k ∨ Padded pads' k) ∧ (∀ pad ∈ pads', b'.PadLevel E levels' pad) ∧
        b' = {b with instructions := b.instructions ++ more} := by
  induction depths generalizing b levels hole pads with
  | nil =>
    cases ran
    exact ⟨levels,[],List.prefix_refl _,List.prefix_refl _,levelling.open_ fun k => .inl,padded,by rw [List.append_nil]⟩
  | cons depth depths ih =>
    have later (alive : b.isUnreachable = false) (depth : Nat) (listed : depth ∈ depths) :=
      sites alive depth (List.mem_cons_of_mem _ listed)
    have length := levelling.code.length
    unfold addPads at ran
    split at ran
    · exact ih levelling padded later ran
    split at ran
    · rename_i dead
      have pushed : (b.push .return_).Levelling E results (levels ++ [none]) none hole :=
        levelling.pushEnd (fun c known => by cases known) rfl rfl
      have padded' (pad : PadInfo)
          (listed : pad ∈ pads ++ [⟨depth,b.instructions.length,b.instructions.length,true⟩]) :
          (b.push .return_).PadLevel E (levels ++ [none]) pad := by
        rcases List.mem_append.mp listed with old | new
        · obtain ⟨start,jump⟩ := padded pad old
          refine ⟨?_,fun frame branches named => ⟨(jump frame branches named).1.push length _,fun c lives => ?_⟩⟩
          · rw [List.getElem?_append_left (List.getElem?_eq_some_iff.mp start).1]
            exact start
          · rw [List.getElem?_append_left (by rw [length]; exact (jump frame branches named).1.lt)] at lives
            exact (jump frame branches named).2 c lives
        · obtain rfl := List.mem_singleton.mp new
          refine ⟨?_,fun _ branches => by cases branches⟩
          rw [←length,List.getElem?_concat_length]
          exact congrArg some (level_dead (b := b) dead).symm
      obtain ⟨levels',more,kept,grown,levelling',padded',rfl⟩ := ih pushed padded' (fun alive => by
        rw [show b.isUnreachable = false from alive] at dead
        cases dead) ran
      exact ⟨levels',[.return_] ++ more,(List.prefix_append _ _).trans kept,(List.prefix_append _ _).trans grown,levelling',padded',
        by rw [←List.append_assoc]; rfl⟩
    · rename_i alive
      obtain ⟨frame,named,ran⟩ := except_bind_ok ran
      have alive : b.isUnreachable = false := Bool.eq_false_iff.mpr alive
      have named := labelFrame_some named
      obtain ⟨lower,site⟩ := sites alive depth List.mem_cons_self frame named
      have raised : b.Levelling E results levels b.level hole := levelling.raise fun c known => by cases known
      obtain ⟨levels₁,rises,shaped,same,keeps⟩ := site.levelling raised
      obtain ⟨shaping,code⟩ := b.emitDropkeep_parts frame.base frame.keep
      change ((b.emitDropkeep frame.base frame.keep).push (.jump 0)).addPads depths
        (pads ++ [⟨depth,b.instructions.length,(b.emitDropkeep frame.base frame.keep).instructions.length,false⟩]) = _ at ran
      rw [code] at ran shaped keeps
      have length₁ := shaped.code.length
      have risen := rises.push same
      have pushed := shaped.pushHole (.jump 0) none (fun k => Or.inl (b := k = (b.instructions ++ shaping).length)) (.inr rfl)
      have jumpIp : (b.instructions ++ shaping ++ [Instruction.jump 0])[(b.instructions ++ shaping).length]? = some (.jump 0) :=
        List.getElem?_concat_length
      have jumped (pad : PadInfo)
          (listed : pad ∈ pads ++ [⟨depth,b.instructions.length,(b.instructions ++ shaping).length,false⟩]) :
          PadLevel {b with instructions := b.instructions ++ shaping ++ [.jump 0]} E
            (levels₁ ++ [some (frame.holding frame.labelTypes)]) pad := by
        rcases List.mem_append.mp listed with old | new
        · obtain ⟨start,jump⟩ := padded pad old
          obtain ⟨added,whole⟩ := risen.kept
          refine ⟨?_,fun other branches named => ?_⟩
          · rw [←whole,List.getElem?_append_left (List.getElem?_eq_some_iff.mp start).1]
            exact start
          · obtain ⟨arrives,held⟩ := jump other branches named
            refine ⟨(keeps _ _ _ (arrives.raise fun c known => by cases known)).push length₁ _,fun c lives => held c ?_⟩
            rw [←whole,List.getElem?_append_left (by rw [length]; exact arrives.lt)] at lives
            exact lives
        · obtain rfl := List.mem_singleton.mp new
          refine ⟨?_,fun other _ there => ?_⟩
          · have inside : levels.length < (levels₁ ++ [some (frame.holding frame.labelTypes)]).length := by
              rw [List.length_append]
              exact Nat.lt_succ_of_le rises.kept.length_le
            have here := List.getElem?_eq_getElem inside
            rw [risen.first _ here] at here
            rw [←length]
            exact here
          · obtain rfl := Option.some.inj (named.symm.trans there)
            have own (c : ValueCounts) (lives : (levels₁ ++ [some (frame.holding frame.labelTypes)])[(b.instructions ++
                shaping).length]? = some (some c)) : c = frame.holding frame.labelTypes := by
              rw [show (b.instructions ++ shaping).length = levels₁.length from length₁.symm,List.getElem?_concat_length] at lives
              exact (Option.some.inj (Option.some.inj lives)).symm
            refine ⟨⟨_,jumpIp,rfl,fun c lives => ⟨alive,((levelling.described.jump 0).idle c).1,fun _ => ?_,fun falls => (by cases falls),fun fixed => (by cases fixed)⟩⟩,own⟩
            exact ((levelling.described.jump 0).idle c).2.trans (own c lives)
      obtain ⟨levels',more,kept,grown,levelling',padded',rfl⟩ := ih (b := {b with instructions := b.instructions ++ shaping ++ [.jump 0]})
        pushed jumped (fun alive depth listed frame named => by
          obtain ⟨lower,site⟩ := later alive depth listed frame named
          exact ⟨lower,site.bookkept.same (.code _ _ _),alive,named,site.operands,site.above⟩) ran
      refine ⟨levels',shaping ++ [.jump 0] ++ more,risen.kept.trans kept,(List.prefix_append _ _).trans grown,
        levelling'.open_ fun k hollow => ?_,padded',by simp only [List.append_assoc]⟩
      rcases hollow with (before | rfl) | later
      · exact .inl before
      · exact .inr ⟨_,grown.subset (List.mem_append_right _ List.mem_cons_self),rfl,rfl⟩
      · exact .inr later

namespace PadLevel
variable {pad : PadInfo} {instructions : List Instruction}

theorem alter (known : b.PadLevel E levels pad) (others : ∀ k, k ≠ j → instructions[k]? = b.instructions[k]?)
    (own : ∀ i, b.instructions[j]? = some i → i.continues = false → ∃ i', instructions[j]? = some i' ∧ i'.continues = false ∧
      ∀ c wanted, levels[j]? = some (some c) → i.Awaits E levels none j c wanted → i'.Awaits E levels none j c wanted) :
    PadLevel {b with instructions} E levels pad := by
  refine ⟨known.start,fun frame branches named => ?_⟩
  obtain ⟨arrives,held⟩ := known.jump frame branches named
  exact ⟨arrives.alter others own,held⟩

theorem owned (known : b.PadLevel E levels pad) (depth j : Nat) :
    PadLevel {b with controlStack := b.controlStack.modify depth (ownJump j)} E levels pad := by
  refine ⟨known.start.trans (congrArg some (level_owned b depth j).symm),fun frame branches named => ?_⟩
  rw [List.getElem?_modify] at named
  obtain ⟨old,found,rfl⟩ := Option.map_eq_some_iff.mp named
  obtain ⟨arrives,held⟩ := known.jump old branches found
  have same : (if depth = pad.depth then ownJump j old else old).holding
      (if depth = pad.depth then ownJump j old else old).labelTypes = old.holding old.labelTypes := by
    split <;> rfl
  rw [isUnreachable_owned]
  exact ⟨arrives.wants fun _ => same.symm,fun c lives => (held c lives).trans same.symm⟩

end PadLevel

theorem patchPads_levelling {pads : List PadInfo} (levelling : b.Levelling E results levels none hole)
    (padded : ∀ pad ∈ pads, b.PadLevel E levels pad) (holes : ∀ k, hole k → b.Opens k ∨ Padded pads k)
    (ran : b.patchPads pads = .ok b') : b'.Levelling E results levels none b'.Opens := by
  induction pads generalizing b hole with
  | nil =>
    cases ran
    refine levelling.open_ fun k hollow => (holes k hollow).resolve_right ?_
    rintro ⟨_,listed,_⟩
    cases listed
  | cons pad pads ih =>
    have later (other : PadInfo) (listed : other ∈ pads) := padded other (List.mem_cons_of_mem _ listed)
    have described := levelling.described
    unfold patchPads at ran
    split at ran
    · rename_i returns
      refine ih levelling later (fun k hollow => (holes k hollow).imp id ?_) ran
      rintro ⟨other,listed,branches,same⟩
      rcases List.mem_cons.mp listed with rfl | listed
      · rw [returns] at branches
        cases branches
      · exact ⟨other,listed,branches,same⟩
    · rename_i branches
      obtain ⟨frame,named,ran⟩ := except_bind_ok ran
      have named := labelFrame_some named
      have branches : pad.isReturn = false := Bool.eq_false_iff.mpr branches
      have known := levelling.frames frame (List.mem_of_getElem? named)
      obtain ⟨arrives,held⟩ := (padded pad List.mem_cons_self).jump frame branches named
      -- What is left open once this pad is patched.
      have rest (k : Nat) (hollow : hole k) (different : k ≠ pad.jumpOrRetIp) : b.Opens k ∨ Padded pads k := by
        refine (holes k hollow).imp id ?_
        rintro ⟨other,listed,branches,rfl⟩
        rcases List.mem_cons.mp listed with rfl | listed
        · exact absurd rfl different
        · exact ⟨other,listed,branches,rfl⟩
      split at ran
      · rename_i kind
        have room (c : ValueCounts) (lives : levels[pad.jumpOrRetIp]? = some (some c)) : E.Room c .return_ := by
          refine ((described.return_).room c).mpr fun size => ?_
          rw [held c lives,ControlFrame.labelTypes,if_neg (by rw [kind]; nofun),(known.whole kind).1]
          exact Nat.le_add_left _ _
        have others (k : Nat) (other : k ≠ pad.jumpOrRetIp) :
            (b.instructions.set pad.jumpOrRetIp .return_)[k]? = b.instructions[k]? := List.getElem?_set_ne (Ne.symm other)
        have here : (b.instructions.set pad.jumpOrRetIp .return_)[pad.jumpOrRetIp]? = some .return_ :=
          List.getElem?_set_self arrives.lt
        have own (i : Instruction) (_ : b.instructions[pad.jumpOrRetIp]? = some i) (_ : i.continues = false) :
            ∃ i', (b.instructions.set pad.jumpOrRetIp .return_)[pad.jumpOrRetIp]? = some i' ∧ i'.continues = false ∧
              ∀ c wanted, levels[pad.jumpOrRetIp]? = some (some c) → i.Awaits E levels none pad.jumpOrRetIp c wanted →
                i'.Awaits E levels none pad.jumpOrRetIp c wanted :=
          ⟨_,here,rfl,fun c wanted lives _ => ⟨room c lives,nofun,nofun,fun _ => ⟨rfl,rfl⟩⟩⟩
        refine ih (levelling.alter pad.jumpOrRetIp (List.length_set ..) others (fun k other hollow => And.intro hollow other) own
          fun i c lives there _ => ?_) (fun other listed => (later other listed).alter others own)
          (fun k hollow => rest k hollow.1 hollow.2) ran
        obtain rfl := Option.some.inj (here.symm.trans there)
        exact .ends (room c lives) rfl rfl
      · rename_i kind
        have patched := levelling.patchJump (t := frame.startIp) arrives fun alive => by
          rw [ControlFrame.labelTypes,if_pos kind]
          exact known.begins kind (levelling.flags.live ((isUnreachable_eq b).symm.trans alive) frame (List.mem_of_getElem? named))
        exact ih patched (fun other listed => (later other listed).alter (modify_patched b pad.jumpOrRetIp frame.startIp).2.1
          (patchJump_keeps described pad.jumpOrRetIp frame.startIp)) (fun k hollow => rest k hollow.1 hollow.2) ran
      all_goals
        rename_i kind
        obtain ⟨opens,own⟩ := levelling.opens_owned named pad.jumpOrRetIp
        refine ih (levelling.owned named (by rw [kind]; nofun) arrives) (fun other listed => (later other listed).owned _ _)
          (fun k hollow => ?_) ran
        by_cases same : k = pad.jumpOrRetIp
        · subst same
          exact .inl own
        · exact (rest k hollow same).imp (opens k) id

-- The header is made once its pads are there.
theorem visitBrTable_levelled {targetDepths : List Nat} {defaultDepth : Nat} (levelled : b.Levelled E results levels)
    (kept : b.Bookkept)
    (room : b.isUnreachable = false → ∃ lower, b.operandStack = lower ++ [.s32] ∧ b.frameHeight ≤ lower.length)
    (sites : ∀ popped, b.popExpect .s32 = .ok popped → popped.isUnreachable = false → ∀ depth ∈ targetDepths ++ [defaultDepth],
      ∀ frame, popped.controlStack[depth]? = some frame → ∃ lower, popped.BranchSite depth frame lower)
    (ran : b.visitBrTable targetDepths defaultDepth = .ok b') : b.Lifts E results levels b' := by
  obtain ⟨popped,filled,pads,found,defaultPad,patched,tested,added,looked,default,patching,rfl⟩ := visitBrTable_parts ran
  have effect := popExpect_effect tested
  have levelling := levelled.applyEffect effect
  have length := levelling.code.length
  have opens : b.Opens = popped.Opens := by
    rcases popExpect_parts tested with ⟨_,rfl⟩ | ⟨_,_,_,rfl⟩ <;> rfl
  have header := levelling.pushHole (.branchTable 0 popped.data.branchTableTargets.length targetDepths.length) none
    (fun k => Or.inl (b := k = popped.instructions.length)) (.inr rfl)
  obtain ⟨levels',more,risen,_,tabled,padded,rfl⟩ := addPads_levelling header (by intro _ listed; cases listed)
    (fun alive depth listed frame named => by
      obtain ⟨lower,site⟩ := sites popped tested alive depth listed frame named
      exact ⟨lower,site.bookkept.same (.code _ _ _),alive,named,site.operands,site.above⟩) added
  have counted : found.length = targetDepths.length := mapM_length looked
  have there : (popped.instructions ++ [Instruction.branchTable 0 popped.data.branchTableTargets.length targetDepths.length] ++
      more)[popped.instructions.length]? = some (.branchTable 0 popped.data.branchTableTargets.length targetDepths.length) := by
    rw [List.append_assoc,List.getElem?_append_right (Nat.le_refl _),Nat.sub_self]
    rfl
  have others (k : Nat) (other : k ≠ popped.instructions.length) :
      ((popped.instructions ++ [Instruction.branchTable 0 popped.data.branchTableTargets.length targetDepths.length] ++ more).modify
        popped.instructions.length (setDefault defaultPad.padStart))[k]? =
      (popped.instructions ++ [Instruction.branchTable 0 popped.data.branchTableTargets.length targetDepths.length] ++ more)[k]? :=
    List.getElem?_modify_ne _ _ (Ne.symm other)
  have here : ((popped.instructions ++ [Instruction.branchTable 0 popped.data.branchTableTargets.length targetDepths.length] ++
      more).modify popped.instructions.length (setDefault defaultPad.padStart))[popped.instructions.length]? =
        some (.branchTable defaultPad.padStart popped.data.branchTableTargets.length targetDepths.length) := by
    rw [List.getElem?_modify_eq,there]
    rfl
  -- No jump to a label stands where the header does.
  have own (i : Instruction) (found : (popped.instructions ++ [Instruction.branchTable 0 popped.data.branchTableTargets.length
        targetDepths.length] ++ more)[popped.instructions.length]? = some i) (_ : i.continues = false) :
      ∃ i', ((popped.instructions ++ [Instruction.branchTable 0 popped.data.branchTableTargets.length targetDepths.length] ++
          more).modify popped.instructions.length (setDefault defaultPad.padStart))[popped.instructions.length]? = some i' ∧
        i'.continues = false ∧ ∀ c wanted, levels'[popped.instructions.length]? = some (some c) →
          i.Awaits E levels' none popped.instructions.length c wanted →
            i'.Awaits E levels' none popped.instructions.length c wanted := by
    obtain rfl := Option.some.inj (there.symm.trans found)
    exact ⟨_,here,rfl,fun c wanted _ awaits => nomatch (awaits.ends rfl).2⟩
  have made := (tabled.extend (found.map PadInfo.padStart)).alter popped.instructions.length
    (List.length_modify (setDefault defaultPad.padStart) _ _) others
    (fun k other hollow => show b.Opens k ∨ Padded pads k from hollow.elim
      (fun before => before.elim .inl fun same => absurd same other) .inr) own fun i c lives listed _ => ?_
  · refine ⟨levels',.across risen (List.prefix_refl _),Levelling.closes (patchPads_levelling made (fun pad listed => ?_)
      (fun k hollow => hollow.imp (fun before => ?_) id) patching)⟩
    · have known := (padded pad listed).alter others own
      exact ⟨known.start,known.jump⟩
    · rw [opens] at before
      exact before
  · obtain rfl := Option.some.inj (here.symm.trans listed)
    have known : b.level = some c := by
      obtain ⟨added,rfl⟩ := risen
      rw [←length,List.append_assoc,List.getElem?_append_right (Nat.le_refl _),Nat.sub_self] at lives
      exact Option.some.inj lives
    obtain ⟨room',left⟩ := applyEffect_level kept room effect known
    obtain ⟨alive,counts⟩ := (level_some popped).mp left
    have branches := levelling.described.branchTable defaultPad.padStart popped.data.branchTableTargets.length targetDepths.length
    have entered {depth : Nat} {pad : PadInfo} {missing : String} (answered : padFor pads missing depth = .ok pad) :
        LevelAt levels' none pad.padStart
          (E.after c (.branchTable defaultPad.padStart popped.data.branchTableTargets.length targetDepths.length)) := by
      rw [branches.after,←counts]
      exact .inl ((padded pad (padFor_found answered).1).start.trans (congrArg some (level_live (b := popped) alive)))
    refine ⟨(branches.room c).mpr room',nofun,fun t aims => by cases aims; exact entered default,fun _ first len made => ?_⟩
    cases made
    refine ⟨by rw [List.length_append,List.length_map,counted]; exact Nat.le_refl _,fun k within t entry => ?_⟩
    change (popped.data.branchTableTargets ++ found.map PadInfo.padStart)[_]? = _ at entry
    rw [List.getElem?_append_right (Nat.le_add_right _ _),Nat.add_sub_cancel_left,List.getElem?_map] at entry
    obtain ⟨pad,among,rfl⟩ := Option.map_eq_some_iff.mp entry
    obtain ⟨depth,_,answered⟩ := mapM_mem looked pad (List.mem_of_getElem? among)
    exact entered answered

end Branches

end FunctionBuilder

end TinyWasm
