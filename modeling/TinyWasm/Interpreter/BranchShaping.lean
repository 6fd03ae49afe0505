import TinyWasm.Interpreter.Marshalling
import TinyWasm.Parser.BranchCode

namespace TinyWasm

-- Of the three parts of a lane the middle one goes.
theorem Stack.truncateKeep_parts {α : Type} {s : Stack α} {below dropped kept : List α}
    (data : s.data = below ++ dropped ++ kept) :
    (s.truncateKeep below.length kept.length).data = below ++ kept := by
  have total : s.len = below.length + dropped.length + kept.length := by
    rw [len,data,List.length_append,List.length_append]
  unfold truncateKeep
  split
  · rename_i low
    have nothing : dropped = [] := List.eq_nil_of_length_eq_zero (by omega)
    rw [data,nothing,List.append_nil]
  · have some_kept : min (s.len - below.length) kept.length = kept.length := by omega
    have start : s.len - kept.length = (below ++ dropped).length := by rw [List.length_append]; omega
    dsimp only
    rw [some_kept,start,data,List.drop_left,List.append_assoc,List.take_left]

theorem Stack.truncateKeep_same_iff {α : Type} {s : Stack α} {below dropped kept : List α}
    (data : s.data = below ++ dropped ++ kept) : s.truncateKeep below.length kept.length = s ↔ dropped = [] := by
  constructor
  · intro same
    have lengths := congrArg (fun s : Stack α => s.data.length) same
    rw [truncateKeep_parts data,data] at lengths
    simp only [List.length_append] at lengths
    exact List.eq_nil_of_length_eq_zero (by omega)
  · rintro rfl
    have same := truncateKeep_parts data
    rw [List.append_nil] at data
    unfold truncateKeep at same ⊢
    split
    · rfl
    · rename_i high
      rw [if_neg high] at same
      dsimp only at same ⊢
      rw [same,←data]

def sizesOf (values : List WasmValue) : List OperandSize := values.map fun v => .ofWasmType v.type

theorem sizesOf_append (first second : List WasmValue) : sizesOf (first ++ second) = sizesOf first ++ sizesOf second :=
  List.map_append

namespace ValueStack
variable {stack below : ValueStack} {lower dropped kept : List WasmValue} {base : StackBase} {keep : ValueCounts}

-- The same part goes on each lane, as far as it lies there.
theorem HoldsAbove.parts (held : stack.HoldsAbove below (lower ++ dropped ++ kept)) (size : OperandSize) :
    (stack.lane size).data = ((below.lane size).data ++ WasmValue.laneOf size lower) ++ WasmValue.laneOf size dropped ++
      WasmValue.laneOf size kept := by
  rw [held size,WasmValue.laneOf_append,WasmValue.laneOf_append,List.append_assoc,List.append_assoc,List.append_assoc]

theorem truncateKeepCounts_shapes (held : stack.HoldsAbove below (lower ++ dropped ++ kept))
    (bases : ∀ size, base size = (below.lane size).data.length + (sizesOf lower).count size)
    (keeps : ∀ size, keep size = (sizesOf kept).count size) :
    (stack.truncateKeepCounts base keep).HoldsAbove below (lower ++ kept) ∧
      (stack.truncateKeepCounts base keep = stack ↔ ∀ size, (sizesOf dropped).count size = 0) := by
  have at_lane (size : OperandSize) : base size = ((below.lane size).data ++ WasmValue.laneOf size lower).length ∧
      keep size = (WasmValue.laneOf size kept).length := by
    rw [bases,keeps,List.length_append,WasmValue.laneOf_length,WasmValue.laneOf_length]
    exact ⟨rfl,rfl⟩
  refine ⟨fun size => ?_,?_⟩
  · change ((stack.lane size).truncateKeep (base size) (keep size)).data = _
    rw [(at_lane size).1,(at_lane size).2,Stack.truncateKeep_parts (held.parts size),WasmValue.laneOf_append,List.append_assoc]
  · have lanes : stack.truncateKeepCounts base keep = stack ↔
        ∀ size, (stack.lane size).truncateKeep (base size) (keep size) = stack.lane size := by
      constructor
      · intro same size
        exact congrArg (fun stack : ValueStack => stack.lane size) same
      · intro same
        exact congrArg ValueStack.mk (funext same)
    rw [lanes]
    refine forall_congr' fun size => ?_
    rw [(at_lane size).1,(at_lane size).2,Stack.truncateKeep_same_iff (held.parts size),←List.length_eq_zero_iff,
      WasmValue.laneOf_length]
    rfl

end ValueStack

section Execution
variable [Allocator] [Numerics] {b : FunctionBuilder} {depth : Nat} {frame : ControlFrame} {lower : List OperandSize}
  {ctx : Context} {m : Machine} {below : ValueStack} {values : List WasmValue}

def runAll (ctx : Context) : List Instruction → Step Unit
  | [] => pure ()
  | i :: rest => do
    execStraight ctx i
    runAll ctx rest

-- On every lane what lies below the label's height and the values it takes, and
-- below them all that was there.
theorem shaping_projects (site : b.BranchSite depth frame lower) (typed : sizesOf values = b.operandStack)
    (held : m.valueStack.HoldsAbove below values)
    (base : ∀ size, ctx.cf.stackBase size = (below.lane size).data.length) :
    ∃ valueStack, runAll ctx (b.shaping frame) m = .ok (.ok (),{m with valueStack}) ∧
      valueStack.HoldsAbove below (values.take frame.height ++ values.drop lower.length) ∧
      (b.shaping frame = [] ↔ Machine.dropKeep ctx.cf ⟨frame.base,frame.keep⟩ m = .ok (.ok (),m)) := by
  have split : values = values.take frame.height ++ (values.drop frame.height).take (lower.length - frame.height) ++
      values.drop lower.length := by
    have rest : (values.drop frame.height).drop (lower.length - frame.height) = values.drop lower.length := by
      rw [List.drop_drop,Nat.add_sub_of_le site.above]
    rw [List.append_assoc,←rest,List.take_append_drop,List.take_append_drop]
  have low : sizesOf (values.take frame.height) = lower.take frame.height := by
    unfold sizesOf at typed ⊢
    rw [List.map_take,typed,site.operands,List.take_append_of_le_length site.above]
  have middle : sizesOf ((values.drop frame.height).take (lower.length - frame.height)) = lower.drop frame.height := by
    unfold sizesOf at typed ⊢
    rw [List.map_take,List.map_drop,typed,site.operands,List.drop_append_of_le_length site.above,
      List.take_append_of_le_length (Nat.le_of_eq List.length_drop.symm),List.take_of_length_le (Nat.le_of_eq List.length_drop)]
  have high : sizesOf (values.drop lower.length) = frame.labelTypes := by
    unfold sizesOf at typed ⊢
    rw [List.map_drop,typed,site.operands,List.drop_left]
  have parts := held
  rw [split] at parts
  have based (size : OperandSize) : ctx.cf.stackBase size + frame.base size = (below.lane size).data.length + (sizesOf (values.take frame.height)).count size := by
    rw [low,←(site.counts size).1,←base]
  have keeps (size : OperandSize) : frame.keep size = (sizesOf (values.drop lower.length)).count size := by
    rw [high,(site.counts size).2.1]
  obtain ⟨shaped,unchanged⟩ := ValueStack.truncateKeepCounts_shapes parts based keeps
  rw [middle,←site.shaping_nil_iff] at unchanged
  have dropped : Machine.dropKeep ctx.cf ⟨frame.base,frame.keep⟩ m = .ok (.ok (),{m with
      valueStack := m.valueStack.truncateKeepCounts (fun size => ctx.cf.stackBase size + frame.base size) frame.keep}) := rfl
  rcases shape : b.shaping frame with _ | ⟨i,rest⟩
  · rw [shape] at unchanged
    have same := unchanged.mpr rfl
    rw [same] at shaped dropped
    exact ⟨m.valueStack,rfl,shaped,iff_of_true rfl dropped⟩
  · have only : i = .dropKeep ⟨frame.base,frame.keep⟩ ∧ rest = [] := by
      unfold FunctionBuilder.shaping at shape
      split at shape
      · cases shape
      · cases shape; exact ⟨rfl,rfl⟩
    obtain ⟨rfl,rfl⟩ := only
    refine ⟨_,?_,shaped,iff_of_false nofun fun same => ?_⟩
    · rw [runAll]
      exact Exec.bind_ok dropped
    · rw [dropped] at same
      have kept := congrArg (fun m : Machine => m.valueStack) (Prod.mk.inj (Except.ok.inj same)).2
      have nothing := unchanged.mp kept
      rw [shape] at nothing
      cases nothing

end Execution

-- Every branch of a validated body, taken on any stack of its operands' types.
theorem branch_shaping_projects [Allocator] [Numerics] {metadata : FunctionBuilder.ModuleMetadata} {signature : Signature}
    {localTypes : List OperandSize} {localAddrMap : List LocalAddr} {b b' : FunctionBuilder} {op : Operator} {depth : Nat}
    {frame : ControlFrame} (visited : FunctionBuilder.Visited (.new metadata signature localTypes localAddrMap) b)
    (admitted : b.Admitted op) (live : b.isUnreachable = false) (labelled : depth ∈ op.labels)
    (named : b.controlStack[depth]? = some frame) (ran : b.visit op = .ok b') :
    ∃ tested lower, b.tested op = .ok tested ∧ tested.operandStack = lower ++ frame.labelTypes ∧ frame.height ≤ lower.length ∧
      BranchCode b'.instructions b'.data.branchTableTargets b.instructions.length depth (tested.shaping frame) op ∧
      ∀ (ctx : Context) (m : Machine) (below : ValueStack) (values : List WasmValue),
        sizesOf values = tested.operandStack → m.valueStack.HoldsAbove below values →
        (∀ size, ctx.cf.stackBase size = (below.lane size).data.length) →
        ∃ valueStack, runAll ctx (tested.shaping frame) m = .ok (.ok (),{m with valueStack}) ∧
          valueStack.HoldsAbove below (values.take frame.height ++ values.drop lower.length) ∧
          (tested.shaping frame = [] ↔ Machine.dropKeep ctx.cf ⟨frame.base,frame.keep⟩ m = .ok (.ok (),m)) := by
  have kept := visited.bookkept (FunctionBuilder.new_bookkept _ _ _ _)
  obtain ⟨tested,lower,pops,code,site⟩ := FunctionBuilder.branchSite kept admitted live labelled named ran
  refine ⟨tested,lower,pops,site.operands,site.above,
    FunctionBuilder.visit_shapes labelled pops code site.live site.named ran,?_⟩
  intro ctx m below values typed held base
  exact shaping_projects site typed held base

-- A block that leaves an i32 over an i64, left with another i64 between them.
namespace MixedWidths

def start : FunctionBuilder := .new ⟨[],[],[],[],[]⟩ ⟨[],[.s64,.s32]⟩ [] []

def body : List Operator :=
  [.row [] [.s64] (.const .s64 40) rfl,.block (.type .s32),.row [] [.s64] (.const .s64 9) rfl,
    .row [] [.s32] (.const .s32 7) rfl,.row [] [.s32] (.const .s32 1) rfl]

theorem body_free : ∀ op ∈ body, op.labels = [] ∧ ∀ b : FunctionBuilder, b.inputs op = .ok [] := by
  intro op listed
  simp only [body,List.mem_cons,List.not_mem_nil,or_false] at listed
  rcases listed with rfl | rfl | rfl | rfl | rfl <;> exact ⟨rfl,fun _ => rfl⟩

end MixedWidths

open MixedWidths FunctionBuilder in
theorem branch_shaping_projects_mixed :
    let _ := Allocator.unlimited
    let _ := Numerics.zeros
    ∃ b b' tested frame, Visited start b ∧ b.visit (.brIf 0) = .ok b' ∧ b.tested (.brIf 0) = .ok tested ∧
      b.controlStack[0]? = some frame ∧ tested.shaping frame ≠ [] ∧
      BranchCode b'.instructions b'.data.branchTableTargets b.instructions.length 0 (tested.shaping frame) (.brIf 0) ∧
      ∀ (ctx : Context) (m : Machine) (below : ValueStack), m.valueStack.HoldsAbove below [.i64 40,.i64 9,.i32 7] →
        (∀ size, ctx.cf.stackBase size = (below.lane size).data.length) →
        ∃ valueStack, runAll ctx (tested.shaping frame) m = .ok (.ok (),{m with valueStack}) ∧
          valueStack.HoldsAbove below [.i64 40,.i32 7] := by
  let _ := Allocator.unlimited
  let _ := Numerics.zeros
  have visited {b : FunctionBuilder} (ran : body.foldlM visit start = .ok b) : Visited start b :=
    Visited.free .start (new_bookkept _ _ _ _) body_free ran
  obtain ⟨b,ran⟩ : ∃ b, body.foldlM visit start = .ok b := ⟨_,rfl⟩
  have admitted : b.Admitted (.brIf 0) := by
    cases ran
    refine ⟨fun _ taken => ?_,fun _ taken labelled named => ?_⟩
    · cases taken
      exact ⟨[.s64,.s64,.s32],rfl,by decide⟩
    · cases taken
      cases List.mem_singleton.mp labelled
      cases named
      exact ⟨[.s64,.s64],rfl,by decide⟩
  obtain ⟨frame,named⟩ : ∃ frame, b.controlStack[0]? = some frame := by cases ran; exact ⟨_,rfl⟩
  obtain ⟨b',visit⟩ : ∃ b', b.visit (.brIf 0) = .ok b' := by cases ran; exact ⟨_,rfl⟩
  obtain ⟨tested,lower,pops,operands,above,code,run⟩ :=
    branch_shaping_projects (visited ran) admitted (by cases ran; rfl) List.mem_cons_self named visit
  refine ⟨b,b',tested,frame,visited ran,visit,pops,named,?_,code,fun ctx m below held base => ?_⟩
  · cases ran
    cases pops
    cases named
    decide
  · obtain ⟨valueStack,shaped,holds,_⟩ := run ctx m below _ (by cases ran; cases pops; rfl) held base
    refine ⟨valueStack,shaped,?_⟩
    cases ran
    cases pops
    cases named
    have below : [OperandSize.s64,.s64] = lower := List.append_inj_left' operands rfl
    subst below
    exact holds

end TinyWasm
