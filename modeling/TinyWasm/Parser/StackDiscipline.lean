import TinyWasm.Parser.LevelVisits

namespace TinyWasm
open Fallible

namespace FunctionBuilder

-- No jump and no loop goes to the end of the code.
structure Unlabelled (b : FunctionBuilder) : Prop where
  targets : ∀ i ∈ b.instructions, i.target ≠ some b.instructions.length
  entries : b.instructions.length ∉ b.data.branchTableTargets
  loops : ∀ frame ∈ b.controlStack, frame.kind = .loop → frame.startIp ≠ b.instructions.length

variable {E : Effects} {results : List OperandSize} {b b' : FunctionBuilder} {levels : List (Option ValueCounts)}
  {top : Option ValueCounts} {hole : Nat → Prop} {c : ValueCounts} {size : OperandSize}

-- What is open is a jump.
theorem Levelling.opens_waits {j : Nat} (levelling : b.Levelling E results levels top hole) (opens : b.Opens j) :
    ∃ i, b.instructions[j]? = some i ∧ i.continues = false := by
  obtain ⟨frame,listed,waits⟩ := opens
  have known := levelling.frames frame listed
  have waiting {live : Prop} {wanted : ValueCounts} (arrives : Arrives E b.instructions levels top j live wanted) :
      ∃ i, b.instructions[j]? = some i ∧ i.continues = false := by
    obtain ⟨i,there,jumps,_⟩ := arrives
    exact ⟨i,there,jumps⟩
  by_cases kind : frame.kind = .if_
  · obtain ⟨condJump,jumps,all,test⟩ := known.test kind
    have own := ControlFrame.ownJumps_if kind all
    unfold ControlFrame.openJumps at waits
    rw [all] at waits
    split at waits
    · exact waiting (known.own j (by rw [own]; exact waits))
    · rename_i lacks
      rcases List.mem_cons.mp waits with rfl | waits
      · exact waiting (test (by simpa [kind] using lacks))
      · exact waiting (known.own j (by rw [own]; exact waits))
  · have open_ : frame.openJumps = frame.ownJumps := by
      rw [ControlFrame.openJumps,if_neg fun same => kind same.1,ControlFrame.ownJumps,if_neg kind]
    rw [open_] at waits
    exact waiting (known.own j waits)

-- The lanes before a local.get of the size that led to the end of the code.
def beforeGet (top : Option ValueCounts) (size : OperandSize) : Option ValueCounts :=
  top.map fun c other => c other - [size].count other

section Refold
variable {front : List Instruction} {src : LocalAddr}

theorem Levelling.before_get (levelling : b.Levelling E results levels top hole) (code : b.instructions = front ++ [.localGet size src])
    (filled : ¬hole front.length) (lives : levels[front.length]? = some (some c)) : beforeGet top size = some c := by
  have there : b.instructions[front.length]? = some (.localGet size src) := by
    rw [code]
    exact List.getElem?_concat_length
  have length : levels.length = front.length + 1 := by
    rw [levelling.code.length,code,List.length_append]
    rfl
  have fits := levelling.code.fits _ _ _ lives there filled
  rcases fits.flows.next rfl with inside | ⟨_,falls⟩
  · rw [List.getElem?_eq_none (Nat.le_of_eq length)] at inside
    cases inside
  · rw [beforeGet,falls,(levelling.described.localGet size src).after]
    simp

theorem Levelling.refold_kept {ip : Nat} (levelling : b.Levelling E results levels top hole)
    (code : b.instructions = front ++ [.localGet size src]) (filled : ¬hole front.length) (lives : levels[ip]? = some (some c)) :
    (levels.take front.length ++ [beforeGet top size,beforeGet top size])[ip]? = some (some c) := by
  have length : levels.length = front.length + 1 := by
    rw [levelling.code.length,code,List.length_append]
    rfl
  have lower : (levels.take front.length).length = front.length := by
    rw [List.length_take,length]
    omega
  have within := (List.getElem?_eq_some_iff.mp lives).1
  rcases Nat.lt_or_eq_of_le (Nat.le_of_lt_succ (length ▸ within)) with low | rfl
  · rw [List.getElem?_append_left (by rw [lower]; exact low),List.getElem?_take_of_lt low]
    exact lives
  · rw [List.getElem?_append_right (Nat.le_of_eq lower),lower,Nat.sub_self]
    exact congrArg some (levelling.before_get code filled lives)

-- The levels once a local.tee has been folded into the local.get before it.
theorem Levelling.refold (dst : LocalAddr) (levelling : b.Levelling E results levels top hole) (code : b.instructions = front ++ [.localGet size src])
    (filled : ¬hole front.length) (unlabelled : top.isSome → b.Unlabelled)
    (positive : ∀ c, top = some c → 1 ≤ c size) :
    Levelling {b with instructions := front ++ [.localCopy size src dst,.localGet size dst]} E results
      (levels.take front.length ++ [beforeGet top size,beforeGet top size]) top hole := by
  have length : levels.length = front.length + 1 := by
    rw [levelling.code.length,code,List.length_append]
    rfl
  have long : b.instructions.length = front.length + 1 := levelling.code.length.symm.trans length
  have lower : (levels.take front.length).length = front.length := by
    rw [List.length_take,length]
    omega
  have known (ip : Nat) (c : ValueCounts) (at_ : LevelAt levels top ip c) (other : top.isSome → ip ≠ b.instructions.length) :
      LevelAt (levels.take front.length ++ [beforeGet top size,beforeGet top size]) top ip c := by
    rcases at_ with inside | ⟨last,falls⟩
    · exact .inl (levelling.refold_kept code filled inside)
    · exact absurd (last.trans levelling.code.length) (other (by rw [falls]; rfl))
  have code' {k : Nat} (low : k < front.length) :
      (front ++ [Instruction.localCopy size src dst,.localGet size dst])[k]? = b.instructions[k]? := by
    rw [code,List.getElem?_append_left low,List.getElem?_append_left low]
  have before {k : Nat} (low : k < front.length) :
      (levels.take front.length ++ [beforeGet top size,beforeGet top size])[k]? = levels[k]? := by
    rw [List.getElem?_append_left (by rw [lower]; exact low),List.getElem?_take_of_lt low]
  have added {k : Nat} (low : front.length ≤ k) (high : k ≤ front.length + 1) :
      (levels.take front.length ++ [beforeGet top size,beforeGet top size])[k]? = some (beforeGet top size) := by
    rw [List.getElem?_append_right (by rw [lower]; exact low),lower]
    rcases Nat.lt_or_eq_of_le high with first | rfl
    · rw [Nat.le_antisymm (Nat.le_of_lt_succ first) low,Nat.sub_self]
      rfl
    · rw [Nat.add_sub_cancel_left]
      rfl
  refine ⟨levelling.described,⟨?_,?_,fun ip i c lives there hollow => ?_⟩,fun frame listed => ?_,levelling.flags⟩
  · rw [List.length_append,lower,List.length_append]
    rfl
  · exact known 0 _ levelling.code.start fun _ => by omega
  · by_cases low : ip < front.length
    · rw [before low] at lives
      rw [code' low] at there
      have fits := levelling.code.fits ip i c lives there hollow
      refine ⟨fits.room,fun falls => known _ _ (fits.flows.next falls) fun _ => by omega,fun t aims => ?_,fun default first len same => ?_⟩
      · refine known t _ (fits.flows.target t aims) fun alive last => ?_
        rw [last] at aims
        exact (unlabelled alive).targets i (List.mem_of_getElem? there) aims
      · obtain ⟨range,entries⟩ := fits.flows.entries default first len same
        refine ⟨range,fun k within t entry => known t _ (entries k within t entry) fun alive last => ?_⟩
        rw [last] at entry
        exact (unlabelled alive).entries (List.mem_of_getElem? entry)
    · have inside := (List.getElem?_eq_some_iff.mp there).1
      rw [List.length_append] at inside
      change ip < front.length + 2 at inside
      have either : ip = front.length ∨ ip = front.length + 1 := by omega
      rw [added (Nat.le_of_not_lt low) (by omega)] at lives
      have lives := Option.some.inj lives
      rw [List.getElem?_append_right (Nat.le_of_not_lt low)] at there
      rcases either with rfl | rfl
      · rw [Nat.sub_self] at there
        cases there
        obtain ⟨room,same⟩ := (levelling.described.localCopy size src dst).idle c
        refine .straight room (.inl ?_) rfl
        rw [same,added (Nat.le_succ _) (Nat.le_refl _),lives]
      · rw [Nat.add_sub_cancel_left] at there
        cases there
        obtain ⟨d,falls,rfl⟩ := Option.map_eq_some_iff.mp lives
        have got := levelling.described.localGet size dst
        refine .straight ((got.room _).mpr fun other => Nat.zero_le _) (.inr ⟨?_,?_⟩) rfl
        · rw [List.length_append,lower]
          rfl
        · rw [falls,got.after]
          refine congrArg some (funext fun other => ?_)
          have held := positive d falls
          by_cases own : size = other
          · subst own
            simp only [List.count_nil,List.count_singleton_self]
            omega
          · simp [own]
  · have here := levelling.frames frame listed
    have arrives {j : Nat} {live : Prop} {wanted : ValueCounts} (arrives : Arrives E b.instructions levels top j live wanted) :
        Arrives E (front ++ [.localCopy size src dst,.localGet size dst])
          (levels.take front.length ++ [beforeGet top size,beforeGet top size]) top j live wanted := by
      obtain ⟨i,there,jumps,goes⟩ := arrives
      have inside := (List.getElem?_eq_some_iff.mp there).1
      have low : j < front.length := by
        by_contra high
        obtain rfl : j = front.length := by omega
        rw [code,List.getElem?_concat_length] at there
        cases there
        cases jumps
      refine ⟨i,(code' low).trans there,jumps,fun c lives => ?_⟩
      rw [before low] at lives
      obtain ⟨alive,awaits⟩ := goes c lives
      exact ⟨alive,awaits.room,awaits.after,fun falls => known _ _ (awaits.next falls) fun _ => by omega,awaits.ends⟩
    refine ⟨fun loops entered => known _ _ (here.begins loops entered) fun alive => (unlabelled alive).loops frame listed loops,
      fun kind => ?_,fun j own => arrives (here.own j own),here.whole⟩
    obtain ⟨condJump,jumps,all,test⟩ := here.test kind
    exact ⟨condJump,jumps,all,fun lacks => arrives (test lacks)⟩

end Refold

end FunctionBuilder

-- What an operator of the tables declares is what its instruction does.
def Operator.Agrees (E : Effects) : Operator → Prop
  | .row inputs outputs i _ => E.Has i inputs outputs
  | .effect inputs outputs => ∀ size, inputs.count size = outputs.count size
  | _ => True

namespace FunctionBuilder

-- What validation finds besides: the values of a frame are all there is of it at
-- its end, and a tail call gives what its caller is to give.
structure Validated (b : FunctionBuilder) (results : List OperandSize) (op : Operator) : Prop extends b.Admitted op where
  returns : op = .return_ → b.isUnreachable = false → ∃ lower, b.operandStack = lower ++ results
  whole {frame : ControlFrame} {outer : List ControlFrame} : op = .else_ ∨ op = .end_ → b.controlStack = frame :: outer →
    b.isUnreachable = false → b.operandStack = b.operandStack.take frame.height ++ frame.results
  single {frame : ControlFrame} {outer : List ControlFrame} : op = .else_ → b.controlStack = frame :: outer → frame.hasElse = false
  bare {frame : ControlFrame} {outer : List ControlFrame} : op = .end_ → b.controlStack = frame :: outer → frame.kind = .if_ →
    frame.hasElse = false → frame.params = frame.results
  tail {func : FuncAddr} {signature : Signature} : op = .returnCall func → b.metadata.functionSignature func = .ok signature →
    signature.results = results
  tailIndirect {type : TypeAddr} {table : TableAddr} {signature : Signature} : op = .returnCallIndirect type table →
    b.metadata.signature type = .ok signature → signature.results = results

-- A local.tee is folded only where control comes from the local.get alone.
def FoldsInline (b : FunctionBuilder) (op : Operator) : Prop :=
  b.isUnreachable = false → b.remaining op ≠ b.instructions.length → b.Unlabelled

variable {E : Effects} {results : List OperandSize} {b b' : FunctionBuilder} {levels levels' : List (Option ValueCounts)} {op : Operator}

-- The levels once an operator is visited: those of live instructions stay, and
-- the first that it adds is the builder's.
structure Rose (b : FunctionBuilder) (op : Operator) (levels levels' : List (Option ValueCounts)) : Prop where
  kept (ip : Nat) (c : ValueCounts) : levels[ip]? = some (some c) → levels'[ip]? = some (some c)
  first : b.remaining op = b.instructions.length → ∀ l, levels'[levels.length]? = some l → l = b.level

theorem Rises.rose (rises : Rises b.level levels levels') : b.Rose op levels levels' := by
  refine ⟨fun ip c lives => ?_,fun _ => rises.first⟩
  obtain ⟨added,rfl⟩ := rises.kept
  rw [List.getElem?_append_left (List.getElem?_eq_some_iff.mp lives).1]
  exact lives

theorem Lifts.same {b₁ : FunctionBuilder} (lifts : b.Lifts E results levels b₁) (metadata : b'.metadata = b₁.metadata)
    (code : b'.instructions = b₁.instructions) (table : b'.data.branchTableTargets = b₁.data.branchTableTargets)
    (control : b'.controlStack = b₁.controlStack) (counts : b'.laneCounts = b₁.laneCounts) : b.Lifts E results levels b' := by
  obtain ⟨levels',rises,levelled⟩ := lifts
  refine ⟨levels',rises,?_⟩
  have level : b'.level = b₁.level := by rw [level,level,isUnreachable_eq,isUnreachable_eq,control,counts]
  have opens : b'.Opens = b₁.Opens := by
    funext k
    rw [Opens,Opens,control]
  unfold Levelled
  rw [level,opens]
  exact Levelling.same levelled metadata code table control

theorem visitLocalTee_levelled {idx : Nat} (levelled : b.Levelled E results levels) (kept : b.Bookkept)
    (room : ∀ size addr, b.builderLocal idx = .ok (size,addr) → b.isUnreachable = false →
      ∃ lower, b.operandStack = lower ++ [size] ∧ b.frameHeight ≤ lower.length)
    (inline : b.FoldsInline (.localTee idx)) (ran : b.visitLocalTee idx = .ok b') :
    ∃ levels', b.Rose (.localTee idx) levels levels' ∧ b'.Levelled E results levels' := by
  obtain ⟨⟨size,addr⟩,named,ran⟩ := except_bind_ok ran
  obtain ⟨applied,effect,ran⟩ := except_bind_ok ran
  have held {c : ValueCounts} (known : b.level = some c) : 1 ≤ c size ∧ applied.level = some c := by
    obtain ⟨taken,given⟩ := applyEffect_level kept (room size addr named) effect known
    have one := taken size
    rw [List.count_singleton_self] at one
    refine ⟨one,given.trans (congrArg some (funext fun other => ?_))⟩
    by_cases own : size = other
    · subst own
      simp only [List.count_singleton_self]
      omega
    · simp [own]
  have levelling := levelled.applyEffect effect
  have dead := applyEffect_isUnreachable effect
  obtain ⟨operands,counts,rfl⟩ := applyEffect_parts effect
  have same : (b.withOperands operands counts).level = b.level := by
    cases known : b.level with
    | some c => exact (held known).2
    | none =>
      cases live : b.isUnreachable with
      | true => exact level_dead live
      | false => rw [level_live live] at known; cases known
  split at ran
  · rename_i src folds
    cases ran
    have code : b.instructions = b.instructions.dropLast ++ [.localGet size src] := foldableGet_some folds
    have shorter : b.remaining (.localTee idx) = b.instructions.dropLast.length := by
      simp only [remaining,named]
      rw [if_pos (by rw [show b.foldableGet size = some src from folds]; rfl),List.length_dropLast]
    have long : b.instructions.length = b.instructions.dropLast.length + 1 := by
      have length := congrArg List.length code
      rw [List.length_append] at length
      exact length
    have differs : b.remaining (.localTee idx) ≠ b.instructions.length := by omega
    have filled : ¬b.Opens b.instructions.dropLast.length := by
      intro opens
      obtain ⟨i,there,jumps⟩ := Levelling.opens_waits levelled opens
      have last := (congrArg (·[b.instructions.dropLast.length]?) code).trans List.getElem?_concat_length
      cases last.symm.trans there
      cases jumps
    refine ⟨_,⟨fun ip c lives => levelling.refold_kept code filled lives,fun whole => absurd whole differs⟩,?_⟩
    have folded := levelling.refold addr code filled (fun known => ?_) fun c known => (held known).1
    · unfold Levelled
      change Levelling _ _ _ _ (level (b.withOperands operands counts)) _
      rw [same]
      exact folded
    · obtain ⟨c,known⟩ := Option.isSome_iff_exists.mp known
      have free := inline ((level_some b).mp known).1 differs
      exact ⟨free.targets,free.entries,free.loops⟩
  · rename_i folds
    cases ran
    have whole : b.remaining (.localTee idx) = b.instructions.length := by
      simp only [remaining,named]
      rw [if_neg (by rw [show b.foldableGet size = none from folds]; simp)]
    refine ⟨levels ++ [b.level],Rises.rose (.once _ _),?_⟩
    have teed := levelling.described.localTee size addr
    have pushed := levelling.pushStraight (i := .localTee size addr) (fun c known => ?_)
      (fun c known => (?_ : b.level = some (E.after c (.localTee size addr)))) rfl
    · unfold Levelled
      change Levelling _ _ _ _ (level (b.withOperands operands counts)) _
      rw [same]
      exact pushed
    · exact (teed.room c).mpr (applyEffect_level kept (room size addr named) effect known).1
    · rw [teed.after,←(applyEffect_level kept (room size addr named) effect known).2,same]

-- The label of a branch that has taken its test off the stack.
theorem testedSite {popped : FunctionBuilder} {depth : Nat} {frame : ControlFrame} (kept : b.Bookkept) (admitted : b.Admitted op)
    (labelled : depth ∈ op.labels) (popping : b.popExpect .s32 = .ok popped) (tests : b.tested op = b.popExpect .s32)
    (live : popped.isUnreachable = false) (named : popped.controlStack[depth]? = some frame) (ran : b.visit op = .ok b') :
    ∃ lower, popped.BranchSite depth frame lower := by
  have alike : popped.isUnreachable = b.isUnreachable ∧ popped.controlStack = b.controlStack := by
    rcases popExpect_parts popping with ⟨_,rfl⟩ | ⟨_,_,_,rfl⟩ <;> exact ⟨rfl,rfl⟩
  obtain ⟨tested,lower,same,_,site⟩ := branchSite kept admitted (alike.1.symm.trans live) labelled (alike.2 ▸ named) ran
  cases (tests.trans popping).symm.trans same
  exact ⟨lower,site⟩

theorem visit_levelled (levelled : b.Levelled E results levels) (kept : b.Bookkept) (agrees : op.Agrees E)
    (validated : b.Validated results op) (inline : b.FoldsInline op) (ran : b.visit op = .ok b') :
    ∃ levels', b.Rose op levels levels' ∧ b'.Levelled E results levels' := by
  have lifts (lifts : b.Lifts E results levels b') : ∃ levels', b.Rose op levels levels' ∧ b'.Levelled E results levels' := by
    obtain ⟨levels',rises,levelled'⟩ := lifts
    exact ⟨levels',Rises.rose rises,levelled'⟩
  have described := levelled.described
  have room {inputs : List OperandSize} (taken : b.inputs op = .ok inputs) (live : b.isUnreachable = false) :=
    validated.inputs live taken
  cases op with
  | row inputs outputs i continues =>
    exact lifts (levelled.emit kept (room rfl) ran agrees (Instruction.continues_plain continues))
  | effect inputs outputs =>
    refine ⟨levels,Rises.rose (.refl _ _),?_⟩
    have opens : b'.Opens = b.Opens := by
      obtain ⟨_,_,rfl⟩ := applyEffect_parts ran
      rfl
    unfold Levelled
    rw [opens]
    refine (levelled.applyEffect ran).raise fun c known => ?_
    obtain ⟨taken,given⟩ := applyEffect_level kept (room rfl) ran known
    rw [given]
    refine congrArg some (funext fun size => ?_)
    have one := taken size
    have two := agrees size
    omega
  | v128Const value =>
    obtain ⟨b₁,emitted,ran⟩ := except_bind_ok ran
    cases ran
    exact lifts ((levelled.emit kept (room rfl) emitted (described.const128 _) rfl).same rfl rfl rfl rfl rfl)
  | i8x16Shuffle lanes =>
    obtain ⟨b₁,emitted,ran⟩ := except_bind_ok ran
    cases ran
    exact lifts ((levelled.emit kept (room rfl) emitted (described.i8x16Shuffle _) rfl).same rfl rfl rfl rfl rfl)
  | unreachable =>
    cases ran
    have none : b.applyEffect [] [] = .ok b := rfl
    exact lifts (levelled.terminates none (fun c _ => (described.unreachable.idle c).1) rfl rfl)
  | return_ =>
    cases ran
    have none : b.applyEffect [] [] = .ok b := rfl
    refine lifts (levelled.terminates none (fun c known => (described.return_.room c).mpr fun size => ?_) rfl rfl)
    obtain ⟨live,rfl⟩ := (level_some b).mp known
    obtain ⟨lower,operands⟩ := validated.returns rfl live
    rw [kept.counts operands]
    simp only [List.count_append]
    exact Nat.le_add_left _ _
  | call functionIndex =>
    obtain ⟨signature,named,ran⟩ := except_bind_ok ran
    exact lifts (levelled.emit kept (room (by rw [inputs,named]; rfl)) ran (described.call named) rfl)
  | callIndirect typeIndex tableIndex =>
    obtain ⟨signature,named,ran⟩ := except_bind_ok ran
    obtain ⟨index,sized,ran⟩ := except_bind_ok ran
    exact lifts (levelled.emit kept (room (by rw [inputs,named,sized]; rfl)) ran (described.callIndirect named sized) rfl)
  | returnCall functionIndex =>
    obtain ⟨signature,named,ran⟩ := except_bind_ok ran
    obtain ⟨applied,effect,ran⟩ := except_bind_ok ran
    cases ran
    have has := described.returnCall named (validated.tail rfl named)
    refine lifts (levelled.terminates effect (fun c known => (has.room c).mpr ?_) rfl rfl)
    exact (applyEffect_level kept (room (by rw [inputs,named]; rfl)) effect known).1
  | returnCallIndirect typeIndex tableIndex =>
    obtain ⟨signature,named,ran⟩ := except_bind_ok ran
    obtain ⟨index,sized,ran⟩ := except_bind_ok ran
    obtain ⟨applied,effect,ran⟩ := except_bind_ok ran
    cases ran
    have has := described.returnCallIndirect named (validated.tailIndirect rfl named) sized
    refine lifts (levelled.terminates effect (fun c known => (has.room c).mpr ?_) rfl rfl)
    exact (applyEffect_level kept (room (by rw [inputs,named,sized]; rfl)) effect known).1
  | globalSet globalIndex =>
    obtain ⟨size,named,ran⟩ := except_bind_ok ran
    exact lifts (levelled.emit kept (room (by rw [inputs,named]; rfl)) ran (described.globalSet named) rfl)
  | drop => exact lifts (levelled.emit kept (room rfl) ran (described.drop _) rfl)
  | select => exact lifts (levelled.emit kept (room rfl) ran (described.select _) rfl)
  | localGet idx =>
    obtain ⟨⟨size,addr⟩,named,ran⟩ := except_bind_ok ran
    exact lifts (levelled.emit kept kept.free ran (described.localGet size addr) rfl)
  | localSet idx =>
    obtain ⟨⟨size,addr⟩,named,ran⟩ := except_bind_ok ran
    exact lifts (levelled.emit kept (room (by rw [inputs,named]; rfl)) ran (described.localSet size addr) rfl)
  | localTee idx =>
    exact visitLocalTee_levelled levelled kept (fun size addr named => room (by rw [inputs,named]; rfl)) inline ran
  | block ty =>
    have ran : b.pushControl .block ty none = .ok b' := ran
    refine lifts ⟨levels,.refl _ _,Levelled.pushControl levelled kept (by decide) (fun live signature named => ?_)
      (fun _ own => by cases own) (fun same => by cases same) (fun _ => rfl) (fun _ => .inl) ran⟩
    exact room (by rw [inputs,named]; rfl) live
  | loop ty =>
    have ran : b.pushControl .loop ty none = .ok b' := ran
    refine lifts ⟨levels,.refl _ _,Levelled.pushControl levelled kept (by decide) (fun live signature named => ?_)
      (fun _ own => by cases own) (fun same => by cases same) (fun _ => rfl) (fun _ => .inl) ran⟩
    exact room (by rw [inputs,named]; rfl) live
  | if_ ty =>
    exact lifts (visitIf_levelled levelled kept (fun live signature named => room (by rw [inputs,named]; rfl) live) ran)
  | else_ =>
    exact lifts (visitElse_levelled levelled kept (fun frame outer control =>
      ⟨validated.single rfl control,validated.whole (.inl rfl) control⟩) ran)
  | end_ =>
    exact lifts (visitEnd_levelled levelled kept (fun frame outer control =>
      ⟨validated.bare rfl control,validated.whole (.inr rfl) control⟩) ran)
  | br depth =>
    refine lifts (visitBr_levelled levelled (fun live frame named => ?_) ran)
    obtain ⟨tested,lower,same,_,site⟩ := branchSite kept validated.toAdmitted live (List.mem_singleton_self depth) named ran
    cases same
    exact ⟨lower,site⟩
  | brIf depth =>
    refine lifts (visitBrIf_levelled levelled kept (room rfl) (fun popped tested live frame named => ?_) ran)
    exact testedSite kept validated.toAdmitted (List.mem_singleton_self depth) tested rfl live named ran
  | brTable targetDepths defaultDepth =>
    refine lifts (visitBrTable_levelled levelled kept (room rfl) (fun popped tested live depth listed frame named => ?_) ran)
    exact testedSite kept validated.toAdmitted listed tested rfl live named ran

-- Where a live operator that is not folded starts, and how high the lanes are there.
def entry (b : FunctionBuilder) (op : Operator) (b' : FunctionBuilder) : List (Nat × ValueCounts) :=
  if b.isUnreachable = false ∧ b.remaining op = b.instructions.length ∧ b.instructions.length < b'.instructions.length then
    [(b.instructions.length,b.laneCounts)]
  else []

-- The operators of a validated body, and the entries of those visited so far. What
-- is asked of an operator by itself is that it be one of the tables.
inductive Translated (tabled : Operator → Prop) (results : List OperandSize) (start : FunctionBuilder) :
    FunctionBuilder → List (Nat × ValueCounts) → Prop where
  | start : Translated tabled results start start []
  | visit {b b' : FunctionBuilder} {entries : List (Nat × ValueCounts)} {op : Operator} : Translated tabled results start b entries →
      tabled op → b.Validated results op → b.FoldsInline op → b.visit op = .ok b' →
        Translated tabled results start b' (entries ++ b.entry op b')

theorem Rose.enters (rose : b.Rose op levels levels') (before : levels.length = b.instructions.length)
    (after : levels'.length = b'.instructions.length) : ∀ p ∈ b.entry op b', levels'[p.1]? = some (some p.2) := by
  intro p listed
  unfold entry at listed
  split at listed
  · rename_i starts
    obtain rfl := List.mem_singleton.mp listed
    obtain ⟨live,whole,grows⟩ := starts
    have within : b.instructions.length < levels'.length := by rw [after]; exact grows
    have there := List.getElem?_eq_getElem within
    have first := rose.first whole _ (by rw [before]; exact there)
    rw [first,level_live live] at there
    exact there
  · cases listed

theorem Translated.levelled {start : FunctionBuilder} {entries : List (Nat × ValueCounts)} {tabled : Operator → Prop}
    (translated : Translated tabled results start b entries) (agrees : ∀ op, tabled op → op.Agrees E) (kept : start.Bookkept)
    (levelled : start.Levelled E results []) :
    b.Bookkept ∧ ∃ levels, b.Levelled E results levels ∧ ∀ p ∈ entries, levels[p.1]? = some (some p.2) := by
  induction translated with
  | start => exact ⟨kept,[],levelled,nofun⟩
  | visit _ tabled validated inline ran ih =>
    obtain ⟨kept,levels,levelled,entered⟩ := ih
    obtain ⟨levels',rose,levelled'⟩ := visit_levelled levelled kept (agrees _ tabled) validated inline ran
    refine ⟨visit_bookkept kept validated.toAdmitted ran,levels',levelled',fun p listed => ?_⟩
    rcases List.mem_append.mp listed with old | new
    · exact rose.kept _ _ (entered p old)
    · exact rose.enters levelled.code.length levelled'.code.length p new

theorem new_levelled {metadata : ModuleMetadata} {signature : Signature} {localTypes : List OperandSize}
    {localAddrMap : List LocalAddr} (described : E.Describes metadata signature.results) :
    (new metadata signature localTypes localAddrMap).Levelled E signature.results [] := by
  refine ⟨described,⟨rfl,.inr ⟨rfl,rfl⟩,fun _ _ _ lives => by cases lives⟩,fun frame listed => ?_,
    ⟨fun entered => (by cases entered),fun _ => rfl,fun other => absurd rfl other,trivial⟩⟩
  obtain rfl := List.mem_singleton.mp listed
  exact ⟨fun loops => (by cases loops),fun tests => (by cases tests),fun _ own => (by cases own),fun _ => ⟨rfl,rfl,rfl⟩⟩

-- In the code of a whole body each live instruction has its operands, whichever way
-- control comes to it, and the lanes are as high as the builder counted them.
theorem Translated.whole {metadata : ModuleMetadata} {signature : Signature} {localTypes : List OperandSize}
    {localAddrMap : List LocalAddr} {entries : List (Nat × ValueCounts)} {tabled : Operator → Prop}
    (described : E.Describes metadata signature.results) (agrees : ∀ op, tabled op → op.Agrees E)
    (translated : Translated tabled signature.results (new metadata signature localTypes localAddrMap) b entries)
    (ended : b.controlStack = []) : ∃ levels, LevelCode E b.instructions b.data.branchTableTargets levels none (fun _ => False) ∧
      ∀ p ∈ entries, levels[p.1]? = some (some p.2) := by
  obtain ⟨_,levels,levelled,entered⟩ := translated.levelled agrees (new_bookkept _ _ _ _) (new_levelled described)
  have dead : b.isUnreachable = true := by rw [isUnreachable_eq,ended]; rfl
  refine ⟨levels,?_,entered⟩
  have code := levelled.code
  rw [level_dead dead] at code
  refine code.open_ fun k opens => ?_
  obtain ⟨frame,listed,_⟩ := opens
  rw [ended] at listed
  cases listed

end FunctionBuilder

end TinyWasm
