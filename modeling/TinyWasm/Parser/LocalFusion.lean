import TinyWasm.Parser.LocalFold
import TinyWasm.Interpreter.MemoryWindow

namespace TinyWasm

theorem Lane.instr_get (size : OperandSize) (a : LocalAddr) : (Lane.of size).instr (.get a) = .localGet size a := by
  cases size <;> rfl

theorem Lane.instr_set (size : OperandSize) (a : LocalAddr) : (Lane.of size).instr (.set a) = .localSet size a := by
  cases size <;> rfl

theorem Lane.instr_tee (size : OperandSize) (a : LocalAddr) : (Lane.of size).instr (.tee a) = .localTee size a := by
  cases size <;> rfl

section Arms
variable [Allocator] [Numerics] {ctx : Context} {K : Shape} {below : StackBase} {ts : List OperandSize} {size : OperandSize}
  {dst : LocalAddr} {block : Block} {made : Rewrite} {f : Form (Lane.of size).Op (Lane.of size).Imm}

omit [Allocator] [Numerics] in
theorem Lane.indices_small (named : ∀ a ∈ ((Lane.of size).instr f).locals K ctx.module, a.2 < ctx.cf.stackOffset a.1)
    {a : LocalAddr} (member : a ∈ f.indices) : a < ctx.cf.stackOffset size := by
  rw [instr_locals] at named
  exact named (size,a) (List.mem_map_of_mem member)

theorem execWindow_two (i j : Instruction) :
    execWindow ctx [i,j] = (execStraight ctx i >>= fun _ => execStraight ctx j) := by
  simp only [execWindow_cons,execWindow_nil,Exec.bind_unit]

-- A form and the instruction after it, for which another form stands.
theorem lane_window {g : Form (Lane.of size).Op (Lane.of size).Imm} {i : Instruction}
    (covers : Covers ctx.cf K below ts (laneExec ctx size f >>= fun _ => execStraight ctx i) (laneExec ctx size g)) :
    Covers ctx.cf K below ts (execWindow ctx [(Lane.of size).instr f,i]) (execWindow ctx [(Lane.of size).instr g]) := by
  rw [execWindow_two,execWindow_one,exec_instr,exec_instr]
  exact covers

omit [Allocator] [Numerics] in
-- The locals of a form and of the instruction after it.
theorem two_small {i : Instruction} (index : i.locals K ctx.module = [(size,dst)])
    (named : ∀ j ∈ [(Lane.of size).instr f,i], ∀ a ∈ j.locals K ctx.module, a.2 < ctx.cf.stackOffset a.1) :
    (∀ a ∈ f.indices, a < ctx.cf.stackOffset size) ∧ dst < ctx.cf.stackOffset size := by
  simp only [List.forall_mem_cons,List.not_mem_nil,false_implies,implies_true,and_true,index] at named
  exact ⟨fun a member => Lane.indices_small named.1 member,named.2⟩

theorem localSetDirect_preserves (matched : (Lane.of size).rewriteLocalSetDirect dst block = some made) :
    Preserves ctx K (made.window block (.localSet size dst)) made.out := by
  cases block with
  | nil => cases matched
  | cons last rest =>
    dsimp only [Lane.rewriteLocalSetDirect] at matched
    intro below ts typed named
    split at matched
    case h_1 src seen =>
      obtain rfl := Lane.form_instr seen
      split at matched
      · cases matched
        obtain ⟨small,smalld⟩ := two_small rfl named
        exact lane_window (push_set (.localGet (small src (.head _))) smalld)
      · rename_i same
        obtain rfl : src = dst := of_not_not same
        cases matched
        obtain ⟨small,smalld⟩ := two_small rfl named
        refine (lane_window (g := .copy src src) (push_set (.localGet smalld) smalld)).to_same fun m stands => ?_
        have inside := stands.inside smalld
        simp only [execWindow_one,exec_instr,laneExec,setValue,Exec.bind_run,Machine.localGet_inside inside,
          Machine.localSet_inside inside,Machine.withLocal_localAt inside,execWindow_nil,Exec.pure_run]
    case h_2 c seen =>
      obtain rfl := Lane.form_instr seen
      cases matched
      obtain ⟨_,smalld⟩ := two_small rfl named
      exact lane_window (push_set (laneImm_reads c) smalld)
    case h_3 op a b seen =>
      obtain rfl := Lane.form_instr seen
      cases matched
      obtain ⟨small,smalld⟩ := two_small rfl named
      have reads := Reads.localLocal (K := K) (f := laneEval size op) (small a (.head _)) (small b (.tail _ (.head _)))
      exact lane_window (push_set reads smalld)
    case h_4 op src c seen =>
      obtain rfl := Lane.form_instr seen
      cases matched
      obtain ⟨small,smalld⟩ := two_small rfl named
      rw [Rewrite.window,execWindow_one,exec_constSet]
      change Covers _ _ _ _ (execWindow ctx [_,_]) _
      rw [execWindow_two,exec_instr]
      exact push_set (laneConst_reads c (small src (.head _))) smalld
    case h_5 => cases matched

theorem localTeeDirect_preserves (matched : (Lane.of size).rewriteLocalTeeDirect dst block = some made) :
    Preserves ctx K (made.window block (.localTee size dst)) made.out := by
  cases block with
  | nil => cases matched
  | cons last rest =>
    dsimp only [Lane.rewriteLocalTeeDirect] at matched
    intro below ts typed named
    split at matched
    case h_1 src seen =>
      obtain rfl := Lane.form_instr seen
      split at matched
      · rename_i same
        subst same
        cases matched
        obtain ⟨_,smalld⟩ := two_small rfl named
        refine lane_window ((push_tee (.localGet smalld) smalld).to_same fun m stands => ?_)
        have inside := stands.inside smalld
        simp only [laneExec,pushValue,teeValue,Exec.bind_run,Machine.localGet_inside inside,Machine.localSet_inside inside,
          Machine.withLocal_localAt inside]
      · cases matched
    case h_2 op a b seen =>
      obtain rfl := Lane.form_instr seen
      cases matched
      obtain ⟨small,smalld⟩ := two_small rfl named
      have reads := Reads.localLocal (K := K) (f := laneEval size op) (small a (.head _)) (small b (.tail _ (.head _)))
      exact lane_window (push_tee reads smalld)
    case h_3 op src c seen =>
      obtain rfl := Lane.form_instr seen
      cases matched
      obtain ⟨small,smalld⟩ := two_small rfl named
      exact lane_window (push_tee (laneConst_reads c (small src (.head _))) smalld)
    case h_4 => cases matched

theorem dropTeeDirect_preserves (matched : (Lane.of size).rewriteDropTeeDirect block = some made) :
    Preserves ctx K (made.window block (.drop size)) made.out := by
  cases block with
  | nil => cases matched
  | cons last rest =>
    dsimp only [Lane.rewriteDropTeeDirect] at matched
    intro below ts typed named
    split at matched
    case h_1 a seen =>
      obtain rfl := Lane.form_instr seen
      cases matched
      have small := Lane.indices_small (named _ (List.mem_cons_self ..)) (.head _)
      obtain ⟨rest,rfl,_⟩ := typeWindow_cons typed
      rw [instr_operands]
      exact lane_window (localTee_drop small)
    case h_2 op a b dst seen =>
      obtain rfl := Lane.form_instr seen
      cases matched
      have small {a} := Lane.indices_small (named _ (List.mem_cons_self ..)) (a := a)
      have reads := Reads.localLocal (K := K) (f := laneEval size op) (small (.head _)) (small (.tail _ (.head _)))
      exact lane_window (tee_drop reads (small (.tail _ (.tail _ (.head _)))))
    case h_3 op src c dst seen =>
      obtain rfl := Lane.form_instr seen
      cases matched
      have small {a} := Lane.indices_small (named _ (List.mem_cons_self ..)) (a := a)
      exact lane_window (tee_drop (laneConst_reads c (small (.head _))) (small (.tail _ (.head _))))
    case h_4 => cases matched

theorem localGet_preserves (matched : (Lane.of size).rewriteLocalGet dst block = some made) :
    Preserves ctx K (made.window block (.localGet size dst)) made.out := by
  cases block with
  | nil => cases matched
  | cons last rest =>
    dsimp only [Lane.rewriteLocalGet] at matched
    intro below ts typed named
    split at matched
    case h_1 src seen =>
      obtain rfl := Lane.form_instr seen
      split at matched
      · rename_i same
        subst same
        cases matched
        have small := Lane.indices_small (named _ (List.mem_cons_self ..)) (.head _)
        obtain ⟨rest,rfl,_⟩ := typeWindow_cons typed
        rw [instr_operands]
        exact lane_window (set_get small)
      · cases matched
    case h_2 => cases matched

-- A product added to a local.
theorem binary_acc {width : ScalarSize} {mul add : BinOp} {acc : LocalAddr} (small : acc < ctx.cf.stackOffset width.size) :
    Covers ctx.cf K below (width.size :: width.size :: ts)
      (do
        execBinary width.size (mul.eval width)
        pushValue width.size (Machine.localGet ctx.cf width.size acc)
        execBinary width.size (add.eval width)
        setValue ctx.cf width.size acc (Machine.pop width.size))
      (execBinopAccLocal ctx.cf width mul add acc) := by
  intro m stands
  obtain ⟨m₁,b,rfl,stands₁,_⟩ := stands.cons
  obtain ⟨m₀,a,rfl,stands₀,room⟩ := stands₁.cons
  have above := stands₀.onTop room (mul.eval width a b)
  have got := Machine.localGet_inside (above.inside small)
  rw [Machine.localAt_onTop (stands₀.inside small)] at got
  simp only [pushValue,Exec.bind_run,execBinary_onTop room,got]
  rcases push_cases above (m₀.localAt ctx.cf width.size acc) with full | ⟨_,pushed⟩
  · exact .inl ⟨m₀.onTop width.size (mul.eval width a b),by simp only [full]⟩
  · refine .inr (.inl ?_)
    simp only [pushed,execBinary_onTop room,setPop_onTop stands₀ small,execBinopAccLocal,Machine.localUpdate,Exec.bind_run,
      Machine.pop_onTop,Machine.localGet_inside (stands₀.inside small),Machine.localSet_inside (stands₀.inside small)]

omit [Allocator] in
theorem intBinOp_operands (width : ScalarSize) (op : IntBinary) :
    (Instruction.int (.binary width op)).operands K ctx.module = [width.size,width.size] := by
  cases op <;> rfl

omit [Allocator] in
theorem floatBinOp_operands (width : ScalarSize) (op : FloatBinary) :
    (Instruction.float (.binary width op)).operands K ctx.module = [width.size,width.size] := by
  cases op <;> rfl

theorem exec_intBinOp {width : ScalarSize} {o : IntBinary} {op : BinOp} (named : intBinOp (.int (.binary width o)) = some op) :
    execStraight ctx (.int (.binary width o)) = execBinary width.size (op.eval width) := by
  cases o <;> cases named <;> rfl

theorem exec_floatBinOp {width : ScalarSize} {o : FloatBinary} {op : BinOp}
    (named : floatBinOp (.float (.binary width o)) = some op) :
    execStraight ctx (.float (.binary width o)) = execBinary width.size (op.eval width) := by
  cases o <;> cases named <;> rfl

theorem mulAcc_preserves {width : ScalarSize} (matched : rewriteMulAcc width dst block = some made) :
    Preserves ctx K (made.window block (.localSet width.size dst)) made.out := by
  unfold rewriteMulAcc at matched
  intro below ts typed named
  have small : dst < ctx.cf.stackOffset width.size :=
    named (.localSet width.size dst) (by simp [Rewrite.window]) (width.size,dst) (.head _)
  split at matched
  case h_1 w₂ size acc w₁ rest =>
    split at matched
    · rename_i same
      obtain ⟨rfl,rfl,rfl,rfl⟩ := same
      cases matched
      obtain ⟨us,rfl,_⟩ := typeWindow_cons typed
      rw [intBinOp_operands]
      refine (binary_acc small).congr ?_ (execWindow_one _)
      change execWindow ctx [.int (.binary w₂ .mul),.localGet w₂.size acc,.int (.binary w₂ .add),.localSet w₂.size acc] = _
      have product : execStraight ctx (.int (.binary w₂ .mul)) = execBinary w₂.size (BinOp.iMul.eval w₂) := exec_intBinOp rfl
      have sum : execStraight ctx (.int (.binary w₂ .add)) = execBinary w₂.size (BinOp.iAdd.eval w₂) := exec_intBinOp rfl
      simp only [execWindow_cons,execWindow_nil,Exec.bind_unit,product,sum]
      rfl
    · cases matched
  case h_2 w₂ size acc w₁ rest =>
    split at matched
    · rename_i same
      obtain ⟨rfl,rfl,rfl,rfl⟩ := same
      cases matched
      obtain ⟨us,rfl,_⟩ := typeWindow_cons typed
      rw [floatBinOp_operands]
      refine (binary_acc small).congr ?_ (execWindow_one _)
      change execWindow ctx [.float (.binary w₂ .mul),.localGet w₂.size acc,.float (.binary w₂ .add),.localSet w₂.size acc] = _
      have product : execStraight ctx (.float (.binary w₂ .mul)) = execBinary w₂.size (BinOp.fMul.eval w₂) :=
        exec_floatBinOp rfl
      have sum : execStraight ctx (.float (.binary w₂ .add)) = execBinary w₂.size (BinOp.fAdd.eval w₂) := exec_floatBinOp rfl
      simp only [execWindow_cons,execWindow_nil,Exec.bind_unit,product,sum]
      rfl
    · cases matched
  case h_3 => cases matched

-- A constant for the second operand, and a local that keeps the result.
theorem const_tee {width : ScalarSize} {o : IntBinary} {op : BinOp} {fused : Instruction} (c : Value width.size)
    (typed : (typeWindow K ctx.module [.const width c,.int (.binary width o),.localTee width.size dst] ts).isSome)
    (named : intBinOp (.int (.binary width o)) = some op)
    (made : execStraight ctx fused = (do
      execUnary width.size (op.eval width · c)
      Machine.localTee ctx.cf width.size dst)) :
    Covers ctx.cf K below ts (execWindow ctx [.const width c,.int (.binary width o),.localTee width.size dst])
      (execWindow ctx [fused]) := by
  obtain ⟨us,rfl,typed⟩ := typeWindow_cons typed
  obtain ⟨vs,shown,_⟩ := typeWindow_cons typed
  rw [intBinOp_operands] at shown
  obtain rfl := (List.cons.inj shown).2
  refine ((push_binary (f := op.eval width) (.pure c)).seq (z := Machine.localTee ctx.cf width.size dst)).congr ?_
    ((execWindow_one _).trans made)
  simp only [execWindow_cons,execWindow_nil,Exec.bind_unit,exec_intBinOp named,Exec.bind_assoc]
  rfl

theorem constTee_preserves {width : ScalarSize} (matched : rewriteConstTee width dst block = some made) :
    Preserves ctx K (made.window block (.localTee width.size dst)) made.out := by
  unfold rewriteConstTee at matched
  intro below ts typed _
  split at matched
  case h_1 w₂ w₁ c rest =>
    split at matched
    · rename_i same
      obtain ⟨rfl,rfl⟩ := same
      cases matched
      exact const_tee _ typed rfl rfl
    · cases matched
  case h_2 w₂ w₁ c rest =>
    split at matched
    · rename_i same
      obtain ⟨rfl,rfl⟩ := same
      cases matched
      exact const_tee _ typed rfl rfl
    · cases matched
  case h_3 => cases matched

omit [Numerics] in
-- A load from the address in a local, and a local that takes what is loaded.
theorem load_set {op : LoadOp} {arg : MemoryArg} {addr : LocalAddr}
    (small : addr < ctx.cf.stackOffset (K.memorySize ctx.module arg.memAddr)) (smalld : dst < ctx.cf.stackOffset op.target) :
    Covers ctx.cf K below ts
      (execLoadLocal ctx op arg addr >>= fun _ => setValue ctx.cf op.target dst (Machine.pop op.target))
      (execLoadLocalSet ctx op arg addr dst) := push_set (.loadLocalValue small) smalld

omit [Numerics] in
theorem load_tee {op : LoadOp} {arg : MemoryArg} {addr : LocalAddr}
    (small : addr < ctx.cf.stackOffset (K.memorySize ctx.module arg.memAddr)) (smalld : dst < ctx.cf.stackOffset op.target) :
    Covers ctx.cf K below ts (execLoadLocal ctx op arg addr >>= fun _ => Machine.localTee ctx.cf op.target dst)
      (execLoadLocalTee ctx op arg addr dst) := push_tee (.loadLocalValue small) smalld

omit [Allocator] in
-- The address of a load lies on the lane of the memory's addresses.
theorem get_load_sized {addr : LocalAddr} {op : LoadOp} {arg : MemoryArg} {later : List Instruction}
    (typed : (typeWindow K ctx.module (.localGet size addr :: .load op arg :: later) ts).isSome) :
    K.memorySize ctx.module arg.memAddr = size := by
  obtain ⟨us,rfl,typed⟩ := typeWindow_cons typed
  obtain ⟨vs,shown,_⟩ := typeWindow_cons typed
  exact (List.cons.inj shown).1.symm

theorem get_load_set {addr : LocalAddr} {op : LoadOp} {arg : MemoryArg} {fused : Instruction}
    (typed : (typeWindow K ctx.module [.localGet size addr,.load op arg,.localSet op.target dst] ts).isSome)
    (small : addr < ctx.cf.stackOffset size) (smalld : dst < ctx.cf.stackOffset op.target)
    (made : execStraight ctx fused = execLoadLocalSet ctx op arg addr dst) :
    Covers ctx.cf K below ts (execWindow ctx [.localGet size addr,.load op arg,.localSet op.target dst])
      (execWindow ctx [fused]) := by
  have sized := get_load_sized typed
  refine ((get_load op sized small).seq.trans (load_set (sized ▸ small) smalld)).congr ?_ ((execWindow_one _).trans made)
  simp only [execWindow_cons,execWindow_nil,Exec.bind_unit,Exec.bind_assoc]
  rfl

theorem get_load_tee {addr : LocalAddr} {op : LoadOp} {arg : MemoryArg} {fused : Instruction}
    (typed : (typeWindow K ctx.module [.localGet size addr,.load op arg,.localTee op.target dst] ts).isSome)
    (small : addr < ctx.cf.stackOffset size) (smalld : dst < ctx.cf.stackOffset op.target)
    (made : execStraight ctx fused = execLoadLocalTee ctx op arg addr dst) :
    Covers ctx.cf K below ts (execWindow ctx [.localGet size addr,.load op arg,.localTee op.target dst])
      (execWindow ctx [fused]) := by
  have sized := get_load_sized typed
  refine ((get_load op sized small).seq.trans (load_tee (sized ▸ small) smalld)).congr ?_ ((execWindow_one _).trans made)
  simp only [execWindow_cons,execWindow_nil,Exec.bind_unit,Exec.bind_assoc]
  rfl

theorem loadSet_preserves (matched : rewriteLoadSet size dst block = some made) :
    Preserves ctx K (made.window block (.localSet size dst)) made.out := by
  unfold rewriteLoadSet at matched
  intro below ts typed named
  have smalld : dst < ctx.cf.stackOffset size :=
    named (.localSet size dst) (by simp [Rewrite.window]) (size,dst) (.head _)
  split at matched
  case h_1 op arg addr rest =>
    split at matched
    · cases matched
      have small := named (.loadLocal32 op arg addr) (List.mem_cons_self ..) _ (.head _)
      refine Covers.congr ?_ (execWindow_two _ _) (execWindow_one _)
      cases op <;> exact load_set small smalld
    · cases matched
  case h_2 arg addr rest =>
    split at matched
    · cases matched
      exact get_load_set typed (named (.localGet .s32 addr) (List.mem_cons_self ..) _ (.head _)) smalld rfl
    · cases matched
  case h_3 arg addr rest =>
    split at matched
    · cases matched
      exact get_load_set typed (named (.localGet .s32 addr) (List.mem_cons_self ..) _ (.head _)) smalld rfl
    · cases matched
  case h_4 => cases matched

theorem loadTee_preserves (matched : rewriteLoadTee size dst block = some made) :
    Preserves ctx K (made.window block (.localTee size dst)) made.out := by
  unfold rewriteLoadTee at matched
  intro below ts typed named
  have smalld : dst < ctx.cf.stackOffset size :=
    named (.localTee size dst) (by simp [Rewrite.window]) (size,dst) (.head _)
  split at matched
  case h_1 op arg addr rest =>
    split at matched
    · cases matched
      have small := named (.loadLocal32 op arg addr) (List.mem_cons_self ..) _ (.head _)
      refine Covers.congr ?_ (execWindow_two _ _) (execWindow_one _)
      cases op <;> exact load_tee small smalld
    · cases matched
  case h_5 => cases matched
  all_goals
    split at matched
    · cases matched
      exact get_load_tee typed (named (.localGet .s32 _) (List.mem_cons_self ..) _ (.head _)) smalld rfl
    · cases matched

end Arms

-- Where the fold takes the stack's top for one operand and finds the other
-- below it.
def KeepsOperands [Allocator] [Numerics] (ctx : Context) (block : Block) (i : Instruction) (m : Machine) : Prop :=
  ∀ size raw y lhs rest set x op dst, block = raw :: .localTee size y :: lhs :: rest →
    i = .localSet size dst ∨ i = .localTee size dst → (Lane.of size).resolveLocalSource lhs = some (set,x) → y ≠ x →
    (Lane.of size).op raw = some op → FoldKeeps ctx size (laneEval size op) lhs y dst m

section Fold
variable [Allocator] [Numerics] {ctx : Context} {K : Shape} {below : StackBase} {operands : List OperandSize}
  {size : OperandSize} {x y dst : LocalAddr} {block : Block} {made : Rewrite} {m : Machine} {raw lhs rhs last : Instruction}
  {set lset rset : Option Instruction} {op : (Lane.of size).Op} {localLocal : (Lane.of size).Op → LocalAddr → LocalAddr → Instruction}
  {localConst : LocalAddr → (Lane.of size).Op → (Lane.of size).Imm → Instruction} {rest : List Instruction}

omit [Allocator] [Numerics] in
theorem Lane.resolve_tee (size : OperandSize) (y : LocalAddr) :
    (Lane.of size).resolveLocalSource (.localTee size y) = some (some (.localSet size y),y) := by
  cases size <;> rfl

omit [Allocator] [Numerics] in
theorem Lane.resolve_const {c : (Lane.of size).Imm} (seen : (Lane.of size).form rhs = some (.const c)) :
    rhs ≠ .localTee size y := by
  rintro rfl
  cases size <;> cases seen

omit [Allocator] [Numerics] in
-- What a fold finds in its block.
theorem fold_parts (matched : (Lane.of size).foldLocalBinop localLocal localConst block = some made) :
    ∃ raw rhs lhs rest lset x op, block = raw :: rhs :: lhs :: rest ∧
      (Lane.of size).resolveLocalSource lhs = some (lset,x) ∧ (Lane.of size).op raw = some op ∧ made.consumed = 3 ∧
      ((∃ rset y, (Lane.of size).resolveLocalSource rhs = some (rset,y) ∧ (rset = none ∨ y ≠ x) ∧
          made.out = lset.toList ++ rset.toList ++ [localLocal op x y]) ∨
        ∃ c, (Lane.of size).form rhs = some (.const c) ∧ made.out = lset.toList ++ [localConst x op c]) := by
  unfold Lane.foldLocalBinop at matched
  split at matched
  case h_1 raw rhs lhs rest =>
    obtain ⟨⟨lset,x⟩,left,matched⟩ := Option.bind_eq_some_iff.mp matched
    obtain ⟨op,named,matched⟩ := Option.bind_eq_some_iff.mp matched
    split at matched
    case h_1 rset y right =>
      split at matched
      · rename_i apart
        cases matched
        exact ⟨raw,rhs,lhs,rest,lset,x,op,rfl,left,named,rfl,.inl ⟨rset,y,right,apart.imp_left Option.isNone_iff_eq_none.mp,rfl⟩⟩
      · cases matched
    case h_2 unresolved =>
      split at matched
      case h_1 c seen =>
        cases matched
        exact ⟨raw,rhs,lhs,rest,lset,x,op,rfl,left,named,rfl,.inr ⟨c,seen,rfl⟩⟩
      case h_2 => cases matched
  case h_2 => cases matched

omit [Allocator] [Numerics] in
-- And a fold is what it makes of a local that the stack's top is kept in.
theorem fold_tee_matches (left : (Lane.of size).resolveLocalSource lhs = some (lset,x)) (apart : y ≠ x)
    (named : (Lane.of size).op raw = some op) :
    ((Lane.of size).foldLocalBinop localLocal localConst (raw :: .localTee size y :: lhs :: rest)).isSome := by
  simp [Lane.foldLocalBinop,left,named,Lane.resolve_tee,apart]

-- The operator of a fold finds its two operands on the lane.
theorem fold_typed (results : lhs.results K ctx.module = [size]) (named : (Lane.of size).op raw = some op)
    {later : List Instruction} (typed : (typeWindow K ctx.module (lhs :: rhs :: raw :: later) operands).isSome)
    (shown : rhs.results K ctx.module = [size]) :
    ∃ us vs, operands = lhs.operands K ctx.module ++ us ∧ size :: us = rhs.operands K ctx.module ++ vs ∧
      execStraight ctx raw = execBinary size (laneEval size op) ∧ ∃ ws, vs = size :: ws := by
  obtain ⟨us,rfl,typed₁⟩ := typeWindow_cons typed
  obtain ⟨vs,first,typed₂⟩ := typeWindow_cons typed₁
  obtain ⟨ws,second,_⟩ := typeWindow_cons typed₂
  rw [results] at first
  rw [shown] at second
  obtain ⟨ran,taken,_⟩ : execStraight ctx raw = execBinary size (laneEval size op) ∧ _ := Lane.op_exec named ⟨ws,second.symm⟩
  rw [taken] at second
  exact ⟨us,vs,rfl,first,ran,ws,(List.cons.inj second).2⟩

theorem foldKeeps_settle {f : Value size → Value size → Value size} (within : m.Within) :
    FoldKeeps ctx size f lhs y dst m.settle ↔ FoldKeeps ctx size f lhs y dst m := by
  have settled : execStraight ctx lhs m.settle = settleEnd (execStraight ctx lhs m) :=
    (Machine.Settles.straight ctx lhs).run m within
  constructor
  · intro keeps m₁ under u a ran data
    refine keeps m₁.settle under u a ?_ data
    rw [settled,ran]
    rfl
  · intro keeps m₁ under u a ran data
    rw [settled] at ran
    rcases ended : execStraight ctx lhs m with abort | ⟨t | _,m₂⟩
    all_goals
      rw [ended] at ran
      cases ran
    exact keeps m₂ under u a ended data

section Last
variable (isLast : last = .localSet size dst ∨ last = .localTee size dst)
include isLast

omit [Allocator] [Numerics] in
theorem last_inj {size' : OperandSize} {dst' : LocalAddr} (same : last = .localSet size' dst' ∨ last = .localTee size' dst') :
    size' = size ∧ dst' = dst := by
  rcases isLast with rfl | rfl <;> rcases same with same | same <;> cases same <;> exact ⟨rfl,rfl⟩

theorem keepsOperands_other (other : ∀ y, rhs ≠ .localTee size y) : KeepsOperands ctx (raw :: rhs :: rest) last m := by
  intro size' raw' y lhs rest' set x op dst' shape same
  obtain ⟨rfl,_⟩ := last_inj isLast same
  exact absurd (List.cons.inj (List.cons.inj shape).2).1 (other y)

theorem keepsOperands_tee (left : (Lane.of size).resolveLocalSource lhs = some (lset,x)) (apart : y ≠ x)
    (named : (Lane.of size).op raw = some op) :
    KeepsOperands ctx (raw :: .localTee size y :: lhs :: rest) last m ↔ FoldKeeps ctx size (laneEval size op) lhs y dst m := by
  constructor
  · intro keeps
    exact keeps size raw y lhs rest lset x op dst rfl isLast left apart named
  · intro keeps size' raw' y' lhs' rest' set x' op' dst' shape same _ _ named'
    obtain ⟨rfl,rfl⟩ := last_inj isLast same
    cases shape
    cases named.symm.trans named'
    exact keeps

variable {fin : Step Unit} {out : Step (Value size) → Step Unit}

omit isLast in
-- A local kept by a tee is the operand that went into the fold first.
theorem fold_tee_iff (left : (Lane.of size).resolveLocalSource lhs = some (lset,x)) (apart : y ≠ x)
    (named : (Lane.of size).op raw = some op) (sink : Sink ctx size dst fin out) (ended : execStraight ctx last = fin)
    (smalld : dst < ctx.cf.stackOffset size) {fused : Instruction}
    (made : execStraight ctx fused = out (binopLocalLocal ctx.cf size (laneEval size op) x y))
    (ready : Ready ctx [lhs,.localTee size y,raw,last] operands below m)
    (fits : ¬Overflows (execWindow ctx [lhs,.localTee size y,raw,last] m)) :
    SameEnd below (execWindow ctx [lhs,.localTee size y,raw,last] m)
      (execWindow ctx (lset.toList ++ [.localSet size y] ++ [fused]) m) ↔ FoldKeeps ctx size (laneEval size op) lhs y dst m := by
  have locals := ready.locals
  simp only [List.forall_mem_cons] at locals
  obtain ⟨source,results,smallx⟩ := Lane.resolve_source left locals.1
  have smally : y < ctx.cf.stackOffset size := locals.2.1 (size,y) (.head _)
  obtain ⟨us,vs,shape,taken,operator,ws,rfl⟩ := fold_typed results named ready.typed rfl
  obtain rfl := (List.cons.inj taken).2
  have stands := ready.stands
  rw [shape] at stands
  rw [←sameEnd_settle,←ready.settled,←ready.settled,←foldKeeps_settle ready.within]
  refine fold_tee source smallx smally smalld apart operator sink ended made stands fun exceeds => fits ?_
  rw [ready.settled] at exceeds
  exact overflows_settle exceeds

theorem fold_iff (matched : (Lane.of size).foldLocalBinop localLocal localConst block = some made)
    (sink : Sink ctx size dst fin out) (ended : execStraight ctx last = fin) (smalld : dst < ctx.cf.stackOffset size)
    (ofLocals : ∀ op a b, execStraight ctx (localLocal op a b) = out (binopLocalLocal ctx.cf size (laneEval size op) a b))
    (ofConst : ∀ a op c, execStraight ctx (localConst a op c) = out (laneConst ctx size op a c))
    (ready : Ready ctx (made.window block last) operands below m)
    (fits : ¬Overflows (execWindow ctx (made.window block last) m)) :
    SameEnd below (execWindow ctx (made.window block last) m) (execWindow ctx made.out m) ↔
      KeepsOperands ctx block last m := by
  obtain ⟨raw,rhs,lhs,rest,lset,x,op,rfl,left,named,three,folded⟩ := fold_parts matched
  obtain ⟨consumed,made⟩ := made
  obtain rfl : consumed = 3 := three
  change Ready ctx [lhs,rhs,raw,last] operands below m at ready
  change ¬Overflows (execWindow ctx [lhs,rhs,raw,last] m) at fits
  change SameEnd below (execWindow ctx [lhs,rhs,raw,last] m) (execWindow ctx made m) ↔ _
  have locals := ready.locals
  simp only [List.forall_mem_cons] at locals
  obtain ⟨source,results,smallx⟩ := Lane.resolve_source left locals.1
  rcases folded with ⟨rset,y,right,apart,same⟩ | ⟨c,seen,same⟩
  · obtain rfl : made = _ := same
    obtain ⟨source',shown,smally⟩ := Lane.resolve_source right locals.2.1
    by_cases tee : rhs = .localTee size y
    · subst tee
      cases right.symm.trans (Lane.resolve_tee size y)
      have apart : y ≠ x := apart.resolve_left (by simp)
      rw [keepsOperands_tee isLast left apart named]
      exact fold_tee_iff left apart named sink ended smalld (ofLocals op x y) ready fits
    · obtain ⟨us,vs,rfl,_,operator,_⟩ := fold_typed results named ready.typed shown
      refine iff_of_true (Covers.windows ?_ ready fits) (keepsOperands_other isLast fun y' same => ?_)
      · exact fold_locals source source' smallx smally smalld tee apart operator sink ended (ofLocals op x y)
      · rw [same] at right
        cases right.symm.trans (Lane.resolve_tee size y')
        exact tee same
  · obtain rfl : made = _ := same
    obtain rfl := Lane.form_instr seen
    obtain ⟨us,vs,rfl,_,operator,_⟩ := fold_typed results named ready.typed instr_results
    refine iff_of_true (Covers.windows ?_ ready fits) (keepsOperands_other isLast fun y => Lane.resolve_const seen)
    exact fold_const source smallx smalld (laneImm_reads c) exec_instr operator sink ended (ofConst x op c)

end Last

end Fold

-- The instructions that move a value between the stack and a local, or off it.
def Instruction.isLocal : Instruction → Bool
  | .localGet _ _ | .localSet _ _ | .localTee _ _ | .drop _ => true
  | _ => false

section Fusion
variable [Allocator] [Numerics] {ctx : Context} {below : StackBase} {operands : List OperandSize} {size : OperandSize}
  {dst : LocalAddr} {block : Block} {made : Rewrite} {m : Machine} {i : Instruction}

omit [Allocator] [Numerics] in
-- What no fold takes has no tee to misplace.
theorem fold_none {localLocal : (Lane.of size).Op → LocalAddr → LocalAddr → Instruction}
    {localConst : LocalAddr → (Lane.of size).Op → (Lane.of size).Imm → Instruction}
    (missed : (Lane.of size).foldLocalBinop localLocal localConst block = none) {raw lhs : Instruction} {y x : LocalAddr}
    {rest : List Instruction} {set : Option Instruction} {op : (Lane.of size).Op}
    (shape : block = raw :: .localTee size y :: lhs :: rest) (left : (Lane.of size).resolveLocalSource lhs = some (set,x))
    (apart : y ≠ x) (named : (Lane.of size).op raw = some op) : False := by
  have folds : ((Lane.of size).foldLocalBinop localLocal localConst (raw :: .localTee size y :: lhs :: rest)).isSome :=
    fold_tee_matches left apart named
  rw [←shape,missed] at folds
  cases folds

theorem localSet_iff (matched : rewriteLocalSet size dst block = some made)
    (ready : Ready ctx (made.window block (.localSet size dst)) operands below m)
    (fits : ¬Overflows (execWindow ctx (made.window block (.localSet size dst)) m)) :
    SameEnd below (execWindow ctx (made.window block (.localSet size dst)) m) (execWindow ctx made.out m) ↔
      KeepsOperands ctx block (.localSet size dst) m := by
  have small : dst < ctx.cf.stackOffset size :=
    ready.locals (.localSet size dst) (by simp [Rewrite.window]) (size,dst) (.head _)
  rcases Option.or_eq_some_iff.mp matched with folded | ⟨missed,matched⟩
  · exact fold_iff (.inl rfl) folded .set rfl small (fun _ _ _ => exec_instr) (fun _ _ _ => exec_constSet _ _ _ _) ready fits
  · refine iff_of_true ?_ ?_
    · refine Preserves.windows ?_ ready fits
      rcases Option.or_eq_some_iff.mp matched with acc | ⟨_,matched⟩
      · obtain ⟨width,scalar,acc⟩ := Option.bind_eq_some_iff.mp acc
        cases size <;> cases scalar <;> exact mulAcc_preserves acc
      · rcases Option.or_eq_some_iff.mp matched with direct | ⟨_,load⟩
        · exact localSetDirect_preserves direct
        · exact loadSet_preserves load
    · intro size' raw y lhs rest set x op dst' shape same left apart named
      obtain ⟨rfl,_⟩ := last_inj (.inl rfl) same
      exact (fold_none missed shape left apart named).elim

theorem localTee_iff (matched : rewriteLocalTee size dst block = some made)
    (ready : Ready ctx (made.window block (.localTee size dst)) operands below m)
    (fits : ¬Overflows (execWindow ctx (made.window block (.localTee size dst)) m)) :
    SameEnd below (execWindow ctx (made.window block (.localTee size dst)) m) (execWindow ctx made.out m) ↔
      KeepsOperands ctx block (.localTee size dst) m := by
  have small : dst < ctx.cf.stackOffset size :=
    ready.locals (.localTee size dst) (by simp [Rewrite.window]) (size,dst) (.head _)
  rcases Option.or_eq_some_iff.mp matched with folded | ⟨missed,matched⟩
  · exact fold_iff (.inr rfl) folded .tee rfl small (fun _ _ _ => exec_instr) (fun _ _ _ => exec_instr) ready fits
  · refine iff_of_true ?_ ?_
    · refine Preserves.windows ?_ ready fits
      rcases Option.or_eq_some_iff.mp matched with direct | ⟨_,matched⟩
      · exact localTeeDirect_preserves direct
      · rcases Option.or_eq_some_iff.mp matched with const | ⟨_,load⟩
        · obtain ⟨width,scalar,const⟩ := Option.bind_eq_some_iff.mp const
          cases size <;> cases scalar <;> exact constTee_preserves const
        · exact loadTee_preserves load
    · intro size' raw y lhs rest set x op dst' shape same left apart named
      obtain ⟨rfl,_⟩ := last_inj (.inr rfl) same
      exact (fold_none missed shape left apart named).elim

-- A rewritten window leaves what the window leaves just where its fold keeps
-- the operands.
theorem local_fusion_iff (incoming : i.isLocal) (matched : fuse block i = some made)
    (ready : Ready ctx (made.window block i) operands below m) (fits : ¬Overflows (execWindow ctx (made.window block i) m)) :
    SameEnd below (execWindow ctx (made.window block i) m) (execWindow ctx made.out m) ↔ KeepsOperands ctx block i m := by
  cases i with
  | localSet size dst => exact localSet_iff matched ready fits
  | localTee size dst => exact localTee_iff matched ready fits
  | localGet size dst =>
    refine iff_of_true ((localGet_preserves matched).windows ready fits) ?_
    rintro _ _ _ _ _ _ _ _ _ _ (same | same) <;> cases same
  | drop size =>
    refine iff_of_true ((dropTeeDirect_preserves matched).windows ready fits) ?_
    rintro _ _ _ _ _ _ _ _ _ _ (same | same) <;> cases same
  | _ => cases incoming

end Fusion

-- A frame of i32 locals and the operands above them.
namespace WindowRun

def machine (locals operands : List (Value .s32)) : Machine :=
  ⟨⟨fun
    | .s32 => ⟨locals ++ operands,8,8,false⟩
    | _ => ⟨[],8,8,false⟩⟩,.empty⟩

def context (locals : Nat) : Context where
  cf := .new 0 (fun _ => 0) (.of locals 0 0)
  func := ⟨[],⟨[],[]⟩,fun _ => 0,fun _ => 0,fun _ => 0,⟨[],[]⟩⟩
  module := ⟨0,[],[],[],[],[],[],[],[]⟩
  config := ⟨fun _ => ⟨8,8,false⟩,⟨8,8,false⟩,.perInstruction,.vec,false⟩

def below (locals : Nat) : StackBase := .of locals 0 0

theorem ready [Numerics] {window : List Instruction} (locals operands : List (Value .s32))
    (typed : (typeWindow State.empty.shape (context locals.length).module window (operands.map fun _ => .s32)).isSome)
    (small : ∀ i ∈ window, ∀ a ∈ i.locals State.empty.shape (context locals.length).module,
      a.2 < (context locals.length).cf.stackOffset a.1) (few : locals.length + operands.length ≤ 8) :
    Ready (context locals.length) window (operands.map fun _ => .s32) (below locals.length) (machine locals operands) where
  typed := typed
  locals := small
  frame size := by cases size <;> simp [below,context,CallFrame.new,CallFrame.stackBase,LaneCounts.of]
  height size := by
    cases size <;> simp [below,machine,Machine.height,Stack.len,LaneCounts.of,List.map_const',List.count_replicate]
  within size := by cases size <;> simp [machine,Stack.len,few]

-- What is left on the lane of the locals.
def left : Checked (Except Trap Unit × Machine) → Option (List (Value .s32))
  | .ok (.ok (),m) => some (m.valueStack.lane .s32).data
  | _ => none

theorem left_same {below : StackBase} {end_ end' : Checked (Except Trap Unit × Machine)} (same : SameEnd below end_ end') :
    left end_ = left end' := by
  rcases end_ with abort | ⟨t | _,m⟩ <;> rcases end' with abort' | ⟨t' | _,m'⟩
  all_goals first | rfl | exact same.elim | exact congrArg some (same.lanes .s32)

-- local.get 0, local.tee 1, i32.add
def folded : Block := [.int (.binary .s32 .add),.localTee .s32 1,.localGet .s32 0]

theorem folded_ready [Numerics] (operand : Value .s32) :
    Ready (context 3) (folded.reverse ++ [.localSet .s32 2]) [.s32] (below 3) (machine [1,2,3] [operand]) :=
  ready [1,2,3] [operand] rfl (by decide) (by simp)

end WindowRun

open WindowRun in
theorem local_fusion_iff_copy :
    let _ := Allocator.unlimited
    let _ := Numerics.zeros
    SameEnd (below 2) (execWindow (context 2) [.localGet .s32 0,.localSet .s32 1] (machine [5,6] []))
      (execWindow (context 2) [.localCopy .s32 0 1] (machine [5,6] [])) := by
  let _ := Allocator.unlimited
  let _ := Numerics.zeros
  intro _ _
  have matched : fuse [.localGet .s32 0] (.localSet .s32 1) = some ⟨1,[.localCopy .s32 0 1]⟩ := rfl
  refine (local_fusion_iff rfl matched (ready [5,6] [] rfl (by decide) (by decide)) ?_).mpr ?_
  · rintro ⟨m,exceeds⟩
    cases exceeds
  · intro _ _ _ _ _ _ _ _ _ shape
    cases shape

open WindowRun in
-- The tee keeps the value of local 0 and leaves it on the stack, over the one
-- that the sum takes first. The fold keeps that one.
theorem tee_fold_keeps_lower_operand :
    let _ := Allocator.unlimited
    let _ := Numerics.zeros
    let window := folded.reverse ++ [.localSet .s32 2]
    let out := [.localSet .s32 1,.binOpLocalLocalSet .s32 .iAdd 0 1 2]
    fuse folded (.localSet .s32 2) = some ⟨3,out⟩ ∧ Ready (context 3) window [.s32] (below 3) (machine [1,2,3] [5]) ∧
      left (execWindow (context 3) window (machine [1,2,3] [5])) = some [1,1,6] ∧
      left (execWindow (context 3) out (machine [1,2,3] [5])) = some [1,5,6] ∧
      ¬SameEnd (below 3) (execWindow (context 3) window (machine [1,2,3] [5]))
        (execWindow (context 3) out (machine [1,2,3] [5])) := by
  let _ := Allocator.unlimited
  let _ := Numerics.zeros
  intro _ _ window out
  have first : left (execWindow (context 3) window (machine [1,2,3] [5])) = some [1,1,6] := by decide
  have second : left (execWindow (context 3) out (machine [1,2,3] [5])) = some [1,5,6] := by decide
  refine ⟨rfl,folded_ready 5,first,second,fun same => ?_⟩
  exact absurd (first.symm.trans ((left_same same).trans second)) (by decide)

end TinyWasm
