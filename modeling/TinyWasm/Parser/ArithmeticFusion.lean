import TinyWasm.Parser.LocalFusion

namespace TinyWasm

section Shift
variable {w k : Nat}

theorem shifts_bit (half : k + k ≤ w) (v : BitVec w) {j : Nat} (inside : j < w) :
    ((v <<< k).sshiftRight k).getLsbD j = if j + k < w then v.getLsbD j else v.getLsbD (w - k - 1) := by
  rw [BitVec.getLsbD_sshiftRight,BitVec.msb_eq_getLsbD_last,BitVec.getLsbD_shiftLeft,BitVec.getLsbD_shiftLeft,
    Nat.add_comm k j]
  have there : ¬w ≤ j := Nat.not_le.mpr inside
  by_cases low : j + k < w
  · have past : ¬j + k < k := by omega
    simp [low,there,past]
  · have last : w - 1 < w := by omega
    have past : ¬w - 1 < k := by omega
    have top : w - 1 - k = w - k - 1 := Nat.sub_right_comm w 1 k
    simp [low,there,last,past,top]

theorem extension_bit (v : BitVec w) (some_bits : 0 < k) {j : Nat} (inside : j < w) :
    ((v.setWidth k).signExtend w).getLsbD j = if j < k then v.getLsbD j else v.getLsbD (k - 1) := by
  rw [BitVec.getLsbD_signExtend]
  by_cases low : j < k
  · simp [low,inside]
  · have last : k - 1 < k := Nat.sub_one_lt_of_lt some_bits
    simp [low,inside,BitVec.msb_eq_getLsbD_last,last]

-- The two shifts leave the low w - k bits, with their sign; the extension the
-- low k bits, with theirs.
theorem shifts_eq_extension_iff (half : k + k ≤ w) (some_bits : 0 < k) (v : BitVec w) :
    (v <<< k).sshiftRight k = (v.setWidth k).signExtend w ↔
      ∀ j, k ≤ j → j + k < w → v.getLsbD j = v.getLsbD (k - 1) := by
  constructor
  · intro same j high low
    have bits := congrArg (BitVec.getLsbD · j) same
    have inside : j < w := Nat.lt_of_le_of_lt (Nat.le_add_right j k) low
    simpa only [shifts_bit half v inside,extension_bit v some_bits inside,low,if_true,Nat.not_lt.mpr high,if_false]
      using bits
  · intro alike
    refine BitVec.eq_of_getLsbD_eq fun j inside => ?_
    rw [shifts_bit half v inside,extension_bit v some_bits inside]
    by_cases low : j < k
    · have fits : j + k < w := Nat.lt_of_lt_of_le (Nat.add_lt_add_right low k) half
      rw [if_pos fits,if_pos low]
    · rw [if_neg low]
      by_cases fits : j + k < w
      · rw [if_pos fits]
        exact alike j (Nat.not_lt.mp low) fits
      · rw [if_neg fits]
        by_cases exact_half : k + k = w
        · have same : w - k - 1 = k - 1 := by omega
          rw [same]
        · exact alike (w - k - 1) (by omega) (by omega)

end Shift

-- What the code relies on where it takes the operands of a float or vector
-- operator in the other order.
structure Numerics.Symmetric [Numerics] : Prop where
  float (raw : Instruction) (op : BinOp) : floatBinOp raw = some op → op.commutes →
    ∀ width a b, op.eval width a b = op.eval width b a
  vector {op : BinOp128} : op.commutes → ∀ a b, op.eval a b = op.eval b a

theorem BinOp.eval_comm [Numerics] (symmetric : Numerics.Symmetric) {op : BinOp} (commutes : op.commutes) (width : ScalarSize)
    (a b : Value width.size) : op.eval width a b = op.eval width b a := by
  cases op with
  | iAdd => exact BitVec.add_comm a b
  | iMul => exact BitVec.mul_comm a b
  | iAnd => exact BitVec.and_comm a b
  | iOr => exact BitVec.or_comm a b
  | iXor => exact BitVec.xor_comm a b
  | fAdd => exact symmetric.float (.float (.binary width .add)) _ rfl rfl width a b
  | fMul => exact symmetric.float (.float (.binary width .mul)) _ rfl rfl width a b
  | fMin => exact symmetric.float (.float (.binary width .min)) _ rfl rfl width a b
  | fMax => exact symmetric.float (.float (.binary width .max)) _ rfl rfl width a b
  | _ => cases commutes

section Arms
variable [Allocator] [Numerics] {ctx : Context} {K : Shape} {below : StackBase} {ts : List OperandSize} {size : OperandSize}
  {block : Block} {made : Rewrite} {i : Instruction}

-- Two operands that are read, and the operator.
theorem pair_window {op : (Lane.of size).Op} {f g h : Form (Lane.of size).Op (Lane.of size).Imm} {first second : Step (Value size)}
    (pushes : laneExec ctx size f = pushValue size first) (reads : Reads ctx.cf K first)
    (pushes' : laneExec ctx size g = pushValue size second) (reads' : Reads ctx.cf K second)
    (ran : execStraight ctx i = execBinary size (laneEval size op))
    (same : ∀ m, Stands ctx.cf K below m ts → laneExec ctx size h m =
      pushValue size (first >>= fun a => second >>= fun b => pure (laneEval size op a b)) m) :
    Covers ctx.cf K below ts (execWindow ctx [(Lane.of size).instr f,(Lane.of size).instr g,i])
      (execWindow ctx [(Lane.of size).instr h]) := by
  refine ((push_push_binary (f := laneEval size op) reads reads').to_same same).congr ?_ ((execWindow_one _).trans exec_instr)
  simp only [execWindow_cons,execWindow_nil,Exec.bind_unit,exec_instr,pushes,pushes',ran]

theorem operands_preserves {op : (Lane.of size).Op} {commutes : Bool}
    (matched : (Lane.of size).rewriteOperands op commutes block = some made)
    (ran : execStraight ctx i = execBinary size (laneEval size op))
    (symmetric : commutes = true → ∀ a b, laneEval size op a b = laneEval size op b a) :
    Preserves ctx K (made.window block i) made.out := by
  unfold Lane.rewriteOperands at matched
  intro below ts _ named
  split at matched
  case h_2 => cases matched
  case h_1 second first rest =>
    split at matched
    case h_1 a b seen seen' =>
      obtain rfl := Lane.form_instr seen
      obtain rfl := Lane.form_instr seen'
      cases matched
      have small := Lane.indices_small (named _ (List.mem_cons_self ..)) (.head _)
      have small' := Lane.indices_small (named _ (List.mem_cons_of_mem _ (List.mem_cons_self ..))) (.head _)
      exact pair_window rfl (.localGet small) rfl (.localGet small') ran fun m _ => rfl
    case h_2 a c seen seen' =>
      obtain rfl := Lane.form_instr seen
      obtain rfl := Lane.form_instr seen'
      cases matched
      have small := Lane.indices_small (named _ (List.mem_cons_self ..)) (.head _)
      refine pair_window rfl (.localGet small) rfl (laneImm_reads c) ran fun m stands => ?_
      have got := Machine.localGet_inside (stands.inside small)
      simp only [laneExec,pushValue,laneConst,binopLocalConst,Exec.bind_run,got]
      rcases laneImm_reads c below m ts stands with ⟨abort,read,_⟩ | ⟨t,read,_⟩ | ⟨v,read,_⟩
      all_goals simp only [read,got]
    case h_3 c a seen seen' =>
      split at matched
      · rename_i commutes
        obtain rfl := Lane.form_instr seen
        obtain rfl := Lane.form_instr seen'
        cases matched
        have small := Lane.indices_small (named _ (List.mem_cons_of_mem _ (List.mem_cons_self ..))) (.head _)
        refine pair_window rfl (laneImm_reads c) rfl (.localGet small) ran fun m stands => ?_
        have flipped (v) : binopLocalConst ctx.cf size (laneEval size op) a v =
            (Machine.localGet ctx.cf size a >>= fun l => pure (laneEval size op v l)) := by
          simp only [binopLocalConst,symmetric commutes v]
        simp only [laneExec,laneConst,flipped]
      · cases matched
    case h_4 => cases matched

-- The operand a global gives to an operator of the lane.
def globalScalar (ctx : Context) (width : ScalarSize) (globalIndex : GlobalAddr) : Step (Value width.size) := do
  let (_,g) ← ctx.global globalIndex
  .ofChecked (g.value.scalar width)

-- Where validation has typed the global as a number.
def NumberGlobals (ctx : Context) (K : Shape) (window : List Instruction) : Prop :=
  ∀ globalIndex, .globalGet globalIndex ∈ window → ∀ addr g, ctx.module.globalAddrs[globalIndex]? = some addr →
    K.globals[addr]? = some g → ∀ r, g.value ≠ .valueRef r

omit [Numerics] in
theorem pushDyn_scalar {width : ScalarSize} {value : TinyWasmValue} (sized : value.size = width.size)
    (number : ∀ r, value ≠ .valueRef r) :
    ∃ v, value.scalar width = .ok v ∧ Machine.pushDyn value = Machine.push width.size v := by
  cases width <;> cases value <;> cases sized
  · exact ⟨_,rfl,rfl⟩
  · exact absurd rfl (number _)
  · exact ⟨_,rfl,rfl⟩

theorem globalGet_pushes {width : ScalarSize} {globalIndex : GlobalAddr} {m : Machine} (shape : m.state.shape = K)
    (sized : K.globalSize ctx.module globalIndex = width.size)
    (number : ∀ addr g, ctx.module.globalAddrs[globalIndex]? = some addr → K.globals[addr]? = some g →
      ∀ r, g.value ≠ .valueRef r) :
    execStraight ctx (.globalGet globalIndex) m = pushValue width.size (globalScalar ctx width globalIndex) m := by
  subst shape
  simp only [execStraight,pushValue,globalScalar,Context.global,Exec.bind_assoc]
  rcases named : State.at ctx.module.globalAddrs globalIndex with abort | addr
  · rfl
  · simp only [Exec.ofChecked_bind,Exec.get_bind]
    rcases found : State.at m.state.globals addr with abort | g
    · rfl
    · have named := State.at_some_iff.mp named
      have found := State.at_some_iff.mp found
      have sized : g.value.size = width.size := by
        simpa [Shape.globalSize,named,State.shape,found] using sized
      obtain ⟨v,scalar,pushed⟩ := pushDyn_scalar sized (number addr g named found)
      simp only [Exec.ofChecked_bind,Exec.pure_bind,scalar,pushed]

section Scalar
variable {width : ScalarSize} {o : IntBinary} {op : BinOp}

omit [Allocator] in
-- An operator after one result finds its other operand on the lane of the one.
theorem after_one {first : Instruction} {t : OperandSize} {later : List Instruction}
    (typed : (typeWindow K ctx.module (first :: .int (.binary width o) :: later) ts).isSome)
    (taken : first.operands K ctx.module = []) (result : first.results K ctx.module = [t]) :
    t = width.size ∧ ∃ us, ts = width.size :: us := by
  obtain ⟨us,rfl,typed₁⟩ := typeWindow_cons typed
  obtain ⟨vs,shown,_⟩ := typeWindow_cons typed₁
  rw [intBinOp_operands,result] at shown
  obtain ⟨same,rfl⟩ := List.cons.inj shown
  exact ⟨same,vs,by rw [taken]; rfl⟩

theorem stackGlobal_preserves (named : intBinOp (.int (.binary width o)) = some op)
    (matched : rewriteStackGlobal width op block = some made)
    (numbers : NumberGlobals ctx K (made.window block (.int (.binary width o)))) :
    Preserves ctx K (made.window block (.int (.binary width o))) made.out := by
  unfold rewriteStackGlobal at matched
  intro below ts typed _
  split at matched
  case h_2 => cases matched
  case h_1 globalIndex rest _ =>
    cases matched
    obtain ⟨sized,us,rfl⟩ := after_one typed rfl rfl
    have reads : Reads ctx.cf K (globalScalar ctx width globalIndex) := (Reads.global _).bind fun _ => .ofChecked _
    refine (((push_binary (f := op.eval width) reads).from_same fun m stands => ?_).congr (execWindow_two _ _) ?_)
    · have pushes := globalGet_pushes stands.shape sized (numbers globalIndex (List.mem_cons_self ..))
      simp only [Exec.bind_run,pushes,exec_intBinOp named]
    · refine (execWindow_one _).trans ?_
      simp only [globalScalar,Exec.bind_assoc]
      rfl

-- Two sums of three operands are the one sum of them.
theorem add_add_window (typed : (typeWindow K ctx.module [.int (.binary width .add),.int (.binary width .add)] ts).isSome) :
    Covers ctx.cf K below ts (execWindow ctx [.int (.binary width .add),.int (.binary width .add)])
      (execWindow ctx [.int (.add3 width)]) := by
  have sum : execStraight ctx (.int (.binary width .add)) = execBinary width.size (BinOp.iAdd.eval width) := exec_intBinOp rfl
  obtain ⟨us,rfl,typed₁⟩ := typeWindow_cons typed
  obtain ⟨vs,shown,_⟩ := typeWindow_cons typed₁
  rw [intBinOp_operands] at shown ⊢
  obtain rfl : us = width.size :: vs := (List.cons.inj shown).2
  intro m stands
  obtain ⟨m₂,c,rfl,stands₂,_⟩ := stands.cons
  obtain ⟨m₁,b,rfl,stands₁,room₁⟩ := stands₂.cons
  obtain ⟨m₀,a,rfl,_,room₀⟩ := stands₁.cons
  refine .inr (.inl ?_)
  simp only [execWindow_two,execWindow_one,sum,Exec.bind_run,execBinary_onTop room₁,execBinary_onTop room₀]
  simp only [execStraight,IntOp.action,NumAction.exec,Exec.bind_run,Machine.pop_onTop,Machine.push_onTop room₀,
    BinOp.eval,IntBinary.eval,BitVec.add_assoc]

theorem add_preserves (matched : rewriteAdd width block = some made) :
    Preserves ctx K (made.window block (.int (.binary width .add))) made.out := by
  unfold rewriteAdd at matched
  intro below ts typed _
  have sum : execStraight ctx (.int (.binary width .add)) = execBinary width.size (BinOp.iAdd.eval width) := exec_intBinOp rfl
  split at matched
  case h_3 => cases matched
  case h_1 w c rest _ =>
    split at matched
    · rename_i same
      subst same
      cases matched
      obtain ⟨_,us,rfl⟩ := after_one typed rfl rfl
      refine (push_binary (f := BinOp.iAdd.eval w) (.pure c)).congr ?_ (execWindow_one _)
      exact (execWindow_two _ _).trans (congrArg (_ >>= ·) (funext fun _ => sum))
    · cases matched
  case h_2 w rest _ =>
    split at matched
    · rename_i same
      subst same
      cases matched
      exact add_add_window typed
    · cases matched

theorem signExtension_exec {k : Nat} {extend : IntOp} (found : signExtension width k = some extend) :
    0 < k ∧ k + k ≤ width.size.bits ∧
      execStraight ctx (.int extend) = execUnary width.size fun v => (v.setWidth k).signExtend _ := by
  unfold signExtension at found
  split at found <;> cases found
  · cases width <;> exact ⟨by decide,by decide,rfl⟩
  · cases width <;> exact ⟨by decide,by decide,rfl⟩
  · exact ⟨by decide,by decide,rfl⟩

omit [Allocator] [Numerics] in
theorem onTop_alike {m : Machine} {v v' : Value size} : (m.onTop size v).Alike (m.onTop size v') ↔ v = v' := by
  constructor
  · intro alike
    have lanes := alike.lanes size
    simp only [Machine.onTop,ValueStack.setLane_same] at lanes
    exact (List.cons.inj (List.append_cancel_left lanes)).1
  · rintro rfl
    exact .rfl

-- The pair of shifts and the extension push the one value or the other.
theorem shiftPair_iff {src : LocalAddr} {c₁ c₂ : Value width.size} {extend : IntOp} {m : Machine}
    (same : c₁.toNat = c₂.toNat) (found : signExtension width c₂.toNat = some extend)
    (small : src < ctx.cf.stackOffset width.size) (stands : Stands ctx.cf K below m ts)
    (fits : ¬Overflows (execWindow ctx [.binOpLocalConst width .iShl src c₁,.const width c₂,.int (.binary width .shrS)] m)) :
    SameEnd below (execWindow ctx [.binOpLocalConst width .iShl src c₁,.const width c₂,.int (.binary width .shrS)] m)
      (execWindow ctx [.localGet width.size src,.int extend] m) ↔
      ∀ j, c₂.toNat ≤ j → j + c₂.toNat < width.size.bits →
        (m.localAt ctx.cf width.size src).getLsbD j = (m.localAt ctx.cf width.size src).getLsbD (c₂.toNat - 1) := by
  obtain ⟨some_bits,half,extended⟩ : 0 < c₂.toNat ∧ _ ∧ execStraight ctx (.int extend) = _ := signExtension_exec found
  have shift : execStraight ctx (.int (.binary width .shrS)) = execBinary width.size (BinOp.iShrS.eval width) :=
    exec_intBinOp rfl
  have got := Machine.localGet_inside (stands.inside small)
  have below_width : c₂.toNat < width.size.bits := by omega
  have shifted (v : Value width.size) :
      BinOp.iShrS.eval width (BinOp.iShl.eval width v c₁) c₂ = (v <<< c₂.toNat).sshiftRight c₂.toNat := by
    simp only [BinOp.eval,IntBinary.eval,same,Nat.mod_eq_of_lt below_width]
  rw [←shifts_eq_extension_iff half some_bits]
  let low := BinOp.iShl.eval width (m.localAt ctx.cf width.size src) c₁
  rcases push_cases stands low with full | ⟨room,pushed⟩
  · refine absurd ⟨m,?_⟩ fits
    simp only [low] at full
    simp only [execWindow_cons,execStraight,pushValue,binopLocalConst,Exec.bind_run,got,Exec.pure_run,full]
  rcases push_cases (stands.onTop room low) c₂ with full | ⟨_,pushed'⟩
  · refine absurd ⟨m.onTop width.size low,?_⟩ fits
    simp only [low] at pushed full ⊢
    simp only [execWindow_cons,execStraight,pushValue,binopLocalConst,Exec.bind_run,got,Exec.pure_run,pushed,full]
  have first : execWindow ctx [.binOpLocalConst width .iShl src c₁,.const width c₂,.int (.binary width .shrS)] m =
      .ok (.ok (),m.onTop width.size ((m.localAt ctx.cf width.size src <<< c₂.toNat).sshiftRight c₂.toNat)) := by
    simp only [low] at pushed pushed'
    simp only [execWindow_cons,execWindow_nil,Exec.bind_unit,shift,Exec.bind_run]
    simp only [execStraight,pushValue,binopLocalConst,Exec.bind_run,got,Exec.pure_run,pushed,pushed',
      execBinary_onTop room,shifted]
  have second : execWindow ctx [.localGet width.size src,.int extend] m =
      .ok (.ok (),m.onTop width.size (((m.localAt ctx.cf width.size src).setWidth c₂.toNat).signExtend _)) := by
    simp only [execWindow_cons,execWindow_nil,Exec.bind_unit,extended,Exec.bind_run]
    simp only [execStraight,pushValue,execUnary,Exec.bind_run,got,Machine.push_onTop room,Machine.pop_onTop]
  rw [first,second]
  exact onTop_alike

end Scalar

end Arms

def Instruction.isOperator : Instruction → Bool
  | .int _ | .float _ | .vector _ => true
  | _ => false

-- Where the pair of shifts is one that is taken for a sign extension.
structure ShiftPair (block : Block) (i : Instruction) (width : ScalarSize) (src : LocalAddr) (c₁ c₂ : Value width.size) : Prop where
  shape : ∃ rest, block = .const width c₂ :: .binOpLocalConst width .iShl src c₁ :: rest
  shift : i = .int (.binary width .shrS)
  same : c₁.toNat = c₂.toNat
  known : (signExtension width c₂.toNat).isSome

-- The bits between the sign of the part the extension keeps and that of the
-- part the shifts keep are all the same.
def KeepsSign (ctx : Context) (block : Block) (i : Instruction) (m : Machine) : Prop :=
  ∀ width src c₁ c₂, ShiftPair block i width src c₁ c₂ → ∀ j, c₂.toNat ≤ j → j + c₂.toNat < width.size.bits →
    (m.localAt ctx.cf width.size src).getLsbD j = (m.localAt ctx.cf width.size src).getLsbD (c₂.toNat - 1)

section Fusion
variable {block : Block} {i : Instruction} {width : ScalarSize} {src : LocalAddr} {c₁ c₂ : Value width.size}

theorem ShiftPair.fuses (pair : ShiftPair block i width src c₁ c₂) :
    ∃ extend rest, signExtension width c₂.toNat = some extend ∧
      block = .const width c₂ :: .binOpLocalConst width .iShl src c₁ :: rest ∧
      fuse block i = some ⟨2,[.localGet width.size src,.int extend]⟩ := by
  obtain ⟨⟨rest,rfl⟩,rfl,same,known⟩ := pair
  obtain ⟨extend,found⟩ := Option.isSome_iff_exists.mp known
  refine ⟨extend,rest,found,rfl,?_⟩
  have pairs : rewriteShiftPair width (.const width c₂ :: .binOpLocalConst width .iShl src c₁ :: rest) =
      some ⟨2,[.localGet width.size src,.int extend]⟩ := by
    simp [rewriteShiftPair,same,found]
  cases width <;> exact pairs

theorem shiftPair_of_match {made : Rewrite} (matched : rewriteShiftPair width block = some made) :
    ∃ src c₁ c₂, ShiftPair block (.int (.binary width .shrS)) width src c₁ c₂ := by
  unfold rewriteShiftPair at matched
  split at matched
  case h_2 => cases matched
  case h_1 =>
    split at matched
    · rename_i same
      obtain ⟨rfl,rfl,same⟩ := same
      obtain ⟨extend,found,_⟩ := Option.map_eq_some_iff.mp matched
      exact ⟨_,_,_,⟨_,rfl⟩,rfl,same,Option.isSome_iff_exists.mpr ⟨extend,found⟩⟩
    · cases matched

variable [Allocator] [Numerics] {ctx : Context} {K : Shape} {made : Rewrite}

theorem scalarOperands_preserves {op : BinOp} (symmetric : Numerics.Symmetric)
    (matched : (Lane.scalar width).rewriteOperands op op.commutes block = some made)
    (ran : execStraight ctx i = execBinary width.size (op.eval width)) : Preserves ctx K (made.window block i) made.out := by
  cases width with
  | s32 =>
    have lane : (Lane.of .s32).rewriteOperands op op.commutes block = some made := matched
    exact operands_preserves lane ran fun commutes => BinOp.eval_comm symmetric commutes .s32
  | s64 =>
    have lane : (Lane.of .s64).rewriteOperands op op.commutes block = some made := matched
    exact operands_preserves lane ran fun commutes => BinOp.eval_comm symmetric commutes .s64

theorem intBinary_preserves {o : IntBinary} {op : BinOp} (symmetric : Numerics.Symmetric)
    (named : intBinOp (.int (.binary width o)) = some op) (matched : rewriteIntBinary width op block = some made)
    (apart : ∀ src c₁ c₂, ¬ShiftPair block (.int (.binary width o)) width src c₁ c₂)
    (numbers : NumberGlobals ctx K (made.window block (.int (.binary width o)))) :
    Preserves ctx K (made.window block (.int (.binary width o))) made.out := by
  have ran : execStraight ctx (.int (.binary width o)) = execBinary width.size (op.eval width) := exec_intBinOp named
  rcases Option.or_eq_some_iff.mp matched with operands | ⟨_,matched⟩
  · exact scalarOperands_preserves symmetric operands ran
  · rcases Option.or_eq_some_iff.mp matched with global | ⟨_,matched⟩
    · exact stackGlobal_preserves named global numbers
    · split at matched
      · rename_i add
        obtain rfl : o = .add := by cases o <;> cases named <;> first | rfl | cases add
        exact add_preserves matched
      · split at matched
        · rename_i shift
          obtain rfl : o = .shrS := by cases o <;> cases named <;> first | rfl | cases shift
          obtain ⟨src,c₁,c₂,pair⟩ := shiftPair_of_match matched
          exact absurd pair (apart src c₁ c₂)
        · cases matched

theorem operator_preserves (incoming : i.isOperator) (symmetric : Numerics.Symmetric) (matched : fuse block i = some made)
    (apart : ∀ width src c₁ c₂, ¬ShiftPair block i width src c₁ c₂) (numbers : NumberGlobals ctx K (made.window block i)) :
    Preserves ctx K (made.window block i) made.out := by
  cases i with
  | int raw =>
    cases raw with
    | binary width o =>
      have matched : (intBinOp (.int (.binary width o))).bind (rewriteIntBinary width · block) = some made := matched
      obtain ⟨op,named,matched⟩ := Option.bind_eq_some_iff.mp matched
      exact intBinary_preserves symmetric named matched (apart width) numbers
    | _ => cases matched
  | float raw =>
    cases raw with
    | binary width o =>
      have matched : (floatBinOp (.float (.binary width o))).bind
        (fun op => (Lane.scalar width).rewriteOperands op op.commutes block) = some made := matched
      obtain ⟨op,named,matched⟩ := Option.bind_eq_some_iff.mp matched
      exact scalarOperands_preserves symmetric matched (exec_floatBinOp named)
    | _ => cases matched
  | vector raw =>
    obtain ⟨op,named,matched⟩ := Option.bind_eq_some_iff.mp matched
    have lane : (Lane.of .s128).rewriteOperands op op.commutes block = some made := matched
    have ran : execStraight ctx (.vector raw) = execBinary .s128 op.eval := by
      unfold binOp128 at named
      split at named <;> cases named <;> rename_i same <;> cases same <;> rfl
    exact operands_preserves lane ran symmetric.vector
  | _ => cases incoming

variable {below : StackBase} {operands : List OperandSize} {m : Machine}

omit [Allocator] [Numerics] in
theorem ShiftPair.keeps_iff (pair : ShiftPair block i width src c₁ c₂) :
    KeepsSign ctx block i m ↔ ∀ j, c₂.toNat ≤ j → j + c₂.toNat < width.size.bits →
      (m.localAt ctx.cf width.size src).getLsbD j = (m.localAt ctx.cf width.size src).getLsbD (c₂.toNat - 1) := by
  constructor
  · intro keeps
    exact keeps width src c₁ c₂ pair
  · intro bits width' src' c₁' c₂' pair'
    obtain ⟨⟨rest,rfl⟩,shift,_,_⟩ := pair
    obtain ⟨⟨rest',shape⟩,shift',_,_⟩ := pair'
    cases shape
    exact bits

theorem ShiftPair.window_iff (pair : ShiftPair block i width src c₁ c₂) (matched : fuse block i = some made)
    (ready : Ready ctx (made.window block i) operands below m) (fits : ¬Overflows (execWindow ctx (made.window block i) m)) :
    SameEnd below (execWindow ctx (made.window block i) m) (execWindow ctx made.out m) ↔ KeepsSign ctx block i m := by
  obtain ⟨extend,rest,found,rfl,fuses⟩ := pair.fuses
  rw [pair.keeps_iff]
  obtain rfl := pair.shift
  cases fuses.symm.trans matched
  have small := ready.locals (.binOpLocalConst width .iShl src c₁) (List.mem_cons_self ..) (width.size,src) (.head _)
  rw [←sameEnd_settle,←ready.settled,←ready.settled]
  refine shiftPair_iff pair.same found small ready.stands fun exceeds => fits ?_
  have exceeds := (ready.settled [.binOpLocalConst width .iShl src c₁,.const width c₂,.int (.binary width .shrS)]) ▸ exceeds
  exact overflows_settle exceeds

end Fusion

theorem Numerics.zeros_symmetric : let _ := Numerics.zeros; Numerics.Symmetric := by
  intro _
  constructor
  · intro raw op named commutes width a b
    unfold floatBinOp at named
    split at named
    · rename_i o
      cases o <;> cases named <;> rfl
    · cases named
  · intro op commutes a b
    cases op <;> rfl

end TinyWasm
