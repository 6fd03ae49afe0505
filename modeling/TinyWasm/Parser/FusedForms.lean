import TinyWasm.Parser.Rewrite
import TinyWasm.Interpreter.WindowLaws

namespace TinyWasm

section Typing
variable (K : Shape) (module : ModuleInstance)

-- The locals an instruction names, each on the lane it is looked for.
def Instruction.locals : Instruction → List (OperandSize × LocalAddr)
  | .localGet size index | .localSet size index | .localTee size index => [(size,index)]
  | .localCopy size src dst => [(size,src),(size,dst)]
  | .incLocal width index _ | .setLocalConst width index _ | .andConstTee width _ index | .subConstTee width _ index
    | .mulAccLocal width index | .fMulAccLocal width index | .jumpIfLocalZero width _ index
    | .jumpIfLocalNonZero width _ index | .jumpCmpLocalConst width _ index _ _ => [(width.size,index)]
  | .setLocalConst128 index _ => [(.s128,index)]
  | .binOpLocalLocal width _ a b | .jumpCmpLocalLocal width _ a b _ => [(width.size,a),(width.size,b)]
  | .binOpLocalLocal128 _ a b => [(.s128,a),(.s128,b)]
  | .binOpLocalLocalSet width _ a b dst | .binOpLocalLocalTee width _ a b dst =>
    [(width.size,a),(width.size,b),(width.size,dst)]
  | .binOpLocalLocalSet128 _ a b dst | .binOpLocalLocalTee128 _ a b dst => [(.s128,a),(.s128,b),(.s128,dst)]
  | .binOpLocalConst width _ a _ => [(width.size,a)]
  | .binOpLocalConst128 _ a _ => [(.s128,a)]
  | .binOpLocalConstSet width _ a _ dst | .binOpLocalConstTee width _ a _ dst => [(width.size,a),(width.size,dst)]
  | .binOpLocalConstSet128 _ a _ dst | .binOpLocalConstTee128 _ a _ dst => [(.s128,a),(.s128,dst)]
  | .incMemoryLocal _ arg addrLocal | .loadLocal32 _ arg addrLocal | .loadLocal64 arg addrLocal =>
    [(K.memorySize module arg.memAddr,addrLocal)]
  | .storeLocalLocal size _ addrLocal valueLocal => [(.s32,addrLocal),(size,valueLocal)]
  | .loadLocalTee32 op arg addrLocal dstLocal | .loadLocalSet32 op arg addrLocal dstLocal =>
    [(K.memorySize module arg.memAddr,addrLocal),(op.loadOp.target,dstLocal)]
  | .loadLocalTee128 arg addrLocal dstLocal | .loadLocalSet128 arg addrLocal dstLocal =>
    [(K.memorySize module arg.memAddr,addrLocal),(.s128,dstLocal)]
  | _ => []

variable [Numerics]

-- Operands on a stack that shows the lane of each, the top first.
def Instruction.retype (i : Instruction) (ts : List OperandSize) : Option (List OperandSize) :=
  if i.operands K module <+: ts then some (i.results K module ++ ts.drop (i.operands K module).length) else none

def typeWindow : List Instruction → List OperandSize → Option (List OperandSize)
  | [],ts => some ts
  | i :: rest,ts => (i.retype K module ts).bind (typeWindow rest)

end Typing

-- What validation gives of a window: it runs on `operands`, which lie on the
-- stack above `below` and the locals, and its locals are the function's.
structure Ready [Numerics] (ctx : Context) (window : List Instruction) (operands : List OperandSize) (below : StackBase)
    (m : Machine) : Prop where
  typed : (typeWindow m.state.shape ctx.module window operands).isSome
  locals (i) : i ∈ window → ∀ a ∈ i.locals m.state.shape ctx.module, a.2 < ctx.cf.stackOffset a.1
  frame (size) : ctx.cf.stackBase size ≤ below size
  height (size) : below size + operands.count size = m.height size
  within : m.Within

-- The window that gives way, in the order of the code.
def Rewrite.window (rewrite : Rewrite) (block : Block) (i : Instruction) : List Instruction :=
  (block.take rewrite.consumed).reverse ++ [i]

section Settled
variable [Allocator] {below : StackBase}

theorem alike_settle {m m' : Machine} : m.settle.Alike m'.settle ↔ m.Alike m' :=
  ⟨fun alike => ⟨alike.state,alike.lanes⟩,fun alike => ⟨alike.state,alike.lanes⟩⟩

def settleEnd (end_ : Checked (Except Trap Unit × Machine)) : Checked (Except Trap Unit × Machine) :=
  end_.map fun (r,m) => (r,m.settle)

theorem sameEnd_settle {end_ end' : Checked (Except Trap Unit × Machine)} :
    SameEnd below (settleEnd end_) (settleEnd end') ↔ SameEnd below end_ end' := by
  rcases end_ with abort | ⟨t | _,m⟩
  · rcases end' with abort' | ⟨t' | _,m'⟩ <;> exact Iff.rfl
  · rcases end' with abort' | ⟨t' | _,m'⟩ <;> exact Iff.rfl
  · rcases end' with abort' | ⟨t' | _,m'⟩
    · exact Iff.rfl
    · exact Iff.rfl
    · exact alike_settle

theorem overflows_settle {end_ : Checked (Except Trap Unit × Machine)} (exceeds : Overflows (settleEnd end_)) : Overflows end_ := by
  obtain ⟨m,ended⟩ := exceeds
  rcases end_ with abort | ⟨t | _,m'⟩
  · cases ended
  · cases ended; exact ⟨m',rfl⟩
  · cases ended

theorem settle_fixed (m : Machine) : m.settle.Fixed := fun _ => rfl

theorem settle_within {m : Machine} (within : m.Within) : m.settle.Within :=
  fun size => Nat.le_trans (within size) (Stack.ceiling_ge _)

variable [Numerics] {ctx : Context} {window out : List Instruction} {operands : List OperandSize} {m : Machine}

theorem Ready.stands (ready : Ready ctx window operands below m) : Stands ctx.cf m.state.shape below m.settle operands :=
  ⟨rfl,settle_fixed m,settle_within ready.within,ready.frame,ready.height⟩

theorem Ready.settled (ready : Ready ctx window operands below m) (code : List Instruction) :
    execWindow ctx code m.settle = settleEnd (execWindow ctx code m) := (window_settles code).run m ready.within

-- What holds of lanes that grow no further holds of all.
theorem Covers.windows (covers : Covers ctx.cf m.state.shape below operands (execWindow ctx window) (execWindow ctx out))
    (ready : Ready ctx window operands below m) (fits : ¬Overflows (execWindow ctx window m)) :
    SameEnd below (execWindow ctx window m) (execWindow ctx out m) := by
  have ends := covers m.settle ready.stands
  rw [ready.settled,ready.settled] at ends
  rcases ends with exceeds | ends
  · exact absurd (overflows_settle exceeds) fits
  · exact sameEnd_settle.mp ends.same

-- One window may take another's place wherever it is well typed, unless the
-- other hits a stack limit.
def Preserves (ctx : Context) (K : Shape) (window out : List Instruction) : Prop :=
  ∀ below ts, (typeWindow K ctx.module window ts).isSome →
    (∀ i ∈ window, ∀ a ∈ i.locals K ctx.module, a.2 < ctx.cf.stackOffset a.1) →
    Covers ctx.cf K below ts (execWindow ctx window) (execWindow ctx out)

theorem Preserves.windows (preserves : Preserves ctx m.state.shape window out) (ready : Ready ctx window operands below m)
    (fits : ¬Overflows (execWindow ctx window m)) : SameEnd below (execWindow ctx window m) (execWindow ctx out m) :=
  (preserves below operands ready.typed ready.locals).windows ready fits

omit [Allocator] in
theorem retype_isSome {i : Instruction} {K : Shape} {module : ModuleInstance} {ts us : List OperandSize}
    (typed : i.retype K module ts = some us) : ∃ rest, ts = i.operands K module ++ rest ∧ us = i.results K module ++ rest := by
  unfold Instruction.retype at typed
  split at typed
  · rename_i first
    obtain ⟨rest,rfl⟩ := first
    cases typed
    exact ⟨rest,rfl,by rw [List.drop_left]⟩
  · cases typed

omit [Allocator] in
theorem typeWindow_cons {i : Instruction} {K : Shape} {module : ModuleInstance} {ts : List OperandSize}
    (typed : (typeWindow K module (i :: out) ts).isSome) :
    ∃ rest, ts = i.operands K module ++ rest ∧ (typeWindow K module out (i.results K module ++ rest)).isSome := by
  obtain ⟨final,ended⟩ := Option.isSome_iff_exists.mp typed
  obtain ⟨us,first,later⟩ := Option.bind_eq_some_iff.mp ended
  obtain ⟨rest,rfl,rfl⟩ := retype_isSome first
  exact ⟨rest,rfl,Option.isSome_iff_exists.mpr ⟨final,later⟩⟩

end Settled

-- The operators and immediates of the fused forms, lane by lane.
def laneEval [Numerics] : (size : OperandSize) → (Lane.of size).Op → Value size → Value size → Value size
  | .s32,op => BinOp.eval op .s32
  | .s64,op => BinOp.eval op .s64
  | .s128,op => BinOp128.eval op

def laneImm (ctx : Context) : (size : OperandSize) → (Lane.of size).Imm → Step (Value size)
  | .s32,c => pure c
  | .s64,c => pure c
  | .s128,c => .ofChecked (ctx.func.data.v128Const c)

def laneConst [Numerics] (ctx : Context) (size : OperandSize) (op : (Lane.of size).Op) (a : LocalAddr)
    (c : (Lane.of size).Imm) : Step (Value size) := do
  let c ← laneImm ctx size c
  binopLocalConst ctx.cf size (laneEval size op) a c

namespace Form
variable {Op Imm : Type}

def indices : Form Op Imm → List LocalAddr
  | get a | set a | tee a | localConst _ a _ | setConst a _ => [a]
  | drop | const _ => []
  | copy a b | localLocal _ a b | localConstSet _ a _ b | localConstTee _ a _ b => [a,b]
  | localLocalSet _ a b dst | localLocalTee _ a b dst => [a,b,dst]

def operands (size : OperandSize) : Form Op Imm → List OperandSize
  | set _ | tee _ | drop => [size]
  | _ => []

def results (size : OperandSize) : Form Op Imm → List OperandSize
  | get _ | tee _ | localLocal _ _ _ | localLocalTee _ _ _ _ | localConst _ _ _ | localConstTee _ _ _ _ | const _ => [size]
  | _ => []

end Form

-- What the instructions of a lane do.
def laneExec [Allocator] [Numerics] (ctx : Context) (size : OperandSize) :
    Form (Lane.of size).Op (Lane.of size).Imm → Step Unit
  | .get a => pushValue size (Machine.localGet ctx.cf size a)
  | .set a => setValue ctx.cf size a (Machine.pop size)
  | .tee a => Machine.localTee ctx.cf size a
  | .drop => Machine.drop size
  | .copy src dst => setValue ctx.cf size dst (Machine.localGet ctx.cf size src)
  | .localLocal op a b => pushValue size (binopLocalLocal ctx.cf size (laneEval size op) a b)
  | .localLocalSet op a b dst => setValue ctx.cf size dst (binopLocalLocal ctx.cf size (laneEval size op) a b)
  | .localLocalTee op a b dst => teeValue ctx.cf size dst (binopLocalLocal ctx.cf size (laneEval size op) a b)
  | .localConst op a c => pushValue size (laneConst ctx size op a c)
  | .localConstSet op a c dst => setValue ctx.cf size dst (laneConst ctx size op a c)
  | .localConstTee op a c dst => teeValue ctx.cf size dst (laneConst ctx size op a c)
  | .const c => pushValue size (laneImm ctx size c)
  | .setConst dst c => setValue ctx.cf size dst (laneImm ctx size c)

section Forms
variable {ctx : Context} {K : Shape} {module : ModuleInstance} {size : OperandSize}
  {f : Form (Lane.of size).Op (Lane.of size).Imm}

theorem Lane.scalar_form {width : ScalarSize} {i : Instruction} {f : Form BinOp (Value width.size)}
    (seen : (Lane.scalar width).form i = some f) : i = (Lane.scalar width).instr f := by
  simp only [Lane.scalar] at seen ⊢
  split at seen
  case h_10 => cases seen
  all_goals
    split at seen
    · rename_i same
      subst same
      cases seen
      rfl
    · cases seen

theorem Lane.vector_form {i : Instruction} {f : Form BinOp128 ConstIdx} (seen : Lane.vector.form i = some f) :
    i = Lane.vector.instr f := by
  simp only [Lane.vector] at seen ⊢
  split at seen <;> cases seen <;> rfl

theorem Lane.form_instr {i : Instruction} (seen : (Lane.of size).form i = some f) : i = (Lane.of size).instr f := by
  cases size with
  | s32 => exact scalar_form seen
  | s64 => exact scalar_form seen
  | s128 => exact vector_form seen

theorem instr_locals : ((Lane.of size).instr f).locals K module = f.indices.map (size,·) := by
  cases size <;> cases f <;> rfl

theorem laneImm_reads (c : (Lane.of size).Imm) : Reads ctx.cf K (laneImm ctx size c) := by
  cases size with
  | s32 => exact .pure _
  | s64 => exact .pure _
  | s128 => exact .ofChecked _

variable [Numerics]

theorem instr_operands : ((Lane.of size).instr f).operands K module = f.operands size := by
  cases size <;> cases f <;> rfl

theorem instr_results : ((Lane.of size).instr f).results K module = f.results size := by
  cases size <;> cases f <;> rfl

theorem laneConst_reads {op : (Lane.of size).Op} {a : LocalAddr} (c : (Lane.of size).Imm)
    (small : a < ctx.cf.stackOffset size) : Reads ctx.cf K (laneConst ctx size op a c) :=
  (laneImm_reads c).bind fun _ => .localConst small

variable [Allocator]

theorem exec_instr : execStraight ctx ((Lane.of size).instr f) = laneExec ctx size f := by
  cases size with
  | s32 => cases f <;> rfl
  | s64 => cases f <;> rfl
  | s128 =>
    cases f with
    | localConst | localConstSet | localConstTee => exact (Exec.bind_assoc _ _ _).symm
    | _ => rfl

-- A sum with a constant is stored where it was read from, or the difference.
theorem exec_constSet (dst src : LocalAddr) (op : (Lane.of size).Op) (c : (Lane.of size).Imm) :
    execStraight ctx ((Lane.of size).constSet dst src op c) = setValue ctx.cf size dst (laneConst ctx size op src c) := by
  have scalar (width : ScalarSize) (op : BinOp) (c : Value width.size) :
      execStraight ctx ((Lane.scalar width).constSet dst src op c) =
        setValue ctx.cf width.size dst (binopLocalConst ctx.cf width.size (op.eval width) src c) := by
    by_cases same : dst = src
    · subst same
      cases op <;> simp only [if_true]
      case iAdd =>
        refine Eq.trans ?_ (Exec.bind_assoc _ _ _).symm
        rfl
      case iSub =>
        refine Eq.trans ?_ (Exec.bind_assoc _ _ _).symm
        refine congrArg (Machine.localGet ctx.cf width.size dst >>= ·) (funext fun v => ?_)
        exact congrArg (Machine.localSet ctx.cf width.size dst) (BitVec.sub_eq_add_neg v c).symm
      all_goals rfl
    · simp only [if_neg same]
      rfl
  cases size with
  | s32 => exact scalar .s32 op c
  | s64 => exact scalar .s64 op c
  | s128 => exact (Exec.bind_assoc _ _ _).symm

omit [Allocator] [Numerics] in
theorem scalarBinOp_cases {raw : Instruction} {op : BinOp} (named : scalarBinOp raw = some op) :
    (∃ w o, raw = .int (.binary w o)) ∨ ∃ w o, raw = .float (.binary w o) := by
  cases raw with
  | int raw =>
    cases raw with
    | binary w o => exact .inl ⟨w,o,rfl⟩
    | _ => cases named
  | float raw =>
    cases raw with
    | binary w o => exact .inr ⟨w,o,rfl⟩
    | _ => cases named
  | _ => cases named

-- An operator that finds two operands of the lane on top is one of the lane.
theorem Lane.op_exec {raw : Instruction} {op : (Lane.of size).Op} {ts : List OperandSize}
    (named : (Lane.of size).op raw = some op) (typed : raw.operands K module <+: size :: ts) :
    execStraight ctx raw = execBinary size (laneEval size op) ∧ raw.operands K module = [size,size] ∧
      raw.results K module = [size] := by
  have scalar (width : ScalarSize) {op : BinOp} (named : scalarBinOp raw = some op)
      (typed : raw.operands K module <+: width.size :: ts) :
      execStraight ctx raw = execBinary width.size (op.eval width) ∧ raw.operands K module = [width.size,width.size] ∧
        raw.results K module = [width.size] := by
    have sized {w : ScalarSize} (first : [w.size,w.size] <+: width.size :: ts) : w = width := by
      have first := (List.cons_prefix_cons.mp first).1
      cases w <;> cases width <;> first | rfl | cases first
    rcases scalarBinOp_cases named with ⟨w,o,rfl⟩ | ⟨w,o,rfl⟩
    · obtain rfl := sized typed
      cases o <;> cases named <;> exact ⟨rfl,rfl,rfl⟩
    · obtain rfl := sized typed
      cases o <;> cases named <;> exact ⟨rfl,rfl,rfl⟩
  cases size with
  | s32 => exact scalar .s32 named typed
  | s64 => exact scalar .s64 named typed
  | s128 =>
    simp only [Lane.of,Lane.vector,binOp128] at named
    split at named <;> cases named <;> exact ⟨rfl,rfl,rfl⟩

-- A source that leaves its result in a local and on the stack, and the form
-- that leaves it in the local alone.
theorem Lane.loadTee_exec {i set : Instruction} {dst : LocalAddr} (seen : (Lane.of size).loadTee i = some (set,dst))
    (named : ∀ a ∈ i.locals K ctx.module, a.2 < ctx.cf.stackOffset a.1) :
    i.operands K module = [] ∧ i.results K module = [size] ∧ dst < ctx.cf.stackOffset size ∧
    ∃ value, Reads ctx.cf K value ∧ execStraight ctx i = teeValue ctx.cf size dst value ∧
      execStraight ctx set = setValue ctx.cf size dst value := by
  cases size with
  | s64 => cases seen
  | s32 =>
    dsimp only at seen
    split at seen
    · cases seen
      rename_i arg addr _
      simp only [Instruction.locals,List.mem_cons,List.not_mem_nil,or_false,forall_eq_or_imp,forall_eq] at named
      exact ⟨rfl,rfl,named.2,_,.loadLocalValue named.1,rfl,rfl⟩
    · cases seen
  | s128 =>
    dsimp only at seen
    split at seen
    · cases seen
      simp only [Instruction.locals,List.mem_cons,List.not_mem_nil,or_false,forall_eq_or_imp,forall_eq] at named
      exact ⟨rfl,rfl,named.2,_,.loadLocalValue named.1,rfl,rfl⟩
    · cases seen

-- What the source resolver says of a source: the operand is a local, or the
-- stack's top kept in one, or something read that is kept in one.
inductive Source (ctx : Context) (K : Shape) (size : OperandSize) (i : Instruction) : Option Instruction → LocalAddr → Prop where
  | get (x) : i = .localGet size x → execStraight ctx i = pushValue size (Machine.localGet ctx.cf size x) →
      i.operands K ctx.module = [] → Source ctx K size i none x
  | tee (x) : i = .localTee size x → execStraight ctx i = Machine.localTee ctx.cf size x →
      i.operands K ctx.module = [size] → Source ctx K size i (some (.localSet size x)) x
  | fused (x set value) : (∀ y, i ≠ .localTee size y) → Reads ctx.cf K value →
      execStraight ctx i = teeValue ctx.cf size x value → execStraight ctx set = setValue ctx.cf size x value →
      i.operands K ctx.module = [] → Source ctx K size i (some set) x

theorem Lane.resolve_source {i : Instruction} {set : Option Instruction} {x : LocalAddr}
    (resolved : (Lane.of size).resolveLocalSource i = some (set,x))
    (named : ∀ a ∈ i.locals K ctx.module, a.2 < ctx.cf.stackOffset a.1) :
    Source ctx K size i set x ∧ i.results K ctx.module = [size] ∧ x < ctx.cf.stackOffset size := by
  unfold Lane.resolveLocalSource at resolved
  split at resolved
  case h_1 a seen =>
    obtain ⟨rfl,rfl⟩ := Prod.mk.inj (Option.some.inj resolved)
    obtain rfl := form_instr seen
    rw [instr_locals] at named
    have small : a < ctx.cf.stackOffset size := named (size,a) (List.mem_map_of_mem (List.mem_singleton_self a))
    refine ⟨.get a ?_ exec_instr instr_operands,instr_results,small⟩
    cases size <;> rfl
  case h_2 a seen =>
    obtain ⟨rfl,rfl⟩ := Prod.mk.inj (Option.some.inj resolved)
    obtain rfl := form_instr seen
    rw [instr_locals] at named
    have small : a < ctx.cf.stackOffset size := named (size,a) (List.mem_map_of_mem (List.mem_singleton_self a))
    have set : (Lane.of size).instr (.set a) = .localSet size a := by cases size <;> rfl
    rw [set]
    refine ⟨.tee a ?_ exec_instr instr_operands,instr_results,small⟩
    cases size <;> rfl
  case h_3 op a b dst seen =>
    obtain ⟨rfl,rfl⟩ := Prod.mk.inj (Option.some.inj resolved)
    obtain rfl := form_instr seen
    rw [instr_locals] at named
    simp only [Form.indices,List.map_cons,List.map_nil,List.mem_cons,List.not_mem_nil,or_false,forall_eq_or_imp,
      forall_eq] at named
    refine ⟨.fused dst _ _ ?_ (.localLocal named.1 named.2.1) exec_instr exec_instr instr_operands,instr_results,named.2.2⟩
    intro y same
    cases size <;> cases same
  case h_4 op a c dst seen =>
    obtain ⟨rfl,rfl⟩ := Prod.mk.inj (Option.some.inj resolved)
    obtain rfl := form_instr seen
    rw [instr_locals] at named
    simp only [Form.indices,List.map_cons,List.map_nil,List.mem_cons,List.not_mem_nil,or_false,forall_eq_or_imp,
      forall_eq] at named
    refine ⟨.fused dst _ _ ?_ (laneConst_reads c named.1) exec_instr exec_instr instr_operands,instr_results,named.2⟩
    intro y same
    cases size <;> cases same
  case h_5 =>
    obtain ⟨⟨set,dst⟩,seen,same⟩ := Option.map_eq_some_iff.mp resolved
    obtain ⟨rfl,rfl⟩ := Prod.mk.inj same
    obtain ⟨operands,results,small,value,reads,ran,ran'⟩ := loadTee_exec seen named
    refine ⟨.fused dst set value ?_ reads ran ran' operands,results,small⟩
    intro y same
    rw [same] at operands
    cases operands

end Forms

end TinyWasm
