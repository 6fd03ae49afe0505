import TinyWasm.Parser.ConstExpr
import TinyWasm.Store.GlobalRuns

namespace TinyWasm

-- Arithmetic on the signed numbers, wrapped to the width.
def wrapping {n : Nat} (op : Int → Int → Int) (lhs rhs : BitVec n) : BitVec n := BitVec.ofInt n (op lhs.toInt rhs.toInt)

theorem wrapping_add {n : Nat} (lhs rhs : BitVec n) : wrapping (· + ·) lhs rhs = lhs + rhs := by
  rw [wrapping,BitVec.ofInt_add,BitVec.ofInt_toInt,BitVec.ofInt_toInt]

theorem wrapping_sub {n : Nat} (lhs rhs : BitVec n) : wrapping (· - ·) lhs rhs = lhs - rhs := by
  rw [wrapping,Int.sub_eq_add_neg,BitVec.ofInt_add,BitVec.ofInt_neg,BitVec.ofInt_toInt,BitVec.ofInt_toInt,
    BitVec.sub_eq_add_neg]

theorem wrapping_mul {n : Nat} (lhs rhs : BitVec n) : wrapping (· * ·) lhs rhs = lhs * rhs := by
  rw [wrapping,BitVec.ofInt_mul,BitVec.ofInt_toInt,BitVec.ofInt_toInt]

namespace ConstOperator

def arith32 (op : Int → Int → Int) : List WasmValue → Option (List WasmValue)
  | .i32 rhs :: .i32 lhs :: rest => some (.i32 (wrapping op lhs rhs) :: rest)
  | _ => none

def arith64 (op : Int → Int → Int) : List WasmValue → Option (List WasmValue)
  | .i64 rhs :: .i64 lhs :: rest => some (.i64 (wrapping op lhs rhs) :: rest)
  | _ => none

-- The plain stack semantics, from the values of the globals and the addresses of
-- the functions. The stack's top is the head of the list.
def meaning (globals : List WasmValue) (funcs : List FuncAddr) (stack : List WasmValue) :
    ConstOperator → Option (List WasmValue)
  | .refNull (.abstract _ .externType) => some (.refExtern .null :: stack)
  | .refNull _ => some (.refFunc .null :: stack)
  | .refFunc functionIndex => funcs[functionIndex]?.map fun addr => .refFunc (.fromAddr (some addr)) :: stack
  | .i32Const value => some (.i32 value :: stack)
  | .i64Const value => some (.i64 value :: stack)
  | .f32Const value => some (.f32 value :: stack)
  | .f64Const value => some (.f64 value :: stack)
  | .v128Const value => some (.v128 value :: stack)
  | .globalGet globalIndex => globals[globalIndex]?.map (· :: stack)
  | .i32Add => arith32 (· + ·) stack
  | .i32Sub => arith32 (· - ·) stack
  | .i32Mul => arith32 (· * ·) stack
  | .i64Add => arith64 (· + ·) stack
  | .i64Sub => arith64 (· - ·) stack
  | .i64Mul => arith64 (· * ·) stack
  | .endOp => some stack
  | .other => none

-- What an expression leaves, if that is one value.
def value (globals : List WasmValue) (funcs : List FuncAddr) (ops : List ConstOperator) : Option WasmValue :=
  match ops.foldlM (meaning globals funcs) [] with
  | some [value] => some value
  | _ => none

end ConstOperator

namespace ConstNames
variable {names : ConstNames}

-- The evaluator without its shortcut for a single instruction.
def evalStack (names : ConstNames) (instrs : List ConstInstruction) : Except Error TinyWasmValue := do
  match ← instrs.foldlM names.step [] with
  | [] => .error (.other "empty const expression")
  | [value] => .ok value
  | _ => .error (.other "const expression did not reduce to single value")

theorem evalSingle_of_step {instr : ConstInstruction} {v : TinyWasmValue} (stepped : names.step [] instr = .ok [v]) :
    names.evalSingle instr = .ok v := by
  have single {x : Except Error TinyWasmValue} (pushed : x.map (· :: []) = .ok [v]) : x = .ok v := by
    cases x with
    | error error => cases pushed
    | ok value => cases pushed; rfl
  cases instr with
  | i32Const _ | f32Const _ | i64Const _ | f64Const _ | v128Const _ => cases stepped; rfl
  | globalGet idx =>
    refine single (Eq.trans ?_ stepped)
    cases names.resolveGlobal idx <;> rfl
  | refFunc func =>
    cases func with
    | none => cases stepped; rfl
    | some idx =>
      have pushed : (names.resolveFunc idx >>= fun addr => .ok [.valueRef (.fromAddr (some addr))]) = .ok [v] := stepped
      have evaluated : names.evalSingle (.refFunc (some idx)) =
        (names.resolveFunc idx >>= fun addr => .ok (.valueRef (.fromAddr (some addr)))) := rfl
      rw [evaluated]
      cases resolved : names.resolveFunc idx with
      | error error => rw [resolved] at pushed; cases pushed
      | ok addr =>
        rw [resolved] at pushed
        exact single pushed
  | refExtern externAddr =>
    cases externAddr with
    | none => cases stepped; rfl
    | some addr => cases stepped
  | i32Add | i32Sub | i32Mul | i64Add | i64Sub | i64Mul => cases stepped

-- A run that leaves one value is what both ways of evaluating give.
theorem eval_of_run {instrs : List ConstInstruction} {v : TinyWasmValue} (ran : instrs.foldlM names.step [] = .ok [v]) :
    names.evalStack instrs = .ok v ∧ names.evalConst instrs = .ok v := by
  have general : names.evalStack instrs = .ok v := by
    unfold evalStack
    rw [ran]
    rfl
  refine ⟨general,?_⟩
  rcases instrs with _ | ⟨instr,_ | ⟨second,rest⟩⟩
  · exact general
  · refine evalSingle_of_step ?_
    rw [List.foldlM_cons] at ran
    cases stepped : names.step [] instr with
    | error error => rw [stepped] at ran; cases ran
    | ok stack => rw [stepped] at ran; exact ran
  · exact general

-- The globals an expression reads are there, each in the variant of its type.
def Holds (names : ConstNames) (globals : List WasmValue) : Prop :=
  ∀ (idx : Nat) (v : WasmValue), globals[idx]? = some v → names.resolveGlobal idx = .ok v.toTinyWasm

end ConstNames

def MemoryArch.addrType : MemoryArch → WasmType
  | .i32 => .i32
  | .i64 => .i64

def MemoryArch.addrValue : (arch : MemoryArch) → Value (.ofArch arch) → WasmValue
  | .i32,offset => .i32 offset
  | .i64,offset => .i64 offset

theorem WasmValue.attach_toTinyWasm (v : WasmValue) : v.toTinyWasm.attachType v.type = some v := by
  cases v with
  | refFunc v | refExtern v => simp only [toTinyWasm,ValueRef.fromAddr_addr]; rfl
  | i32 _ | i64 _ | f32 _ | f64 _ | v128 _ => rfl

-- An offset is the unsigned number of its address type.
theorem WasmValue.addrType_offset (v : WasmValue) {arch : MemoryArch} (same : v.type = arch.addrType) :
    ∃ offset : Value (.ofArch arch), v = arch.addrValue offset ∧
      (match v.toTinyWasm with
        | .value32 i => .ok i.toNat
        | .value64 i => .ok i.toNat
        | _ => .error (.other "expected i32 or i64") : Except Error Nat) = .ok offset.toNat := by
  cases arch with
  | i32 =>
    cases v with
    | i32 offset => exact ⟨offset,rfl,rfl⟩
    | i64 _ | f32 _ | f64 _ | refExtern _ | refFunc _ | v128 _ => cases same
  | i64 =>
    cases v with
    | i64 offset => exact ⟨offset,rfl,rfl⟩
    | i32 _ | f32 _ | f64 _ | refExtern _ | refFunc _ | v128 _ => cases same

def ValuesFit (values : List WasmValue) (types : List ValType) : Prop :=
  List.Forall₂ (fun v ty => ty.supertype = some v.type) values types

-- Where an expression is evaluated: the globals and functions it was validated for.
structure ConstContext.Evaluates (ctx : ConstContext) (names : ConstNames) (globals : List WasmValue) : Prop where
  holds : names.Holds globals
  types : ctx.globals = globals.map (·.type)
  functions : ctx.functions.length ≤ names.funcAddrs.length

section Evaluation
variable {ctx : ConstContext} {names : ConstNames} {globals values : List WasmValue} {types types' : List ValType}

theorem ValuesFit.pair32 {rest : List ValType} (fits : ValuesFit values (.i32 :: .i32 :: rest)) :
    ∃ rhs lhs below, values = .i32 rhs :: .i32 lhs :: below ∧ ValuesFit below rest := by
  cases fits with
  | @cons second _ _ _ first fits =>
    cases fits with
    | @cons lhs _ _ _ next fits =>
      cases second <;> cases first
      cases lhs <;> cases next
      exact ⟨_,_,_,rfl,fits⟩

theorem ValuesFit.pair64 {rest : List ValType} (fits : ValuesFit values (.i64 :: .i64 :: rest)) :
    ∃ rhs lhs below, values = .i64 rhs :: .i64 lhs :: below ∧ ValuesFit below rest := by
  cases fits with
  | @cons second _ _ _ first fits =>
    cases fits with
    | @cons lhs _ _ _ next fits =>
      cases second <;> cases first
      cases lhs <;> cases next
      exact ⟨_,_,_,rfl,fits⟩

-- Each operator does on the evaluator's stack what it means.
theorem ConstOperator.step_meaning {op : ConstOperator} {instr : ConstInstruction} (runs : ctx.Evaluates names globals)
    (valid : op.validStep ctx types = some types') (made : op.convert = .ok instr) (fits : ValuesFit values types) :
    ∃ values', op.meaning globals names.funcAddrs values = some values' ∧
      names.step (values.map WasmValue.toTinyWasm) instr = .ok (values'.map WasmValue.toTinyWasm) ∧
      ValuesFit values' types' := by
  cases op with
  | i32Const v | i64Const v | f32Const v | f64Const v | v128Const v =>
    cases valid
    cases made
    exact ⟨_,rfl,rfl,.cons rfl fits⟩
  | refNull hty =>
    simp only [validStep] at valid
    split at valid
    · rename_i accepted
      unfold ConstContext.acceptsHeap at accepted
      split at accepted
      · cases valid; cases made; exact ⟨_,rfl,rfl,.cons rfl fits⟩
      · cases valid; cases made; exact ⟨_,rfl,rfl,.cons rfl fits⟩
      · cases made
      · cases accepted
    · cases valid
  | refFunc functionIndex =>
    cases made
    obtain ⟨type,known,rfl⟩ := Option.map_eq_some_iff.mp valid
    have within := Nat.lt_of_lt_of_le (List.getElem?_eq_some_iff.mp known).1 runs.functions
    have found : names.funcAddrs[functionIndex]? = some names.funcAddrs[functionIndex] := List.getElem?_eq_getElem within
    have resolved : names.resolveFunc functionIndex = .ok names.funcAddrs[functionIndex] := by
      rw [ConstNames.resolveFunc,found]
    refine ⟨.refFunc (.fromAddr (some names.funcAddrs[functionIndex])) :: values,?_,?_,.cons rfl fits⟩
    · rw [meaning,found]
      rfl
    · rw [ConstNames.step,resolved,List.map_cons,WasmValue.toTinyWasm,ValueRef.fromAddr_addr]
      rfl
  | globalGet globalIndex =>
    cases made
    obtain ⟨ty,named,rfl⟩ := Option.map_eq_some_iff.mp valid
    rw [runs.types,List.getElem?_map,Option.map_eq_some_iff] at named
    obtain ⟨v,found,rfl⟩ := named
    refine ⟨v :: values,?_,?_,.cons v.type.valType_supertype fits⟩
    · rw [meaning,found]
      rfl
    · rw [ConstNames.step,runs.holds globalIndex v found]
      rfl
  | i32Add | i32Sub | i32Mul =>
    cases made
    simp only [validStep] at valid
    split at valid
    · cases valid
      obtain ⟨rhs,lhs,below,rfl,rest⟩ := fits.pair32
      refine ⟨_,rfl,?_,.cons rfl rest⟩
      simp only [wrapping_add,wrapping_sub,wrapping_mul]
      rfl
    · cases valid
  | i64Add | i64Sub | i64Mul =>
    cases made
    simp only [validStep] at valid
    split at valid
    · cases valid
      obtain ⟨rhs,lhs,below,rfl,rest⟩ := fits.pair64
      refine ⟨_,rfl,?_,.cons rfl rest⟩
      simp only [wrapping_add,wrapping_sub,wrapping_mul]
      rfl
    · cases valid
  | endOp | other => cases valid

theorem ConstOperator.body_meaning {body : List ConstOperator} {instrs : List ConstInstruction}
    (runs : ctx.Evaluates names globals) (valid : body.foldlM (validStep ctx) types = some types')
    (made : body.mapM convert = .ok instrs) (fits : ValuesFit values types) :
    ∃ values', body.foldlM (meaning globals names.funcAddrs) values = some values' ∧
      instrs.foldlM names.step (values.map WasmValue.toTinyWasm) = .ok (values'.map WasmValue.toTinyWasm) ∧
      ValuesFit values' types' := by
  induction body generalizing values types instrs with
  | nil =>
    cases valid
    cases made
    exact ⟨values,rfl,rfl,fits⟩
  | cons op rest ih =>
    rw [List.foldlM_cons,Option.bind_eq_bind,Option.bind_eq_some_iff] at valid
    obtain ⟨next,first,later⟩ := valid
    obtain ⟨instr,following,converted,mapped,rfl⟩ := mapM_convert_cons made
    obtain ⟨middle,means,stepped,fits⟩ := step_meaning runs first converted fits
    obtain ⟨values',all,ran,fits⟩ := ih later mapped fits
    refine ⟨values',?_,?_,fits⟩
    · rw [List.foldlM_cons,means]
      exact all
    · rw [List.foldlM_cons,stepped]
      exact ran

-- An expression, the instructions the parser makes of it and the value they
-- evaluate to by either way.
structure ConstEvaluated (names : ConstNames) (globals : List WasmValue) (ops : List ConstOperator)
    (instrs : List ConstInstruction) (ty : WasmType) (v : WasmValue) : Prop where
  converted : processConstOperators (ops.map .ok) = .ok instrs
  means : ConstOperator.value globals names.funcAddrs ops = some v
  type : v.type = ty
  evaluated : names.evalConst instrs = .ok v.toTinyWasm
  general : names.evalStack instrs = .ok v.toTinyWasm
  attached : v.toTinyWasm.attachType ty = some v
  offset : ∀ arch : MemoryArch, ty = arch.addrType →
    ∃ offset : Value (.ofArch arch), v = arch.addrValue offset ∧ names.evalSizeConst instrs = .ok offset.toNat

theorem ConstValid.evaluates {ops : List ConstOperator} {instrs : List ConstInstruction} {ty : WasmType}
    (runs : ctx.Evaluates names globals) (valid : ConstValid ctx ops ty)
    (made : processConstOperators (ops.map .ok) = .ok instrs) : ∃ v, ConstEvaluated names globals ops instrs ty v := by
  rcases valid.converts with ⟨_,body,instrs',rfl,mapped,same⟩ | ⟨_,failed⟩
  · rw [made] at same
    cases same
    obtain ⟨body',result,same,typed,above⟩ := valid.typed
    obtain ⟨rfl,_⟩ := List.append_inj' same rfl
    obtain ⟨values,all,ran,fits⟩ := ConstOperator.body_meaning runs typed mapped .nil
    cases fits with
    | @cons v _ _ _ fits rest =>
      cases rest
      rw [above] at fits
      obtain rfl : ty = v.type := Option.some.inj fits
      obtain ⟨general,evaluated⟩ := ConstNames.eval_of_run ran
      refine ⟨v,made,?_,rfl,evaluated,general,v.attach_toTinyWasm,fun arch same => ?_⟩
      · unfold ConstOperator.value
        rw [List.foldlM_append,all]
        rfl
      · obtain ⟨offset,rfl,read⟩ := v.addrType_offset same
        refine ⟨offset,rfl,?_⟩
        unfold ConstNames.evalSizeConst
        rw [evaluated]
        exact read
  · rw [made] at failed
    cases failed

end Evaluation

end TinyWasm
