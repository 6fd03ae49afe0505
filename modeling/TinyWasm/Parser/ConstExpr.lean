import TinyWasm.Parser.Code
import TinyWasm.Store.GlobalTyping

namespace TinyWasm

inductive AbstractHeapType where
  | func | externType | any | none | noExtern | noFunc | eq | struct | array | i31 | exn | noExn | cont | noCont
  deriving DecidableEq, Repr

inductive HeapType where
  | abstract (shared : Bool) (ty : AbstractHeapType)
  | concrete (type : TypeAddr)
  | exact (type : TypeAddr)
  deriving DecidableEq, Repr

-- The operators a constant expression is made of; every other one is `other`.
inductive ConstOperator where
  | refNull (hty : HeapType)
  | refFunc (functionIndex : FuncAddr)
  | i32Const (value : Value .s32)
  | i64Const (value : Value .s64)
  | f32Const (value : Value .s32)
  | f64Const (value : Value .s64)
  | v128Const (value : Value .s128)
  | globalGet (globalIndex : GlobalAddr)
  | i32Add | i32Sub | i32Mul
  | i64Add | i64Sub | i64Mul
  | endOp
  | other
  deriving DecidableEq, Repr

-- The texts leave out the types and operators they print.
def convertHeaptype : HeapType → Except ParseError WasmType
  | .abstract false .func => .ok .refFunc
  | .abstract false .externType => .ok .refExtern
  | _ => .error (.unsupportedOperator "Unsupported heap type")

def ConstOperator.convert : ConstOperator → Except ParseError ConstInstruction
  | .refNull hty => do
    match ← convertHeaptype hty with
    | .refFunc => .ok (.refFunc none)
    | .refExtern => .ok (.refExtern none)
    | _ => .error (.unsupportedOperator "Unsupported ref.null heap type lowered")
  | .refFunc functionIndex => .ok (.refFunc (some functionIndex))
  | .i32Const value => .ok (.i32Const value)
  | .i64Const value => .ok (.i64Const value)
  | .f32Const value => .ok (.f32Const value)
  | .f64Const value => .ok (.f64Const value)
  | .v128Const value => .ok (.v128Const value)
  | .globalGet globalIndex => .ok (.globalGet globalIndex)
  | .i32Add => .ok .i32Add
  | .i32Sub => .ok .i32Sub
  | .i32Mul => .ok .i32Mul
  | .i64Add => .ok .i64Add
  | .i64Sub => .ok .i64Sub
  | .i64Mul => .ok .i64Mul
  | .endOp | .other => .error (.unsupportedOperator "Unsupported const instruction")

-- The instructions up to the first end, how many operators were read and whether
-- an end was among them.
def readConstOperators : List (Except ParseError ConstOperator) → Except ParseError (List ConstInstruction × Nat × Bool)
  | [] => .ok ([],0,false)
  | op :: ops => do
    let op ← op
    if op = .endOp then .ok ([],1,true)
    else do
      let instr ← op.convert
      let (out,operatorCount,endReached) ← readConstOperators ops
      .ok (instr :: out,operatorCount + 1,endReached)

def processConstOperators (ops : List (Except ParseError ConstOperator)) : Except ParseError (List ConstInstruction) := do
  let (out,operatorCount,endReached) ← readConstOperators ops
  if operatorCount < 2 ∨ endReached = false then .error (.other "constant expression did not end correctly")
  else .ok out

-- The validator's operand types: references carry their heap type.
inductive ValType where
  | i32 | i64 | f32 | f64 | v128
  | ref (nullable : Bool) (heap : HeapType)
  deriving DecidableEq, Repr

def WasmType.valType : WasmType → ValType
  | .i32 => .i32
  | .i64 => .i64
  | .f32 => .f32
  | .f64 => .f64
  | .v128 => .v128
  | .refFunc => .ref true (.abstract false .func)
  | .refExtern => .ref true (.abstract false .externType)

-- The type above it that the parser lowers. A type of the module is one of
-- functions.
def ValType.supertype : ValType → Option WasmType
  | .i32 => some .i32
  | .i64 => some .i64
  | .f32 => some .f32
  | .f64 => some .f64
  | .v128 => some .v128
  | .ref _ (.concrete _) | .ref _ (.abstract false .func) => some .refFunc
  | .ref _ (.abstract false .externType) => some .refExtern
  | .ref _ _ => none

-- What an expression may name: globals by their types, functions by the index of
-- theirs, and the number of types.
structure ConstContext where
  globals : List WasmType
  functions : List TypeAddr
  types : Nat

-- The validator's features let a null be of an abstract function or external type
-- or of a concrete type.
def ConstContext.acceptsHeap (ctx : ConstContext) : HeapType → Bool
  | .abstract false .func | .abstract false .externType => true
  | .concrete type => type < ctx.types
  | _ => false

namespace ConstOperator

def validStep (ctx : ConstContext) (stack : List ValType) : ConstOperator → Option (List ValType)
  | .refNull hty => if ctx.acceptsHeap hty then some (.ref true hty :: stack) else none
  | .refFunc functionIndex => ctx.functions[functionIndex]?.map fun type => .ref false (.concrete type) :: stack
  | .i32Const _ => some (.i32 :: stack)
  | .i64Const _ => some (.i64 :: stack)
  | .f32Const _ => some (.f32 :: stack)
  | .f64Const _ => some (.f64 :: stack)
  | .v128Const _ => some (.v128 :: stack)
  | .globalGet globalIndex => ctx.globals[globalIndex]?.map fun ty => ty.valType :: stack
  | .i32Add | .i32Sub | .i32Mul =>
    match stack with
    | .i32 :: .i32 :: rest => some (.i32 :: rest)
    | _ => none
  | .i64Add | .i64Sub | .i64Mul =>
    match stack with
    | .i64 :: .i64 :: rest => some (.i64 :: rest)
    | _ => none
  | .endOp | .other => none

-- A null of a type that the parser lowers.
def lowered : ConstOperator → Bool
  | .refNull hty => hty = .abstract false .func ∨ hty = .abstract false .externType
  | _ => true

end ConstOperator

-- One value of the declared type, and one end.
structure ConstValid (ctx : ConstContext) (ops : List ConstOperator) (ty : WasmType) : Prop where
  typed : ∃ body result, ops = body ++ [.endOp] ∧ body.foldlM (ConstOperator.validStep ctx) [] = some [result] ∧
    result.supertype = some ty

namespace ConstOperator
variable {ctx : ConstContext} {op : ConstOperator} {stack stack' : List ValType}

theorem converts (valid : op.validStep ctx stack = some stack') :
    (op.lowered = true ∧ op ≠ .endOp ∧ ∃ instr, op.convert = .ok instr) ∨
    (op.lowered = false ∧ op ≠ .endOp ∧ op.convert = .error (.unsupportedOperator "Unsupported heap type")) := by
  cases op with
  | refNull hty =>
    simp only [validStep] at valid
    split at valid
    · rename_i accepted
      unfold ConstContext.acceptsHeap at accepted
      split at accepted
      · exact .inl ⟨rfl,nofun,_,rfl⟩
      · exact .inl ⟨rfl,nofun,_,rfl⟩
      · exact .inr ⟨rfl,nofun,rfl⟩
      · cases accepted
    · cases valid
  | endOp | other => cases valid
  | refFunc _ | i32Const _ | i64Const _ | f32Const _ | f64Const _ | v128Const _ | globalGet _ =>
    exact .inl ⟨rfl,nofun,_,rfl⟩
  | i32Add | i32Sub | i32Mul | i64Add | i64Sub | i64Mul => exact .inl ⟨rfl,nofun,_,rfl⟩

theorem readConstOperators_cons (before : op ≠ .endOp) (ops : List (Except ParseError ConstOperator)) :
    readConstOperators (.ok op :: ops) = op.convert >>= fun instr =>
      (readConstOperators ops).map fun (out,operatorCount,endReached) => (instr :: out,operatorCount + 1,endReached) := by
  refine Eq.trans (if_neg before) ?_
  cases op.convert with
  | error error => rfl
  | ok instr => cases readConstOperators ops <;> rfl

theorem mapM_convert_cons {rest : List ConstOperator} {instrs : List ConstInstruction}
    (made : (op :: rest).mapM convert = .ok instrs) :
    ∃ instr following, op.convert = .ok instr ∧ rest.mapM convert = .ok following ∧ instrs = instr :: following := by
  rw [List.mapM_cons] at made
  cases converted : op.convert with
  | error error => rw [converted] at made; cases made
  | ok instr =>
    cases mapped : rest.mapM convert with
    | error error => rw [converted,mapped] at made; cases made
    | ok following =>
      rw [converted,mapped] at made
      cases made
      exact ⟨instr,following,rfl,rfl,rfl⟩

-- All of a validated expression is read, or its first null of an unsupported
-- type stops the reader.
theorem reads_body {body : List ConstOperator} (valid : body.foldlM (validStep ctx) stack = some stack') :
    (body.all lowered = true ∧ ∃ instrs, body.mapM convert = .ok instrs ∧
      readConstOperators ((body ++ [endOp]).map .ok) = .ok (instrs,body.length + 1,true)) ∨
    (body.all lowered = false ∧
      readConstOperators ((body ++ [endOp]).map .ok) = .error (.unsupportedOperator "Unsupported heap type")) := by
  induction body generalizing stack with
  | nil => exact .inl ⟨rfl,[],rfl,rfl⟩
  | cons op rest ih =>
    rw [List.foldlM_cons,Option.bind_eq_bind,Option.bind_eq_some_iff] at valid
    obtain ⟨next,first,later⟩ := valid
    rw [List.cons_append,List.map_cons]
    rcases converts first with ⟨known,before,instr,made⟩ | ⟨unknown,before,failed⟩
    · rw [readConstOperators_cons before,made,List.all_cons,known,Bool.true_and]
      rcases ih later with ⟨all,instrs,mapped,read⟩ | ⟨some_unknown,read⟩
      · refine .inl ⟨all,instr :: instrs,?_,?_⟩
        · rw [List.mapM_cons,made,mapped]
          rfl
        · rw [read]
          rfl
      · refine .inr ⟨some_unknown,?_⟩
        rw [read]
        rfl
    · refine .inr ⟨by rw [List.all_cons,unknown,Bool.false_and],?_⟩
      rw [readConstOperators_cons before,failed]
      rfl

end ConstOperator

theorem WasmType.valType_supertype (ty : WasmType) : ty.valType.supertype = some ty := by
  cases ty <;> rfl

section Typing
variable {ctx : ConstContext} {op : ConstOperator} {instr : ConstInstruction}

-- The lowered types forget the heap types.
def StackFits (types : List ValType) (lowered : List WasmType) : Prop :=
  List.Forall₂ (fun ty lowered => ty.supertype = some lowered) types lowered

theorem StackFits.pair {v : ValType} {ty : WasmType} {rest : List ValType} {lowered : List WasmType}
    (above : v.supertype = some ty) (fits : StackFits (v :: v :: rest) lowered) :
    ∃ below, lowered = ty :: ty :: below ∧ StackFits rest below := by
  cases fits with
  | cons first fits =>
    cases fits with
    | cons second fits =>
      rw [above] at first second
      cases first
      cases second
      exact ⟨_,rfl,fits⟩

theorem ConstOperator.convert_typed {stack stack' : List ValType} {types : List WasmType}
    (valid : op.validStep ctx stack = some stack') (made : op.convert = .ok instr) (fits : StackFits stack types) :
    ∃ types', instr.typeStep ctx.globals types = some types' ∧ StackFits stack' types' := by
  cases op with
  | i32Const v | i64Const v | f32Const v | f64Const v | v128Const v =>
    cases valid
    cases made
    exact ⟨_,rfl,.cons rfl fits⟩
  | refNull hty =>
    simp only [validStep] at valid
    split at valid
    · rename_i accepted
      unfold ConstContext.acceptsHeap at accepted
      split at accepted
      · cases valid; cases made; exact ⟨_,rfl,.cons rfl fits⟩
      · cases valid; cases made; exact ⟨_,rfl,.cons rfl fits⟩
      · cases made
      · cases accepted
    · cases valid
  | refFunc functionIndex =>
    cases made
    obtain ⟨type,_,rfl⟩ := Option.map_eq_some_iff.mp valid
    exact ⟨_,rfl,.cons rfl fits⟩
  | globalGet globalIndex =>
    cases made
    obtain ⟨ty,named,rfl⟩ := Option.map_eq_some_iff.mp valid
    exact ⟨ty :: types,by simp only [ConstInstruction.typeStep,named]; rfl,.cons ty.valType_supertype fits⟩
  | i32Add | i32Sub | i32Mul =>
    cases made
    simp only [validStep] at valid
    split at valid
    · cases valid
      obtain ⟨below,rfl,rest⟩ := fits.pair rfl
      exact ⟨_,rfl,.cons rfl rest⟩
    · cases valid
  | i64Add | i64Sub | i64Mul =>
    cases made
    simp only [validStep] at valid
    split at valid
    · cases valid
      obtain ⟨below,rfl,rest⟩ := fits.pair rfl
      exact ⟨_,rfl,.cons rfl rest⟩
    · cases valid
  | endOp | other => cases valid

theorem ConstOperator.body_typed {body : List ConstOperator} {instrs : List ConstInstruction} {stack stack' : List ValType}
    {types : List WasmType} (valid : body.foldlM (validStep ctx) stack = some stack')
    (made : body.mapM convert = .ok instrs) (fits : StackFits stack types) :
    ∃ types', instrs.foldlM (ConstInstruction.typeStep ctx.globals) types = some types' ∧ StackFits stack' types' := by
  induction body generalizing stack types instrs with
  | nil =>
    cases valid
    cases made
    exact ⟨types,rfl,fits⟩
  | cons op rest ih =>
    rw [List.foldlM_cons,Option.bind_eq_bind,Option.bind_eq_some_iff] at valid
    obtain ⟨next,first,later⟩ := valid
    obtain ⟨instr,following,converted,mapped,rfl⟩ := mapM_convert_cons made
    obtain ⟨middle,stepped,fits⟩ := convert_typed first converted fits
    obtain ⟨types',ran,fits⟩ := ih later mapped fits
    refine ⟨types',?_,fits⟩
    rw [List.foldlM_cons,stepped]
    exact ran

end Typing

-- A lowered expression has the declared type among the lowered ones.
theorem ConstValid.lowered_typed {ctx : ConstContext} {body : List ConstOperator} {instrs : List ConstInstruction} {ty : WasmType}
    (valid : ConstValid ctx (body ++ [.endOp]) ty) (made : body.mapM ConstOperator.convert = .ok instrs) :
    ConstTyped ctx.globals instrs ty := by
  obtain ⟨body',result,same,typed,fits⟩ := valid.typed
  obtain ⟨rfl,_⟩ := List.append_inj' same rfl
  obtain ⟨types,ran,stack⟩ := ConstOperator.body_typed typed made .nil
  cases stack with
  | cons first rest =>
    rw [fits] at first
    cases first
    cases rest
    exact ran

theorem ConstValid.converts {ctx : ConstContext} {ops : List ConstOperator} {ty : WasmType} (valid : ConstValid ctx ops ty) :
    (ops.all ConstOperator.lowered = true ∧ ∃ body instrs, ops = body ++ [.endOp] ∧
      body.mapM ConstOperator.convert = .ok instrs ∧ processConstOperators (ops.map .ok) = .ok instrs) ∨
    (ops.all ConstOperator.lowered = false ∧
      processConstOperators (ops.map .ok) = .error (.unsupportedOperator "Unsupported heap type")) := by
  obtain ⟨body,result,rfl,typed,_⟩ := valid.typed
  have all : (body ++ [ConstOperator.endOp]).all ConstOperator.lowered = body.all ConstOperator.lowered := by
    rw [List.all_append]
    exact Bool.and_true _
  rw [all]
  rcases ConstOperator.reads_body typed with ⟨known,instrs,mapped,read⟩ | ⟨unknown,read⟩
  · refine .inl ⟨known,body,instrs,rfl,mapped,?_⟩
    have several : ¬(body.length + 1 < 2 ∨ true = false) := by
      cases body with
      | nil => cases typed
      | cons op rest => simp
    unfold processConstOperators
    rw [read]
    exact if_neg several
  · refine .inr ⟨unknown,?_⟩
    unfold processConstOperators
    rw [read]
    rfl

end TinyWasm
