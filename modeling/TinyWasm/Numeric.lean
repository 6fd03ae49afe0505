import TinyWasm.Error

namespace TinyWasm

-- `I32LtS` is `compare .s32 .ltS`, `I64Add` is `binary .s64 .add` and so on: the
-- operators of the two integer widths differ in the width alone.
inductive CmpOp where
  | eq | ne | ltS | ltU | gtS | gtU | leS | leU | geS | geU
  deriving DecidableEq, Repr

inductive IntUnary where
  | clz | ctz | popcnt | extend8S | extend16S
  deriving DecidableEq, Repr

inductive IntBinary where
  | add | sub | mul | and | or | xor | shl | shrS | shrU | rotl | rotr
  deriving DecidableEq, Repr

inductive IntDivision where
  | divS | divU | remS | remU
  deriving DecidableEq, Repr

inductive IntOp where
  | eqz (width : ScalarSize)
  | compare (width : ScalarSize) (op : CmpOp)
  | unary (width : ScalarSize) (op : IntUnary)
  | binary (width : ScalarSize) (op : IntBinary)
  | divide (width : ScalarSize) (op : IntDivision)
  | add3 (width : ScalarSize)
  | i64Extend32S | i64ExtendI32S | i64ExtendI32U | i32WrapI64
  | i64Add128 | i64Sub128 | i64MulWideS | i64MulWideU
  deriving DecidableEq, Repr

inductive FloatCmp where
  | eq | ne | lt | gt | le | ge
  deriving DecidableEq, Repr

inductive FloatUnary where
  | abs | neg | ceil | floor | trunc | nearest | sqrt
  deriving DecidableEq, Repr

inductive FloatBinary where
  | add | sub | mul | div | min | max | copysign
  deriving DecidableEq, Repr

-- `F64ConvertI32U` is `convert .s64 .s32 false`, `I32TruncSatF64S` is
-- `truncSat .s32 .s64 true`, `I64TruncF32U` is `trunc .s64 .s32 false`.
inductive FloatOp where
  | compare (width : ScalarSize) (op : FloatCmp)
  | unary (width : ScalarSize) (op : FloatUnary)
  | binary (width : ScalarSize) (op : FloatBinary)
  | convert (target source : ScalarSize) (signed : Bool)
  | truncSat (target source : ScalarSize) (signed : Bool)
  | trunc (target source : ScalarSize) (signed : Bool)
  | f32DemoteF64 | f64PromoteF32
  deriving DecidableEq, Repr

inductive VectorOp where
  | v128Not | v128And | v128AndNot | v128Or | v128Xor | v128Bitselect | v128AnyTrue | i8x16Swizzle
  | i8x16Splat | i8x16Eq | i8x16Ne | i8x16LtS | i8x16LtU | i8x16GtS | i8x16GtU | i8x16LeS | i8x16LeU
  | i8x16GeS | i8x16GeU | i16x8Splat | i16x8Eq | i16x8Ne | i16x8LtS | i16x8LtU | i16x8GtS | i16x8GtU
  | i16x8LeS | i16x8LeU | i16x8GeS | i16x8GeU | i32x4Splat | i32x4Eq | i32x4Ne | i32x4LtS | i32x4LtU
  | i32x4GtS | i32x4GtU | i32x4LeS | i32x4LeU | i32x4GeS | i32x4GeU | i64x2Splat | i64x2Eq | i64x2Ne
  | i64x2LtS | i64x2GtS | i64x2LeS | i64x2GeS | f32x4Splat | f32x4Eq | f32x4Ne | f32x4Lt | f32x4Gt
  | f32x4Le | f32x4Ge | f64x2Splat | f64x2Eq | f64x2Ne | f64x2Lt | f64x2Gt | f64x2Le | f64x2Ge
  | i8x16Abs | i8x16Neg | i8x16AllTrue | i8x16Bitmask | i8x16Shl | i8x16ShrS | i8x16ShrU | i8x16Add
  | i8x16Sub | i8x16MinS | i8x16MinU | i8x16MaxS | i8x16MaxU | i16x8Abs | i16x8Neg | i16x8AllTrue
  | i16x8Bitmask | i16x8Shl | i16x8ShrS | i16x8ShrU | i16x8Add | i16x8Sub | i16x8MinS | i16x8MinU
  | i16x8MaxS | i16x8MaxU | i32x4Abs | i32x4Neg | i32x4AllTrue | i32x4Bitmask | i32x4Shl | i32x4ShrS
  | i32x4ShrU | i32x4Add | i32x4Sub | i32x4MinS | i32x4MinU | i32x4MaxS | i32x4MaxU | i64x2Abs
  | i64x2Neg | i64x2AllTrue | i64x2Bitmask | i64x2Shl | i64x2ShrS | i64x2ShrU | i64x2Add | i64x2Sub
  | i64x2Mul | i8x16NarrowI16x8S | i8x16NarrowI16x8U | i8x16AddSatS | i8x16AddSatU | i8x16SubSatS
  | i8x16SubSatU | i8x16AvgrU | i16x8NarrowI32x4S | i16x8NarrowI32x4U | i16x8AddSatS | i16x8AddSatU
  | i16x8SubSatS | i16x8SubSatU | i16x8AvgrU | i16x8ExtAddPairwiseI8x16S | i16x8ExtAddPairwiseI8x16U
  | i16x8Mul | i32x4ExtAddPairwiseI16x8S | i32x4ExtAddPairwiseI16x8U | i32x4Mul
  | i16x8ExtMulLowI8x16S | i16x8ExtMulLowI8x16U | i16x8ExtMulHighI8x16S | i16x8ExtMulHighI8x16U
  | i32x4ExtMulLowI16x8S | i32x4ExtMulLowI16x8U | i32x4ExtMulHighI16x8S | i32x4ExtMulHighI16x8U
  | i64x2ExtMulLowI32x4S | i64x2ExtMulLowI32x4U | i64x2ExtMulHighI32x4S | i64x2ExtMulHighI32x4U
  | i16x8ExtendLowI8x16S | i16x8ExtendLowI8x16U | i16x8ExtendHighI8x16S | i16x8ExtendHighI8x16U
  | i32x4ExtendLowI16x8S | i32x4ExtendLowI16x8U | i32x4ExtendHighI16x8S | i32x4ExtendHighI16x8U
  | i64x2ExtendLowI32x4S | i64x2ExtendLowI32x4U | i64x2ExtendHighI32x4S | i64x2ExtendHighI32x4U
  | i8x16Popcnt | i16x8Q15MulrSatS | i32x4DotI16x8S | f32x4Ceil | f32x4Floor | f32x4Trunc
  | f32x4Nearest | f32x4Abs | f32x4Neg | f32x4Sqrt | f32x4Add | f32x4Sub | f32x4Mul | f32x4Div
  | f32x4Min | f32x4Max | f32x4PMin | f32x4PMax | f64x2Ceil | f64x2Floor | f64x2Trunc | f64x2Nearest
  | f64x2Abs | f64x2Neg | f64x2Sqrt | f64x2Add | f64x2Sub | f64x2Mul | f64x2Div | f64x2Min
  | f64x2Max | f64x2PMin | f64x2PMax | i32x4TruncSatF32x4S | i32x4TruncSatF32x4U
  | f32x4ConvertI32x4S | f32x4ConvertI32x4U | i32x4TruncSatF64x2SZero | i32x4TruncSatF64x2UZero
  | f64x2ConvertLowI32x4S | f64x2ConvertLowI32x4U | f32x4DemoteF64x2Zero | f64x2PromoteLowF32x4
  | i8x16RelaxedSwizzle | i32x4RelaxedTruncF32x4S | i32x4RelaxedTruncF32x4U
  | i32x4RelaxedTruncF64x2SZero | i32x4RelaxedTruncF64x2UZero | f32x4RelaxedMadd | f32x4RelaxedNmadd
  | f64x2RelaxedMadd | f64x2RelaxedNmadd | i8x16RelaxedLaneselect | i16x8RelaxedLaneselect
  | i32x4RelaxedLaneselect | i64x2RelaxedLaneselect | f32x4RelaxedMin | f32x4RelaxedMax
  | f64x2RelaxedMin | f64x2RelaxedMax | i16x8RelaxedQ15mulrS | i16x8RelaxedDotI8x16I7x16S
  | i32x4RelaxedDotI8x16I7x16AddS
  deriving DecidableEq, Repr

inductive ExtractLaneOp where
  | i8x16ExtractLaneS | i8x16ExtractLaneU | i16x8ExtractLaneS | i16x8ExtractLaneU | i32x4ExtractLane
  | i64x2ExtractLane | f32x4ExtractLane | f64x2ExtractLane
  deriving DecidableEq, Repr

inductive ReplaceLaneOp where
  | i8x16ReplaceLane | i16x8ReplaceLane | i32x4ReplaceLane | i64x2ReplaceLane | f32x4ReplaceLane
  | f64x2ReplaceLane
  deriving DecidableEq, Repr

-- The operators of the fused forms.
inductive BinOp where
  | iAdd | iSub | iMul | iAnd | iOr | iXor | iShl | iShrS | iShrU | iRotl | iRotr
  | fAdd | fSub | fMul | fDiv | fMin | fMax | fCopysign
  deriving DecidableEq, Repr

inductive BinOp128 where
  | and | andNot | or | xor | i64x2Add | i64x2Mul
  deriving DecidableEq, Repr

-- Floating-point and vector arithmetic: the operators have their names and
-- operand lanes here, and any function may stand for what they compute.
class Numerics where
  floatUnary (op : FloatOp) (source target : OperandSize) : Value source → Value target
  floatBinary (op : FloatOp) (source target : OperandSize) : Value source → Value source → Value target
  floatTrunc (op : FloatOp) (source target : OperandSize) : Value source → Except Trap (Value target)
  vectorUnary (op : VectorOp) (source target : OperandSize) : Value source → Value target
  vectorBinary (op : VectorOp) (lhs rhs target : OperandSize) : Value lhs → Value rhs → Value target
  vectorTernary (op : VectorOp) : Value .s128 → Value .s128 → Value .s128 → Value .s128
  extractLane (op : ExtractLaneOp) (lane : Nat) (target : OperandSize) : Value .s128 → Value target
  replaceLane (op : ReplaceLaneOp) (lane : Nat) (source : OperandSize) : Value source → Value .s128 → Value .s128
  i8x16Shuffle : Value .s128 → Value .s128 → Value .s128 → Value .s128

-- Enough for code without floats and vectors.
abbrev Numerics.zeros : Numerics where
  floatUnary _ _ _ _ := 0
  floatBinary _ _ _ _ _ := 0
  floatTrunc _ _ _ _ := .ok 0
  vectorUnary _ _ _ _ := 0
  vectorBinary _ _ _ _ _ _ := 0
  vectorTernary _ _ _ _ := 0
  extractLane _ _ _ _ := 0
  replaceLane _ _ _ _ _ := 0
  i8x16Shuffle _ _ _ := 0

-- What an operator pops, the last operand first, and what it pushes.
inductive NumAction where
  | unary (source target : OperandSize) (f : Value source → Value target)
  | unaryTry (source target : OperandSize) (f : Value source → Except Trap (Value target))
  | binary (lhs rhs target : OperandSize) (f : Value lhs → Value rhs → Value target)
  | binaryTry (size : OperandSize) (f : Value size → Value size → Except Trap (Value size))
  | ternary (size : OperandSize) (f : Value size → Value size → Value size → Value size)
  | binaryInto2 (source target : OperandSize) (f : Value source → Value source → Value target × Value target)
  | quaternaryInto2 (source target : OperandSize)
      (f : Value source → Value source → Value source → Value source → Value target × Value target)

-- The operand and result lanes, bottom first.
def NumAction.inputs : NumAction → List OperandSize
  | unary source _ _ | unaryTry source _ _ => [source]
  | binary lhs rhs _ _ => [lhs,rhs]
  | binaryTry size _ => [size,size]
  | ternary size _ => [size,size,size]
  | binaryInto2 source _ _ => [source,source]
  | quaternaryInto2 source _ _ => [source,source,source,source]

def NumAction.outputs : NumAction → List OperandSize
  | unary _ target _ | unaryTry _ target _ | binary _ _ target _ => [target]
  | binaryTry size _ | ternary size _ => [size]
  | binaryInto2 _ target _ | quaternaryInto2 _ target _ => [target,target]

section Integers
variable {w : Nat}

def boolValue (b : Bool) : Value .s32 := if b then 1 else 0

def CmpOp.eval (op : CmpOp) (lhs rhs : BitVec w) : Bool :=
  match op with
  | eq => lhs == rhs
  | ne => lhs != rhs
  | ltS => lhs.slt rhs
  | ltU => lhs.ult rhs
  | gtS => rhs.slt lhs
  | gtU => rhs.ult lhs
  | leS => lhs.sle rhs
  | leU => lhs.ule rhs
  | geS => rhs.sle lhs
  | geU => rhs.ule lhs

def IntUnary.eval (op : IntUnary) (v : BitVec w) : BitVec w :=
  match op with
  | clz => v.clz
  | ctz => v.ctz
  | popcnt => v.cpop
  | extend8S => (v.setWidth 8).signExtend w
  | extend16S => (v.setWidth 16).signExtend w

def IntBinary.eval (op : IntBinary) (lhs rhs : BitVec w) : BitVec w :=
  match op with
  | add => lhs + rhs
  | sub => lhs - rhs
  | mul => lhs * rhs
  | and => lhs &&& rhs
  | or => lhs ||| rhs
  | xor => lhs ^^^ rhs
  | shl => lhs <<< (rhs.toNat % w)
  | shrS => lhs.sshiftRight (rhs.toNat % w)
  | shrU => lhs >>> (rhs.toNat % w)
  | rotl => lhs.rotateLeft (rhs.toNat % w)
  | rotr => lhs.rotateRight (rhs.toNat % w)

-- The signed quotient of the least number by -1 is the one that overflows.
def IntDivision.eval (op : IntDivision) (lhs rhs : BitVec w) : Except Trap (BitVec w) :=
  if rhs = 0 then .error .divisionByZero else
    match op with
    | divS => if lhs = BitVec.intMin w ∧ rhs = -1 then .error .integerOverflow else .ok (lhs.sdiv rhs)
    | divU => .ok (lhs.udiv rhs)
    | remS => .ok (lhs.srem rhs)
    | remU => .ok (lhs.umod rhs)

end Integers

def wideAdd (aLo aHi bLo bHi : Value .s64) : Value .s64 × Value .s64 :=
  let lo := aLo + bLo
  let carry : Value .s64 := if lo.ult aLo then 1 else 0
  (lo,aHi + bHi + carry)

def wideSub (aLo aHi bLo bHi : Value .s64) : Value .s64 × Value .s64 :=
  let borrow : Value .s64 := if aLo.ult bLo then 1 else 0
  (aLo - bLo,aHi - bHi - borrow)

def halves (product : BitVec 128) : Value .s64 × Value .s64 :=
  (product.extractLsb' 0 64,product.extractLsb' 64 64)

def IntOp.action (op : IntOp) : NumAction :=
  match op with
  | eqz width => .unary width.size .s32 fun v => boolValue (v == 0)
  | compare width op => .binary width.size width.size .s32 fun a b => boolValue (op.eval a b)
  | unary width op => .unary width.size width.size op.eval
  | binary width op => .binary width.size width.size width.size op.eval
  | divide width op => .binaryTry width.size op.eval
  | add3 width => .ternary width.size fun a b c => a + b + c
  | i64Extend32S => .unary .s64 .s64 fun v => (v.setWidth 32).signExtend 64
  | i64ExtendI32S => .unary .s32 .s64 fun v => v.signExtend 64
  | i64ExtendI32U => .unary .s32 .s64 fun v => v.setWidth 64
  | i32WrapI64 => .unary .s64 .s32 fun v => v.setWidth 32
  | i64Add128 => .quaternaryInto2 .s64 .s64 wideAdd
  | i64Sub128 => .quaternaryInto2 .s64 .s64 wideSub
  | i64MulWideS => .binaryInto2 .s64 .s64 fun a b => halves (a.signExtend 128 * b.signExtend 128)
  | i64MulWideU => .binaryInto2 .s64 .s64 fun a b => halves (a.setWidth 128 * b.setWidth 128)

def FloatOp.action [Numerics] (op : FloatOp) : NumAction :=
  match op with
  | compare width _ => .binary width.size width.size .s32 (Numerics.floatBinary op width.size .s32)
  | unary width _ => .unary width.size width.size (Numerics.floatUnary op width.size width.size)
  | binary width _ => .binary width.size width.size width.size (Numerics.floatBinary op width.size width.size)
  | convert target source _ | truncSat target source _ =>
    .unary source.size target.size (Numerics.floatUnary op source.size target.size)
  | trunc target source _ => .unaryTry source.size target.size (Numerics.floatTrunc op source.size target.size)
  | f32DemoteF64 => .unary .s64 .s32 (Numerics.floatUnary op .s64 .s32)
  | f64PromoteF32 => .unary .s32 .s64 (Numerics.floatUnary op .s32 .s64)

def VectorOp.action [Numerics] (op : VectorOp) : NumAction :=
  match op with
  | .v128Not | .i8x16Abs | .i8x16Neg | .i16x8Abs | .i16x8Neg | .i32x4Abs | .i32x4Neg | .i64x2Abs
    | .i64x2Neg | .i16x8ExtAddPairwiseI8x16S | .i16x8ExtAddPairwiseI8x16U | .i32x4ExtAddPairwiseI16x8S
    | .i32x4ExtAddPairwiseI16x8U | .i16x8ExtendLowI8x16S | .i16x8ExtendLowI8x16U
    | .i16x8ExtendHighI8x16S | .i16x8ExtendHighI8x16U | .i32x4ExtendLowI16x8S | .i32x4ExtendLowI16x8U
    | .i32x4ExtendHighI16x8S | .i32x4ExtendHighI16x8U | .i64x2ExtendLowI32x4S | .i64x2ExtendLowI32x4U
    | .i64x2ExtendHighI32x4S | .i64x2ExtendHighI32x4U | .i8x16Popcnt | .f32x4Ceil | .f32x4Floor
    | .f32x4Trunc | .f32x4Nearest | .f32x4Abs | .f32x4Neg | .f32x4Sqrt | .f64x2Ceil | .f64x2Floor
    | .f64x2Trunc | .f64x2Nearest | .f64x2Abs | .f64x2Neg | .f64x2Sqrt | .i32x4TruncSatF32x4S
    | .i32x4TruncSatF32x4U | .f32x4ConvertI32x4S | .f32x4ConvertI32x4U | .i32x4TruncSatF64x2SZero
    | .i32x4TruncSatF64x2UZero | .f64x2ConvertLowI32x4S | .f64x2ConvertLowI32x4U
    | .f32x4DemoteF64x2Zero | .f64x2PromoteLowF32x4 | .i32x4RelaxedTruncF32x4S
    | .i32x4RelaxedTruncF32x4U | .i32x4RelaxedTruncF64x2SZero | .i32x4RelaxedTruncF64x2UZero =>
    .unary .s128 .s128 (Numerics.vectorUnary op .s128 .s128)
  | .v128And | .v128AndNot | .v128Or | .v128Xor | .i8x16Swizzle | .i8x16Eq | .i8x16Ne | .i8x16LtS
    | .i8x16LtU | .i8x16GtS | .i8x16GtU | .i8x16LeS | .i8x16LeU | .i8x16GeS | .i8x16GeU | .i16x8Eq
    | .i16x8Ne | .i16x8LtS | .i16x8LtU | .i16x8GtS | .i16x8GtU | .i16x8LeS | .i16x8LeU | .i16x8GeS
    | .i16x8GeU | .i32x4Eq | .i32x4Ne | .i32x4LtS | .i32x4LtU | .i32x4GtS | .i32x4GtU | .i32x4LeS
    | .i32x4LeU | .i32x4GeS | .i32x4GeU | .i64x2Eq | .i64x2Ne | .i64x2LtS | .i64x2GtS | .i64x2LeS
    | .i64x2GeS | .f32x4Eq | .f32x4Ne | .f32x4Lt | .f32x4Gt | .f32x4Le | .f32x4Ge | .f64x2Eq
    | .f64x2Ne | .f64x2Lt | .f64x2Gt | .f64x2Le | .f64x2Ge | .i8x16Add | .i8x16Sub | .i8x16MinS
    | .i8x16MinU | .i8x16MaxS | .i8x16MaxU | .i16x8Add | .i16x8Sub | .i16x8MinS | .i16x8MinU
    | .i16x8MaxS | .i16x8MaxU | .i32x4Add | .i32x4Sub | .i32x4MinS | .i32x4MinU | .i32x4MaxS
    | .i32x4MaxU | .i64x2Add | .i64x2Sub | .i64x2Mul | .i8x16NarrowI16x8S | .i8x16NarrowI16x8U
    | .i8x16AddSatS | .i8x16AddSatU | .i8x16SubSatS | .i8x16SubSatU | .i8x16AvgrU | .i16x8NarrowI32x4S
    | .i16x8NarrowI32x4U | .i16x8AddSatS | .i16x8AddSatU | .i16x8SubSatS | .i16x8SubSatU | .i16x8AvgrU
    | .i16x8Mul | .i32x4Mul | .i16x8ExtMulLowI8x16S | .i16x8ExtMulLowI8x16U | .i16x8ExtMulHighI8x16S
    | .i16x8ExtMulHighI8x16U | .i32x4ExtMulLowI16x8S | .i32x4ExtMulLowI16x8U | .i32x4ExtMulHighI16x8S
    | .i32x4ExtMulHighI16x8U | .i64x2ExtMulLowI32x4S | .i64x2ExtMulLowI32x4U | .i64x2ExtMulHighI32x4S
    | .i64x2ExtMulHighI32x4U | .i16x8Q15MulrSatS | .i32x4DotI16x8S | .f32x4Add | .f32x4Sub | .f32x4Mul
    | .f32x4Div | .f32x4Min | .f32x4Max | .f32x4PMin | .f32x4PMax | .f64x2Add | .f64x2Sub | .f64x2Mul
    | .f64x2Div | .f64x2Min | .f64x2Max | .f64x2PMin | .f64x2PMax | .i8x16RelaxedSwizzle
    | .f32x4RelaxedMin | .f32x4RelaxedMax | .f64x2RelaxedMin | .f64x2RelaxedMax
    | .i16x8RelaxedQ15mulrS | .i16x8RelaxedDotI8x16I7x16S =>
    .binary .s128 .s128 .s128 (Numerics.vectorBinary op .s128 .s128 .s128)
  | .v128Bitselect | .f32x4RelaxedMadd | .f32x4RelaxedNmadd | .f64x2RelaxedMadd | .f64x2RelaxedNmadd
    | .i8x16RelaxedLaneselect | .i16x8RelaxedLaneselect | .i32x4RelaxedLaneselect
    | .i64x2RelaxedLaneselect | .i32x4RelaxedDotI8x16I7x16AddS =>
    .ternary .s128 (Numerics.vectorTernary op)
  | .v128AnyTrue | .i8x16AllTrue | .i8x16Bitmask | .i16x8AllTrue | .i16x8Bitmask | .i32x4AllTrue
    | .i32x4Bitmask | .i64x2AllTrue | .i64x2Bitmask =>
    .unary .s128 .s32 (Numerics.vectorUnary op .s128 .s32)
  | .i8x16Splat | .i16x8Splat | .i32x4Splat | .f32x4Splat =>
    .unary .s32 .s128 (Numerics.vectorUnary op .s32 .s128)
  | .i64x2Splat | .f64x2Splat =>
    .unary .s64 .s128 (Numerics.vectorUnary op .s64 .s128)
  | .i8x16Shl | .i8x16ShrS | .i8x16ShrU | .i16x8Shl | .i16x8ShrS | .i16x8ShrU | .i32x4Shl
    | .i32x4ShrS | .i32x4ShrU | .i64x2Shl | .i64x2ShrS | .i64x2ShrU =>
    .binary .s32 .s128 .s128 (Numerics.vectorBinary op .s32 .s128 .s128)

def ExtractLaneOp.target : ExtractLaneOp → OperandSize
  | .i8x16ExtractLaneS | .i8x16ExtractLaneU | .i16x8ExtractLaneS | .i16x8ExtractLaneU
    | .i32x4ExtractLane | .f32x4ExtractLane => .s32
  | .i64x2ExtractLane | .f64x2ExtractLane => .s64

def ReplaceLaneOp.source : ReplaceLaneOp → OperandSize
  | .i8x16ReplaceLane | .i16x8ReplaceLane | .i32x4ReplaceLane | .f32x4ReplaceLane => .s32
  | .i64x2ReplaceLane | .f64x2ReplaceLane => .s64

-- exec_binop, at the scalar widths and on vectors.
def BinOp.eval [Numerics] (op : BinOp) (width : ScalarSize) : Value width.size → Value width.size → Value width.size :=
  let float (op : FloatBinary) := Numerics.floatBinary (.binary width op) width.size width.size
  match op with
  | iAdd => IntBinary.add.eval
  | iSub => IntBinary.sub.eval
  | iMul => IntBinary.mul.eval
  | iAnd => IntBinary.and.eval
  | iOr => IntBinary.or.eval
  | iXor => IntBinary.xor.eval
  | iShl => IntBinary.shl.eval
  | iShrS => IntBinary.shrS.eval
  | iShrU => IntBinary.shrU.eval
  | iRotl => IntBinary.rotl.eval
  | iRotr => IntBinary.rotr.eval
  | fAdd => float .add
  | fSub => float .sub
  | fMul => float .mul
  | fDiv => float .div
  | fMin => float .min
  | fMax => float .max
  | fCopysign => float .copysign

def BinOp128.eval [Numerics] (op : BinOp128) : Value .s128 → Value .s128 → Value .s128 :=
  match op with
  | and => Numerics.vectorBinary .v128And .s128 .s128 .s128
  | andNot => Numerics.vectorBinary .v128AndNot .s128 .s128 .s128
  | or => Numerics.vectorBinary .v128Or .s128 .s128 .s128
  | xor => Numerics.vectorBinary .v128Xor .s128 .s128 .s128
  | i64x2Add => Numerics.vectorBinary .i64x2Add .s128 .s128 .s128
  | i64x2Mul => Numerics.vectorBinary .i64x2Mul .s128 .s128 .s128

end TinyWasm
