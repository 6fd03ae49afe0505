import TinyWasm.Module
import TinyWasm.Parser.Builder

namespace TinyWasm

def LoadOp.declared : LoadOp → OperandSize
  | .i32Load | .f32Load | .i32Load8S | .i32Load8U | .i32Load16S | .i32Load16U => .s32
  | .i64Load | .f64Load | .i64Load8S | .i64Load8U | .i64Load16S | .i64Load16U | .i64Load32S | .i64Load32U => .s64
  | .v128Load | .v128Load8x8S | .v128Load8x8U | .v128Load16x4S | .v128Load16x4U | .v128Load32x2S | .v128Load32x2U
    | .v128Load8Splat | .v128Load16Splat | .v128Load32Splat | .v128Load64Splat | .v128Load32Zero | .v128Load64Zero => .s128

def StoreOp.declared : StoreOp → OperandSize
  | .f32Store | .i32Store8 | .i32Store16 | .i32Store => .s32
  | .f64Store | .i64Store8 | .i64Store16 | .i64Store32 | .i64Store => .s64
  | .v128Store => .s128

-- Only the optimizer makes an addition of three.
def IntOp.declared : IntOp → Option (List OperandSize × List OperandSize)
  | .eqz .s32 | .unary .s32 _ => some ([.s32],[.s32])
  | .unary .s64 _ | .i64Extend32S => some ([.s64],[.s64])
  | .eqz .s64 | .i32WrapI64 => some ([.s64],[.s32])
  | .i64ExtendI32S | .i64ExtendI32U => some ([.s32],[.s64])
  | .compare .s32 _ | .binary .s32 _ | .divide .s32 _ => some ([.s32,.s32],[.s32])
  | .compare .s64 _ => some ([.s64,.s64],[.s32])
  | .binary .s64 _ | .divide .s64 _ => some ([.s64,.s64],[.s64])
  | .i64Add128 | .i64Sub128 => some ([.s64,.s64,.s64,.s64],[.s64,.s64])
  | .i64MulWideS | .i64MulWideU => some ([.s64,.s64],[.s64,.s64])
  | .add3 _ => none

def FloatOp.declared : FloatOp → List OperandSize × List OperandSize
  | .trunc .s32 .s32 _ | .convert .s32 .s32 _ | .truncSat .s32 .s32 _ | .unary .s32 _ => ([.s32],[.s32])
  | .trunc .s64 .s64 _ | .convert .s64 .s64 _ | .truncSat .s64 .s64 _ | .unary .s64 _ => ([.s64],[.s64])
  | .trunc .s32 .s64 _ | .convert .s32 .s64 _ | .f32DemoteF64 | .truncSat .s32 .s64 _ => ([.s64],[.s32])
  | .trunc .s64 .s32 _ | .convert .s64 .s32 _ | .f64PromoteF32 | .truncSat .s64 .s32 _ => ([.s32],[.s64])
  | .compare .s32 _ | .binary .s32 _ => ([.s32,.s32],[.s32])
  | .compare .s64 _ => ([.s64,.s64],[.s32])
  | .binary .s64 _ => ([.s64,.s64],[.s64])

def VectorOp.declared : VectorOp → List OperandSize × List OperandSize
  | .i8x16Splat | .i16x8Splat | .i32x4Splat | .f32x4Splat => ([.s32],[.s128])
  | .i64x2Splat | .f64x2Splat => ([.s64],[.s128])
  | .v128AnyTrue | .i8x16AllTrue | .i8x16Bitmask | .i16x8AllTrue | .i16x8Bitmask | .i32x4AllTrue | .i32x4Bitmask
    | .i64x2AllTrue | .i64x2Bitmask => ([.s128],[.s32])
  | .i8x16Shl | .i8x16ShrS | .i8x16ShrU | .i16x8Shl | .i16x8ShrS | .i16x8ShrU | .i32x4Shl | .i32x4ShrS | .i32x4ShrU
    | .i64x2Shl | .i64x2ShrS | .i64x2ShrU => ([.s128,.s32],[.s128])
  | .v128Not | .i8x16Abs | .i8x16Neg | .i16x8Abs | .i16x8Neg | .i32x4Abs | .i32x4Neg | .i64x2Abs | .i64x2Neg
    | .i16x8ExtAddPairwiseI8x16S | .i16x8ExtAddPairwiseI8x16U | .i32x4ExtAddPairwiseI16x8S
    | .i32x4ExtAddPairwiseI16x8U | .i16x8ExtendLowI8x16S | .i16x8ExtendLowI8x16U | .i16x8ExtendHighI8x16S
    | .i16x8ExtendHighI8x16U | .i32x4ExtendLowI16x8S | .i32x4ExtendLowI16x8U | .i32x4ExtendHighI16x8S
    | .i32x4ExtendHighI16x8U | .i64x2ExtendLowI32x4S | .i64x2ExtendLowI32x4U | .i64x2ExtendHighI32x4S
    | .i64x2ExtendHighI32x4U | .i8x16Popcnt | .f32x4Ceil | .f32x4Floor | .f32x4Trunc | .f32x4Nearest | .f32x4Abs
    | .f32x4Neg | .f32x4Sqrt | .f64x2Ceil | .f64x2Floor | .f64x2Trunc | .f64x2Nearest | .f64x2Abs | .f64x2Neg
    | .f64x2Sqrt | .i32x4TruncSatF32x4S | .i32x4TruncSatF32x4U | .f32x4ConvertI32x4S | .f32x4ConvertI32x4U
    | .i32x4TruncSatF64x2SZero | .i32x4TruncSatF64x2UZero | .f64x2ConvertLowI32x4S | .f64x2ConvertLowI32x4U
    | .f32x4DemoteF64x2Zero | .f64x2PromoteLowF32x4 | .i32x4RelaxedTruncF32x4S | .i32x4RelaxedTruncF32x4U
    | .i32x4RelaxedTruncF64x2SZero | .i32x4RelaxedTruncF64x2UZero => ([.s128],[.s128])
  | .v128And | .v128AndNot | .v128Or | .v128Xor | .i8x16Swizzle | .i8x16Eq | .i8x16Ne | .i8x16LtS | .i8x16LtU
    | .i8x16GtS | .i8x16GtU | .i8x16LeS | .i8x16LeU | .i8x16GeS | .i8x16GeU | .i16x8Eq | .i16x8Ne | .i16x8LtS
    | .i16x8LtU | .i16x8GtS | .i16x8GtU | .i16x8LeS | .i16x8LeU | .i16x8GeS | .i16x8GeU | .i32x4Eq | .i32x4Ne
    | .i32x4LtS | .i32x4LtU | .i32x4GtS | .i32x4GtU | .i32x4LeS | .i32x4LeU | .i32x4GeS | .i32x4GeU | .i64x2Eq
    | .i64x2Ne | .i64x2LtS | .i64x2GtS | .i64x2LeS | .i64x2GeS | .f32x4Eq | .f32x4Ne | .f32x4Lt | .f32x4Gt
    | .f32x4Le | .f32x4Ge | .f64x2Eq | .f64x2Ne | .f64x2Lt | .f64x2Gt | .f64x2Le | .f64x2Ge | .i8x16Add | .i8x16Sub
    | .i8x16MinS | .i8x16MinU | .i8x16MaxS | .i8x16MaxU | .i8x16NarrowI16x8S | .i8x16NarrowI16x8U | .i8x16AddSatS
    | .i8x16AddSatU | .i8x16SubSatS | .i8x16SubSatU | .i8x16AvgrU | .i16x8Add | .i16x8Sub | .i16x8MinS | .i16x8MinU
    | .i16x8MaxS | .i16x8MaxU | .i16x8NarrowI32x4S | .i16x8NarrowI32x4U | .i16x8AddSatS | .i16x8AddSatU
    | .i16x8SubSatS | .i16x8SubSatU | .i16x8AvgrU | .i16x8Mul | .i32x4Add | .i32x4Sub | .i32x4MinS | .i32x4MinU
    | .i32x4MaxS | .i32x4MaxU | .i32x4Mul | .i64x2Add | .i64x2Sub | .i64x2Mul | .i16x8ExtMulLowI8x16S
    | .i16x8ExtMulLowI8x16U | .i16x8ExtMulHighI8x16S | .i16x8ExtMulHighI8x16U | .i32x4ExtMulLowI16x8S
    | .i32x4ExtMulLowI16x8U | .i32x4ExtMulHighI16x8S | .i32x4ExtMulHighI16x8U | .i64x2ExtMulLowI32x4S
    | .i64x2ExtMulLowI32x4U | .i64x2ExtMulHighI32x4S | .i64x2ExtMulHighI32x4U | .i16x8Q15MulrSatS | .i32x4DotI16x8S
    | .f32x4Add | .f32x4Sub | .f32x4Mul | .f32x4Div | .f32x4Min | .f32x4Max | .f32x4PMin | .f32x4PMax | .f64x2Add
    | .f64x2Sub | .f64x2Mul | .f64x2Div | .f64x2Min | .f64x2Max | .f64x2PMin | .f64x2PMax | .i8x16RelaxedSwizzle
    | .f32x4RelaxedMin | .f32x4RelaxedMax | .f64x2RelaxedMin | .f64x2RelaxedMax | .i16x8RelaxedQ15mulrS
    | .i16x8RelaxedDotI8x16I7x16S => ([.s128,.s128],[.s128])
  | .v128Bitselect | .f32x4RelaxedMadd | .f32x4RelaxedNmadd | .f64x2RelaxedMadd | .f64x2RelaxedNmadd
    | .i8x16RelaxedLaneselect | .i16x8RelaxedLaneselect | .i32x4RelaxedLaneselect | .i64x2RelaxedLaneselect
    | .i32x4RelaxedDotI8x16I7x16AddS => ([.s128,.s128,.s128],[.s128])

def ExtractLaneOp.declared : ExtractLaneOp → OperandSize
  | .i8x16ExtractLaneS | .i8x16ExtractLaneU | .i16x8ExtractLaneS | .i16x8ExtractLaneU | .i32x4ExtractLane
    | .f32x4ExtractLane => .s32
  | .i64x2ExtractLane | .f64x2ExtractLane => .s64

def ReplaceLaneOp.declared : ReplaceLaneOp → OperandSize
  | .i8x16ReplaceLane | .i16x8ReplaceLane | .i32x4ReplaceLane | .f32x4ReplaceLane => .s32
  | .i64x2ReplaceLane | .f64x2ReplaceLane => .s64

namespace FunctionBuilder.ModuleMetadata

-- The sizes of a module's items, those it imports first.
def new (types : List FuncType) (codeTypeAddrs : List TypeAddr) (imports : List Import) (globals : List Global)
    (memories : List MemoryType) (tables : List TableType) : ModuleMetadata where
  signatures := types.map fun ty => ⟨ty.params.map .ofWasmType,ty.results.map .ofWasmType⟩
  functions := (imports.filterMap fun import_ => match import_.kind with | .function type => some type | _ => none) ++ codeTypeAddrs
  globals := (imports.filterMap fun import_ => match import_.kind with | .global ty => some (.ofWasmType ty.ty) | _ => none) ++
    globals.map fun global => .ofWasmType global.ty.ty
  memories := (imports.filterMap fun import_ => match import_.kind with | .memory ty => some (.ofArch ty.arch) | _ => none) ++
    memories.map fun ty => .ofArch ty.arch
  tables := (imports.filterMap fun import_ => match import_.kind with | .table ty => some (.ofArch ty.arch) | _ => none) ++
    tables.map fun ty => .ofArch ty.arch

-- How many elements are copied is counted in the smaller of two sizes.
def lenSize (dst src : OperandSize) : OperandSize := if dst = .s32 ∨ src = .s32 then .s32 else .s64

-- The operands and the results that the operator of an instruction declares: the
-- rows of the lowering tables, and the visits that do as those.
def declared (metadata : ModuleMetadata) : Instruction → Option (Except ParseError (List OperandSize × List OperandSize))
  | .load op arg => some do
    let address ← metadata.memorySize arg.memAddr
    .ok ([address],[op.declared])
  | .store op arg => some do
    let address ← metadata.memorySize arg.memAddr
    .ok ([address,op.declared],[])
  | .loadLane _ arg _ => some do
    let address ← metadata.memorySize arg.memAddr
    .ok ([address,.s128],[.s128])
  | .storeLane _ arg _ => some do
    let address ← metadata.memorySize arg.memAddr
    .ok ([address,.s128],[])
  | .dataDrop _ | .elemDrop _ => some (.ok ([],[]))
  | .const width _ => some (.ok ([],[width.size]))
  | .refFunc _ | .refNull _ => some (.ok ([],[.s32]))
  | .refIsNull => some (.ok ([.s32],[.s32]))
  | .int op => op.declared.map .ok
  | .float op => some (.ok op.declared)
  | .vector op => some (.ok op.declared)
  | .extractLane op _ => some (.ok ([.s128],[op.declared]))
  | .replaceLane op _ => some (.ok ([.s128,op.declared],[.s128]))
  | .globalGet global => some do
    let address ← metadata.globalSize global
    .ok ([],[address])
  | .memorySize mem => some do
    let address ← metadata.memorySize mem
    .ok ([],[address])
  | .memoryGrow mem => some do
    let address ← metadata.memorySize mem
    .ok ([address],[address])
  | .memoryInit _ mem | .memoryFill mem => some do
    let address ← metadata.memorySize mem
    .ok ([address,.s32,address],[])
  | .memoryCopy dstMem srcMem => some do
    let dst ← metadata.memorySize dstMem
    let src ← metadata.memorySize srcMem
    .ok ([dst,src,lenSize dst src],[])
  | .tableGet table => some do
    let address ← metadata.tableSize table
    .ok ([address],[.s32])
  | .tableSet table => some do
    let address ← metadata.tableSize table
    .ok ([address,.s32],[])
  | .tableSize table => some do
    let address ← metadata.tableSize table
    .ok ([],[address])
  | .tableGrow table => some do
    let address ← metadata.tableSize table
    .ok ([.s32,address],[address])
  | .tableFill table => some do
    let address ← metadata.tableSize table
    .ok ([address,.s32,address],[])
  | .tableInit _ table => some do
    let address ← metadata.tableSize table
    .ok ([address,.s32,.s32],[])
  | .tableCopy dstTable srcTable => some do
    let dst ← metadata.tableSize dstTable
    let src ← metadata.tableSize srcTable
    .ok ([dst,src,lenSize dst src],[])
  | .select size => some (.ok ([size,size,.s32],[size]))
  | _ => none

-- A typed select of several values keeps only how many of each size there are.
inductive Declares (metadata : ModuleMetadata) : Instruction → List OperandSize → List OperandSize → Prop where
  | row {i : Instruction} {ins outs : List OperandSize} : metadata.declared i = some (.ok (ins,outs)) → Declares metadata i ins outs
  | typedSelectMulti (sizes : List OperandSize) :
      Declares metadata (.selectMulti (valueCounts sizes)) (sizes ++ sizes ++ [.s32]) sizes

end FunctionBuilder.ModuleMetadata

end TinyWasm
