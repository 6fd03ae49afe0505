import TinyWasm.Instruction

namespace TinyWasm

inductive Encoding where
  | module | component
  deriving DecidableEq, Repr

inductive ParseError where
  | invalidType
  | unsupportedSection (message : String)
  | duplicateSection (message : String)
  | emptySection (message : String)
  | unsupportedOperator (message : String)
  | parseError (message : String) (offset : Nat)
  | invalidEncoding (encoding : Encoding)
  | invalidLocalCount (expected actual : Nat)
  | endNotReached
  | other (message : String)
  deriving DecidableEq, Repr

structure ParserOptions where
  validation : Bool
  optimizeLocalMemoryAllocation : Bool
  optimizeRewrite : Bool
  parserThreads : Option Nat
  deriving DecidableEq, Repr

structure FunctionCode where
  instructions : List Instruction
  data : WasmFunctionData
  locals : ValueCounts
  usesLocalMemory : Bool

-- The bytes of a function body and where they start in the module.
structure FunctionBody where
  bytes : List Byte
  offset : Nat
  deriving DecidableEq, Repr

-- Lowering and optimising one body of a module whose metadata is fixed. `F` is
-- a function the validator has yet to check, `V` and `R` the allocations that
-- its validator and its operator reader hand on to the next body.
structure Lowering (F V R : Type) where
  defaultValidatorAllocs : V
  defaultReaderAllocs : R
  convertModuleCode : FunctionBody → Option (F × V) → R → TypeAddr → Except ParseError (FunctionCode × Option V × R)
  optimizeFunctionCode : FunctionCode → ParserOptions → ValueCounts → FuncAddr → Nat → Except ParseError FunctionCode

-- Reused allocations are empty buffers: what they are decides neither the code
-- nor the error.
structure Lowering.AllocsIrrelevant {F V R : Type} (l : Lowering F V R) : Prop where
  same (body : FunctionBody) (func : Option F) (v v' : V) (r r' : R) (ty : TypeAddr) :
    (l.convertModuleCode body (func.map (·,v)) r ty).map (·.1) =
      (l.convertModuleCode body (func.map (·,v')) r' ty).map (·.1)

end TinyWasm
