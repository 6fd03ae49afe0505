import TinyWasm.Interpreter.DeclaredEffects
import TinyWasm.Parser.StackDiscipline

namespace TinyWasm
open Fallible

-- The sizes of what a function takes and of what it gives back.
def FuncType.signature (ty : FuncType) : Signature := ⟨ty.params.map .ofWasmType,ty.results.map .ofWasmType⟩

namespace Shape

def calleeType (K : Shape) (module : ModuleInstance) (func : FuncAddr) : FuncType :=
  (module.funcAddrs[func]?.bind (K.funcs[·]?)).elim ⟨[],[]⟩ FunctionInstance.ty

end Shape

def ModuleInstance.namedType (module : ModuleInstance) (type : TypeAddr) : FuncType := module.types[type]?.getD ⟨[],[]⟩

section Lanes
variable [Numerics] (K : Shape) (module : ModuleInstance) (func : WasmFunction)

-- What an instruction of a function needs on the lanes in a store of the given
-- shape: a call the parameters of its callee, a return the results of the function.
def Instruction.taken : Instruction → List OperandSize
  | .return_ | .returnVoid | .returnOne _ => func.ty.signature.results
  | .call v | .returnCall v => (K.calleeType module v).signature.params
  | .callSelf | .returnCallSelf => func.ty.signature.params
  | .callIndirect type table | .returnCallIndirect type table =>
    (module.namedType type).signature.params ++ [K.tableSize module table]
  | i => i.operands K module

-- What it leaves there. A tail call leaves what its callee gives to the caller.
def Instruction.given : Instruction → List OperandSize
  | .call v | .returnCall v => (K.calleeType module v).signature.results
  | .callSelf | .returnCallSelf => func.ty.signature.results
  | .callIndirect type _ | .returnCallIndirect type _ => (module.namedType type).signature.results
  | i => i.results K module

def Shape.effects : Effects := ⟨fun i => valueCounts (i.taken K module func),fun i => valueCounts (i.given K module func)⟩

end Lanes

-- The items, functions and types that a module names are those its metadata lists.
structure FunctionBuilder.ModuleMetadata.Linked (metadata : FunctionBuilder.ModuleMetadata) (K : Shape) (module : ModuleInstance) :
    Prop extends metadata.Sized K module where
  functions {v : FuncAddr} {signature : Signature} : metadata.functionSignature v = .ok signature →
    (K.calleeType module v).signature = signature
  types {type : TypeAddr} {signature : Signature} : metadata.signature type = .ok signature →
    (module.namedType type).signature = signature

-- An operator that emits an instruction emits one of the tables.
def Operator.Tabled (metadata : FunctionBuilder.ModuleMetadata) : Operator → Prop
  | .row inputs outputs i _ => metadata.Declares i inputs outputs ∧ metadata.Narrow i
  | .effect inputs outputs => ∀ size, inputs.count size = outputs.count size
  | _ => True

section Effects
variable [Numerics] {K : Shape} {module : ModuleInstance} {func : WasmFunction} {metadata : FunctionBuilder.ModuleMetadata}
  {i : Instruction} {ins outs : List OperandSize}

omit [Numerics] in
theorem Effects.room_eq {E : Effects} (other : ∀ shape, i ≠ .dropKeep shape) (c : ValueCounts) :
    E.Room c i ↔ (∀ size, E.takes i size ≤ c size) ∧ (i.tailCalls = true → E.gives i = E.takes .return_) := by
  unfold Room
  split
  · rename_i shape
    exact absurd rfl (other shape)
  · rfl

omit [Numerics] in
theorem Effects.after_eq {E : Effects} (other : ∀ shape, i ≠ .dropKeep shape) (c : ValueCounts) :
    E.after c i = fun size => c size - E.takes i size + E.gives i size := by
  unfold after
  split
  · rename_i shape
    exact absurd rfl (other shape)
  · rfl

namespace Shape

theorem effects_has (other : ∀ shape, i ≠ .dropKeep shape) (taken : ∀ size, (i.taken K module func).count size = ins.count size)
    (given : ∀ size, (i.given K module func).count size = outs.count size)
    (tails : i.tailCalls = true → ∀ size, outs.count size = func.ty.signature.results.count size) :
    (K.effects module func).Has i ins outs := by
  constructor
  · intro c
    rw [Effects.room_eq other]
    constructor
    · intro room size
      rw [← taken size]
      exact room.1 size
    · intro room
      refine ⟨fun size => ?_,fun calls => funext fun size => ?_⟩
      · exact Nat.le_trans (Nat.le_of_eq (taken size)) (room size)
      · exact (given size).trans (tails calls size)
  · intro c
    rw [Effects.after_eq other]
    funext size
    change c size - (i.taken K module func).count size + (i.given K module func).count size = _
    rw [taken size,given size]

theorem effects_own (other : ∀ shape, i ≠ .dropKeep shape) (straight : i.tailCalls = false) (taken : i.taken K module func = ins)
    (given : i.given K module func = outs) : (K.effects module func).Has i ins outs := by
  refine effects_has other (fun size => by rw [taken]) (fun size => by rw [given]) fun calls => ?_
  rw [straight] at calls
  cases calls

-- What the builder takes for the effect of an instruction is what the executor does.
theorem effects_describe (linked : metadata.Linked K module) :
    (K.effects module func).Describes metadata func.ty.signature.results where
  jump t := effects_own nofun rfl rfl rfl
  jumpIfZero t := effects_own nofun rfl rfl rfl
  jumpIfNonZero t := effects_own nofun rfl rfl rfl
  branchTable default first len := effects_own nofun rfl rfl rfl
  unreachable := effects_own nofun rfl rfl rfl
  return_ := effects_own nofun rfl rfl rfl
  call named := by
    have signature := linked.functions named
    refine effects_own nofun rfl ?_ ?_
    · exact congrArg Signature.params signature
    · exact congrArg Signature.results signature
  callIndirect named sized := by
    have signature := linked.types named
    refine effects_own nofun rfl ?_ ?_
    · simp only [Instruction.taken,signature,linked.tables sized]
    · exact congrArg Signature.results signature
  returnCall named same := by
    have signature := linked.functions named
    refine effects_has nofun (fun size => ?_) (fun size => ?_) fun _ _ => rfl
    · simp only [Instruction.taken,signature]
    · simp only [Instruction.given,signature,same]
  returnCallIndirect named same sized := by
    have signature := linked.types named
    refine effects_has nofun (fun size => ?_) (fun size => ?_) fun _ _ => rfl
    · simp only [Instruction.taken,signature,linked.tables sized]
    · simp only [Instruction.given,signature,same]
  const128 c := effects_own nofun rfl rfl rfl
  i8x16Shuffle c := effects_own nofun rfl rfl rfl
  globalSet sized := effects_own nofun rfl rfl rfl
  drop size := effects_own nofun rfl rfl rfl
  select size := by
    refine effects_has nofun (fun other => ?_) (fun other => rfl) fun calls => by cases calls
    simp only [Instruction.taken,Instruction.operands,List.count_cons,List.count_nil]
    omega
  localGet size index := effects_own nofun rfl rfl rfl
  localSet size index := effects_own nofun rfl rfl rfl
  localTee size index := effects_own nofun rfl rfl rfl
  localCopy size src dst := effects_own nofun rfl rfl rfl

end Shape

theorem Instruction.plain_taken (plain : i.isPlain = true) :
    i.taken K module func = i.operands K module ∧ i.given K module func = i.results K module := by
  cases i <;> first
    | exact ⟨rfl,rfl⟩
    | cases plain

omit [Numerics] in
theorem Instruction.plain_straight (plain : i.isPlain = true) : i.tailCalls = false := by
  cases i <;> first
    | rfl
    | cases plain

theorem Operator.Tabled.agrees (linked : metadata.Linked K module) {op : Operator} (tabled : op.Tabled metadata) :
    op.Agrees (K.effects module func) := by
  cases op with
  | row inputs outputs i continues =>
    obtain ⟨declares,narrow⟩ := tabled
    have plain := declares.isPlain
    have counted := (declares.counted linked.toSized).mpr narrow
    obtain ⟨taken,given⟩ := Instruction.plain_taken plain
    refine Shape.effects_has ?_ (fun size => ?_) (fun size => ?_) fun calls => ?_
    · rintro shape rfl
      cases plain
    · rw [taken]
      exact (counted size).1.symm
    · rw [given]
      exact (counted size).2.symm
    · rw [Instruction.plain_straight plain] at calls
      cases calls
  | effect inputs outputs => exact tabled
  | _ => trivial

end Effects

end TinyWasm
