import TinyWasm.Store.ItemSizes
import TinyWasm.Interpreter.StraightEffects
import TinyWasm.Fallible

namespace TinyWasm
open Fallible

-- Each group of the tables against the action of its operators.
theorem IntOp.declared_action {op : IntOp} {row : List OperandSize × List OperandSize} (found : op.declared = some row) :
    row = (op.action.inputs,op.action.outputs) := by
  cases op with
  | eqz width | compare width op | unary width op | binary width op | divide width op => cases width <;> cases found <;> rfl
  | add3 width => cases found
  | _ => cases found; rfl

theorem FloatOp.declared_action [Numerics] (op : FloatOp) : op.declared = (op.action.inputs,op.action.outputs) := by
  cases op with
  | compare width op | unary width op | binary width op => cases width <;> rfl
  | convert target source signed | truncSat target source signed | trunc target source signed =>
    cases target <;> cases source <;> rfl
  | _ => rfl

-- A shift takes the vector and the amount from different lanes.
theorem VectorOp.declared_action [Numerics] (op : VectorOp) : (∀ size, op.declared.1.count size = op.action.inputs.count size) ∧
    op.declared.2 = op.action.outputs := by
  cases op <;> refine ⟨fun size => ?_,rfl⟩ <;> cases size <;> rfl

theorem LoadOp.declared_target (op : LoadOp) : op.declared = op.target := by
  cases op <;> rfl

theorem StoreOp.declared_source (op : StoreOp) : op.declared = op.source := by
  cases op <;> rfl

theorem ExtractLaneOp.declared_target (op : ExtractLaneOp) : op.declared = op.target := by
  cases op <;> rfl

theorem ReplaceLaneOp.declared_source (op : ReplaceLaneOp) : op.declared = op.source := by
  cases op <;> rfl

-- The items a module names have in a store the sizes that its metadata gives them.
structure FunctionBuilder.ModuleMetadata.Sized (metadata : FunctionBuilder.ModuleMetadata) (K : Shape) (module : ModuleInstance) :
    Prop where
  globals {global : GlobalAddr} {size : OperandSize} : metadata.globalSize global = .ok size → K.globalSize module global = size
  memories {mem : MemAddr} {size : OperandSize} : metadata.memorySize mem = .ok size → K.memorySize module mem = size
  tables {table : TableAddr} {size : OperandSize} : metadata.tableSize table = .ok size → K.tableSize module table = size

-- The bulk operators of memories count in 32 bits whatever the memory is.
def FunctionBuilder.ModuleMetadata.Narrow (metadata : FunctionBuilder.ModuleMetadata) : Instruction → Prop
  | .memoryInit _ mem | .memoryFill mem => metadata.memorySize mem = .ok .s32
  | .memoryCopy dstMem srcMem => metadata.memorySize dstMem = .ok .s32 ∧ metadata.memorySize srcMem = .ok .s32
  | _ => True

theorem OperandSize.lenArch_size (dst src : MemoryArch) :
    FunctionBuilder.ModuleMetadata.lenSize (.ofArch dst) (.ofArch src) = .ofArch (lenArch dst src) := by
  cases dst <;> cases src <;> rfl

section Agreement
variable [Numerics] {metadata : FunctionBuilder.ModuleMetadata} {K : Shape} {module : ModuleInstance} {i : Instruction}
  {ins outs : List OperandSize}

-- On each lane as many operands and results as the executor takes and leaves.
def Instruction.CountedAs (K : Shape) (module : ModuleInstance) (i : Instruction) (ins outs : List OperandSize) : Prop :=
  ∀ size, ins.count size = (i.operands K module).count size ∧ outs.count size = (i.results K module).count size

-- The tables list the operands from the lowest, the executor pops the highest first.
theorem Instruction.counted_reversed {i : Instruction} :
    i.CountedAs K module (i.operands K module).reverse (i.results K module) :=
  fun size => ⟨(List.reverse_perm _).count_eq size,rfl⟩

theorem Instruction.counted_same {i : Instruction} : i.CountedAs K module (i.operands K module) (i.results K module) :=
  fun _ => ⟨rfl,rfl⟩

theorem Instruction.bulk_counted {i : Instruction} {first second third : OperandSize}
    (three : i.operands K module = [.s32,.s32,.s32]) (none : i.results K module = []) :
    i.CountedAs K module [first,second,third] [] ↔ first = .s32 ∧ second = .s32 ∧ third = .s32 := by
  simp only [CountedAs,three,none,and_true]
  refine ⟨fun counted => ?_,fun ⟨first,second,third⟩ size => by rw [first,second,third]⟩
  have narrow := counted .s32
  revert narrow
  cases first <;> cases second <;> cases third <;> decide

open Instruction
namespace FunctionBuilder.ModuleMetadata

-- An operator that the tables declare does as they say on each lane, but for the
-- bulk operators of a memory of 64 bits.
theorem Declares.counted (declares : metadata.Declares i ins outs)
    (sized : metadata.Sized K module) : i.CountedAs K module ins outs ↔ metadata.Narrow i := by
  cases declares with
  | typedSelectMulti sizes =>
    refine iff_of_true (fun size => ?_) trivial
    simp only [operands,results,List.count_append,List.count_cons,List.count_nil,LaneCounts.count_list,valueCounts,and_true]
    omega
  | row found =>
    cases i <;> simp only [declared,reduceCtorEq,Option.some.injEq,Except.ok.injEq,Prod.mk.injEq,Narrow,iff_true] at found ⊢
    case dataDrop data => cases found.1; cases found.2; exact counted_same
    case elemDrop elem => cases found.1; cases found.2; exact counted_same
    case const width v => cases found.1; cases found.2; exact counted_same
    case refFunc func => cases found.1; cases found.2; exact counted_same
    case refNull type => cases found.1; cases found.2; exact counted_same
    case refIsNull => cases found.1; cases found.2; exact counted_same
    case select size => cases found.1; cases found.2; exact counted_reversed
    case int op =>
      obtain ⟨row,found,same⟩ := Option.map_eq_some_iff.mp found
      cases same
      cases op.declared_action found
      exact counted_same
    case float op =>
      cases op.declared_action.symm.trans found
      exact counted_same
    case vector op =>
      obtain ⟨taken,given⟩ := op.declared_action
      rw [found] at taken given
      cases given
      exact fun size => ⟨taken size,rfl⟩
    case extractLane op lane =>
      cases found.1; cases found.2
      rw [op.declared_target]
      exact counted_same
    case replaceLane op lane =>
      cases found.1; cases found.2
      rw [op.declared_source]
      exact counted_same
    case memoryCopy dstMem srcMem =>
      obtain ⟨dst,dstSize,found⟩ := except_bind_ok found
      obtain ⟨src,srcSize,found⟩ := except_bind_ok found
      cases found
      rw [bulk_counted rfl rfl,dstSize,srcSize,Except.ok.injEq,Except.ok.injEq]
      exact ⟨fun three => ⟨three.1,three.2.1⟩,fun narrow => ⟨narrow.1,narrow.2,if_pos (.inl narrow.1)⟩⟩
    case tableCopy dstTable srcTable =>
      obtain ⟨dst,dstSize,found⟩ := except_bind_ok found
      obtain ⟨src,srcSize,found⟩ := except_bind_ok found
      cases found
      rw [← sized.tables dstSize,← sized.tables srcSize,Shape.tableSize,Shape.tableSize,OperandSize.lenArch_size]
      exact counted_reversed
    -- What is left names one item, whose size the metadata has.
    all_goals obtain ⟨address,size,found⟩ := except_bind_ok found; cases found
    case load.refl op arg =>
      rw [← sized.memories size,op.declared_target]
      exact counted_same
    case store.refl op arg =>
      rw [← sized.memories size,op.declared_source]
      exact counted_reversed
    case memoryInit.refl data mem =>
      rw [bulk_counted rfl rfl,size,Except.ok.injEq]
      exact ⟨fun three => three.1,fun narrow => ⟨narrow,rfl,narrow⟩⟩
    case memoryFill.refl mem =>
      rw [bulk_counted rfl rfl,size,Except.ok.injEq]
      exact ⟨fun three => three.1,fun narrow => ⟨narrow,rfl,narrow⟩⟩
    case loadLane.refl op arg lane => exact sized.memories size ▸ counted_reversed
    case storeLane.refl op arg lane => exact sized.memories size ▸ counted_reversed
    case globalGet.refl global => exact sized.globals size ▸ counted_same
    case memorySize.refl mem => exact sized.memories size ▸ counted_same
    case memoryGrow.refl mem => exact sized.memories size ▸ counted_same
    case tableGet.refl table => exact sized.tables size ▸ counted_same
    case tableSet.refl table => exact sized.tables size ▸ counted_reversed
    case tableSize.refl table => exact sized.tables size ▸ counted_same
    case tableGrow.refl table => exact sized.tables size ▸ counted_same
    case tableFill.refl table => exact sized.tables size ▸ counted_same
    case tableInit.refl elem table => exact sized.tables size ▸ counted_reversed

omit [Numerics] in
theorem Declares.isPlain (declares : metadata.Declares i ins outs) : i.isPlain = true := by
  cases declares with
  | typedSelectMulti sizes => rfl
  | row found => cases i <;> first | rfl | cases found

end FunctionBuilder.ModuleMetadata

end Agreement

section Worlds
variable {w : World} {idx : Nat} {inst : Instance} {m : Module} {codeTypeAddrs : List TypeAddr}

theorem FunctionBuilder.ModuleMetadata.indexedSize_ok {sizes : List OperandSize} {entity : String} {k : Nat} {size : OperandSize}
    (found : indexedSize sizes entity k = .ok size) : sizes[k]? = some size := by
  unfold indexedSize at found
  split at found
  · rename_i there
    cases found
    exact there
  · cases found

theorem TinyWasmValue.Fits.size_eq {v : TinyWasmValue} {ty : WasmType} (fits : v.Fits ty) : v.size = .ofWasmType ty := by
  cases v <;> cases ty <;> first | rfl | cases fits

-- In a store of its instances a module's items have the sizes it was translated under.
theorem World.metadata_sized (globals : w.GlobalsSound) (items : w.ItemsSound) (listed : w.store.moduleInstances[idx]? = some inst)
    (made : w.modules[idx]? = some m) (allocated : m.allocatedMemories = m.memoryTypes) :
    (m.metadata codeTypeAddrs).Sized w.store.state.shape inst.toModuleInstance := by
  have stands := items.stands idx inst m listed made
  constructor
  · intro global size found
    have declared := FunctionBuilder.ModuleMetadata.indexedSize_ok found
    rw [Module.metadata_globals] at declared
    obtain ⟨addr,ty,address,typed,sized⟩ := (stands .global (by decide)).at_ declared
    obtain ⟨g,there,rfl⟩ := Option.map_eq_some_iff.mp typed
    change (inst.globalAddrs[global]?.bind (w.store.state.globals[·]?)).elim .s32 (·.value.size) = size
    rw [show inst.globalAddrs[global]? = some addr from address,Option.bind_some,there]
    exact (globals.fit g (List.mem_of_getElem? there)).size_eq.trans (Option.some.inj sized)
  · intro mem size found
    have declared := FunctionBuilder.ModuleMetadata.indexedSize_ok found
    rw [Module.metadata_memories allocated] at declared
    obtain ⟨addr,ty,address,typed,sized⟩ := (stands .memory (by decide)).at_ declared
    obtain ⟨instance_,there,rfl⟩ := Option.map_eq_some_iff.mp typed
    simp only [Shape.memorySize,show inst.memAddrs[mem]? = some addr from address,Option.bind_some]
    rw [show w.store.state.shape.memories[addr]? = some instance_.kind from (List.getElem?_map ..).trans (by rw [there]; rfl)]
    exact Option.some.inj sized
  · intro table size found
    have declared := FunctionBuilder.ModuleMetadata.indexedSize_ok found
    rw [Module.metadata_tables] at declared
    obtain ⟨addr,ty,address,typed,sized⟩ := (stands .table (by decide)).at_ declared
    obtain ⟨instance_,there,rfl⟩ := Option.map_eq_some_iff.mp typed
    simp only [Shape.tableSize,Shape.tableArch,show inst.tableAddrs[table]? = some addr from address,Option.bind_some]
    rw [show w.store.state.shape.tables[addr]? = some instance_.kind from (List.getElem?_map ..).trans (by rw [there]; rfl)]
    exact Option.some.inj sized

end Worlds

namespace DeclaredEffects

def config : Config := ⟨fun _ => ⟨8,8,false⟩,⟨8,8,false⟩,.perInstruction,.vec,false⟩

def kind : MemoryType := ⟨.i64,0,none,none⟩

def wide : Module := ⟨none,[],[],[],[],[],[],[kind],[],[],[],.lazy⟩

def inst : Instance := ⟨⟨0,[],[],[],[],[0],[],[],[]⟩,0,none,[]⟩

def context : Context := ⟨.new 0 (fun _ => 0) (fun _ => 0),⟨[],⟨[],[]⟩,fun _ => 0,fun _ => 0,fun _ => 0,⟨[],[]⟩⟩,inst.toModuleInstance,config⟩

def world : World where
  store :=
    {Store.new 0 config with
      moduleInstances := [inst]
      state := {State.empty with memories := [⟨kind,.right (.newWithInitialLen 0 .vec),0⟩]}}
  modules := [wide]

end DeclaredEffects

end TinyWasm
