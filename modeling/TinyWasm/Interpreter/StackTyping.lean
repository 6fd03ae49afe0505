import TinyWasm.Interpreter.RuntimeEffects
import TinyWasm.Store.ItemTypes
import TinyWasm.Interpreter.DeadCodeRuns

namespace TinyWasm
open Exec

-- What passes between two moments of a run leaves of a store's items: its functions
-- with a body are the same, and no item has become one of another type.
structure State.Settles (s s' : State) : Prop where
  bodies (addr : FuncAddr) (func : WasmFunction) (owner : ModuleInstanceAddr) :
    s'.funcs[addr]? = some (.wasm func owner) ↔ s.funcs[addr]? = some (.wasm func owner)
  types : s.TypesKept s'
  fit : s.GlobalsFit → s'.GlobalsFit

structure Store.Settles (store store' : Store) : Prop where
  instances : store'.moduleInstances = store.moduleInstances
  state : store.state.Settles store'.state

instance : IsPreorder State State.Settles where
  refl s := ⟨fun _ _ _ => Iff.rfl,.refl s,id⟩
  trans _ _ _ first rest :=
    ⟨fun addr func owner => (rest.bodies addr func owner).trans (first.bodies addr func owner),first.types.trans rest.types,
      rest.fit ∘ first.fit⟩

instance : IsPreorder Store Store.Settles where
  refl _ := ⟨rfl,refl_of State.Settles _⟩
  trans _ _ _ first rest := ⟨rest.instances.trans first.instances,trans_of _ first.state rest.state⟩

theorem State.Settles.of_items {s s' : State} (funcs : s'.funcs = s.funcs) (globals : s'.globals = s.globals)
    (types : s.TypesKept s') : s.Settles s' := by
  refine ⟨fun addr func owner => by rw [funcs],types,fun fit => ?_⟩
  unfold GlobalsFit
  rw [globals]
  exact fit

theorem Store.Settles.of_state {store store' : Store} (state : store'.state = store.state)
    (instances : store'.moduleInstances = store.moduleInstances) : store.Settles store' := by
  refine ⟨instances,?_⟩
  rw [state]
  exact refl_of State.Settles _

-- The items that an instance names are in the store.
structure ModuleInstance.Housed (module : ModuleInstance) (s : State) : Prop where
  funcs : ∀ addr ∈ module.funcAddrs, addr < s.funcs.length
  tables : ∀ addr ∈ module.tableAddrs, addr < s.tables.length
  memories : ∀ addr ∈ module.memAddrs, addr < s.memories.length
  globals : ∀ addr ∈ module.globalAddrs, addr < s.globals.length

section Items
variable {s s' : State} {module : ModuleInstance}

-- An address that is housed has a type, which the later store keeps.
theorem State.TypesKept.func_type (kept : s.TypesKept s') {addr : FuncAddr} (housed : addr < s.funcs.length) :
    s'.funcs[addr]?.map FunctionInstance.ty = s.funcs[addr]?.map FunctionInstance.ty := by
  obtain ⟨f,found⟩ : ∃ f, s.funcs[addr]? = some f := ⟨_,List.getElem?_eq_getElem housed⟩
  have there := kept .func addr (.func f.ty) (by simp only [itemType,found,Option.map_some])
  obtain ⟨f',found',same⟩ := Option.map_eq_some_iff.mp there
  rw [found',found]
  exact congrArg some (ItemType.func.inj same)

theorem State.TypesKept.table_type (kept : s.TypesKept s') {addr : TableAddr} (housed : addr < s.tables.length) :
    s'.shape.tables[addr]? = s.shape.tables[addr]? := by
  obtain ⟨t,found⟩ : ∃ t, s.tables[addr]? = some t := ⟨_,List.getElem?_eq_getElem housed⟩
  have there := kept .table addr (.table t.kind) (by simp only [itemType,found,Option.map_some])
  obtain ⟨t',found',same⟩ := Option.map_eq_some_iff.mp there
  simp only [shape,List.getElem?_map,found',found,Option.map_some]
  exact congrArg some (ItemType.table.inj same)

theorem State.TypesKept.memory_type (kept : s.TypesKept s') {addr : MemAddr} (housed : addr < s.memories.length) :
    s'.shape.memories[addr]? = s.shape.memories[addr]? := by
  obtain ⟨mem,found⟩ : ∃ mem, s.memories[addr]? = some mem := ⟨_,List.getElem?_eq_getElem housed⟩
  have there := kept .memory addr (.memory mem.kind) (by simp only [itemType,found,Option.map_some])
  obtain ⟨mem',found',same⟩ := Option.map_eq_some_iff.mp there
  simp only [shape,List.getElem?_map,found',found,Option.map_some]
  exact congrArg some (ItemType.memory.inj same)

theorem State.TypesKept.global_size (kept : s.TypesKept s') (fit : s.GlobalsFit) (fit' : s'.GlobalsFit) {addr : GlobalAddr}
    (housed : addr < s.globals.length) :
    s'.globals[addr]?.map (fun g => g.value.size) = s.globals[addr]?.map (fun g => g.value.size) := by
  obtain ⟨g,found⟩ : ∃ g, s.globals[addr]? = some g := ⟨_,List.getElem?_eq_getElem housed⟩
  have there := kept .global addr (.global g.ty) (by simp only [itemType,found,Option.map_some])
  obtain ⟨g',found',same⟩ := Option.map_eq_some_iff.mp there
  have same := ItemType.global.inj same
  rw [found',found,Option.map_some,Option.map_some,(fit g (List.mem_of_getElem? found)).size_eq,
    (fit' g' (List.mem_of_getElem? found')).size_eq,same]

-- Two shapes in which the items of an instance have the same sizes.
structure Shape.Alike (K K' : Shape) (module : ModuleInstance) : Prop where
  callees (v : FuncAddr) : K'.calleeType module v = K.calleeType module v
  tables (table : TableAddr) : K'.tableArch module table = K.tableArch module table
  memories (mem : MemAddr) : K'.memorySize module mem = K.memorySize module mem
  globals (global : GlobalAddr) : K'.globalSize module global = K.globalSize module global

theorem ModuleInstance.Housed.alike (housed : module.Housed s) (kept : s.TypesKept s') (fit : s.GlobalsFit)
    (fit' : s'.GlobalsFit) : s.shape.Alike s'.shape module := by
  have elim {α β : Type} {x y : Option α} (f : α → β) (default : β) (same : x.map f = y.map f) : x.elim default f = y.elim default f := by
    cases x <;> cases y <;> first
      | rfl
      | cases same
      | exact Option.some.inj same
  constructor
  · intro v
    unfold Shape.calleeType
    cases named : module.funcAddrs[v]? with
    | none => rfl
    | some addr => exact elim _ _ (kept.func_type (housed.funcs addr (List.mem_of_getElem? named)))
  · intro table
    unfold Shape.tableArch
    cases named : module.tableAddrs[table]? with
    | none => rfl
    | some addr =>
      rw [Option.bind_some,Option.bind_some,kept.table_type (housed.tables addr (List.mem_of_getElem? named))]
  · intro mem
    unfold Shape.memorySize
    cases named : module.memAddrs[mem]? with
    | none => rfl
    | some addr =>
      rw [Option.bind_some,Option.bind_some,kept.memory_type (housed.memories addr (List.mem_of_getElem? named))]
  · intro global
    unfold Shape.globalSize
    cases named : module.globalAddrs[global]? with
    | none => rfl
    | some addr => exact elim _ _ (kept.global_size fit fit' (housed.globals addr (List.mem_of_getElem? named)))

theorem ModuleInstance.Housed.kept (housed : module.Housed s) (kept : s.TypesKept s') : module.Housed s' := by
  have within {α β : Type} {items : List α} {items' : List β} {f : α → ItemType} {g : β → ItemType} {addr : Addr}
      (keeps : ∀ ty, items[addr]?.map f = some ty → items'[addr]?.map g = some ty) (inside : addr < items.length) :
      addr < items'.length := by
    have there := keeps (f (items[addr])) (by rw [List.getElem?_eq_getElem inside]; rfl)
    obtain ⟨_,found,_⟩ := Option.map_eq_some_iff.mp there
    exact (List.getElem?_eq_some_iff.mp found).1
  constructor
  · exact fun addr named => within (kept .func addr) (housed.funcs addr named)
  · exact fun addr named => within (kept .table addr) (housed.tables addr named)
  · exact fun addr named => within (kept .memory addr) (housed.memories addr named)
  · exact fun addr named => within (kept .global addr) (housed.globals addr named)

end Items

section Effects
variable [Numerics] {K K' : Shape} {module : ModuleInstance}

theorem Shape.Alike.operands (alike : K.Alike K' module) (i : Instruction) : i.operands K' module = i.operands K module := by
  cases i <;> simp only [Instruction.operands,Shape.tableSize,alike.tables,alike.memories]

theorem Shape.Alike.results (alike : K.Alike K' module) (i : Instruction) : i.results K' module = i.results K module := by
  cases i <;> simp only [Instruction.results,Shape.tableSize,alike.tables,alike.memories,alike.globals]

theorem Shape.Alike.effects (alike : K.Alike K' module) (func : WasmFunction) : K'.effects module func = K.effects module func := by
  have taken (i : Instruction) : i.taken K' module func = i.taken K module func := by
    cases i <;> simp only [Instruction.taken,Shape.tableSize,alike.callees,alike.tables,alike.operands]
  have given (i : Instruction) : i.given K' module func = i.given K module func := by
    cases i <;> simp only [Instruction.given,alike.callees,alike.results]
  simp only [Shape.effects,taken,given]

-- A body whose lanes are so high at each of its instructions, in a store of the
-- given shape. A host function is called in place of a tail call: where one may be
-- the callee, nothing is known of what comes after.
structure WasmFunction.Typed (K : Shape) (module : ModuleInstance) (func : WasmFunction) (levels : List (Option ValueCounts)) :
    Prop where
  code : LevelCode (K.effects module func) func.instructions func.data.branchTableTargets levels none fun _ => False
  narrow : func.data.branchTableTargets.length ≤ 2 ^ 32
  params : func.params = valueCounts func.ty.signature.params
  results : func.results = valueCounts func.ty.signature.results
  locals (size : OperandSize) : func.params size ≤ func.locals size
  globals (size : OperandSize) (global : GlobalAddr) : .globalSet size global ∈ func.instructions → K.globalSize module global = size
  void : .returnVoid ∈ func.instructions → ∀ size, func.results size = 0
  one (size : OperandSize) : .returnOne size ∈ func.instructions → func.results = valueCounts [size]
  guests (v : FuncAddr) : .returnCall v ∈ func.instructions → ∃ addr callee owner, module.funcAddrs[v]? = some addr ∧
    K.funcs[addr]? = some (.wasm callee owner)
  direct (type : TypeAddr) (table : TableAddr) : .returnCallIndirect type table ∉ func.instructions

-- How high the lanes are above the locals at each instruction of each function.
abbrev Levels := FuncAddr → List (Option ValueCounts)

structure Store.Typed (levels : Levels) (store : Store) : Prop where
  fit : store.state.GlobalsFit
  numbered : store.Numbered
  bodies (addr : FuncAddr) (func : WasmFunction) (owner : ModuleInstanceAddr) :
    store.state.funcs[addr]? = some (.wasm func owner) → ∃ inst, store.moduleInstances[owner]? = some inst ∧
      inst.toModuleInstance.Housed store.state ∧ func.Typed store.state.shape inst.toModuleInstance (levels addr)

theorem Store.Settles.typed {store store' : Store} {levels : Levels} (settles : store.Settles store') (typed : store.Typed levels) :
    store'.Typed levels := by
  have fit' := settles.state.fit typed.fit
  refine ⟨fit',?_,fun addr func owner listed => ?_⟩
  · intro idx inst listed
    rw [settles.instances] at listed
    exact typed.numbered idx inst listed
  · obtain ⟨inst,owned,housed,body⟩ := typed.bodies addr func owner ((settles.state.bodies addr func owner).mp listed)
    have alike := housed.alike settles.state.types typed.fit fit'
    refine ⟨inst,settles.instances ▸ owned,housed.kept settles.state.types,?_⟩
    refine ⟨?_,body.narrow,body.params,body.results,body.locals,fun size global set => ?_,body.void,body.one,
      fun v tail => ?_,body.direct⟩
    · rw [alike.effects]
      exact body.code
    · rw [alike.globals]
      exact body.globals size global set
    · obtain ⟨addr,callee,owner,named,found⟩ := body.guests v tail
      exact ⟨addr,callee,owner,named,(settles.state.bodies addr callee owner).mpr found⟩

end Effects

end TinyWasm
