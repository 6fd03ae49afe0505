import TinyWasm.Store.Descriptors
import TinyWasm.Store.GlobalRuns

namespace TinyWasm

-- What a step leaves of a store: its number, its instances and the types of its
-- items.
structure Store.TypesKept (store store' : Store) : Prop where
  id : store'.id = store.id
  state : store.state.TypesKept store'.state

theorem execGlobalSet_types {ctx : Context} {size : OperandSize} {global : GlobalAddr} {m m' : Machine}
    {r : Except Trap Unit} (ran : execGlobalSet ctx size global m = .ok (r,m')) :
    m'.state.globals.map (·.ty) = m.state.globals.map (·.ty) := by
  unfold execGlobalSet at ran
  rcases named : State.at ctx.module.globalAddrs global with abort | addr
  · rw [named] at ran
    cases ran
  rw [named,Exec.ofChecked_bind,Exec.bind_run] at ran
  rcases popped : Machine.pop size m with abort | ⟨answer,m₁⟩
  · rw [popped] at ran
    cases ran
  obtain ⟨_,raw,_,rfl,rfl⟩ := Machine.pop_cases popped
  rw [popped] at ran
  simp only [Exec.get_bind] at ran
  rcases found : State.at m.state.globals addr with abort | g
  · rw [found] at ran
    cases ran
  rw [found,Exec.ofChecked_bind] at ran
  rcases made : globalValue size g.ty.ty raw with abort | value
  · rw [made] at ran
    cases ran
  · rw [made] at ran
    cases ran
    exact map_set_kept _ (State.at_some_iff.mp found) rfl

namespace Store.TypesKept
variable {store store' : Store}

theorem refl (store : Store) : store.TypesKept store := ⟨rfl,.refl _⟩

theorem trans {store₁ store₂ store₃ : Store} (first : store₁.TypesKept store₂) (rest : store₂.TypesKept store₃) :
    store₁.TypesKept store₃ := ⟨rest.id.trans first.id,first.state.trans rest.state⟩

theorem addGlobal (ty : GlobalType) (value : WasmValue) : store.TypesKept (HostGlobal.new store ty value).2 := by
  unfold HostGlobal.new
  split
  · exact .refl _
  · refine ⟨rfl,.of_lists (List.prefix_refl _) (List.prefix_refl _) (List.prefix_refl _) ?_⟩
    simp

theorem setGlobal {global : HostGlobal} {value : WasmValue} {r : Except Error Unit}
    (ran : global.set store value = .ok (r,store')) : store.TypesKept store' := by
  unfold HostGlobal.set HostGlobal.instance_ at ran
  rcases owned : global.item.validateStore store with trap | _
  · rw [owned] at ran
    cases ran
    exact .refl _
  rw [owned] at ran
  rcases found : State.at store.state.globals global.item.addr with abort | g
  · rw [found] at ran
    cases ran
  rw [found] at ran
  simp only [ok_bind] at ran
  split at ran
  · cases ran
    exact .refl _
  split at ran
  · cases ran
    exact .refl _
  · cases ran
    exact ⟨rfl,.setGlobal (State.at_some_iff.mp found) rfl⟩

section Handles
variable {α : Type} {r : Except Error α}

theorem checkedMut {item : StoreItem} {run : Checked (Except Error α × State)}
    (kept : ∀ r state, run = .ok (r,state) → store.state.TypesKept state)
    (ran : item.checkedMut store run = .ok (r,store')) : store.TypesKept store' := by
  unfold StoreItem.checkedMut at ran
  rcases owned : item.validateStore store with trap | _
  · rw [owned] at ran
    cases ran
    exact .refl _
  rw [owned] at ran
  rcases result : run with abort | ⟨answer,state⟩
  · rw [result] at ran
    cases ran
  · rw [result] at ran
    cases ran
    exact ⟨rfl,kept _ _ result⟩

-- A table operation of the host answers or writes the one table.
theorem table {table : Table} {s s' : State} {change : TableInstance → Checked (Except Trap α × State)}
    {r : Except Trap α} (writes : ∀ t r s', s.tables[table.addr]? = some t → change t = .ok (r,s') →
      s' = s ∨ ∃ t', t'.kind = t.kind ∧ s' = {s with tables := s.tables.set table.addr t'})
    (ran : (do change (← State.at s.tables table.addr)) = .ok (r,s')) : s.TypesKept s' := by
  rcases found : State.at s.tables table.addr with abort | t
  · rw [found] at ran
    cases ran
  rw [found,ok_bind] at ran
  have there := State.at_some_iff.mp found
  rcases writes t r s' there ran with rfl | ⟨t',kind,rfl⟩
  · exact .refl _
  · exact .setTable there kind

theorem memory {memory : HostMemory} {change : MemoryInstance → Checked (Except Error α × MemoryInstance)}
    (kind : ∀ mem r mem', change mem = .ok (r,mem') → mem'.kind = mem.kind)
    (ran : memory.update store change = .ok (r,store')) : store.TypesKept store' := by
  refine checkedMut (fun r state changed => ?_) ran
  rcases found : State.at store.state.memories memory.item.addr with abort | mem
  · rw [found] at changed
    cases changed
  rw [found,ok_bind] at changed
  rcases result : change mem with abort | ⟨answer,mem'⟩
  · rw [result] at changed
    cases changed
  · rw [result] at changed
    cases changed
    exact .setMemory (State.at_some_iff.mp found) (kind _ _ _ result)

end Handles

section Tables
variable {table : Table} {s s' : State}

theorem tableSet {index : TableAddr} {value : WasmValue} {r : Except Trap Unit}
    (ran : table.set s index value = .ok (r,s')) : s.TypesKept s' := by
  refine Store.TypesKept.table (fun t r s' _ changed => ?_) ran
  split at changed
  · cases changed
    exact .inl rfl
  · cases changed
    exact .inr ⟨_,t.set_kind _ _,rfl⟩

theorem tableCopyWithin {src dst len : Nat} {r : Except Trap Unit}
    (ran : table.copyWithin s src dst len = .ok (r,s')) : s.TypesKept s' := by
  refine Store.TypesKept.table (fun t r s' _ changed => ?_) ran
  cases changed
  exact .inr ⟨_,t.copyWithin_kind _ _ _,rfl⟩

theorem tableGrow [Allocator] {delta : Int} {init : WasmValue} {r : Except Trap Nat}
    (ran : table.grow s delta init = .ok (r,s')) : s.TypesKept s' := by
  refine Store.TypesKept.table (fun t r s' _ changed => ?_) ran
  split at changed
  · cases changed
    exact .inl rfl
  split at changed
  · cases changed
    exact .inl rfl
  · cases changed
    exact .inr ⟨_,t.grow_kind _ _,rfl⟩

end Tables

variable [Allocator]

theorem tableNew (ty : TableType) (init : WasmValue) : store.TypesKept (HostTable.new store ty init).2 := by
  unfold HostTable.new
  dsimp only
  split
  · exact .refl _
  split
  · exact .refl _
  · refine ⟨rfl,.of_lists (List.prefix_refl _) ?_ (List.prefix_refl _) (List.prefix_refl _)⟩
    simp

theorem memoryNew {ty : MemoryType} {r : Except Error HostMemory} (ran : HostMemory.new store ty = .ok (r,store')) :
    store.TypesKept store' := by
  unfold HostMemory.new at ran
  rcases made : MemoryInstance.new ty store.config.memoryBackend with abort | error | mem
  · rw [made] at ran
    cases ran
  · rw [made] at ran
    cases ran
    exact .refl _
  · rw [made] at ran
    cases ran
    refine ⟨rfl,.of_lists (List.prefix_refl _) (List.prefix_refl _) ?_ (List.prefix_refl _)⟩
    simp

-- A checked write of bytes leaves the kind of its memory alone.
theorem answer_kind {offset len : Nat} {mem mem' : MemoryInstance} {written : Checked (Option Unit × MemoryStorage)}
    {r : Except Error Unit} (ran : HostMemory.answer offset len mem written = .ok (r,mem')) : mem'.kind = mem.kind := by
  rcases written with abort | ⟨_ | _,inner⟩ <;> cases ran <;> rfl

theorem memoryWrite {memory : HostMemory} {offset : Nat} {src : List Byte} {r : Except Error Nat}
    (ran : memory.write store offset src = .ok (r,store')) : store.TypesKept store' := by
  refine Store.TypesKept.memory (fun mem r mem' changed => ?_) ran
  rcases wrote : LinearMemory.write mem.inner offset src with abort | ⟨n,inner⟩
  · rw [wrote] at changed
    cases changed
  · rw [wrote] at changed
    cases changed
    rfl

theorem memoryGrow {memory : HostMemory} {deltaPages : Int} {r : Except Error (Option Nat)}
    (ran : memory.grow store deltaPages = .ok (r,store')) : store.TypesKept store' := by
  refine Store.TypesKept.memory (fun mem r mem' changed => ?_) ran
  rcases grown : mem.grow deltaPages true with abort | ⟨answer,after⟩
  · rw [grown] at changed
    cases changed
  · rw [grown] at changed
    cases changed
    exact MemoryInstance.grow_kind grown

theorem memoryCopyWithin {memory : HostMemory} {src dst len : Nat} {r : Except Error Unit}
    (ran : memory.copyWithin store src dst len = .ok (r,store')) : store.TypesKept store' := by
  refine Store.TypesKept.memory (fun mem r mem' changed => ?_) ran
  rcases copied : mem.copyWithin dst src len with abort | ⟨answer,after⟩
  · rw [copied] at changed
    cases changed
  · rw [copied] at changed
    cases changed
    exact MemoryInstance.copyWithin_kind copied

theorem host {op : HostOp} {r : Except Error Unit} (ran : op.run store = .ok (r,store')) : store.TypesKept store' := by
  cases op with
  | globalTy _ | globalGet _ | tableTy _ | tableSize _ | tableGet _ _ | tableLoad _ _ _ | memoryLen _ | memoryTy _
    | memoryPageCount _ | memoryRead _ _ _ | memoryReadExact _ _ _ | memoryReadVec _ _ _ =>
    obtain rfl := HostOp.reads_same ran
    exact .refl _
  | globalNew ty value =>
    change HostOp.writes (.ok (HostGlobal.new store ty value)) = _ at ran
    obtain ⟨_,made⟩ := HostOp.writes_ran ran
    obtain rfl := congrArg Prod.snd (Except.ok.inj made)
    exact addGlobal ty value
  | globalSet global value =>
    obtain ⟨_,ran⟩ := HostOp.writes_ran ran
    exact setGlobal ran
  | tableNew ty init =>
    change HostOp.writes (.ok (HostTable.new store ty init)) = _ at ran
    obtain ⟨_,made⟩ := HostOp.writes_ran ran
    obtain rfl := congrArg Prod.snd (Except.ok.inj made)
    exact tableNew ty init
  | tableSet table index value =>
    obtain ⟨_,ran⟩ := HostOp.writes_ran ran
    refine checkedMut (fun r state changed => ?_) ran
    rcases set : table.table.set store.state index value with abort | ⟨answer,state'⟩
    · rw [set] at changed
      cases changed
    · rw [set] at changed
      cases changed
      exact tableSet set
  | tableCopyWithin table src dst len =>
    obtain ⟨_,ran⟩ := HostOp.writes_ran ran
    refine checkedMut (fun r state changed => ?_) ran
    rcases copied : table.table.copyWithin store.state src dst len with abort | ⟨answer,state'⟩
    · rw [copied] at changed
      cases changed
    · rw [copied] at changed
      cases changed
      exact tableCopyWithin copied
  | tableGrow table delta init =>
    obtain ⟨_,ran⟩ := HostOp.writes_ran ran
    refine checkedMut (fun r state changed => ?_) ran
    rcases grown : table.table.grow store.state delta init with abort | ⟨answer,state'⟩
    · rw [grown] at changed
      cases changed
    · rw [grown] at changed
      cases changed
      exact tableGrow grown
  | memoryNew ty =>
    obtain ⟨_,ran⟩ := HostOp.writes_ran ran
    exact memoryNew ran
  | memoryWrite memory offset src =>
    obtain ⟨_,ran⟩ := HostOp.writes_ran ran
    exact memoryWrite ran
  | memoryGrow memory deltaPages =>
    obtain ⟨_,ran⟩ := HostOp.writes_ran ran
    exact memoryGrow ran
  | memoryCopyWithin memory src dst len =>
    obtain ⟨_,ran⟩ := HostOp.writes_ran ran
    exact memoryCopyWithin ran
  | memoryFill memory offset len val =>
    obtain ⟨_,ran⟩ := HostOp.writes_ran ran
    exact Store.TypesKept.memory (fun _ _ _ changed => answer_kind changed) ran
  | memoryCopyFromSlice memory offset data =>
    obtain ⟨_,ran⟩ := HostOp.writes_ran ran
    exact Store.TypesKept.memory (fun _ _ _ changed => answer_kind changed) ran
  | functionNew ty id =>
    cases ran
    refine ⟨rfl,.of_lists ?_ (List.prefix_refl _) (List.prefix_refl _) (List.prefix_refl _)⟩
    simp [HostFunction.fromUntyped]

theorem instantiated {m : Module} {imports : Imports} {r : Except Error Instance}
    (instantiated : store.Instantiated m imports r store') : store.TypesKept store' := by
  cases instantiated with
  | unlinked => exact .refl _
  | items links made => exact ⟨rfl,.add _ _⟩
  | segments links made complete ran => exact ⟨rfl,(State.TypesKept.add _ _).trans (State.initSegments_types ran)⟩
  | registered links made complete ran => exact ⟨rfl,(State.TypesKept.add _ _).trans (State.initSegments_types ran)⟩

variable [Numerics]

-- Code writes the values of globals and nothing else of what has a type.
theorem executed {ctx : Context} {i : Instruction} {m m' : Machine} {r : Except Trap Unit}
    (ran : execStraight ctx i m = .ok (r,m')) : m.state.TypesKept m'.state := by
  obtain ⟨same,_⟩ := execStraight_shape ran
  have funcs : m'.state.funcs = m.state.funcs := congrArg Shape.funcs same
  have tables : m'.state.tables.map (·.kind) = m.state.tables.map (·.kind) := congrArg Shape.tables same
  have memories : m'.state.memories.map (·.kind) = m.state.memories.map (·.kind) := congrArg Shape.memories same
  refine .of_same (congrArg _ funcs) tables memories ?_
  by_cases setting : ∃ size global, i = .globalSet size global
  · obtain ⟨size,global,rfl⟩ := setting
    exact execGlobalSet_types ran
  · exact congrArg _ (execStraight_globals (fun size global equal => setting ⟨size,global,equal⟩) ran)

end Store.TypesKept

-- However a host comes by a function, and however long it keeps it, the handle
-- tells the function's type.
namespace Function.Genuine
variable {func : Function}

theorem fromUntyped (store : Store) (ty : FuncType) (id : Nat) :
    (HostFunction.fromUntyped store ty id).1.Genuine (HostFunction.fromUntyped store ty id).2.state := by
  simp [Function.Genuine,HostFunction.fromUntyped,FunctionInstance.ty]

theorem exported {inst : Instance} {store : Store} {addr : FuncAddr} (made : inst.function store addr = .ok func) :
    func.Genuine store.state := by
  unfold Instance.function at made
  rcases found : State.at store.state.funcs addr with abort | f
  · rw [found] at made
    cases made
  · rw [found] at made
    cases made
    simp [Function.Genuine,State.at_some_iff.mp found]

theorem kept {s s' : State} (genuine : func.Genuine s) (kept : s.TypesKept s') : func.Genuine s' := by
  obtain ⟨f,found,type⟩ := Option.map_eq_some_iff.mp genuine
  have there := kept .func func.addr (.func func.ty) (by simp [State.itemType,found,type])
  obtain ⟨f',found',same⟩ := Option.map_eq_some_iff.mp there
  simp [Function.Genuine,found',ItemType.func.inj same]

end Function.Genuine

section Steps
variable [Allocator] [Numerics] {accepted : Module → Prop} {w w' : World}

theorem step_types (step : WorldStep accepted w w') : w.store.TypesKept w'.store := by
  cases step with
  | instantiate valid ran =>
    obtain ⟨store,instantiated,rfl⟩ := World.instantiate_cases ran
    exact .instantiated instantiated
  | host ran => exact .host ran
  | execute listed made body instruction owner ran => exact ⟨rfl,Store.TypesKept.executed ran⟩

theorem run_types (run : WorldRun accepted w w') : w.store.TypesKept w'.store := by
  induction run with
  | refl => exact .refl _
  | tail _ step ih => exact ih.trans (step_types step)

end Steps

end TinyWasm
