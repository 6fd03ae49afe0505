import TinyWasm.Store.HostItems
import TinyWasm.Store.Allocation
import TinyWasm.Interpreter.StraightEffects

namespace TinyWasm

-- A store and the module each of its instances was made from.
structure World where
  store : Store
  modules : List Module

namespace World

def new (id : Nat) (config : Config) : World := ⟨.new id config,[]⟩

-- An instantiation that fails may have registered its instance.
def instantiate [Allocator] (w : World) (m : Module) (imports : Imports) : Checked (Except Error Instance × World) := do
  let (r,store) ← w.store.instantiateNoStart m imports
  let modules := if store.moduleInstances.length = w.store.moduleInstances.length then w.modules else w.modules ++ [m]
  .ok (r,⟨store,modules⟩)

theorem instantiate_cases [Allocator] {w w' : World} {m : Module} {imports : Imports} {r : Except Error Instance}
    (ran : w.instantiate m imports = .ok (r,w')) : ∃ store, w.store.Instantiated m imports r store ∧
      w' = ⟨store,if store.moduleInstances.length = w.store.moduleInstances.length then w.modules else w.modules ++ [m]⟩ := by
  unfold instantiate at ran
  cases instantiated : w.store.instantiateNoStart m imports with
  | error abort => rw [instantiated] at ran; cases ran
  | ok result =>
    rw [instantiated] at ran
    cases ran
    exact ⟨_,Store.instantiateNoStart_cases instantiated,rfl⟩

end World

-- What can happen to a store: an instance runs the code of its module, on any
-- operands and in any frame, and the host comes between any two instructions.
-- Modules are those the parser accepts.
inductive WorldStep [Allocator] [Numerics] (accepted : Module → Prop) (w : World) : World → Prop where
  | instantiate {m imports r w'} (valid : accepted m) (ran : w.instantiate m imports = .ok (r,w')) :
    WorldStep accepted w w'
  | host {op : HostOp} {r store} (ran : op.run w.store = .ok (r,store)) : WorldStep accepted w {w with store}
  | execute {idx : Nat} {inst m func i ctx valueStack r machine} (listed : w.store.moduleInstances[idx]? = some inst)
    (made : w.modules[idx]? = some m) (body : func ∈ m.funcs) (instruction : i ∈ func.instructions)
    (owner : ctx.module = inst.toModuleInstance)
    (ran : execStraight ctx i ⟨valueStack,w.store.state⟩ = .ok (r,machine)) :
    WorldStep accepted w {w with store := {w.store with state := machine.state,valueStack := machine.valueStack}}

def WorldRun [Allocator] [Numerics] (accepted : Module → Prop) : World → World → Prop :=
  Relation.ReflTransGen (WorldStep accepted)

-- What the host leaves of a store when it does not write a global.
inductive State.HostChanged (s : State) : State → Prop where
  | same : HostChanged s s
  | tables {tables} (grown : s.tables.length ≤ tables.length) : HostChanged s {s with tables}
  | memories {memories} (grown : s.memories.length ≤ memories.length) : HostChanged s {s with memories}
  | funcs (ty : FuncType) (id : Nat) : HostChanged s {s with funcs := s.funcs ++ [.host ty id]}

section Host
variable {α : Type} {store store' : Store}

theorem HostOp.reads_same {read : Checked (Except Error α)} {r : Except Error Unit}
    (ran : HostOp.reads store read = .ok (r,store')) : store' = store := by
  cases read with
  | error abort => cases ran
  | ok answer => cases ran; rfl

theorem HostOp.writes_ran {run : Checked (Except Error α × Store)} {r : Except Error Unit}
    (ran : HostOp.writes run = .ok (r,store')) : ∃ answer, run = .ok (answer,store') := by
  cases run with
  | error abort => cases ran
  | ok result => cases ran; exact ⟨_,rfl⟩

theorem StoreItem.checkedMut_changed {item : StoreItem} {run : Checked (Except Error α × State)} {r : Except Error α}
    (changes : ∀ r state, run = .ok (r,state) → store.state.HostChanged state)
    (ran : item.checkedMut store run = .ok (r,store')) :
    ∃ state, store.state.HostChanged state ∧ store' = {store with state} := by
  unfold checkedMut at ran
  cases owned : item.validateStore store with
  | error trap => rw [owned] at ran; cases ran; exact ⟨_,.same,rfl⟩
  | ok _ =>
    rw [owned] at ran
    cases result : run with
    | error abort => rw [result] at ran; cases ran
    | ok answer => rw [result] at ran; cases ran; exact ⟨_,changes _ _ result,rfl⟩

namespace Table
variable {table : Table} {s s' : State}

theorem set_changed {index : TableAddr} {value : WasmValue} {r : Except Trap Unit}
    (ran : table.set s index value = .ok (r,s')) : s.HostChanged s' := by
  unfold set at ran
  cases found : State.at s.tables table.addr with
  | error abort => rw [found] at ran; cases ran
  | ok t =>
    rw [found,ok_bind] at ran
    split at ran
    · cases ran; exact .same
    · cases ran; exact .tables (Nat.le_of_eq List.length_set.symm)

theorem copyWithin_changed {src dst len : Nat} {r : Except Trap Unit}
    (ran : table.copyWithin s src dst len = .ok (r,s')) : s.HostChanged s' := by
  unfold copyWithin at ran
  cases found : State.at s.tables table.addr with
  | error abort => rw [found] at ran; cases ran
  | ok t => rw [found] at ran; cases ran; exact .tables (Nat.le_of_eq List.length_set.symm)

theorem grow_changed [Allocator] {delta : Int} {init : WasmValue} {r : Except Trap Nat}
    (ran : table.grow s delta init = .ok (r,s')) : s.HostChanged s' := by
  unfold grow at ran
  cases found : State.at s.tables table.addr with
  | error abort => rw [found] at ran; cases ran
  | ok t =>
    rw [found,ok_bind] at ran
    split at ran
    · cases ran; exact .same
    · split at ran
      · cases ran; exact .same
      · cases ran; exact .tables (Nat.le_of_eq List.length_set.symm)

end Table

theorem HostMemory.update_changed {memory : HostMemory}
    {change : MemoryInstance → Checked (Except Error α × MemoryInstance)} {r : Except Error α}
    (ran : memory.update store change = .ok (r,store')) :
    ∃ state, store.state.HostChanged state ∧ store' = {store with state} := by
  refine StoreItem.checkedMut_changed (fun r state changed => ?_) ran
  cases found : State.at store.state.memories memory.item.addr with
  | error abort => rw [found] at changed; cases changed
  | ok mem =>
    rw [found,ok_bind] at changed
    cases result : change mem with
    | error abort => rw [result] at changed; cases changed
    | ok answer => rw [result] at changed; cases changed; exact .memories (Nat.le_of_eq List.length_set.symm)

variable [Allocator]

theorem HostTable.new_changed (store : Store) (ty : TableType) (init : WasmValue) :
    ∃ state, store.state.HostChanged state ∧ (HostTable.new store ty init).2 = {store with state} := by
  unfold new
  dsimp only
  split
  · exact ⟨_,.same,rfl⟩
  · split
    · exact ⟨_,.same,rfl⟩
    · exact ⟨_,.tables (by simp),rfl⟩

theorem HostMemory.new_changed {ty : MemoryType} {r : Except Error HostMemory}
    (ran : HostMemory.new store ty = .ok (r,store')) :
    ∃ state, store.state.HostChanged state ∧ store' = {store with state} := by
  unfold new at ran
  cases made : MemoryInstance.new ty store.config.memoryBackend with
  | error abort => rw [made] at ran; cases ran
  | ok result =>
    rw [made] at ran
    cases result with
    | error error => cases ran; exact ⟨_,.same,rfl⟩
    | ok mem => cases ran; exact ⟨_,.memories (by simp),rfl⟩

-- All but the two operations that write a global.
theorem HostOp.run_cases {op : HostOp} {r : Except Error Unit} (ran : op.run store = .ok (r,store')) :
    (∃ ty value, op = .globalNew ty value) ∨ (∃ global value, op = .globalSet global value) ∨
      ∃ state, store.state.HostChanged state ∧ store' = {store with state} := by
  cases op with
  | globalNew ty value => exact .inl ⟨ty,value,rfl⟩
  | globalSet global value => exact .inr (.inl ⟨global,value,rfl⟩)
  | globalTy global | globalGet global | tableTy table | tableSize table | tableGet table index
    | tableLoad table offset len | memoryLen memory | memoryTy memory | memoryPageCount memory
    | memoryRead memory offset len | memoryReadExact memory offset len | memoryReadVec memory offset len =>
    exact .inr (.inr ⟨_,.same,reads_same ran⟩)
  | tableNew ty init =>
    change writes (.ok (HostTable.new store ty init)) = _ at ran
    obtain ⟨_,made⟩ := writes_ran ran
    obtain ⟨state,changed,same⟩ := HostTable.new_changed store ty init
    exact .inr (.inr ⟨state,changed,(congrArg Prod.snd (Except.ok.inj made)).symm.trans same⟩)
  | tableSet table index value =>
    obtain ⟨_,ran⟩ := writes_ran ran
    refine .inr (.inr (StoreItem.checkedMut_changed (fun r state changed => ?_) ran))
    cases set : table.table.set store.state index value with
    | error abort => rw [set] at changed; cases changed
    | ok answer => rw [set] at changed; cases changed; exact Table.set_changed set
  | tableCopyWithin table src dst len =>
    obtain ⟨_,ran⟩ := writes_ran ran
    refine .inr (.inr (StoreItem.checkedMut_changed (fun r state changed => ?_) ran))
    cases copied : table.table.copyWithin store.state src dst len with
    | error abort => rw [copied] at changed; cases changed
    | ok answer => rw [copied] at changed; cases changed; exact Table.copyWithin_changed copied
  | tableGrow table delta init =>
    obtain ⟨_,ran⟩ := writes_ran ran
    refine .inr (.inr (StoreItem.checkedMut_changed (fun r state changed => ?_) ran))
    cases grown : table.table.grow store.state delta init with
    | error abort => rw [grown] at changed; cases changed
    | ok answer => rw [grown] at changed; cases changed; exact Table.grow_changed grown
  | memoryNew ty =>
    obtain ⟨_,ran⟩ := writes_ran ran
    exact .inr (.inr (HostMemory.new_changed ran))
  | memoryWrite memory offset src | memoryGrow memory deltaPages | memoryCopyWithin memory src dst len
    | memoryFill memory offset len val | memoryCopyFromSlice memory offset data =>
    obtain ⟨_,ran⟩ := writes_ran ran
    exact .inr (.inr (HostMemory.update_changed ran))
  | functionNew ty id => cases ran; exact .inr (.inr ⟨_,.funcs ty id,rfl⟩)

end Host

end TinyWasm
