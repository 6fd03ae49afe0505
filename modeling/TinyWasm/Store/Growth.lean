import TinyWasm.Store.World

namespace TinyWasm

-- Nothing is ever taken out of a store, and a function stays what it is.
structure State.Grows (s s' : State) : Prop where
  funcs : s.funcs <+: s'.funcs
  tables : s.tables.length ≤ s'.tables.length
  memories : s.memories.length ≤ s'.memories.length
  globals : s.globals.length ≤ s'.globals.length
  elements : s.elements.length ≤ s'.elements.length
  data : s.data.length ≤ s'.data.length

instance : IsPreorder State State.Grows where
  refl _ := ⟨List.prefix_refl _,Nat.le_refl _,Nat.le_refl _,Nat.le_refl _,Nat.le_refl _,Nat.le_refl _⟩
  trans _ _ _ first rest := ⟨first.funcs.trans rest.funcs,Nat.le_trans first.tables rest.tables,
    Nat.le_trans first.memories rest.memories,Nat.le_trans first.globals rest.globals,
    Nat.le_trans first.elements rest.elements,Nat.le_trans first.data rest.data⟩

-- Every instance bears the number of its place.
def Store.Numbered (store : Store) : Prop :=
  ∀ (idx : Nat) (inst : Instance), store.moduleInstances[idx]? = some inst → inst.idx = idx

structure Store.Grows (store store' : Store) : Prop where
  state : store.state.Grows store'.state
  instances : store.moduleInstances <+: store'.moduleInstances
  numbered : store.Numbered → store'.Numbered

instance : IsPreorder Store Store.Grows where
  refl _ := ⟨refl_of _ _,List.prefix_refl _,id⟩
  trans _ _ _ first rest := ⟨trans_of _ first.state rest.state,first.instances.trans rest.instances,
    rest.numbered ∘ first.numbered⟩

namespace State.Grows
variable {s s' : State}

theorem ofShape (shape : s'.shape = {s.shape with globals := s'.globals}) (globals : s'.globals.length = s.globals.length) :
    s.Grows s' := by
  have funcs : s'.funcs = s.funcs := congrArg Shape.funcs shape
  have tables := congrArg (fun shape => shape.tables.length) shape
  have memories := congrArg (fun shape => shape.memories.length) shape
  have elements : s'.elements.length = s.elements.length := congrArg Shape.elements shape
  have data : s'.data.length = s.data.length := congrArg Shape.data shape
  simp only [State.shape,List.length_map] at tables memories
  exact ⟨funcs ▸ List.prefix_refl _,by omega,by omega,Nat.le_of_eq globals.symm,by omega,by omega⟩

theorem ofSegments (ran : s.SegmentsRan s') : s.Grows s' := by
  obtain ⟨funcs,globals,tables,memories,elements,data⟩ := ran
  exact ⟨funcs ▸ List.prefix_refl _,Nat.le_of_eq tables.symm,Nat.le_of_eq memories.symm,
    Nat.le_of_eq (congrArg _ globals.symm),elements,data⟩

theorem ofHost (changed : s.HostChanged s') : s.Grows s' := by
  cases changed with
  | same => exact refl_of _ _
  | tables grown => exact ⟨List.prefix_refl _,grown,Nat.le_refl _,Nat.le_refl _,Nat.le_refl _,Nat.le_refl _⟩
  | memories grown => exact ⟨List.prefix_refl _,Nat.le_refl _,grown,Nat.le_refl _,Nat.le_refl _,Nat.le_refl _⟩
  | funcs ty id =>
    exact ⟨List.prefix_append _ _,Nat.le_refl _,Nat.le_refl _,Nat.le_refl _,Nat.le_refl _,Nat.le_refl _⟩

theorem add (s : State) (fresh : Fresh) : s.Grows (s.add fresh) :=
  ⟨List.prefix_append _ _,by simp [State.add],by simp [State.add],by simp [State.add],Nat.le_refl _,Nat.le_refl _⟩

end State.Grows

namespace Store.Grows
variable {store store' : Store}

theorem ofState {state : State} (grown : store.state.Grows state) : store.Grows {store with state} :=
  ⟨grown,List.prefix_refl _,fun numbered => numbered⟩

theorem addGlobal (ty : GlobalType) (value : WasmValue) : store.Grows (HostGlobal.new store ty value).2 := by
  unfold HostGlobal.new
  split
  · exact refl_of _ _
  · exact ofState ⟨List.prefix_refl _,Nat.le_refl _,Nat.le_refl _,by simp,Nat.le_refl _,Nat.le_refl _⟩

theorem setGlobal {global : HostGlobal} {value : WasmValue} {r : Except Error Unit}
    (ran : global.set store value = .ok (r,store')) : store.Grows store' := by
  unfold HostGlobal.set HostGlobal.instance_ at ran
  cases owned : global.item.validateStore store with
  | error trap => rw [owned] at ran; cases ran; exact refl_of _ _
  | ok _ =>
    rw [owned] at ran
    cases found : State.at store.state.globals global.item.addr with
    | error abort => rw [found] at ran; cases ran
    | ok g =>
      rw [found] at ran
      simp only [ok_bind] at ran
      split at ran
      · cases ran; exact refl_of _ _
      · split at ran
        · cases ran; exact refl_of _ _
        · cases ran
          exact ofState ⟨List.prefix_refl _,Nat.le_refl _,Nat.le_refl _,Nat.le_of_eq List.length_set.symm,
            Nat.le_refl _,Nat.le_refl _⟩

theorem registered {state : State} {inst : Instance} (grown : store.state.Grows state)
    (number : inst.idx = store.moduleInstances.length) :
    store.Grows {store with state,moduleInstances := store.moduleInstances ++ [inst]} := by
  refine ⟨grown,List.prefix_append _ _,fun numbered idx other listed => ?_⟩
  by_cases before : idx < store.moduleInstances.length
  · rw [List.getElem?_append_left before] at listed
    exact numbered idx other listed
  · have after := Nat.le_of_not_lt before
    rw [List.getElem?_append_right after] at listed
    cases at_end : idx - store.moduleInstances.length with
    | zero =>
      rw [at_end] at listed
      cases listed
      exact number.trans (Nat.le_antisymm after (Nat.le_of_sub_eq_zero at_end))
    | succ n => rw [at_end] at listed; cases listed

variable [Allocator]

theorem host {op : HostOp} {r : Except Error Unit} (ran : op.run store = .ok (r,store')) : store.Grows store' := by
  rcases HostOp.run_cases ran with ⟨ty,value,rfl⟩ | ⟨global,value,rfl⟩ | ⟨state,changed,rfl⟩
  · change HostOp.writes (.ok (HostGlobal.new store ty value)) = _ at ran
    obtain ⟨_,made⟩ := HostOp.writes_ran ran
    obtain rfl := congrArg Prod.snd (Except.ok.inj made)
    exact addGlobal ty value
  · obtain ⟨_,ran⟩ := HostOp.writes_ran ran
    exact setGlobal ran
  · exact ofState (.ofHost changed)

theorem instantiated {m : Module} {imports : Imports} {r : Except Error Instance}
    (instantiated : store.Instantiated m imports r store') : store.Grows store' := by
  cases instantiated with
  | unlinked => exact refl_of _ _
  | items links made => exact ofState (.add _ _)
  | segments links made complete ran => exact ofState (trans_of _ (.add _ _) (.ofSegments (State.initSegments_ran ran)))
  | registered links made complete ran =>
    exact registered (trans_of _ (.add _ _) (.ofSegments (State.initSegments_ran ran))) rfl

variable [Numerics]

theorem executed {ctx : Context} {i : Instruction} {valueStack : ValueStack} {r : Except Trap Unit} {machine : Machine}
    (ran : execStraight ctx i ⟨valueStack,store.state⟩ = .ok (r,machine)) : store.state.Grows machine.state :=
  .ofShape (execStraight_shape ran).1 (execStraight_shape ran).2

end Store.Grows

end TinyWasm
