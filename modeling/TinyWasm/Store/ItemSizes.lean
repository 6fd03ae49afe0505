import TinyWasm.Store.ItemViews
import TinyWasm.Parser.LoweringTable

namespace TinyWasm

-- The lane on which an item's value, or an index into the item, is passed.
def ItemType.size : ItemType → Option OperandSize
  | .func _ => none
  | .table ty => some (.ofArch ty.arch)
  | .memory ty => some (.ofArch ty.arch)
  | .global ty => some (.ofWasmType ty.ty)

def ImportKind.sizeIn : ExternalKind → ImportKind → Option OperandSize
  | .table,.table ty => some (.ofArch ty.arch)
  | .memory,.memory ty => some (.ofArch ty.arch)
  | .global,.global ty => some (.ofWasmType ty.ty)
  | _,_ => none

namespace Module

-- What the parser translates the bodies of a module under.
def metadata (m : Module) (codeTypeAddrs : List TypeAddr) : FunctionBuilder.ModuleMetadata :=
  .new m.funcTypes codeTypeAddrs m.imports m.globals m.memoryTypes m.tableTypes

def importedSizes (m : Module) (kind : ExternalKind) : List OperandSize := m.imports.filterMap (·.kind.sizeIn kind)

-- The sizes of the items an instance has under its addresses.
def sizes (m : Module) (kind : ExternalKind) : List OperandSize := m.importedSizes kind ++ (m.madeTypes kind).filterMap ItemType.size

variable {m : Module} {codeTypeAddrs : List TypeAddr}

theorem metadata_globals : (m.metadata codeTypeAddrs).globals = m.sizes .global := by
  simp only [metadata,FunctionBuilder.ModuleMetadata.new,sizes,importedSizes,madeTypes,localTypes,List.filterMap_map]
  congr 1
  · refine congrArg (List.filterMap · m.imports) (funext fun import_ => ?_)
    cases import_.kind <;> rfl
  · exact (List.filterMap_eq_map (f := fun global : Global => OperandSize.ofWasmType global.ty.ty)).symm ▸ rfl

theorem metadata_tables : (m.metadata codeTypeAddrs).tables = m.sizes .table := by
  simp only [metadata,FunctionBuilder.ModuleMetadata.new,sizes,importedSizes,madeTypes,localTypes,List.filterMap_map]
  congr 1
  · refine congrArg (List.filterMap · m.imports) (funext fun import_ => ?_)
    cases import_.kind <;> rfl
  · exact (List.filterMap_eq_map (f := fun ty : TableType => OperandSize.ofArch ty.arch)).symm ▸ rfl

theorem metadata_memories (made : m.allocatedMemories = m.memoryTypes) : (m.metadata codeTypeAddrs).memories = m.sizes .memory := by
  simp only [metadata,FunctionBuilder.ModuleMetadata.new,sizes,importedSizes,madeTypes,made,List.filterMap_map]
  congr 1
  · refine congrArg (List.filterMap · m.imports) (funext fun import_ => ?_)
    cases import_.kind <;> rfl
  · exact (List.filterMap_eq_map (f := fun ty : MemoryType => OperandSize.ofArch ty.arch)).symm ▸ rfl

end Module

-- Under the addresses stand items of the sizes, in this order.
def State.Stands (s : State) (kind : ExternalKind) (addrs : List Addr) (sizes : List OperandSize) : Prop :=
  List.Forall₂ (fun addr size => (s.itemType kind addr).bind ItemType.size = some size) addrs sizes

namespace State.Stands
variable {s s' : State} {kind : ExternalKind} {addrs : List Addr} {sizes : List OperandSize}

theorem kept (stands : s.Stands kind addrs sizes) (kept : s.TypesKept s') : s'.Stands kind addrs sizes := by
  refine List.Forall₂.imp (fun addr size there => ?_) stands
  obtain ⟨ty,found,sized⟩ := Option.bind_eq_some_iff.mp there
  rw [kept kind addr ty found]
  exact sized

theorem at_ {k : Nat} {size : OperandSize} (stands : s.Stands kind addrs sizes) (listed : sizes[k]? = some size) :
    ∃ addr ty, addrs[k]? = some addr ∧ s.itemType kind addr = some ty ∧ ty.size = some size := by
  obtain ⟨addr,address,there⟩ := forall₂_at (List.Forall₂.flip stands) listed
  obtain ⟨ty,found,sized⟩ := Option.bind_eq_some_iff.mp there
  exact ⟨addr,ty,address,found,sized⟩

end State.Stands

namespace Imports
variable {imports : Imports} {store : Store} {m : Module} {import_ : Import} {val : ExternVal} {handle : Option Function}
  {out out' : ResolvedImports} {kind : ExternalKind}

theorem compareTableTypes_arch {expected actual : TableType} (same : compareTableTypes import_ expected actual = .ok ()) :
    expected.arch = actual.arch := by
  obtain ⟨_,alike,_⟩ := Fallible.except_bind_ok same
  exact (compareTypes_ok alike).symm

theorem compareMemoryTypes_arch {expected actual : MemoryType} {realSize : Nat}
    (same : compareMemoryTypes import_ expected actual realSize = .ok ()) : expected.arch = actual.arch := by
  obtain ⟨_,alike,_⟩ := Fallible.except_bind_ok same
  exact compareTypes_ok alike

-- The linker compares the sizes of all but functions, which have none.
theorem linkImport_sizes (item : kind ≠ .func) (linked : linkImport store m import_ val handle out = .ok (.ok out')) :
    ∃ added, out'.addrs kind = out.addrs kind ++ added ∧ store.state.Stands kind added (import_.kind.sizeIn kind).toList := by
  unfold linkImport at linked
  split at linked
  · cases linked
  split at linked
  · rename_i addr ty imported _
    obtain ⟨g,found,same,rfl⟩ := checked_link linked
    have type := compareTypes_ok same
    rw [imported]
    cases kind with
    | global =>
      refine ⟨[addr],rfl,.cons ?_ .nil⟩
      simp [State.itemType,State.at_some_iff.mp found,ItemType.size,type]
    | func | table | memory => exact ⟨[],(List.append_nil _).symm,.nil⟩
  · rename_i addr ty imported _
    obtain ⟨t,found,same,rfl⟩ := checked_link linked
    have arch := compareTableTypes_arch same
    rw [imported]
    cases kind with
    | table =>
      refine ⟨[addr],rfl,.cons ?_ .nil⟩
      simp only [State.itemType,State.at_some_iff.mp found,Option.map_some,Option.bind_some,ItemType.size]
      exact congrArg (fun arch => some (OperandSize.ofArch arch)) arch
    | func | global | memory => exact ⟨[],(List.append_nil _).symm,.nil⟩
  · rename_i addr ty imported _
    obtain ⟨mem,found,same,rfl⟩ := checked_link linked
    have arch := compareMemoryTypes_arch same
    rw [imported]
    cases kind with
    | memory =>
      refine ⟨[addr],rfl,.cons ?_ .nil⟩
      simp only [State.itemType,State.at_some_iff.mp found,Option.map_some,Option.bind_some,ItemType.size,arch]
    | func | global | table => exact ⟨[],(List.append_nil _).symm,.nil⟩
  · rename_i addr type imported _
    have none : out'.addrs kind = out.addrs kind ∧ ImportKind.sizeIn kind import_.kind = Option.none := by
      rw [imported]
      refine ⟨?_,by cases kind <;> rfl⟩
      split at linked
      · cases linked
      split at linked
      · simp only [Except.ok.injEq] at linked
        obtain ⟨_,_,linked⟩ := Fallible.except_bind_ok linked
        obtain ⟨_,_,linked⟩ := Fallible.except_bind_ok linked
        cases linked
        cases kind with
        | func => exact absurd rfl item
        | table | memory | global => rfl
      · obtain ⟨_,_,_,rfl⟩ := checked_link linked
        cases kind with
        | func => exact absurd rfl item
        | table | memory | global => rfl
    rw [none.1,none.2]
    exact ⟨[],(List.append_nil _).symm,.nil⟩
  · cases linked

theorem linkAll_sizes (item : kind ≠ .func) {rest : List Import} (linked : linkAll imports store m rest out = .ok (.ok out')) :
    ∃ added, out'.addrs kind = out.addrs kind ++ added ∧ store.state.Stands kind added (rest.filterMap (·.kind.sizeIn kind)) := by
  induction rest generalizing out with
  | nil =>
    cases linked
    exact ⟨[],(List.append_nil _).symm,.nil⟩
  | cons import_ rest ih =>
    unfold linkAll at linked
    rcases resolved : imports.resolve store import_ with error | ⟨val,handle⟩
    · rw [resolved] at linked
      cases linked
    rw [resolved] at linked
    dsimp only at linked
    rcases one : linkImport store m import_ val handle out with abort | error | next
    · rw [one] at linked
      cases linked
    · rw [one] at linked
      cases linked
    rw [one] at linked
    obtain ⟨first,grown,stands⟩ := linkImport_sizes item one
    obtain ⟨added,grown',others⟩ := ih linked
    refine ⟨first ++ added,by rw [grown',grown,List.append_assoc],?_⟩
    have sizes : (import_ :: rest).filterMap (·.kind.sizeIn kind) =
        (import_.kind.sizeIn kind).toList ++ rest.filterMap (·.kind.sizeIn kind) := by
      rw [List.filterMap_cons]
      cases import_.kind.sizeIn kind <;> rfl
    rw [sizes]
    exact List.rel_append stands others

end Imports

-- Items made one after the other stand under addresses that follow each other.
theorem State.range_stands {s : State} {kind : ExternalKind} {types : List ItemType} {first : Addr}
    (there : ∀ k, s.itemType kind (first + k) = types[k]?) (sized : ∀ ty ∈ types, ∃ size, ty.size = some size) :
    s.Stands kind (List.range' first types.length) (types.filterMap ItemType.size) := by
  induction types generalizing first with
  | nil => exact .nil
  | cons ty types ih =>
    obtain ⟨size,same⟩ := sized ty List.mem_cons_self
    rw [List.filterMap_cons_some same]
    refine .cons ?_ (ih (fun k => ?_) fun ty listed => sized ty (List.mem_cons_of_mem _ listed))
    · have found := there 0
      rw [Nat.add_zero] at found
      simpa [found] using same
    · have found := there (k + 1)
      rw [Nat.add_comm k,← Nat.add_assoc,Nat.add_comm 1 k] at found
      exact found

section Made
variable [Allocator] {m : Module} {s : State} {fresh : Fresh} {linked all : ResolvedImports} {backend : MemoryBackend}
  {idx : ModuleInstanceAddr} {kind : ExternalKind}

theorem Fresh.Complete.stands (complete : fresh.Complete m s linked all) (made : fresh.Made backend m idx s linked)
    (item : kind ≠ .func) (imported : s.Stands kind (linked.addrs kind) (m.importedSizes kind)) :
    (s.add fresh).Stands kind (all.addrs kind) (m.sizes kind) := by
  rw [complete.addrs kind]
  refine List.rel_append (imported.kept (.add s fresh)) (State.range_stands (complete.types made kind) fun ty listed => ?_)
  cases kind with
  | func => exact absurd rfl item
  | table => obtain ⟨_,_,rfl⟩ := List.mem_map.mp listed; exact ⟨_,rfl⟩
  | memory => obtain ⟨_,_,rfl⟩ := List.mem_map.mp listed; exact ⟨_,rfl⟩
  | global => obtain ⟨_,_,rfl⟩ := List.mem_map.mp listed; exact ⟨_,rfl⟩

end Made

theorem HostOp.run_instances [Allocator] {op : HostOp} {store store' : Store} {r : Except Error Unit}
    (ran : op.run store = .ok (r,store')) : store'.moduleInstances = store.moduleInstances := by
  rcases HostOp.run_cases ran with ⟨ty,value,rfl⟩ | ⟨global,value,rfl⟩ | ⟨state,_,rfl⟩
  · change HostOp.writes (.ok (HostGlobal.new store ty value)) = _ at ran
    obtain ⟨_,made⟩ := HostOp.writes_ran ran
    obtain rfl := congrArg Prod.snd (Except.ok.inj made)
    dsimp only [HostGlobal.new]
    split <;> rfl
  · obtain ⟨_,ran⟩ := HostOp.writes_ran ran
    unfold HostGlobal.set at ran
    obtain ⟨found,_,ran⟩ := Fallible.except_bind_ok ran
    cases found with
    | error error => cases ran; rfl
    | ok g =>
      dsimp only at ran
      split at ran
      · cases ran; rfl
      split at ran
      · cases ran; rfl
      · cases ran; rfl
  · rfl

-- Every instance has under its addresses items of the sizes of its module.
structure World.ItemsSound (w : World) : Prop where
  recorded : w.modules.length = w.store.moduleInstances.length
  stands : ∀ (idx : Nat) (inst : Instance) (m : Module), w.store.moduleInstances[idx]? = some inst →
    w.modules[idx]? = some m → ∀ kind, kind ≠ .func → w.store.state.Stands kind (inst.addrs kind) (m.sizes kind)

namespace World.ItemsSound
variable {w : World} {store : Store}

theorem new (id : Nat) (config : Config) : (World.new id config).ItemsSound := ⟨rfl,nofun⟩

theorem kept (sound : w.ItemsSound) (instances : store.moduleInstances = w.store.moduleInstances)
    (kept : w.store.state.TypesKept store.state) : World.ItemsSound {w with store} := by
  refine ⟨by rw [sound.recorded,instances],fun idx inst m listed made kind item => ?_⟩
  rw [instances] at listed
  exact (sound.stands idx inst m listed made kind item).kept kept

theorem registered (sound : w.ItemsSound) {inst : Instance} {m : Module}
    (instances : store.moduleInstances = w.store.moduleInstances ++ [inst]) (kept : w.store.state.TypesKept store.state)
    (stands : ∀ kind, kind ≠ .func → store.state.Stands kind (inst.addrs kind) (m.sizes kind)) :
    World.ItemsSound ⟨store,w.modules ++ [m]⟩ := by
  refine ⟨by simp [instances,sound.recorded],fun idx other m' listed made => ?_⟩
  rw [instances] at listed
  by_cases before : idx < w.modules.length
  · rw [List.getElem?_append_left (sound.recorded ▸ before)] at listed
    rw [List.getElem?_append_left before] at made
    exact fun kind item => (sound.stands idx other m' listed made kind item).kept kept
  · have after := Nat.le_of_not_lt before
    rw [List.getElem?_append_right (sound.recorded ▸ after),←sound.recorded] at listed
    rw [List.getElem?_append_right after] at made
    cases at_end : idx - w.modules.length with
    | zero =>
      rw [at_end] at listed made
      cases listed
      cases made
      exact stands
    | succ n => rw [at_end] at made; cases made

variable [Allocator] [Numerics] {w' : World} {accepted : Module → Prop}

omit [Numerics] in
theorem instantiated (sound : w.ItemsSound) {m : Module} {imports : Imports} {r : Except Error Instance}
    (instantiated : w.store.Instantiated m imports r store) : World.ItemsSound ⟨store,
      if store.moduleInstances.length = w.store.moduleInstances.length then w.modules else w.modules ++ [m]⟩ := by
  have types := (Store.TypesKept.instantiated instantiated).state
  cases instantiated with
  | unlinked =>
    rw [if_pos rfl]
    exact sound
  | items links made =>
    rw [if_pos rfl]
    exact sound.kept rfl types
  | segments links made complete ran =>
    rw [if_pos rfl]
    exact sound.kept rfl types
  | registered links made complete ran =>
    rw [if_neg (by simp)]
    refine sound.registered rfl types fun kind item => ?_
    obtain ⟨added,grown,imported⟩ := Imports.linkAll_sizes item links
    have nothing : ResolvedImports.addrs ⟨[],[],[],[]⟩ kind = [] := by cases kind <;> rfl
    rw [nothing,List.nil_append] at grown
    have stands := (complete.stands made item (grown ▸ imported)).kept (State.initSegments_types ran)
    cases kind <;> exact stands

theorem step (sound : w.ItemsSound) (step : WorldStep accepted w w') : w'.ItemsSound := by
  have types := (step_types step).state
  cases step with
  | instantiate valid ran =>
    obtain ⟨store,instantiated,rfl⟩ := World.instantiate_cases ran
    exact sound.instantiated instantiated
  | host ran => exact sound.kept (HostOp.run_instances ran) types
  | execute listed made body instruction owner ran => exact sound.kept rfl types

theorem run (sound : w.ItemsSound) (run : WorldRun accepted w w') : w'.ItemsSound := by
  induction run with
  | refl => exact sound
  | tail _ step ih => exact ih.step step

end World.ItemsSound

end TinyWasm
