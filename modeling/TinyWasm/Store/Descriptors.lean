import TinyWasm.Store.HostInstance
import TinyWasm.Store.GlobalTyping

namespace TinyWasm

-- ImportType and ExportType, which have the same variants.
inductive ItemType where
  | func (ty : FuncType)
  | table (ty : TableType)
  | memory (ty : MemoryType)
  | global (ty : GlobalType)
  deriving DecidableEq, Repr

structure ModuleImport where
  module : String
  name : String
  ty : ItemType

structure ModuleExport where
  name : String
  ty : ItemType

def ImportKind.itemType (funcTypes : List FuncType) : ImportKind → Option ItemType
  | function type => funcTypes[type]?.map .func
  | table ty => some (.table ty)
  | memory ty => some (.memory ty)
  | global ty => some (.global ty)

namespace Module

-- Module::imports.
def importDescriptors (m : Module) : List ModuleImport :=
  m.imports.filterMap fun import_ => (import_.kind.itemType m.funcTypes).map (⟨import_.module,import_.name,·⟩)

def importsOf (m : Module) (kind : ExternalKind) : List Import := m.imports.filter (·.kind.kind == kind)

def importedCount (m : Module) (kind : ExternalKind) : Nat := (m.importsOf kind).length

def importedType (m : Module) (kind : ExternalKind) (index : Nat) : Option ItemType := do
  let import_ ← (m.importsOf kind)[index]?
  import_.kind.itemType m.funcTypes

def localTypes (m : Module) : ExternalKind → List ItemType
  | .func => m.funcs.map (.func ·.ty)
  | .table => m.tableTypes.map .table
  | .memory => m.memoryTypes.map .memory
  | .global => m.globals.map (.global ·.ty)

def exportType (m : Module) (export_ : Export) : Option ItemType :=
  let imported := m.importedCount export_.kind
  if export_.index < imported then m.importedType export_.kind export_.index
  else (m.localTypes export_.kind)[export_.index - imported]?

-- Module::exports.
def exportDescriptors (m : Module) : List ModuleExport :=
  m.exports.filterMap fun export_ => (m.exportType export_).map (⟨export_.name,·⟩)

end Module

namespace ModuleInstance

def addrs (inst : ModuleInstance) : ExternalKind → List Addr
  | .func => inst.funcAddrs
  | .table => inst.tableAddrs
  | .memory => inst.memAddrs
  | .global => inst.globalAddrs

def funcTypeByTypeIndex (inst : ModuleInstance) (typeIdx : TypeAddr) : Checked FuncType := State.at inst.types typeIdx

def funcTypeIdx (inst : ModuleInstance) (addr : FuncAddr) : Checked TypeAddr := State.at inst.funcTypeIdxs addr

end ModuleInstance

namespace Instance

-- A function handle bears the type its index has in the module.
def functionItem (inst : Instance) (index : FuncAddr) (addr : FuncAddr) : Checked Extern := do
  let ty ← inst.funcTypeByTypeIndex (← inst.funcTypeIdx index)
  .ok (.function ⟨⟨inst.storeId,addr⟩,inst.idx,addr,ty⟩)

def exportItem (inst : Instance) (export_ : Export) : Checked Extern := do
  let addr ← State.at (inst.addrs export_.kind) export_.index
  match export_.kind with
  | .func => inst.functionItem export_.index addr
  | .table => .ok (.table ⟨inst.storeId,addr⟩)
  | .memory => .ok (.memory ⟨inst.storeId,addr⟩)
  | .global => .ok (.global ⟨inst.storeId,addr⟩)

-- ModuleInstance::exports.
def exportItems (inst : Instance) : Checked (List (String × Extern)) :=
  inst.exports.mapM fun export_ => do .ok (export_.name,← inst.exportItem export_)

def externItem (inst : Instance) (name : String) : Checked (Except Error Extern) :=
  match inst.requireExport name with
  | .error error => .ok (.error error)
  | .ok (.func addr) =>
    match inst.exports.find? fun e => e.name == name with
    | none => .ok (.error (.other s!"Export not found: {name}"))
    | some export_ => do .ok (.ok (← inst.functionItem export_.index addr))
  | .ok (.memory addr) => .ok (.ok (.memory ⟨inst.storeId,addr⟩))
  | .ok (.table addr) => .ok (.ok (.table ⟨inst.storeId,addr⟩))
  | .ok (.global addr) => .ok (.ok (.global ⟨inst.storeId,addr⟩))

end Instance

-- The type of what stands under an address of a store.
def State.itemType (s : State) (kind : ExternalKind) (addr : Addr) : Option ItemType :=
  match kind with
  | .func => s.funcs[addr]?.map (.func ·.ty)
  | .table => s.tables[addr]?.map (.table ·.kind)
  | .memory => s.memories[addr]?.map (.memory ·.kind)
  | .global => s.globals[addr]?.map (.global ·.ty)

def State.count (s : State) : ExternalKind → Nat
  | .func => s.funcs.length
  | .table => s.tables.length
  | .memory => s.memories.length
  | .global => s.globals.length

-- What the linker asks of an item that is imported under a type.
def Import.Accepts (import_ : Import) (s : State) (addr : Addr) : ItemType → Prop
  | .func ty => ∃ f, s.funcs[addr]? = some f ∧ f.ty = ty
  | .table ty => ∃ t, s.tables[addr]? = some t ∧
      Imports.compareTableTypes import_ {t.kind with sizeInitial := t.size} ty = .ok ()
  | .memory ty => ∃ mem, s.memories[addr]? = some mem ∧
      Imports.compareMemoryTypes import_ mem.kind ty mem.pageCount = .ok ()
  | .global ty => ∃ g, s.globals[addr]? = some g ∧ g.ty = ty

-- A handle on a function bears the function's type, whoever made it.
def Function.Genuine (func : Function) (s : State) : Prop := s.funcs[func.addr]?.map (·.ty) = some func.ty

def Imports.Genuine (imports : Imports) (store : Store) : Prop :=
  ∀ module name func, imports.externs module name = some (.function func) → func.item.storeId = store.id →
    func.Genuine store.state

def ResolvedImports.addrs (resolved : ResolvedImports) : ExternalKind → List Addr
  | .func => resolved.funcs
  | .table => resolved.tables
  | .memory => resolved.memories
  | .global => resolved.globals

namespace Imports
variable {imports : Imports} {store : Store} {m : Module} {import_ : Import} {val : ExternVal}
  {handle : Option Function} {out out' : ResolvedImports}

-- An import and the address it is linked to.
def Links (imports : Imports) (store : Store) (m : Module) (import_ : Import) (addr : Addr) : Prop :=
  (∃ handle, imports.resolve store import_ = .ok (.new import_.kind.kind addr,handle)) ∧
    ∃ ty, import_.kind.itemType m.funcTypes = some ty ∧ import_.Accepts store.state addr ty

-- The address goes to its own index space and was looked at there.
theorem linkImport_links (genuine : ∀ func, handle = some func → val = .func func.addr ∧
    (func.item.storeId = store.id → func.Genuine store.state))
    (linked : linkImport store m import_ val handle out = .ok (.ok out')) :
    ∃ addr ty, val = .new import_.kind.kind addr ∧ import_.kind.itemType m.funcTypes = some ty ∧
      import_.Accepts store.state addr ty ∧
      ∀ kind, out'.addrs kind = out.addrs kind ++ if import_.kind.kind = kind then [addr] else [] := by
  unfold linkImport at linked
  split at linked
  · cases linked
  rename_i alike
  have alike : val.kind = import_.kind.kind := Decidable.of_not_not alike
  cases kind : import_.kind with
  | global ty =>
    rw [kind] at linked alike
    cases val with
    | global addr =>
      obtain ⟨g,found,same,rfl⟩ := checked_link linked
      refine ⟨addr,_,rfl,rfl,⟨g,State.at_some_iff.mp found,compareTypes_ok same⟩,fun kind => ?_⟩
      cases kind <;> simp [ResolvedImports.addrs,ImportKind.kind]
    | func addr | table addr | memory addr => cases alike
  | table ty =>
    rw [kind] at linked alike
    cases val with
    | table addr =>
      obtain ⟨t,found,same,rfl⟩ := checked_link linked
      refine ⟨addr,_,rfl,rfl,⟨t,State.at_some_iff.mp found,same⟩,fun kind => ?_⟩
      cases kind <;> simp [ResolvedImports.addrs,ImportKind.kind]
    | func addr | global addr | memory addr => cases alike
  | memory ty =>
    rw [kind] at linked alike
    cases val with
    | memory addr =>
      obtain ⟨mem,found,same,rfl⟩ := checked_link linked
      refine ⟨addr,_,rfl,rfl,⟨mem,State.at_some_iff.mp found,same⟩,fun kind => ?_⟩
      cases kind <;> simp [ResolvedImports.addrs,ImportKind.kind]
    | func addr | global addr | table addr => cases alike
  | function type =>
    rw [kind] at linked alike
    cases val with
    | table addr | global addr | memory addr => cases alike
    | func addr =>
      dsimp only at linked
      rcases declared : m.funcTypes[type]? with _ | ty
      · rw [declared] at linked
        cases linked
      · rw [declared] at linked
        have typed : (ImportKind.function type).itemType m.funcTypes = some (.func ty) := by
          simp [ImportKind.itemType,declared]
        rcases handle with _ | func
        · obtain ⟨f,found,same,rfl⟩ := checked_link linked
          refine ⟨addr,_,rfl,typed,⟨f,State.at_some_iff.mp found,compareTypes_ok same⟩,fun kind => ?_⟩
          cases kind <;> simp [ResolvedImports.addrs,ImportKind.kind]
        · obtain ⟨at_addr,own⟩ := genuine func rfl
          cases at_addr
          dsimp only at linked
          rcases owned : func.item.validateStore store with trap | _
          · rw [owned] at linked
            cases linked
          rcases same : compareTypes import_ func.ty ty with error | _
          · rw [owned,same] at linked
            cases linked
          · rw [owned,same] at linked
            cases linked
            have here : func.item.storeId = store.id := by
              unfold StoreItem.validateStore at owned
              split at owned
              · cases owned
              · rename_i here
                exact Decidable.of_not_not here
            obtain ⟨f,found,type⟩ := Option.map_eq_some_iff.mp (own here)
            refine ⟨func.addr,_,rfl,typed,⟨f,found,type.trans (compareTypes_ok same)⟩,fun kind => ?_⟩
            cases kind <;> simp [ResolvedImports.addrs,ImportKind.kind]

theorem resolve_handle {func : Function} (resolved : imports.resolve store import_ = .ok (val,some func)) :
    val = .func func.addr ∧ imports.externs import_.module import_.name = some (.function func) := by
  unfold resolve takeDefined at resolved
  rcases given : imports.externs import_.module import_.name with _ | item
  · rw [given] at resolved
    rcases named : imports.modules import_.module with _ | inst
    · simp [named] at resolved
    · rcases owned : inst.validateStore store with error | _
      · simp [named,owned,bind,Except.bind] at resolved
      · rcases exported : inst.exportAddr import_.name with _ | val' <;>
          simp [named,owned,exported,bind,Except.bind] at resolved
  · rw [given] at resolved
    cases item <;> cases resolved
    exact ⟨rfl,rfl⟩

-- In every index space the imports stand in the order they are declared in.
theorem linkAll_links (genuine : imports.Genuine store) {rest : List Import}
    (linked : linkAll imports store m rest out = .ok (.ok out')) (kind : ExternalKind) :
    ∃ added, out'.addrs kind = out.addrs kind ++ added ∧
      List.Forall₂ (Links imports store m) (rest.filter (·.kind.kind == kind)) added := by
  induction rest generalizing out with
  | nil =>
    cases linked
    exact ⟨[],(List.append_nil _).symm,.nil⟩
  | cons import_ rest ih =>
    unfold linkAll at linked
    rcases resolved : imports.resolve store import_ with error | ⟨val,handle⟩
    · rw [resolved] at linked
      cases linked
    rw [resolved] at linked
    dsimp only at linked
    rcases one : linkImport store m import_ val handle out with abort | error | next
    · rw [one] at linked
      cases linked
    · rw [one] at linked
      cases linked
    rw [one] at linked
    obtain ⟨addr,ty,rfl,typed,accepted,grown⟩ := linkImport_links (fun func same => by
      subst same
      obtain ⟨at_addr,given⟩ := resolve_handle resolved
      exact ⟨at_addr,genuine _ _ func given⟩) one
    obtain ⟨added,grown',links⟩ := ih linked
    have link : Links imports store m import_ addr := ⟨⟨handle,resolved⟩,ty,typed,accepted⟩
    by_cases same : import_.kind.kind = kind
    · refine ⟨addr :: added,?_,?_⟩
      · rw [grown',grown,if_pos same,List.append_assoc,List.singleton_append]
      · rw [List.filter_cons_of_pos (by simp [same])]
        exact .cons link links
    · refine ⟨added,?_,?_⟩
      · rw [grown',grown,if_neg same,List.append_nil]
      · rw [List.filter_cons_of_neg (by simp [same])]
        exact links

end Imports

-- No item of a store is replaced by one of another type.
def State.TypesKept (s s' : State) : Prop :=
  ∀ kind addr ty, s.itemType kind addr = some ty → s'.itemType kind addr = some ty

namespace State.TypesKept
variable {s s₁ s₂ s₃ : State}

theorem refl (s : State) : s.TypesKept s := fun _ _ _ there => there

theorem trans (first : s₁.TypesKept s₂) (rest : s₂.TypesKept s₃) : s₁.TypesKept s₃ :=
  fun kind addr ty there => rest kind addr ty (first kind addr ty there)

theorem of_lists (funcs : s₁.funcs.map (·.ty) <+: s₂.funcs.map (·.ty))
    (tables : s₁.tables.map (·.kind) <+: s₂.tables.map (·.kind))
    (memories : s₁.memories.map (·.kind) <+: s₂.memories.map (·.kind))
    (globals : s₁.globals.map (·.ty) <+: s₂.globals.map (·.ty)) : s₁.TypesKept s₂ := by
  have kept {α β : Type} {l l' : List α} {f : α → β} {g : β → ItemType} (prefix_ : l.map f <+: l'.map f) (addr : Addr)
      (ty : ItemType) (there : l[addr]?.map (g ∘ f) = some ty) : l'[addr]?.map (g ∘ f) = some ty := by
    rw [←Option.map_map,←List.getElem?_map] at there ⊢
    obtain ⟨item,found,rfl⟩ := Option.map_eq_some_iff.mp there
    obtain ⟨within,rfl⟩ := List.getElem?_eq_some_iff.mp found
    have longer := Nat.lt_of_lt_of_le within prefix_.length_le
    rw [List.getElem?_eq_getElem longer,prefix_.getElem within]
    rfl
  intro kind addr ty there
  cases kind with
  | func => exact kept funcs addr ty there
  | table => exact kept tables addr ty there
  | memory => exact kept memories addr ty there
  | global => exact kept globals addr ty there

theorem of_same (funcs : s₂.funcs.map (·.ty) = s₁.funcs.map (·.ty))
    (tables : s₂.tables.map (·.kind) = s₁.tables.map (·.kind))
    (memories : s₂.memories.map (·.kind) = s₁.memories.map (·.kind))
    (globals : s₂.globals.map (·.ty) = s₁.globals.map (·.ty)) : s₁.TypesKept s₂ :=
  of_lists (funcs ▸ List.prefix_refl _) (tables ▸ List.prefix_refl _) (memories ▸ List.prefix_refl _)
    (globals ▸ List.prefix_refl _)

end State.TypesKept

-- Writing one item of a list keeps the list of types.
theorem map_set_kept {α β : Type} {l : List α} {i : Nat} {item : α} {f : α → β} (new : α)
    (found : l[i]? = some item) (same : f new = f item) : (l.set i new).map f = l.map f := by
  obtain ⟨within,rfl⟩ := List.getElem?_eq_some_iff.mp found
  have there : i < (l.map f).length := by simpa using within
  rw [List.map_set,same,←List.getElem_map (h := there)]
  exact List.set_getElem_self there

namespace State
variable {s s' : State}

theorem TypesKept.setTable {addr : TableAddr} {t t' : TableInstance} (found : s.tables[addr]? = some t)
    (same : t'.kind = t.kind) : s.TypesKept {s with tables := s.tables.set addr t'} :=
  .of_same rfl (map_set_kept t' found same) rfl rfl

theorem TypesKept.setMemory {addr : MemAddr} {mem mem' : MemoryInstance} (found : s.memories[addr]? = some mem)
    (same : mem'.kind = mem.kind) : s.TypesKept {s with memories := s.memories.set addr mem'} :=
  .of_same rfl rfl (map_set_kept mem' found same) rfl

theorem TypesKept.setGlobal {addr : GlobalAddr} {g g' : GlobalInstance} (found : s.globals[addr]? = some g)
    (same : g'.ty = g.ty) : s.TypesKept {s with globals := s.globals.set addr g'} :=
  .of_same rfl rfl rfl (map_set_kept g' found same)

theorem TypesKept.add (s : State) (fresh : Fresh) : s.TypesKept (s.add fresh) := by
  refine .of_lists ?_ ?_ ?_ ?_ <;> simp [State.add]

-- Segments write tables and memories and append themselves.
theorem initElement_types {names : ConstNames} {tableAddrs : List TableAddr} {element : Element} {r : Except Trap Unit}
    (ran : s.initElement names tableAddrs element = .ok (r,s')) : s.TypesKept s' := by
  rcases initElement_cases ran with ⟨_,_,rfl⟩ | ⟨_,_,rfl⟩ | ⟨_,init,offset,addr,t,t',_,found,placed,rfl⟩
  · exact .refl _
  · exact fun _ _ _ there => there
  · have same : t'.kind = t.kind := by simpa [placed] using t.init_kind offset init
    exact TypesKept.setTable found same

theorem initElements_types (s : State) (names : ConstNames) (tableAddrs : List TableAddr) (elements : List Element)
    (elemAddrs : List ElemAddr) : s.TypesKept (s.initElements names tableAddrs elements elemAddrs).2 := by
  induction elements generalizing s elemAddrs with
  | nil => exact .refl s
  | cons element rest ih =>
    unfold initElements
    rcases ran : s.initElement names tableAddrs element with error | ⟨_ | _,s'⟩
    · exact .refl s
    · exact initElement_types ran
    · exact (initElement_types ran).trans (ih s' _)

variable [Allocator]

theorem initDatum_types {names : ConstNames} {memAddrs : List MemAddr} {data : Data}
    {r : Except Error (Except Trap Unit)} (ran : s.initDatum names memAddrs data = .ok (r,s')) : s.TypesKept s' := by
  unfold initDatum at ran
  split at ran
  · cases ran
    exact .refl s
  split at ran
  · cases ran
    exact .refl s
  split at ran
  · cases ran
    exact .refl _
  rename_i offset _
  split at ran
  · cases ran
    exact .refl _
  rename_i memAddr _ _ _ mem found
  rcases wrote : LinearMemory.writeAll mem.inner offset data.data with abort | ⟨_ | _,inner⟩
  · rw [wrote] at ran
    cases ran
  · rw [wrote] at ran
    cases ran
    exact TypesKept.setMemory found rfl
  · rw [wrote] at ran
    cases ran
    exact TypesKept.setMemory found rfl

theorem initData_types {names : ConstNames} {memAddrs : List MemAddr} {data : List Data} {dataAddrs : List DataAddr}
    {r : Except Error (List DataAddr × Option Trap)} (ran : s.initData names memAddrs data dataAddrs = .ok (r,s')) :
    s.TypesKept s' := by
  induction data generalizing s dataAddrs with
  | nil =>
    cases ran
    exact .refl _
  | cons data rest ih =>
    unfold initData at ran
    rcases one : s.initDatum names memAddrs data with abort | ⟨_ | _ | _,next⟩
    · rw [one] at ran
      cases ran
    · rw [one] at ran
      cases ran
      exact initDatum_types one
    · rw [one] at ran
      cases ran
      exact initDatum_types one
    · rw [one] at ran
      exact (initDatum_types one).trans (ih ran)

theorem initSegments_types {m : Module} {addrs : ResolvedImports}
    {r : Except Error (List ElemAddr × List DataAddr × Option Trap)} (ran : s.initSegments m addrs = .ok (r,s')) :
    s.TypesKept s' := by
  unfold initSegments at ran
  dsimp only at ran
  have elements := s.initElements_types (s.constNames addrs.globals addrs.funcs) addrs.tables m.elements []
  rcases placed : s.initElements (s.constNames addrs.globals addrs.funcs) addrs.tables m.elements [] with ⟨_ | _,s₁⟩
  · rw [placed] at ran elements
    cases ran
    exact elements
  rw [placed] at ran elements
  dsimp only at ran
  rcases wrote : s₁.initData (s.constNames addrs.globals addrs.funcs) addrs.memories m.data [] with abort | ⟨_ | _,s₂⟩
  · rw [wrote] at ran
    cases ran
  · rw [wrote] at ran
    cases ran
    exact elements.trans (initData_types wrote)
  · rw [wrote] at ran
    cases ran
    exact elements.trans (initData_types wrote)

end State

-- The types of what a module makes for itself; a skipped memory is not made.
def Module.madeTypes (m : Module) : ExternalKind → List ItemType
  | .memory => m.allocatedMemories.map .memory
  | kind => m.localTypes kind

section Made
variable [Allocator] {m : Module} {s : State} {fresh : Fresh} {linked all : ResolvedImports} {backend : MemoryBackend}
  {idx : ModuleInstanceAddr}

omit [Allocator] in
theorem Fresh.Complete.addrs (complete : fresh.Complete m s linked all) (kind : ExternalKind) :
    all.addrs kind = linked.addrs kind ++ List.range' (s.count kind) (m.madeTypes kind).length := by
  cases kind with
  | func => simp [ResolvedImports.addrs,State.count,Module.madeTypes,Module.localTypes,complete.funcAddrs]
  | table => simp [ResolvedImports.addrs,State.count,Module.madeTypes,Module.localTypes,complete.tableAddrs]
  | memory => simp [ResolvedImports.addrs,State.count,Module.madeTypes,complete.memAddrs]
  | global => simp [ResolvedImports.addrs,State.count,Module.madeTypes,Module.localTypes,complete.globalAddrs]

-- Each stands in the store behind what was there.
theorem Fresh.Complete.types (complete : fresh.Complete m s linked all) (made : fresh.Made backend m idx s linked)
    (kind : ExternalKind) (k : Nat) : (s.add fresh).itemType kind (s.count kind + k) = (m.madeTypes kind)[k]? := by
  have behind {α : Type} (l made : List α) : (l ++ made)[l.length + k]? = made[k]? := by
    rw [List.getElem?_append_right (Nat.le_add_right _ _),Nat.add_sub_cancel_left]
  cases kind with
  | func =>
    simp only [State.itemType,State.count,State.add,behind,made.funcs,Module.madeTypes,Module.localTypes,List.getElem?_map,
      Option.map_map]
    rfl
  | table =>
    have kinds := congrArg (List.map ItemType.table) complete.tables
    simp only [State.itemType,State.count,State.add,behind,Module.madeTypes,Module.localTypes,←kinds,List.getElem?_map,
      Option.map_map]
    rfl
  | memory =>
    have kinds := congrArg (List.map ItemType.memory) complete.memories
    simp only [State.itemType,State.count,State.add,behind,Module.madeTypes,←kinds,List.getElem?_map,Option.map_map]
    rfl
  | global =>
    have types := congrArg (List.map ItemType.global) (made.globals.types complete.globals)
    simp only [List.map_map] at types
    have same : m.madeTypes .global = m.globals.map (ItemType.global ∘ Global.ty) := rfl
    simp only [State.itemType,State.count,State.add,behind,same,←types,List.getElem?_map]
    rfl

end Made

end TinyWasm
