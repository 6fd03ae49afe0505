import TinyWasm.Parser.ParsedModule
import TinyWasm.Parser.StreamExact
import TinyWasm.Store.ItemTypes

namespace TinyWasm

theorem forall₂_at {α β : Type} {R : α → β → Prop} {xs : List α} {ys : List β} {k : Nat} {x : α}
    (related : List.Forall₂ R xs ys) (found : xs[k]? = some x) : ∃ y, ys[k]? = some y ∧ R x y := by
  induction related generalizing k with
  | nil => cases found
  | cons head rest ih =>
    cases k with
    | zero =>
      cases found
      exact ⟨_,rfl,head⟩
    | succ k => exact ih found

theorem mapM_forall₂ {α β ε : Type} {f : α → Except ε β} {R : α → β → Prop} {xs : List α}
    (each : ∀ x ∈ xs, ∃ y, f x = .ok y ∧ R x y) : ∃ ys, xs.mapM f = .ok ys ∧ List.Forall₂ R xs ys := by
  induction xs with
  | nil => exact ⟨[],rfl,.nil⟩
  | cons x xs ih =>
    obtain ⟨y,first,related⟩ := each x List.mem_cons_self
    obtain ⟨ys,rest,others⟩ := ih fun x listed => each x (List.mem_cons_of_mem _ listed)
    refine ⟨y :: ys,?_,.cons related others⟩
    rw [List.mapM_cons,first,rest]
    rfl

theorem filterMap_forall₂ {α β : Type} {f : α → Option β} {R : α → β → Prop} {xs : List α}
    (each : ∀ x ∈ xs, ∃ y, f x = some y ∧ R x y) : List.Forall₂ R xs (xs.filterMap f) := by
  induction xs with
  | nil => exact .nil
  | cons x xs ih =>
    obtain ⟨y,first,related⟩ := each x List.mem_cons_self
    rw [List.filterMap_cons_some first]
    exact .cons related (ih fun x listed => each x (List.mem_cons_of_mem _ listed))

-- What a validator makes sure of: every export names an item, and no two
-- exports bear one name.
structure Module.ExportsValid (m : Module) : Prop where
  named : ∀ export_ ∈ m.exports, export_.index < m.importedCount export_.kind + (m.localTypes export_.kind).length
  distinct : (m.exports.map (·.name)).Nodup

-- A local table or memory is of its declared type. An imported one was accepted
-- for it, and is of the type it had then.
def Instance.TypeAgrees (m : Module) (before store : Store) (export_ : Export) (ty : ItemType) (addr : Addr) : Prop :=
  (m.importedCount export_.kind ≤ export_.index → store.state.itemType export_.kind addr = some ty) ∧
    (export_.index < m.importedCount export_.kind → ∃ import_ actual,
      (m.importsOf export_.kind)[export_.index]? = some import_ ∧ import_.Accepts before.state addr ty ∧
        before.state.itemType export_.kind addr = some actual ∧ store.state.itemType export_.kind addr = some actual)

-- All ways to an export of an instance lead to one item, and to one type of it.
structure Instance.ExportAgrees (inst : Instance) (m : Module) (before store : Store) (export_ : Export) (ty : ItemType)
    (addr : Addr) (item : Extern) : Prop where
  code : State.at (inst.addrs export_.kind) export_.index = .ok addr
  exported : inst.exportAddr export_.name = some (.new export_.kind addr)
  named : inst.externItem export_.name = .ok (.ok item)
  typed : match export_.kind,ty with
    | .func,.func ty =>
      item = .function ⟨⟨store.id,addr⟩,inst.idx,addr,ty⟩ ∧
        (do inst.funcTypeByTypeIndex (← inst.funcTypeIdx export_.index)) = .ok ty ∧
        inst.funcUntyped store export_.name = .ok (.ok ⟨⟨store.id,addr⟩,inst.idx,addr,ty⟩) ∧
        store.state.itemType .func addr = some (.func ty)
    | .global,.global ty =>
      item = .global ⟨store.id,addr⟩ ∧ HostGlobal.ty ⟨⟨store.id,addr⟩⟩ store = .ok (.ok ty) ∧
        store.state.itemType .global addr = some (.global ty)
    | .table,.table ty => item = .table ⟨store.id,addr⟩ ∧ Instance.TypeAgrees m before store export_ (.table ty) addr
    | .memory,.memory ty => item = .memory ⟨store.id,addr⟩ ∧ Instance.TypeAgrees m before store export_ (.memory ty) addr
    | _,_ => False

-- The views of an instance and of its module, in a store later than the one it
-- was made in.
structure Instance.Views (inst : Instance) (m : Module) (imports : Imports) (before store : Store) : Prop where
  exports : ∃ items, inst.exportItems = .ok items ∧ items.length = m.exports.length ∧
    m.exportDescriptors.length = m.exports.length ∧
    ∀ (k : Nat) (export_ : Export), m.exports[k]? = some export_ → ∃ ty addr item,
      m.exportDescriptors[k]? = some ⟨export_.name,ty⟩ ∧ items[k]? = some (export_.name,item) ∧
        inst.ExportAgrees m before store export_ ty addr item
  imports : ∀ kind, ∃ linked, List.Forall₂ (imports.Links before m) (m.importsOf kind) linked ∧
    inst.addrs kind = linked ++ List.range' (before.state.count kind) (m.madeTypes kind).length

namespace Module
variable {m : Module}

theorem madeTypes_local (linedUp : m.LinedUp) {export_ : Export} (listed : export_ ∈ m.exports)
    (behind : m.importedCount export_.kind ≤ export_.index) : m.madeTypes export_.kind = m.localTypes export_.kind := by
  cases kind : export_.kind with
  | memory =>
    rw [kind] at behind
    have made := linedUp.memories export_ listed kind behind
    simp [madeTypes,localTypes,made]
  | func | table | global => rfl

theorem importedFuncTypes (imports : List Import) : imports.filterMap ModuleReader.importedTypeIdx =
    (imports.filter (·.kind.kind == .func)).filterMap ModuleReader.importedTypeIdx := by
  induction imports with
  | nil => rfl
  | cons import_ rest ih =>
    rcases import_ with ⟨module,name,kind⟩
    cases kind <;> simp [ModuleReader.importedTypeIdx,ImportKind.kind] <;> exact ih

-- Every imported function has its type, in the order of the imports.
theorem importedTypeIdxs (m : Module) : List.Forall₂ (fun import_ type => import_.kind = .function type)
    (m.importsOf .func) (m.imports.filterMap ModuleReader.importedTypeIdx) := by
  rw [importedFuncTypes]
  refine filterMap_forall₂ fun import_ listed => ?_
  have kind := (List.mem_filter.mp listed).2
  rcases import_ with ⟨module,name,_ | _ | _ | _⟩
  · exact ⟨_,rfl,rfl⟩
  · cases kind
  · cases kind
  · cases kind

-- The type an index has in the table of types is the one it has in the
-- descriptors.
theorem signature_at (linedUp : m.LinedUp) {export_ : Export} {ty : FuncType} (function : export_.kind = .func)
    (described : m.exportType export_ = some (.func ty)) :
    ∃ type, m.funcTypeIdxs[export_.index]? = some type ∧ m.funcTypes[type]? = some ty := by
  obtain ⟨types,idxs,typed⟩ := linedUp.signatures
  have imported := m.importedTypeIdxs
  have count : (m.imports.filterMap ModuleReader.importedTypeIdx).length = m.importedCount .func :=
    imported.length_eq.symm
  unfold exportType at described
  rw [function] at described
  rw [idxs]
  by_cases before : export_.index < m.importedCount .func
  · rw [if_pos before] at described
    obtain ⟨import_,listed,itemType⟩ := Option.bind_eq_some_iff.mp described
    obtain ⟨type,there,kind⟩ := forall₂_at imported listed
    rw [kind] at itemType
    obtain ⟨found,declared,same⟩ := Option.map_eq_some_iff.mp itemType
    cases same
    rw [List.getElem?_append_left (count ▸ before)]
    exact ⟨type,there,declared⟩
  · rw [if_neg before] at described
    simp only [localTypes,List.getElem?_map] at described
    obtain ⟨func,listed,same⟩ := Option.map_eq_some_iff.mp described
    cases same
    obtain ⟨type,there,declared⟩ := forall₂_at typed.flip listed
    rw [List.getElem?_append_right (count ▸ Nat.le_of_not_lt before),count]
    exact ⟨type,there,declared⟩

end Module

def ItemType.kind : ItemType → ExternalKind
  | func _ => .func
  | table _ => .table
  | memory _ => .memory
  | global _ => .global

theorem ImportKind.itemType_kind {funcTypes : List FuncType} {kind : ImportKind} {ty : ItemType}
    (typed : kind.itemType funcTypes = some ty) : ty.kind = kind.kind := by
  cases kind with
  | function type =>
    obtain ⟨_,_,rfl⟩ := Option.map_eq_some_iff.mp typed
    rfl
  | table _ | memory _ | global _ =>
    cases typed
    rfl

theorem Module.localTypes_kind {m : Module} {kind : ExternalKind} {k : Nat} {ty : ItemType}
    (listed : (m.localTypes kind)[k]? = some ty) : ty.kind = kind := by
  cases kind <;>
  · simp only [localTypes,List.getElem?_map] at listed
    obtain ⟨_,_,rfl⟩ := Option.map_eq_some_iff.mp listed
    rfl

-- What is accepted is there, and of a function or a global the type is the
-- import's.
theorem Import.Accepts.there {import_ : Import} {s : State} {addr : Addr} {ty : ItemType}
    (accepted : import_.Accepts s addr ty) : ∃ actual, s.itemType ty.kind addr = some actual ∧
      (ty.kind = .func ∨ ty.kind = .global → actual = ty) := by
  cases ty with
  | func ty =>
    obtain ⟨f,found,rfl⟩ := accepted
    exact ⟨_,by simp [State.itemType,ItemType.kind,found],fun _ => rfl⟩
  | global ty =>
    obtain ⟨g,found,rfl⟩ := accepted
    exact ⟨_,by simp [State.itemType,ItemType.kind,found],fun _ => rfl⟩
  | table ty =>
    obtain ⟨t,found,_⟩ := accepted
    exact ⟨.table t.kind,by simp [State.itemType,ItemType.kind,found],fun which => by rcases which with same | same <;> cases same⟩
  | memory ty =>
    obtain ⟨mem,found,_⟩ := accepted
    exact ⟨.memory mem.kind,by simp [State.itemType,ItemType.kind,found],fun which => by rcases which with same | same <;> cases same⟩

section Space
variable {inst : Instance} {m : Module} {imports : Imports} {before store : Store} {export_ : Export} {linked : List Addr}

-- One index of one index space, by way of the descriptors and of the addresses.
theorem export_at (linedUp : m.LinedUp) (valid : m.ExportsValid) (listed : export_ ∈ m.exports)
    (links : List.Forall₂ (imports.Links before m) (m.importsOf export_.kind) linked)
    (space : inst.addrs export_.kind =
      linked ++ List.range' (before.state.count export_.kind) (m.madeTypes export_.kind).length)
    (types : ∀ k ty, (m.madeTypes export_.kind)[k]? = some ty →
      store.state.itemType export_.kind (before.state.count export_.kind + k) = some ty)
    (kept : before.state.TypesKept store.state) :
    ∃ ty addr, m.exportType export_ = some ty ∧ ty.kind = export_.kind ∧
      (inst.addrs export_.kind)[export_.index]? = some addr ∧ Instance.TypeAgrees m before store export_ ty addr ∧
      (ty.kind = .func ∨ ty.kind = .global → store.state.itemType export_.kind addr = some ty) := by
  have named := valid.named export_ listed
  have count : linked.length = m.importedCount export_.kind := links.length_eq.symm
  rw [space]
  by_cases imported : export_.index < m.importedCount export_.kind
  · obtain ⟨import_,declared⟩ : ∃ import_, (m.importsOf export_.kind)[export_.index]? = some import_ :=
      ⟨_,List.getElem?_eq_getElem imported⟩
    obtain ⟨addr,there,_,ty,typed,accepted⟩ := forall₂_at links declared
    have kind : import_.kind.kind = export_.kind := by
      simpa using (List.mem_filter.mp (List.mem_of_getElem? declared)).2
    have alike : ty.kind = export_.kind := (ImportKind.itemType_kind typed).trans kind
    obtain ⟨actual,present,same⟩ := accepted.there
    rw [alike] at present
    refine ⟨ty,addr,?_,alike,?_,⟨fun behind => absurd imported (Nat.not_lt.mpr behind),fun _ =>
      ⟨import_,actual,declared,accepted,present,kept _ _ _ present⟩⟩,fun number => ?_⟩
    · simp [Module.exportType,imported,Module.importedType,declared,typed]
    · rw [List.getElem?_append_left (count ▸ imported)]
      exact there
    · rw [kept _ _ _ present,same number]
  · have behind := Nat.le_of_not_lt imported
    have made := Module.madeTypes_local linedUp listed behind
    have within : export_.index - m.importedCount export_.kind < (m.madeTypes export_.kind).length := by
      rw [made]
      omega
    obtain ⟨ty,declared⟩ : ∃ ty, (m.madeTypes export_.kind)[export_.index - m.importedCount export_.kind]? = some ty :=
      ⟨_,List.getElem?_eq_getElem within⟩
    have typed := types _ _ declared
    refine ⟨ty,_,?_,Module.localTypes_kind (made ▸ declared),?_,
      ⟨fun _ => typed,fun before => absurd before imported⟩,fun _ => typed⟩
    · simp [Module.exportType,imported,←made,declared]
    · rw [List.getElem?_append_right (count ▸ behind),count,List.getElem?_range' within,Nat.one_mul]

theorem find_named {exports : List Export} (distinct : (exports.map (·.name)).Nodup) (listed : export_ ∈ exports) :
    exports.find? (fun e => e.name == export_.name) = some export_ := by
  induction exports with
  | nil => cases listed
  | cons first rest ih =>
    rw [List.map_cons,List.nodup_cons] at distinct
    rcases List.mem_cons.mp listed with rfl | later
    · simp
    · have other : first.name ≠ export_.name := fun same =>
        distinct.1 (same ▸ List.mem_map_of_mem later)
      rw [List.find?_cons_of_neg (by simp [other])]
      exact ih distinct.2 later

theorem Instance.exportAddr_at {name : String} (found : inst.exports.find? (fun e => e.name == name) = some export_) :
    inst.exportAddr name = (inst.addrs export_.kind)[export_.index]?.map (.new export_.kind ·) := by
  rcases export_ with ⟨_,kind,index⟩
  unfold Instance.exportAddr
  rw [found]
  cases kind <;> simp [ModuleInstance.addrs,Option.map_eq_bind]

-- The address found for an export is the item every view answers with.
theorem export_agrees (exports : inst.exports = m.exports) (types : inst.types = m.funcTypes)
    (typeIdxs : inst.funcTypeIdxs = m.funcTypeIdxs) (own : inst.storeId = store.id) (linedUp : m.LinedUp)
    (valid : m.ExportsValid) (listed : export_ ∈ m.exports) {ty : ItemType} {addr : Addr}
    (described : m.exportType export_ = some ty) (alike : ty.kind = export_.kind)
    (resolved : (inst.addrs export_.kind)[export_.index]? = some addr)
    (agrees : Instance.TypeAgrees m before store export_ ty addr)
    (same : ty.kind = .func ∨ ty.kind = .global → store.state.itemType export_.kind addr = some ty) :
    ∃ item, inst.exportItem export_ = .ok item ∧ inst.ExportAgrees m before store export_ ty addr item := by
  have code := State.at_some resolved
  have found : inst.exports.find? (fun e => e.name == export_.name) = some export_ := by
    rw [exports]
    exact find_named valid.distinct listed
  have exported : inst.exportAddr export_.name = some (.new export_.kind addr) := by
    rw [Instance.exportAddr_at found,resolved]
    rfl
  have required : inst.requireExport export_.name = .ok (.new export_.kind addr) := by
    rw [Instance.requireExport,exported]
  cases ty with
  | table ty =>
    have kind : export_.kind = .table := alike.symm
    refine ⟨.table ⟨store.id,addr⟩,?_,code,exported,?_,?_⟩
    · rw [Instance.exportItem,code,ok_bind,kind,own]
    · rw [Instance.externItem,required,kind,own]
      rfl
    · rw [kind]
      exact ⟨rfl,agrees⟩
  | memory ty =>
    have kind : export_.kind = .memory := alike.symm
    refine ⟨.memory ⟨store.id,addr⟩,?_,code,exported,?_,?_⟩
    · rw [Instance.exportItem,code,ok_bind,kind,own]
    · rw [Instance.externItem,required,kind,own]
      rfl
    · rw [kind]
      exact ⟨rfl,agrees⟩
  | global ty =>
    have kind : export_.kind = .global := alike.symm
    have typed := same (.inr rfl)
    rw [kind] at typed
    refine ⟨.global ⟨store.id,addr⟩,?_,code,exported,?_,?_⟩
    · rw [Instance.exportItem,code,ok_bind,kind,own]
    · rw [Instance.externItem,required,kind,own]
      rfl
    · rw [kind]
      refine ⟨rfl,?_,typed⟩
      obtain ⟨g,there,type⟩ := Option.map_eq_some_iff.mp typed
      cases type
      simp [HostGlobal.ty,HostGlobal.instance_,StoreItem.validateStore,State.at_some there]
  | func ty =>
    have kind : export_.kind = .func := alike.symm
    have typed := same (.inl rfl)
    rw [kind] at typed
    obtain ⟨type,idx,declared⟩ := Module.signature_at linedUp kind described
    rw [←typeIdxs] at idx
    rw [←types] at declared
    have signature : (do inst.funcTypeByTypeIndex (← inst.funcTypeIdx export_.index)) = .ok ty := by
      rw [ModuleInstance.funcTypeIdx,State.at_some idx,ok_bind]
      exact State.at_some declared
    have handle : inst.functionItem export_.index addr = .ok (.function ⟨⟨store.id,addr⟩,inst.idx,addr,ty⟩) := by
      rw [Instance.functionItem,ModuleInstance.funcTypeIdx,State.at_some idx,ok_bind,ModuleInstance.funcTypeByTypeIndex,
        State.at_some declared,ok_bind,own]
    refine ⟨.function ⟨⟨store.id,addr⟩,inst.idx,addr,ty⟩,?_,code,exported,?_,?_⟩
    · rw [Instance.exportItem,code,ok_bind,kind]
      exact handle
    · rw [Instance.externItem,required,kind]
      simp only [ExternVal.new,found,handle,ok_bind]
    · rw [kind]
      refine ⟨rfl,signature,?_,typed⟩
      obtain ⟨f,there,type⟩ := Option.map_eq_some_iff.mp typed
      cases type
      rw [Instance.funcUntyped,Instance.validateStore,own,if_neg (not_not_intro rfl),required,kind]
      simp [ExternVal.new,Instance.function,State.at_some there,own]

end Space

section Instantiated
variable [Allocator] [Numerics] {S W F V R : Type} {g : Parser S W F V R} {threads : Threads F V R} {fuel : Nat}
  {wasm : List Byte} {m : Module} {imports : Imports} {inst : Instance} {accepted : Module → Prop}
  {w w' later : World}

theorem views_agree (parsed : g.parseModuleBytes threads fuel wasm = .ok m) (valid : m.ExportsValid)
    (genuine : imports.Genuine w.store) (instantiated : w.instantiate m imports = .ok (.ok inst,w'))
    (run : WorldRun accepted w' later) : inst.Views m imports w.store later.store := by
  have linedUp := Parser.parsed_linedUp parsed
  obtain ⟨store,made,rfl⟩ := World.instantiate_cases instantiated
  have first := Store.TypesKept.instantiated made
  have rest := run_types run
  have kept := first.trans rest
  generalize answer : (Except.ok inst : Except Error Instance) = r at made
  cases made with
  | unlinked => cases answer
  | items links made => cases answer
  | segments links made complete ran => cases answer
  | @registered linked addrs fresh elemAddrs dataAddrs trapped state links made complete ran =>
    cases trapped with
    | some trap => cases answer
    | none =>
      cases answer
      have space (kind : ExternalKind) :
          (w.store.newInstance m addrs elemAddrs dataAddrs).addrs kind = addrs.addrs kind := by
        cases kind <;> rfl
      have linkedAt (kind : ExternalKind) :
          List.Forall₂ (imports.Links w.store m) (m.importsOf kind) (linked.addrs kind) := by
        obtain ⟨added,grown,each⟩ := Imports.linkAll_links genuine links kind
        have nothing : ResolvedImports.addrs ⟨[],[],[],[]⟩ kind = [] := by cases kind <;> rfl
        rw [grown,nothing,List.nil_append]
        exact each
      have typed (kind : ExternalKind) (k : Nat) (ty : ItemType) (declared : (m.madeTypes kind)[k]? = some ty) :
          later.store.state.itemType kind (w.store.state.count kind + k) = some ty := by
        refine rest.state kind _ ty (State.initSegments_types ran kind _ ty ?_)
        rw [complete.types made]
        exact declared
      have each (export_ : Export) (listed : export_ ∈ m.exports) : ∃ ty addr item, m.exportType export_ = some ty ∧
          (w.store.newInstance m addrs elemAddrs dataAddrs).exportItem export_ = .ok item ∧
          (w.store.newInstance m addrs elemAddrs dataAddrs).ExportAgrees m w.store later.store export_ ty addr item := by
        obtain ⟨ty,addr,described,alike,resolved,agrees,same⟩ := export_at linedUp valid listed (linkedAt _)
          ((space _).trans (complete.addrs _)) (typed _) kept.state
        obtain ⟨item,answered,views⟩ := export_agrees rfl rfl rfl kept.id.symm linedUp valid listed described alike
          resolved agrees same
        exact ⟨ty,addr,item,described,answered,views⟩
      have listing : ∃ items, (w.store.newInstance m addrs elemAddrs dataAddrs).exportItems = .ok items ∧
          List.Forall₂ (fun export_ p => p.1 = export_.name ∧
            (w.store.newInstance m addrs elemAddrs dataAddrs).exportItem export_ = .ok p.2) m.exports items := by
        refine mapM_forall₂ fun export_ listed => ?_
        obtain ⟨_,_,item,_,answered,_⟩ := each export_ listed
        exact ⟨(export_.name,item),by rw [answered]; rfl,rfl,answered⟩
      obtain ⟨items,answered,pairs⟩ := listing
      have described : List.Forall₂ (fun export_ d => (m.exportType export_).map (ModuleExport.mk export_.name) = some d)
          m.exports m.exportDescriptors := by
        refine filterMap_forall₂ fun export_ listed => ?_
        obtain ⟨ty,_,_,described,_⟩ := each export_ listed
        rw [described]
        exact ⟨_,rfl,rfl⟩
      refine ⟨⟨items,answered,pairs.length_eq.symm,described.length_eq.symm,fun k export_ there => ?_⟩,fun kind =>
        ⟨_,linkedAt kind,(space kind).trans (complete.addrs kind)⟩⟩
      obtain ⟨ty,addr,item,typed,answered,views⟩ := each export_ (List.mem_of_getElem? there)
      obtain ⟨⟨name,item'⟩,at_item,rfl,same⟩ := forall₂_at pairs there
      obtain ⟨d,at_descriptor,made⟩ := forall₂_at described there
      rw [answered] at same
      rw [typed] at made
      cases same
      cases made
      exact ⟨ty,addr,_,at_descriptor,at_item,views⟩

end Instantiated

-- A module that exports the global it imports, one of its own and a function.
namespace ItemViews

def sections : List (List Byte × Payload) :=
  [([0,0x61,0x73,0x6d,1,0,0,0],.version 1 .module (0,8)),
    ([1,4,1,0x60,0,0],.typeSection ⟨[.ok ⟨[],[]⟩],(10,14)⟩),
    ([2,11,1,4,0x68,0x6f,0x73,0x74,1,0x67,3,0x7f,0],.importSection ⟨[.ok ⟨"host","g",.global ⟨false,.i32⟩⟩],(16,27)⟩),
    ([3,2,1,0],.functionSection ⟨[.ok 0],(29,31)⟩),
    ([6,6,1,0x7e,0,0x42,9,0x0b],.globalSection ⟨[.ok ⟨⟨false,.i64⟩,[.i64Const 9]⟩],(33,39)⟩),
    ([7,13,3,1,0x67,3,0,1,0x78,3,1,1,0x66,0,0],
      .exportSection ⟨[.ok ⟨"g",.global,0⟩,.ok ⟨"x",.global,1⟩,.ok ⟨"f",.func,0⟩],(41,54)⟩),
    ([10,4,1],.codeSectionStart 1 (56,60) 4),
    ([2,0,0x0b],.codeSectionEntry ⟨[0,0x0b],58⟩),
    ([],.end_ 60)]

def wasm : List Byte := sections.flatMap (·.1)

-- The parser as it goes about these bytes.
def wasmparser : IncrementalParser Nat where
  new := 0
  parse done bytes _ :=
    match sections[done]? with
    | some (section_,payload) =>
      if bytes.take section_.length = section_ then .ok (.parsed section_.length payload (done + 1))
      else .error (.parseError "unexpected bytes" done)
    | none => .error (.parseError "unexpected end-of-file" done)
  skipSection done := done
  readReader _ offset := .error (.parseError "unexpected end-of-file" offset)

def parser : Parser Nat Unit Unit Unit Unit where
  options := ⟨true,true,true,none⟩
  wasmparser
  validation := ⟨fun _ _ => .ok (),fun _ _ => .ok ((),())⟩
  createValidator := ()
  lowering _ := ⟨(),(),fun _ _ _ _ => .ok (⟨[.returnVoid],⟨[],[]⟩,fun _ => 0,false⟩,some (),()),fun code _ _ _ _ => .ok code⟩

def func : WasmFunction := ⟨[.returnVoid],⟨[],[]⟩,fun _ => 0,fun _ => 0,fun _ => 0,⟨[],[]⟩⟩

def module : Module where
  startFunc := none
  funcs := [func]
  funcTypes := [⟨[],[]⟩]
  funcTypeIdxs := [0]
  exports := [⟨"g",.global,0⟩,⟨"x",.global,1⟩,⟨"f",.func,0⟩]
  globals := [⟨⟨false,.i64⟩,[.i64Const 9]⟩]
  tableTypes := []
  memoryTypes := []
  imports := [⟨"host","g",.global ⟨false,.i32⟩⟩]
  data := []
  elements := []
  localMemoryAllocation := .skip

theorem parsed : parser.parseModuleBytes (.unshared none) 9 wasm = .ok module := rfl

def config : Config := ⟨fun _ => ⟨8,8,false⟩,⟨8,8,false⟩,.perInstruction,.vec,false⟩

def imported : GlobalInstance := ⟨.value32 5,⟨false,.i32⟩⟩

def before : World := ⟨{Store.new 0 config with state := {State.empty with globals := [imported]}},[]⟩

def imports : Imports := Imports.empty.define "host" "g" (.global ⟨0,0⟩)

def inst : Instance := ⟨⟨0,module.funcTypes,[0],[0],[],[],[0,1],[],[]⟩,0,none,module.exports⟩

def made : World where
  store :=
    {before.store with
      moduleInstances := [inst]
      state := {State.empty with funcs := [.wasm func 0],globals := [imported,⟨.value64 9,⟨false,.i64⟩⟩]}}
  modules := [module]

theorem exportsValid : module.ExportsValid where
  named export_ listed := by
    simp only [module,List.mem_cons,List.not_mem_nil,or_false] at listed
    rcases listed with rfl | rfl | rfl <;> decide
  distinct := by decide

end ItemViews

open ItemViews in
theorem views_agree_exported :
    let _ := Allocator.unlimited
    let _ := Numerics.zeros
    inst.Views module imports before.store made.store := by
  let _ := Allocator.unlimited
  let _ := Numerics.zeros
  have genuine : imports.Genuine before.store := by
    intro module name func given
    simp only [imports,Imports.define,Imports.empty] at given
    split at given <;> cases given
  have instantiated : before.instantiate module imports = .ok (.ok inst,made) := rfl
  have run : WorldRun (fun _ => True) made made := .refl
  exact views_agree parsed exportsValid genuine instantiated run

end TinyWasm
