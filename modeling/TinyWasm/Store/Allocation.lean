import TinyWasm.Store.Instantiate

namespace TinyWasm

-- The items an instantiation makes for itself before its segments.
structure Fresh where
  funcs : List FunctionInstance
  tables : List TableInstance
  memories : List MemoryInstance
  globals : List GlobalInstance

def State.add (s : State) (fresh : Fresh) : State :=
  {s with
    funcs := s.funcs ++ fresh.funcs,tables := s.tables ++ fresh.tables
    memories := s.memories ++ fresh.memories,globals := s.globals ++ fresh.globals}

-- Each new global holds its initialiser's value among the globals before it.
def GlobalsMade (s : State) (globalAddrs : List GlobalAddr) (funcAddrs : List FuncAddr) (globals : List Global)
    (made : List GlobalInstance) : Prop :=
  ∀ (k : Nat) (g : GlobalInstance), made[k]? = some g → ∃ declared, globals[k]? = some declared ∧ g.ty = declared.ty ∧
    (ConstNames.mk (s.globals ++ made.take k) globalAddrs funcAddrs).evalConst declared.init = .ok g.value

theorem MemoryInstance.newLazy_kind {kind : MemoryType} {backend : MemoryBackend} {mem : MemoryInstance}
    (made : MemoryInstance.newLazy kind backend = .ok (.ok mem)) : mem.kind = kind := by
  unfold MemoryInstance.newLazy at made
  split at made
  · cases made
  · cases made; rfl

namespace State
variable {s s' : State}

theorem pushMemories_added {make : MemoryType → Checked (Except Error MemoryInstance)}
    (keeps : ∀ kind mem, make kind = .ok (.ok mem) → mem.kind = kind) {kinds : List MemoryType}
    {r : Except Error Unit} (ran : s.pushMemories make kinds = .ok (r,s')) :
    ∃ memories, s' = {s with memories := s.memories ++ memories} ∧
      (∀ mem ∈ memories, make mem.kind = .ok (.ok mem)) ∧ (r = .ok () → memories.map (·.kind) = kinds) := by
  induction kinds generalizing s with
  | nil => cases ran; exact ⟨[],by rw [List.append_nil],nofun,fun _ => rfl⟩
  | cons kind kinds ih =>
    unfold pushMemories at ran
    cases made : make kind with
    | error abort => rw [made] at ran; cases ran
    | ok result =>
      cases result with
      | error error => rw [made] at ran; cases ran; exact ⟨[],by rw [List.append_nil],nofun,nofun⟩
      | ok mem =>
        rw [made] at ran
        obtain ⟨memories,rfl,each,all⟩ := ih ran
        have kind_eq := keeps kind mem made
        refine ⟨mem :: memories,?_,fun other listed => ?_,fun done => ?_⟩
        · rw [List.append_assoc]
          rfl
        · rcases List.mem_cons.mp listed with rfl | later
          · rw [kind_eq]
            exact made
          · exact each other later
        · rw [List.map_cons,kind_eq,all done]

theorem initMemories_added {make : MemoryType → Checked (Except Error MemoryInstance)}
    (keeps : ∀ kind mem, make kind = .ok (.ok mem) → mem.kind = kind) {kinds : List MemoryType}
    {r : Except Error (List MemAddr)} (ran : s.initMemories make kinds = .ok (r,s')) :
    ∃ memories, s' = {s with memories := s.memories ++ memories} ∧
      (∀ mem ∈ memories, make mem.kind = .ok (.ok mem)) ∧
      ∀ addrs, r = .ok addrs → memories.map (·.kind) = kinds ∧ addrs = List.range' s.memories.length kinds.length := by
  unfold initMemories at ran
  cases pushed : s.pushMemories make kinds with
  | error abort => rw [pushed] at ran; cases ran
  | ok result =>
    obtain ⟨r',grown⟩ := result
    rw [pushed] at ran
    obtain ⟨memories,same,each,all⟩ := pushMemories_added keeps pushed
    cases ran
    refine ⟨memories,same,each,fun addrs done => ?_⟩
    cases r' with
    | error error => cases done
    | ok _ => cases done; exact ⟨all rfl,rfl⟩

theorem pushGlobals_added (s : State) (globalAddrs : List GlobalAddr) (funcAddrs : List FuncAddr)
    (globals : List Global) :
    ∃ made, (s.pushGlobals globalAddrs funcAddrs globals).2 = {s with globals := s.globals ++ made} ∧
      GlobalsMade s globalAddrs funcAddrs globals made ∧
      ((s.pushGlobals globalAddrs funcAddrs globals).1 = .ok () → made.length = globals.length) := by
  induction globals generalizing s with
  | nil => exact ⟨[],by rw [List.append_nil]; rfl,nofun,fun _ => rfl⟩
  | cons global globals ih =>
    unfold pushGlobals
    cases evaluated : (s.constNames globalAddrs funcAddrs).evalConst global.init with
    | error error => exact ⟨[],by rw [List.append_nil],nofun,nofun⟩
    | ok value =>
      obtain ⟨made,same,each,all⟩ := ih {s with globals := s.globals ++ [⟨value,global.ty⟩]}
      refine ⟨⟨value,global.ty⟩ :: made,?_,fun k g found => ?_,fun done => ?_⟩
      · dsimp only
        rw [same,List.append_assoc]
        rfl
      · cases k with
        | zero =>
          cases found
          refine ⟨global,rfl,rfl,?_⟩
          rw [List.take_zero,List.append_nil]
          exact evaluated
        | succ k =>
          obtain ⟨declared,listed,type,value⟩ := each k g found
          refine ⟨declared,listed,type,?_⟩
          rw [List.append_assoc] at value
          exact value
      · rw [List.length_cons,all done,List.length_cons]

theorem initGlobals_added {globals : List Global} {out : List GlobalAddr} {funcAddrs : List FuncAddr}
    {r : Except Error (List GlobalAddr)} (ran : s.initGlobals globals out funcAddrs = (r,s')) :
    ∃ made, s' = {s with globals := s.globals ++ made} ∧
      GlobalsMade s (out ++ List.range' s.globals.length globals.length) funcAddrs globals made ∧
      ∀ addrs, r = .ok addrs →
        made.length = globals.length ∧ addrs = out ++ List.range' s.globals.length globals.length := by
  obtain ⟨made,same,each,all⟩ :=
    s.pushGlobals_added (out ++ List.range' s.globals.length globals.length) funcAddrs globals
  unfold initGlobals at ran
  obtain ⟨answer,rfl⟩ := Prod.mk.inj ran
  refine ⟨made,same,each,fun addrs done => ?_⟩
  rw [← answer] at done
  cases pushed : (s.pushGlobals (out ++ List.range' s.globals.length globals.length) funcAddrs globals).1 with
  | error error => rw [pushed] at done; cases done
  | ok _ => rw [pushed] at done; cases done; exact ⟨all pushed,rfl⟩

end State

section Made
variable [Allocator]

-- A memory as its module's allocation policy makes it.
def MemoryMade (backend : MemoryBackend) (mem : MemoryInstance) : Prop :=
  MemoryInstance.new mem.kind backend = .ok (.ok mem) ∨ MemoryInstance.newLazy mem.kind backend = .ok (.ok mem)

structure Fresh.Made (fresh : Fresh) (backend : MemoryBackend) (m : Module) (idx : ModuleInstanceAddr) (s : State)
    (addrs : ResolvedImports) : Prop where
  funcs : fresh.funcs = m.funcs.map (.wasm · idx)
  tables : ∀ t ∈ fresh.tables, TableInstance.new t.kind = .ok t
  memories : ∀ mem ∈ fresh.memories, MemoryMade backend mem
  globals : GlobalsMade s (addrs.globals ++ List.range' s.globals.length m.globals.length)
    (addrs.funcs ++ List.range' s.funcs.length m.funcs.length) m.globals fresh.globals

def Module.allocatedMemories (m : Module) : List MemoryType :=
  match m.localMemoryAllocation with
  | .skip => []
  | .lazy | .eager => m.memoryTypes

-- All of it, under the addresses that follow those of the imports.
structure Fresh.Complete (fresh : Fresh) (m : Module) (s : State) (addrs addrs' : ResolvedImports) : Prop where
  tables : fresh.tables.map (·.kind) = m.tableTypes
  memories : fresh.memories.map (·.kind) = m.allocatedMemories
  globals : fresh.globals.length = m.globals.length
  globalAddrs : addrs'.globals = addrs.globals ++ List.range' s.globals.length m.globals.length
  tableAddrs : addrs'.tables = addrs.tables ++ List.range' s.tables.length m.tableTypes.length
  memAddrs : addrs'.memories = addrs.memories ++ List.range' s.memories.length m.allocatedMemories.length
  funcAddrs : addrs'.funcs = addrs.funcs ++ List.range' s.funcs.length m.funcs.length

theorem TableInstance.new_kind {kind : TableType} {t : TableInstance} (made : TableInstance.new kind = .ok t) :
    t.kind = kind := by
  unfold TableInstance.new TableInstance.newWithInit at made
  split at made
  · cases made
  · split at made
    · cases made; rfl
    · cases made

theorem MemoryInstance.new_kind {kind : MemoryType} {backend : MemoryBackend} {mem : MemoryInstance}
    (made : MemoryInstance.new kind backend = .ok (.ok mem)) : mem.kind = kind := by
  unfold MemoryInstance.new at made
  split at made
  · cases made
  · cases created : backend.create (initialLen kind) with
    | error error => rw [created] at made; cases made
    | ok storage =>
      rw [created] at made
      simp only [bind,Except.bind,Except.ok.injEq] at made
      split at made
      · cases made
      · cases made; rfl

namespace State
variable {s s' : State}

theorem pushTables_added (s : State) (kinds : List TableType) :
    ∃ tables, (s.pushTables kinds).2 = {s with tables := s.tables ++ tables} ∧
      (∀ t ∈ tables, TableInstance.new t.kind = .ok t) ∧
      ((s.pushTables kinds).1 = .ok () → tables.map (·.kind) = kinds) := by
  induction kinds generalizing s with
  | nil => exact ⟨[],by rw [List.append_nil]; rfl,nofun,fun _ => rfl⟩
  | cons kind kinds ih =>
    unfold pushTables
    cases made : TableInstance.new kind with
    | error error => exact ⟨[],by rw [List.append_nil],nofun,nofun⟩
    | ok table =>
      obtain ⟨tables,same,each,all⟩ := ih {s with tables := s.tables ++ [table]}
      have kind_eq := TableInstance.new_kind made
      refine ⟨table :: tables,?_,fun t listed => ?_,fun done => ?_⟩
      · dsimp only
        rw [same,List.append_assoc]
        rfl
      · rcases List.mem_cons.mp listed with rfl | later
        · rw [kind_eq]
          exact made
        · exact each t later
      · rw [List.map_cons,kind_eq,all done]

theorem initTables_added {s s' : State} {kinds : List TableType} {r : Except Error (List TableAddr)}
    (ran : s.initTables kinds = (r,s')) :
    ∃ tables, s' = {s with tables := s.tables ++ tables} ∧ (∀ t ∈ tables, TableInstance.new t.kind = .ok t) ∧
      ∀ addrs, r = .ok addrs → tables.map (·.kind) = kinds ∧ addrs = List.range' s.tables.length kinds.length := by
  obtain ⟨tables,same,each,all⟩ := s.pushTables_added kinds
  unfold initTables at ran
  obtain ⟨answer,rfl⟩ := Prod.mk.inj ran
  refine ⟨tables,same,each,fun addrs done => ?_⟩
  rw [← answer] at done
  cases pushed : (s.pushTables kinds).1 with
  | error error => rw [pushed] at done; cases done
  | ok _ => rw [pushed] at done; cases done; exact ⟨all pushed,rfl⟩

theorem initLocalMemories_added {s s' : State} {backend : MemoryBackend} {m : Module} {r : Except Error (List MemAddr)}
    (ran : s.initLocalMemories backend m = .ok (r,s')) :
    ∃ memories, s' = {s with memories := s.memories ++ memories} ∧ (∀ mem ∈ memories, MemoryMade backend mem) ∧
      ∀ addrs, r = .ok addrs → memories.map (·.kind) = m.allocatedMemories ∧
        addrs = List.range' s.memories.length m.allocatedMemories.length := by
  unfold initLocalMemories at ran
  unfold Module.allocatedMemories
  cases policy : m.localMemoryAllocation with
  | skip =>
    rw [policy] at ran
    cases ran
    exact ⟨[],by rw [List.append_nil],nofun,fun addrs same => by cases same; exact ⟨rfl,rfl⟩⟩
  | lazy =>
    rw [policy] at ran
    obtain ⟨memories,same,each,all⟩ := initMemories_added (fun _ _ => MemoryInstance.newLazy_kind) ran
    exact ⟨memories,same,fun mem listed => .inr (each mem listed),all⟩
  | eager =>
    rw [policy] at ran
    obtain ⟨memories,same,each,all⟩ := initMemories_added (fun _ _ => MemoryInstance.new_kind) ran
    exact ⟨memories,same,fun mem listed => .inl (each mem listed),all⟩

-- However it ends, an allocation only adds to the store.
theorem initItems_added {s s' : State} {backend : MemoryBackend} {m : Module} {idx : ModuleInstanceAddr}
    {addrs : ResolvedImports} {r : Except Error ResolvedImports} (ran : s.initItems backend m idx addrs = .ok (r,s')) :
    ∃ fresh : Fresh, s' = s.add fresh ∧ fresh.Made backend m idx s addrs ∧
      ∀ addrs', r = .ok addrs' → fresh.Complete m s addrs addrs' := by
  unfold initItems at ran
  dsimp only [initFuncs] at ran
  rcases tabled : State.initTables _ m.tableTypes with ⟨tablesResult,s₁⟩
  rw [tabled] at ran
  obtain ⟨tables,rfl,tablesMade,tablesAll⟩ := initTables_added tabled
  cases tablesResult with
  | error error =>
    cases ran
    refine ⟨⟨_,tables,[],[]⟩,?_,⟨rfl,tablesMade,nofun,nofun⟩,nofun⟩
    simp only [add,List.append_nil]
  | ok tableAddrs =>
    obtain ⟨tableKinds,rfl⟩ := tablesAll _ rfl
    dsimp only at ran
    cases allocated : State.initLocalMemories _ backend m with
    | error abort => rw [allocated] at ran; cases ran
    | ok result =>
      obtain ⟨memoriesResult,s₂⟩ := result
      rw [allocated] at ran
      obtain ⟨memories,rfl,memoriesMade,memoriesAll⟩ := initLocalMemories_added allocated
      cases memoriesResult with
      | error error =>
        cases ran
        refine ⟨⟨_,tables,memories,[]⟩,?_,⟨rfl,tablesMade,memoriesMade,nofun⟩,nofun⟩
        simp only [add,List.append_nil]
      | ok memAddrs =>
        obtain ⟨memoryKinds,rfl⟩ := memoriesAll _ rfl
        dsimp only [bind,Except.bind] at ran
        rcases initialised : State.initGlobals _ m.globals addrs.globals _ with ⟨globalsResult,s₃⟩
        rw [initialised] at ran
        obtain ⟨globals,rfl,globalsMade,globalsAll⟩ := initGlobals_added initialised
        refine ⟨⟨_,tables,memories,globals⟩,?_,⟨rfl,tablesMade,memoriesMade,globalsMade⟩,?_⟩
        · cases globalsResult <;> cases ran <;> rfl
        · cases globalsResult with
          | error error => cases ran; exact nofun
          | ok globalAddrs =>
            obtain ⟨length,rfl⟩ := globalsAll _ rfl
            cases ran
            rintro addrs' ⟨⟩
            exact ⟨tableKinds,memoryKinds,length,rfl,rfl,rfl,rfl⟩

-- One data segment: an internal error changes nothing, a trap at most the bytes
-- of a memory, and a segment that is in place is recorded.
theorem initDatum_cases {names : ConstNames} {memAddrs : List MemAddr} {data : Data}
    {r : Except Error (Except Trap Unit)} (ran : s.initDatum names memAddrs data = .ok (r,s')) :
    (∃ error, r = .error error ∧ s' = s) ∨
    (∃ trap memories, r = .ok (.error trap) ∧ memories.length = s.memories.length ∧ s' = {s with memories}) ∨
    (∃ item memories, r = .ok (.ok ()) ∧ memories.length = s.memories.length ∧
      s' = {s with memories,data := s.data ++ [item]}) := by
  unfold initDatum at ran
  split at ran
  · cases ran; exact .inr (.inr ⟨_,_,rfl,rfl,rfl⟩)
  · split at ran
    · cases ran; exact .inl ⟨_,rfl,rfl⟩
    · split at ran
      · cases ran; exact .inl ⟨_,rfl,rfl⟩
      · rename_i offset _
        split at ran
        · cases ran; exact .inl ⟨_,rfl,rfl⟩
        · rename_i memAddr _ _ _ mem _
          cases wrote : LinearMemory.writeAll mem.inner offset data.data with
          | error abort => rw [wrote] at ran; cases ran
          | ok result =>
            obtain ⟨_ | _,inner⟩ := result
            · rw [wrote] at ran
              cases ran
              exact .inr (.inl ⟨_,_,rfl,List.length_set,rfl⟩)
            · rw [wrote] at ran
              cases ran
              exact .inr (.inr ⟨_,_,rfl,List.length_set,rfl⟩)

theorem initDatum_ran {names : ConstNames} {memAddrs : List MemAddr} {data : Data}
    {r : Except Error (Except Trap Unit)} (ran : s.initDatum names memAddrs data = .ok (r,s')) : s.SegmentsRan s' := by
  rcases initDatum_cases ran with ⟨_,_,rfl⟩ | ⟨_,_,_,length,rfl⟩ | ⟨_,_,_,length,rfl⟩
  · exact .refl _
  · exact ⟨rfl,rfl,rfl,length,Nat.le_refl _,Nat.le_refl _⟩
  · exact ⟨rfl,rfl,rfl,length,Nat.le_refl _,by simp⟩

theorem initData_ran {names : ConstNames} {memAddrs : List MemAddr} {data : List Data} {dataAddrs : List DataAddr}
    {r : Except Error (List DataAddr × Option Trap)} (ran : s.initData names memAddrs data dataAddrs = .ok (r,s')) :
    s.SegmentsRan s' := by
  induction data generalizing s dataAddrs with
  | nil => cases ran; exact .refl _
  | cons data rest ih =>
    unfold initData at ran
    cases one : s.initDatum names memAddrs data with
    | error abort => rw [one] at ran; cases ran
    | ok result =>
      obtain ⟨_ | _ | _,next⟩ := result
      · rw [one] at ran; cases ran; exact initDatum_ran one
      · rw [one] at ran; cases ran; exact initDatum_ran one
      · rw [one] at ran; exact (initDatum_ran one).trans (ih ran)

theorem initSegments_ran {m : Module} {addrs : ResolvedImports}
    {r : Except Error (List ElemAddr × List DataAddr × Option Trap)} (ran : s.initSegments m addrs = .ok (r,s')) :
    s.SegmentsRan s' := by
  unfold initSegments at ran
  dsimp only at ran
  have elements := s.initElements_ran (s.constNames addrs.globals addrs.funcs) addrs.tables m.elements []
  rcases placed : s.initElements (s.constNames addrs.globals addrs.funcs) addrs.tables m.elements [] with ⟨_ | _,s₁⟩
  · rw [placed] at ran elements
    cases ran
    exact elements
  · rw [placed] at ran elements
    dsimp only at ran
    cases wrote : s₁.initData (s.constNames addrs.globals addrs.funcs) addrs.memories m.data [] with
    | error abort => rw [wrote] at ran; cases ran
    | ok result =>
      obtain ⟨_ | _,s₂⟩ := result
      · rw [wrote] at ran; cases ran; exact elements.trans (initData_ran wrote)
      · rw [wrote] at ran; cases ran; exact elements.trans (initData_ran wrote)

end State

-- How far an instantiation comes: its imports, its items, its segments. Only
-- after the segments is there an instance.
inductive Store.Instantiated (store : Store) (m : Module) (imports : Imports) : Except Error Instance → Store → Prop where
  | unlinked {error} : Instantiated store m imports (.error error) store
  | items {linked fresh error} (links : imports.link store m = .ok (.ok linked))
    (made : fresh.Made store.config.memoryBackend m store.moduleInstances.length store.state linked) :
    Instantiated store m imports (.error error) {store with state := store.state.add fresh}
  | segments {linked addrs : ResolvedImports} {fresh error state}
    (links : imports.link store m = .ok (.ok linked))
    (made : fresh.Made store.config.memoryBackend m store.moduleInstances.length store.state linked)
    (complete : fresh.Complete m store.state linked addrs)
    (ran : (store.state.add fresh).initSegments m addrs = .ok (.error error,state)) :
    Instantiated store m imports (.error error) {store with state}
  | registered {linked addrs : ResolvedImports} {fresh elemAddrs dataAddrs trapped state}
    (links : imports.link store m = .ok (.ok linked))
    (made : fresh.Made store.config.memoryBackend m store.moduleInstances.length store.state linked)
    (complete : fresh.Complete m store.state linked addrs)
    (ran : (store.state.add fresh).initSegments m addrs = .ok (.ok (elemAddrs,dataAddrs,trapped),state)) :
    Instantiated store m imports
      (match trapped with
        | some trap => .error (.trap trap)
        | none => .ok (store.newInstance m addrs elemAddrs dataAddrs))
      {store with state,moduleInstances := store.moduleInstances ++ [store.newInstance m addrs elemAddrs dataAddrs]}

theorem Store.instantiateNoStart_cases {store store' : Store} {m : Module} {imports : Imports} {r : Except Error Instance}
    (ran : store.instantiateNoStart m imports = .ok (r,store')) : store.Instantiated m imports r store' := by
  unfold instantiateNoStart at ran
  cases links : imports.link store m with
  | error abort => rw [links] at ran; cases ran
  | ok result =>
    rw [links] at ran
    cases result with
    | error error => cases ran; exact .unlinked
    | ok linked =>
      dsimp only [bind,Except.bind] at ran
      cases items : store.state.initItems store.config.memoryBackend m store.moduleInstances.length linked with
      | error abort => rw [items] at ran; cases ran
      | ok result =>
        obtain ⟨result,s⟩ := result
        rw [items] at ran
        obtain ⟨fresh,rfl,made,complete⟩ := State.initItems_added items
        cases result with
        | error error => cases ran; exact .items links made
        | ok addrs =>
          dsimp only at ran
          cases segments : (store.state.add fresh).initSegments m addrs with
          | error abort => rw [segments] at ran; cases ran
          | ok result =>
            obtain ⟨result,state⟩ := result
            rw [segments] at ran
            cases result with
            | error error => cases ran; exact .segments links made (complete addrs rfl) segments
            | ok result =>
              obtain ⟨elemAddrs,dataAddrs,trapped⟩ := result
              have there := Instantiated.registered links made (complete addrs rfl) segments
              cases trapped with
              | none => cases ran; exact there
              | some trap => cases ran; exact there

end Made

end TinyWasm
