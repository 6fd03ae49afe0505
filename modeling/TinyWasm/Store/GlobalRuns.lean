import TinyWasm.Store.GlobalTyping
import TinyWasm.Store.World

namespace TinyWasm

-- Every instance names globals of the types its valid module declares.
structure World.GlobalsSound (w : World) : Prop where
  fit : w.store.state.GlobalsFit
  recorded : w.modules.length = w.store.moduleInstances.length
  declared : ∀ (idx : Nat) (inst : Instance) (m : Module), w.store.moduleInstances[idx]? = some inst →
    w.modules[idx]? = some m → m.GlobalsValid ∧ DeclaresGlobals w.store.state inst.globalAddrs m.globalTypes

namespace World.GlobalsSound
variable {w : World} {store : Store}

theorem new (id : Nat) (config : Config) : (World.new id config).GlobalsSound := ⟨nofun,rfl,nofun⟩

theorem kept (sound : w.GlobalsSound) (instances : store.moduleInstances = w.store.moduleInstances)
    (kept : w.store.state.GlobalsKept store.state) (fit : store.state.GlobalsFit) : World.GlobalsSound {w with store} := by
  refine ⟨fit,by rw [sound.recorded,instances],fun idx inst m listed made => ?_⟩
  rw [instances] at listed
  obtain ⟨valid,declares⟩ := sound.declared idx inst m listed made
  exact ⟨valid,declares.kept kept⟩

theorem registered (sound : w.GlobalsSound) {inst : Instance} {m : Module}
    (instances : store.moduleInstances = w.store.moduleInstances ++ [inst])
    (kept : w.store.state.GlobalsKept store.state) (fit : store.state.GlobalsFit) (valid : m.GlobalsValid)
    (declares : DeclaresGlobals store.state inst.globalAddrs m.globalTypes) :
    World.GlobalsSound ⟨store,w.modules ++ [m]⟩ := by
  refine ⟨fit,by simp [instances,sound.recorded],fun idx other m' listed made => ?_⟩
  rw [instances] at listed
  by_cases before : idx < w.modules.length
  · rw [List.getElem?_append_left (sound.recorded ▸ before)] at listed
    rw [List.getElem?_append_left before] at made
    obtain ⟨valid,declares⟩ := sound.declared idx other m' listed made
    exact ⟨valid,declares.kept kept⟩
  · have after := Nat.le_of_not_lt before
    rw [List.getElem?_append_right (sound.recorded ▸ after),←sound.recorded] at listed
    rw [List.getElem?_append_right after] at made
    cases at_end : idx - w.modules.length with
    | zero =>
      rw [at_end] at listed made
      cases listed
      cases made
      exact ⟨valid,declares⟩
    | succ n => rw [at_end] at made; cases made

end World.GlobalsSound

section Execution
variable {ctx : Context} {global : GlobalAddr} {addr : GlobalAddr} {g : GlobalInstance} {m : Machine}

-- What is on a lane comes off it, and the store stays.
theorem Machine.pop_run (size : OperandSize) (m : Machine) :
    ((m.valueStack.lane size).data = [] ∧ Machine.pop size m = .error .panic) ∨
    ∃ v valueStack, Machine.pop size m = .ok (.ok v,⟨valueStack,m.state⟩) := by
  unfold Machine.pop ValueStack.pop Stack.pop
  cases top : (m.valueStack.lane size).data.getLast? with
  | none => exact .inl ⟨List.getLast?_eq_none_iff.mp top,rfl⟩
  | some v => exact .inr ⟨_,_,rfl⟩

theorem Context.global_run (named : ctx.module.globalAddrs[global]? = some addr)
    (found : m.state.globals[addr]? = some g) : ctx.global global m = .ok (.ok (addr,g),m) := by
  simp only [Context.global,State.at_some named,Exec.ofChecked_bind,Exec.get_bind,State.at_some found,Exec.pure_run]

-- The lane of a type and the type itself make the variant it is read from.
theorem globalValue_fits (ty : WasmType) (raw : Value (.ofWasmType ty)) :
    ∃ value, globalValue (.ofWasmType ty) ty raw = .ok value ∧ value.Fits ty := by
  cases ty <;> exact ⟨_,rfl,rfl⟩

theorem execGlobalSet_run (named : ctx.module.globalAddrs[global]? = some addr)
    (found : m.state.globals[addr]? = some g) :
    ((m.valueStack.lane (.ofWasmType g.ty.ty)).data = [] ∧
      execGlobalSet ctx (.ofWasmType g.ty.ty) global m = .error .panic) ∨
    ∃ value valueStack, value.Fits g.ty.ty ∧ execGlobalSet ctx (.ofWasmType g.ty.ty) global m =
      .ok (.ok (),⟨valueStack,{m.state with globals := m.state.globals.set addr {g with value}}⟩) := by
  simp only [execGlobalSet,State.at_some named,Exec.ofChecked_bind]
  rcases m.pop_run (.ofWasmType g.ty.ty) with ⟨empty,starved⟩ | ⟨raw,valueStack,popped⟩
  · exact .inl ⟨empty,by rw [Exec.bind_run,starved]⟩
  · obtain ⟨value,made,fits⟩ := globalValue_fits g.ty.ty raw
    refine .inr ⟨value,valueStack,fits,?_⟩
    rw [Exec.bind_ok popped]
    simp only [Exec.get_bind,State.at_some found,Exec.ofChecked_bind,made,Exec.set_run]

theorem TinyWasmValue.attachType_type {v : TinyWasmValue} {ty : WasmType} {value : WasmValue}
    (attached : v.attachType ty = some value) : value.type = ty := by
  cases v <;> cases ty <;> cases attached <;> rfl

theorem fits_scalar {v : TinyWasmValue} {ty : WasmType} {width : ScalarSize} (fits : v.Fits ty)
    (number : ty.scalar = some width) : ∃ raw, v.scalar width = .ok raw := by
  cases ty with
  | i32 | f32 =>
    cases number
    cases v with
    | value32 raw => exact ⟨raw,rfl⟩
    | value64 _ | value128 _ | valueRef _ => cases fits
  | i64 | f64 =>
    cases number
    cases v with
    | value64 raw => exact ⟨raw,rfl⟩
    | value32 _ | value128 _ | valueRef _ => cases fits
  | v128 | refFunc | refExtern => cases number

def Instruction.namesGlobal : Instruction → Bool
  | .globalGet _ | .globalSet _ _ | .binOpStackGlobal _ _ _ => true
  | _ => false

section Pushes
variable [Allocator]

theorem Machine.pushDyn_runs (v : TinyWasmValue) (m : Machine) : ∃ r m', Machine.pushDyn v m = .ok (r,m') := by
  cases v <;> exact ⟨_,_,rfl⟩

variable [Numerics]

theorem execStackGlobal_run {width : ScalarSize} (op : BinOp) {raw : Value width.size}
    (named : ctx.module.globalAddrs[global]? = some addr) (found : m.state.globals[addr]? = some g)
    (number : g.value.scalar width = .ok raw) :
    ((m.valueStack.lane width.size).data = [] ∧ execStackGlobal ctx width op global m = .error .panic) ∨
    ∃ r m', execStackGlobal ctx width op global m = .ok (r,m') := by
  unfold execStackGlobal
  rw [Exec.bind_ok (Context.global_run named found)]
  dsimp only
  rw [number,Exec.ofChecked_bind]
  rcases m.pop_run width.size with ⟨empty,starved⟩ | ⟨stackVal,valueStack,popped⟩
  · exact .inl ⟨empty,by rw [Exec.bind_run,starved]⟩
  · rw [Exec.bind_ok popped]
    exact .inr ⟨_,_,rfl⟩

-- Only global.set writes a global.
theorem execStraight_globals {i : Instruction} {r : Except Trap Unit} {m' : Machine}
    (other : ∀ size global, i ≠ .globalSet size global) (ran : execStraight ctx i m = .ok (r,m')) :
    m'.state.globals = m.state.globals := by
  by_cases plain : i.isPlain = true
  · exact congrArg Shape.globals ((straight_uses (K := m.state.shape) i plain).run m r m' rfl ran).1
  · cases i
    case globalSet size global => exact absurd rfl (other size global)
    all_goals first
      | exact absurd rfl plain
      | cases ran; rfl

end Pushes

end Execution

section Steps
variable {w : World}

theorem linked_declared {m : Module} {imports : Imports} {linked : ResolvedImports}
    (links : imports.link w.store m = .ok (.ok linked)) :
    DeclaresGlobals w.store.state linked.globals m.importedGlobals := by
  obtain ⟨added,grown,declares⟩ := Imports.linkAll_globals links
  rw [List.nil_append] at grown
  rw [grown]
  exact declares

theorem new_sound (sound : w.GlobalsSound) (ty : GlobalType) (value : WasmValue) :
    World.GlobalsSound {w with store := (HostGlobal.new w.store ty value).2} ∧
      w.store.state.GlobalsKept (HostGlobal.new w.store ty value).2.state := by
  unfold HostGlobal.new
  split
  · exact ⟨sound,.refl _⟩
  · rename_i same
    have typed : value.type = ty.ty := Decidable.of_not_not same
    have grown : w.store.state.GlobalsKept
        {w.store.state with globals := w.store.state.globals ++ [⟨value.toTinyWasm,ty⟩]} := .of_append rfl
    refine ⟨sound.kept rfl grown fun g listed => ?_,grown⟩
    rcases List.mem_append.mp listed with old | new
    · exact sound.fit g old
    · obtain rfl := List.mem_singleton.mp new
      rw [←typed]
      exact value.toTinyWasm_fits

-- Writing a value of its type to a mutable global.
theorem write_sound (sound : w.GlobalsSound) {addr : GlobalAddr} {g : GlobalInstance} {value : TinyWasmValue}
    {store : Store} (found : w.store.state.globals[addr]? = some g) (mutable : g.ty.isMutable = true)
    (fits : value.Fits g.ty.ty) (instances : store.moduleInstances = w.store.moduleInstances)
    (written : store.state.globals = w.store.state.globals.set addr {g with value}) :
    World.GlobalsSound {w with store} ∧ w.store.state.GlobalsKept store.state := by
  have kept : w.store.state.GlobalsKept store.state := by
    intro other g' found'
    rw [written]
    by_cases same : addr = other
    · subst same
      rw [found] at found'
      cases found'
      refine ⟨{g with value},List.getElem?_set_self (List.getElem?_eq_some_iff.mp found).1,rfl,fun fixed => ?_⟩
      rw [mutable] at fixed
      cases fixed
    · exact ⟨g',(List.getElem?_set_ne same).trans found',rfl,fun _ => rfl⟩
  refine ⟨sound.kept instances kept fun g' listed => ?_,kept⟩
  rw [written] at listed
  rcases List.mem_or_eq_of_mem_set listed with old | rfl
  · exact sound.fit g' old
  · exact fits

theorem set_sound (sound : w.GlobalsSound) {global : HostGlobal} {value : WasmValue} {r : Except Error Unit}
    {store : Store} (ran : global.set w.store value = .ok (r,store)) :
    World.GlobalsSound {w with store} ∧ w.store.state.GlobalsKept store.state := by
  unfold HostGlobal.set HostGlobal.instance_ at ran
  cases owned : global.item.validateStore w.store with
  | error trap => rw [owned] at ran; cases ran; exact ⟨sound,.refl _⟩
  | ok _ =>
    rw [owned] at ran
    cases found : w.store.state.globals[global.item.addr]? with
    | none => simp only [State.at,found] at ran; cases ran
    | some g =>
      rw [State.at_some found] at ran
      simp only [ok_bind] at ran
      split at ran
      · cases ran; exact ⟨sound,.refl _⟩
      · rename_i mutable
        split at ran
        · cases ran; exact ⟨sound,.refl _⟩
        · rename_i same
          cases ran
          have typed : value.type = g.ty.ty := Decidable.of_not_not same
          exact write_sound sound found (by simpa using mutable) (typed ▸ value.toTinyWasm_fits) rfl rfl

variable [Allocator] {w' : World}

theorem fresh_fit (sound : w.GlobalsSound) {m : Module} (valid : m.GlobalsValid) {linked : ResolvedImports} {fresh : Fresh}
    (declares : DeclaresGlobals w.store.state linked.globals m.importedGlobals)
    (made : fresh.Made w.store.config.memoryBackend m w.store.moduleInstances.length w.store.state linked) :
    (w.store.state.add fresh).GlobalsFit := by
  intro g listed
  rcases List.mem_append.mp listed with old | new
  · exact sound.fit g old
  · obtain ⟨k,found⟩ := List.getElem?_of_mem new
    exact made_fit valid sound.fit declares made.globals k g found

theorem instantiated_sound (sound : w.GlobalsSound) {m : Module} {imports : Imports} {r : Except Error Instance}
    {store : Store} (valid : m.GlobalsValid) (instantiated : w.store.Instantiated m imports r store) :
    World.GlobalsSound ⟨store,
      if store.moduleInstances.length = w.store.moduleInstances.length then w.modules else w.modules ++ [m]⟩ ∧
      w.store.state.GlobalsKept store.state := by
  cases instantiated with
  | unlinked =>
    rw [if_pos rfl]
    exact ⟨sound,.refl _⟩
  | @items linked fresh error links made =>
    rw [if_pos rfl]
    have grown : w.store.state.GlobalsKept (w.store.state.add fresh) := .of_append rfl
    exact ⟨sound.kept rfl grown (fresh_fit sound valid (linked_declared links) made),grown⟩
  | segments links made complete ran =>
    rw [if_pos rfl]
    have same := (State.initSegments_ran ran).globals
    have grown := State.GlobalsKept.of_append same
    refine ⟨sound.kept rfl grown ?_,grown⟩
    unfold State.GlobalsFit
    rw [same]
    exact fresh_fit sound valid (linked_declared links) made
  | registered links made complete ran =>
    have same := (State.initSegments_ran ran).globals
    have grown := State.GlobalsKept.of_append same
    rw [if_neg (by simp)]
    refine ⟨sound.registered rfl grown ?_ valid ?_,grown⟩
    · unfold State.GlobalsFit
      rw [same]
      exact fresh_fit sound valid (linked_declared links) made
    · have declares := new_declared (made.globals.types complete.globals) (linked_declared links)
      rw [←complete.globalAddrs] at declares
      exact declares.kept (.of_eq same)

theorem host_sound (sound : w.GlobalsSound) {op : HostOp} {r : Except Error Unit} {store : Store}
    (ran : op.run w.store = .ok (r,store)) :
    World.GlobalsSound {w with store} ∧ w.store.state.GlobalsKept store.state := by
  rcases HostOp.run_cases ran with ⟨ty,value,rfl⟩ | ⟨global,value,rfl⟩ | ⟨state,changed,rfl⟩
  · change HostOp.writes (.ok (HostGlobal.new w.store ty value)) = _ at ran
    obtain ⟨_,made⟩ := HostOp.writes_ran ran
    obtain rfl := congrArg Prod.snd (Except.ok.inj made)
    exact new_sound sound ty value
  · obtain ⟨_,ran⟩ := HostOp.writes_ran ran
    exact set_sound sound ran
  · have same : state.globals = w.store.state.globals := by cases changed <;> rfl
    refine ⟨sound.kept rfl (.of_eq same) fun g listed => ?_,.of_eq same⟩
    exact sound.fit g (same ▸ listed)

variable [Numerics]

section Instance
variable {idx : Nat} {inst : Instance} {m : Module} {func : WasmFunction} {i : Instruction} {ctx : Context}

theorem execute_sound (sound : w.GlobalsSound) (listed : w.store.moduleInstances[idx]? = some inst)
    (made : w.modules[idx]? = some m) (body : func ∈ m.funcs) (instruction : i ∈ func.instructions)
    (owner : ctx.module = inst.toModuleInstance) {valueStack : ValueStack} {r : Except Trap Unit} {machine : Machine}
    (ran : execStraight ctx i ⟨valueStack,w.store.state⟩ = .ok (r,machine)) :
    World.GlobalsSound {w with store := {w.store with state := machine.state,valueStack := machine.valueStack}} ∧
      w.store.state.GlobalsKept machine.state := by
  obtain ⟨valid,declares⟩ := sound.declared idx inst m listed made
  by_cases setting : ∃ size global, i = .globalSet size global
  · obtain ⟨size,global,rfl⟩ := setting
    obtain ⟨ty,declared,mutable,rfl⟩ := valid.bodies func body _ instruction
    obtain ⟨addr,g,named,found,rfl⟩ := declares.at declared
    have named : ctx.module.globalAddrs[global]? = some addr := by rw [owner]; exact named
    simp only [execStraight] at ran
    rcases execGlobalSet_run (m := ⟨valueStack,w.store.state⟩) named found with ⟨_,starved⟩ | ⟨value,stack,fits,wrote⟩
    · rw [starved] at ran
      cases ran
    · rw [wrote] at ran
      cases ran
      exact write_sound sound found mutable fits rfl rfl
  · have same := execStraight_globals (fun size global equal => setting ⟨size,global,equal⟩) ran
    have kept : w.store.state.GlobalsKept machine.state := .of_eq same
    refine ⟨sound.kept rfl kept ?_,kept⟩
    unfold State.GlobalsFit
    rw [same]
    exact sound.fit

-- An instruction that names a global stops only for want of an operand.
theorem execute_runs (sound : w.GlobalsSound) (listed : w.store.moduleInstances[idx]? = some inst)
    (made : w.modules[idx]? = some m) (body : func ∈ m.funcs) (instruction : i ∈ func.instructions)
    (owner : ctx.module = inst.toModuleInstance) (names : i.namesGlobal = true) (valueStack : ValueStack)
    (enough : ∀ size ∈ i.operands w.store.state.shape ctx.module, (valueStack.lane size).data ≠ []) :
    ∃ r machine, execStraight ctx i ⟨valueStack,w.store.state⟩ = .ok (r,machine) := by
  obtain ⟨valid,declares⟩ := sound.declared idx inst m listed made
  have accepted := valid.bodies func body i instruction
  have named {global : GlobalAddr} {addr : GlobalAddr} (named : inst.globalAddrs[global]? = some addr) :
      ctx.module.globalAddrs[global]? = some addr := by rw [owner]; exact named
  cases i
  case globalGet global =>
    obtain ⟨ty,declared⟩ := accepted
    obtain ⟨addr,g,address,found,rfl⟩ := declares.at declared
    simp only [execStraight]
    rw [Exec.bind_ok (Context.global_run (m := ⟨valueStack,w.store.state⟩) (named address) found)]
    exact Machine.pushDyn_runs g.value _
  case globalSet size global =>
    obtain ⟨ty,declared,_,rfl⟩ := accepted
    obtain ⟨addr,g,address,found,rfl⟩ := declares.at declared
    rcases execGlobalSet_run (m := ⟨valueStack,w.store.state⟩) (named address) found with ⟨empty,_⟩ | ⟨_,_,_,wrote⟩
    · exact absurd empty (enough _ (List.mem_singleton.mpr rfl))
    · exact ⟨_,_,wrote⟩
  case binOpStackGlobal width op global =>
    obtain ⟨ty,declared,number⟩ := accepted
    obtain ⟨addr,g,address,found,rfl⟩ := declares.at declared
    obtain ⟨raw,read⟩ := fits_scalar (sound.fit g (List.mem_of_getElem? found)) number
    rcases execStackGlobal_run op (m := ⟨valueStack,w.store.state⟩) (named address) found read with
      ⟨empty,_⟩ | runs
    · exact absurd empty (enough _ (List.mem_singleton.mpr rfl))
    · exact runs
  all_goals cases names

end Instance

theorem global_step_sound (sound : w.GlobalsSound) (step : WorldStep Module.GlobalsValid w w') :
    w'.GlobalsSound ∧ w.store.state.GlobalsKept w'.store.state := by
  cases step with
  | instantiate valid ran =>
    obtain ⟨store,instantiated,rfl⟩ := World.instantiate_cases ran
    exact instantiated_sound sound valid instantiated
  | host ran => exact host_sound sound ran
  | execute listed made body instruction owner ran => exact execute_sound sound listed made body instruction owner ran

theorem global_run_sound (sound : w.GlobalsSound) (run : WorldRun Module.GlobalsValid w w') :
    w'.GlobalsSound ∧ w.store.state.GlobalsKept w'.store.state := by
  induction run with
  | refl => exact ⟨sound,.refl _⟩
  | tail _ step ih =>
    obtain ⟨sound',kept⟩ := ih
    obtain ⟨sound'',kept'⟩ := global_step_sound sound' step
    exact ⟨sound'',kept.trans kept'⟩

-- What holds of the globals of a store at any moment of its life.
structure World.GlobalsHold (w : World) : Prop where
  read (addr : GlobalAddr) (g : GlobalInstance) : w.store.state.globals[addr]? = some g →
    ∃ value, value.type = g.ty.ty ∧ HostGlobal.get ⟨⟨w.store.id,addr⟩⟩ w.store = .ok (.ok value)
  execute {idx : Nat} {inst : Instance} {m : Module} {func : WasmFunction} {i : Instruction} {ctx : Context}
    (valueStack : ValueStack) : w.store.moduleInstances[idx]? = some inst → w.modules[idx]? = some m → func ∈ m.funcs →
    i ∈ func.instructions → ctx.module = inst.toModuleInstance → i.namesGlobal = true →
    (∀ size ∈ i.operands w.store.state.shape ctx.module, (valueStack.lane size).data ≠ []) →
    ∃ r machine, execStraight ctx i ⟨valueStack,w.store.state⟩ = .ok (r,machine)
  fixed {w' : World} (later : WorldRun Module.GlobalsValid w w') (addr : GlobalAddr) (g : GlobalInstance) :
    w.store.state.globals[addr]? = some g → g.ty.isMutable = false → w'.store.state.globals[addr]? = some g

theorem globals_hold {id : Nat} {config : Config} (run : WorldRun Module.GlobalsValid (.new id config) w) : w.GlobalsHold := by
  obtain ⟨sound,_⟩ := global_run_sound (.new id config) run
  refine ⟨fun addr g found => ?_,?_,fun later addr g found fixed => ?_⟩
  · obtain ⟨value,attached⟩ := Option.isSome_iff_exists.mp (sound.fit g (List.mem_of_getElem? found))
    refine ⟨value,TinyWasmValue.attachType_type attached,?_⟩
    simp only [HostGlobal.get,HostGlobal.instance_,StoreItem.validateStore,State.at_some found]
    simp [attached]
  · intro idx inst m func i ctx valueStack listed made body instruction owner names enough
    exact execute_runs sound listed made body instruction owner names valueStack enough
  · obtain ⟨g',found',_,same⟩ := (global_run_sound sound later).2 addr g found
    rw [found',same fixed]

end Steps

-- A constant of the module, copied by its code into a variable.
namespace GlobalRuns

def config : Config := ⟨fun _ => ⟨8,8,false⟩,⟨8,8,false⟩,.perInstruction,.vec,false⟩

def copy : WasmFunction where
  instructions := [.globalGet 0,.globalSet .s32 1]
  data := ⟨[],[]⟩
  locals _ := 0
  params _ := 0
  results _ := 0
  ty := ⟨[],[]⟩

def module : Module where
  startFunc := none
  funcs := [copy]
  funcTypes := [⟨[],[]⟩]
  funcTypeIdxs := [0]
  exports := []
  globals := [⟨⟨false,.i32⟩,[.i32Const 7]⟩,⟨⟨true,.i32⟩,[.i32Const 0]⟩]
  tableTypes := []
  memoryTypes := []
  imports := []
  data := []
  elements := []
  localMemoryAllocation := .skip

theorem valid : module.GlobalsValid := by
  refine ⟨fun k declared listed => ?_,fun func body i instruction => ?_⟩
  · rcases k with _ | _ | k
    · cases listed; rfl
    · cases listed; rfl
    · cases listed
  · obtain rfl := List.mem_singleton.mp body
    rcases List.mem_cons.mp instruction with rfl | last
    · exact ⟨⟨false,.i32⟩,rfl⟩
    · obtain rfl := List.mem_singleton.mp last
      exact ⟨⟨true,.i32⟩,rfl,rfl,rfl⟩

def inst : Instance := ⟨⟨0,module.funcTypes,[0],[0],[],[],[0,1],[],[]⟩,0,none,[]⟩

def context : Context := ⟨.new 0 (fun _ => 0) (fun _ => 0),copy,inst.toModuleInstance,config⟩

def pushed : ValueStack := (ValueStack.new config).setLane .s32 ⟨[7],8,8,false⟩

def popped : ValueStack := pushed.setLane .s32 ⟨[],8,8,false⟩

def world (copied : Value .s32) (valueStack : ValueStack) : World where
  store :=
    {Store.new 0 config with
      moduleInstances := [inst],valueStack
      state :=
        {State.empty with
          funcs := [.wasm copy 0]
          globals := [⟨.value32 7,⟨false,.i32⟩⟩,⟨.value32 copied,⟨true,.i32⟩⟩]}}
  modules := [module]

end GlobalRuns

open GlobalRuns in
theorem globals_hold_copied :
    let _ := Allocator.unlimited
    let _ := Numerics.zeros
    (world 7 popped).GlobalsHold := by
  let _ := Allocator.unlimited
  let _ := Numerics.zeros
  have instantiated : WorldStep Module.GlobalsValid (.new 0 config) (world 0 (.new config)) :=
    @WorldStep.instantiate _ _ _ _ module .empty _ _ valid rfl
  have body : copy ∈ module.funcs := List.mem_singleton.mpr rfl
  have first : Instruction.globalGet 0 ∈ copy.instructions := List.mem_cons_self
  have second : Instruction.globalSet .s32 1 ∈ copy.instructions := List.mem_cons_of_mem _ (List.mem_singleton.mpr rfl)
  have read : WorldStep Module.GlobalsValid (world 0 (.new config)) (world 0 pushed) :=
    @WorldStep.execute _ _ _ _ 0 inst module copy _ context (.new config) (.ok ()) ⟨pushed,(world 0 pushed).store.state⟩
      rfl rfl body first rfl rfl
  have written : WorldStep Module.GlobalsValid (world 0 pushed) (world 7 popped) :=
    @WorldStep.execute _ _ _ _ 0 inst module copy _ context pushed (.ok ()) ⟨popped,(world 7 popped).store.state⟩
      rfl rfl body second rfl rfl
  exact globals_hold ((Relation.ReflTransGen.single instantiated).tail read |>.tail written)

end TinyWasm
