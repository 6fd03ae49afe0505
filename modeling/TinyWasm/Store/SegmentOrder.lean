import TinyWasm.Sequence
import TinyWasm.Store.Allocation

namespace TinyWasm
open FlatMemory LawfulMemory ListRange

-- The contents of every table and every memory of a store.
structure SegmentImage where
  tables : List (List TableElement)
  memories : List (List Byte)

inductive Segment where
  | element (element : Element)
  | data (data : Data)

-- The segments of a module in the order in which they take effect.
def Module.segments (m : Module) : List Segment := m.elements.map .element ++ m.data.map .data

def SegmentImage.applyElement (img : SegmentImage) (names : ConstNames) (tableAddrs : List TableAddr)
    (element : Element) : Except Error SegmentImage := do
  let init ← names.elemItems element.items
  match element.kind with
  | .passive | .declared => .ok img
  | .active table offset => do
    let offset ← names.evalSizeConst offset
    match tableAddrs[table]? with
    | none => .error (.other "table not found for element")
    | some addr =>
      match img.tables[addr]? with
      | none => .error (.other "table not found for element")
      | some xs =>
        match FlatArray.write xs offset init with
        | (some (),xs) => .ok {img with tables := img.tables.set addr xs}
        | (none,_) => .error (.trap (.tableOutOfBounds offset init.length xs.length))

def SegmentImage.applyData (img : SegmentImage) (names : ConstNames) (memAddrs : List MemAddr) (data : Data) :
    Except Error SegmentImage :=
  match data.kind with
  | .passive => .ok img
  | .active mem offset =>
    match memAddrs[mem]? with
    | none => .error (.other "memory not found for data segment")
    | some addr => do
      let offset ← names.evalSizeConst offset
      match img.memories[addr]? with
      | none => .error (.other "memory not found for data segment")
      | some xs =>
        match FlatArray.write xs offset data.data with
        | (some (),xs) => .ok {img with memories := img.memories.set addr xs}
        | (none,_) => .error (.trap (memoryOob offset data.data.length xs.length))

def SegmentImage.apply (names : ConstNames) (addrs : ResolvedImports) (img : SegmentImage) :
    Segment → Except Error SegmentImage
  | .element element => img.applyElement names addrs.tables element
  | .data data => img.applyData names addrs.memories data

theorem SegmentImage.run_segments (names : ConstNames) (addrs : ResolvedImports) (img : SegmentImage) (m : Module) :
    Sequence.run (SegmentImage.apply names addrs) img m.segments =
      match Sequence.run (fun img => img.applyElement names addrs.tables) img m.elements with
      | (none,img') => Sequence.run (fun img => img.applyData names addrs.memories) img' m.data
      | (some error,img') => (some error,img') := by
  have elements := Sequence.run_map (SegmentImage.apply names addrs) img Segment.element m.elements
  rcases ran : Sequence.run (fun img => img.applyElement names addrs.tables) img m.elements with ⟨_ | error,img'⟩
  · rw [ran]
    exact (Sequence.run_append_done (elements.trans ran)).trans (Sequence.run_map _ img' Segment.data m.data)
  · rw [ran]
    exact Sequence.run_append_stopped (elements.trans ran)

namespace TableInstance

theorem init_eq_write (t : TableInstance) (offset : Nat) (items : List TableElement) (sized : t.size ≤ usizeMax) :
    t.init offset items =
      match FlatArray.write t.elements offset items with
      | (some (),elements) => (.ok (),{t with elements})
      | (none,_) => (.error (.tableOutOfBounds offset items.length t.elements.length),t) := by
  unfold init checkedRange FlatArray.write
  simp only [checkedAdd]
  unfold size at sized
  by_cases within : offset + items.length ≤ t.elements.length
  · have small : offset + items.length ≤ usizeMax := Nat.le_trans within sized
    simp only [small,within,if_true,Nat.not_lt.mpr within,if_false]
  · simp only [within,if_false]
    split
    · rename_i trap refused
      split at refused
      · cases refused; rfl
      · split at refused
        · cases refused; rfl
        · cases refused
    · rename_i passed
      split at passed
      · cases passed
      · rename_i last summed
        split at summed
        · cases summed
          rw [if_pos (Nat.lt_of_not_le within)] at passed
          cases passed
        · cases summed

theorem new_sized [Allocator] {t : TableInstance} (made : TableInstance.new t.kind = .ok t) : t.size ≤ usizeMax := by
  unfold TableInstance.new newWithInit at made
  split at made
  · cases made
  · rename_i small
    split at made
    · have length : t.elements.length = t.kind.sizeInitial := by
        rw [← Except.ok.inj made]
        exact List.length_replicate
      have bounded : t.kind.sizeInitial ≤ usizeMax := Nat.le_trans (Nat.le_of_not_lt small) (by decide)
      exact Nat.le_trans (Nat.le_of_eq length) bounded
    · cases made

end TableInstance

namespace State
variable [Allocator]

def image (s : State) : SegmentImage := ⟨s.tables.map (·.elements),s.memories.map fun mem => bytes mem.inner⟩

-- No table outgrows the address space, and every memory is as its backend
-- keeps it.
structure Sound (s : State) : Prop where
  tables : ∀ t ∈ s.tables, t.size ≤ usizeMax
  memories : ∀ mem ∈ s.memories, Valid mem.inner

variable {s : State} {names : ConstNames} {addrs : ResolvedImports}

theorem initElement_image (sound : s.Sound) (names : ConstNames) (tableAddrs : List TableAddr) (element : Element) :
    s.image.applyElement names tableAddrs element =
      match s.initElement names tableAddrs element with
      | .error error => .error error
      | .ok (.error trap,_) => .error (.trap trap)
      | .ok (.ok (),s') => .ok s'.image := by
  unfold initElement SegmentImage.applyElement
  cases names.elemItems element.items with
  | error error => rfl
  | ok init =>
    simp only [bind,Except.bind]
    cases element.kind with
    | passive => rfl
    | declared => rfl
    | active table offset =>
      dsimp only
      cases names.evalSizeConst offset with
      | error error => rfl
      | ok offset =>
        dsimp only
        cases tableAddrs[table]? with
        | none => rfl
        | some addr =>
          have shown : s.image.tables[addr]? = s.tables[addr]?.map (·.elements) := List.getElem?_map
          dsimp only
          rw [shown]
          cases found : s.tables[addr]? with
          | none => rfl
          | some t =>
            dsimp only [Option.map]
            rw [t.init_eq_write offset init (sound.tables t (List.mem_of_getElem? found))]
            rcases written : FlatArray.write t.elements offset init with ⟨_ | _,xs⟩
            · rfl
            · simp only [image,List.map_set]

theorem initElement_sound (sound : s.Sound) {tableAddrs : List TableAddr} {element : Element} {r : Except Trap Unit}
    {s' : State} (ran : s.initElement names tableAddrs element = .ok (r,s')) : s'.Sound := by
  rcases initElement_cases ran with ⟨_,_,rfl⟩ | ⟨_,_,rfl⟩ | ⟨_,init,offset,addr,t,t',_,found,placed,rfl⟩
  · exact sound
  · exact ⟨sound.tables,sound.memories⟩
  · have sized := sound.tables t (List.mem_of_getElem? found)
    refine ⟨fun other listed => ?_,sound.memories⟩
    rcases List.mem_or_eq_of_mem_set listed with old | rfl
    · exact sound.tables other old
    · exact Nat.le_trans (Nat.le_of_eq (TableInstance.init_size placed)) sized

-- The answer of the element segments as the effect that stopped them, if any.
def stopped {α : Type} : Except Error (α × Option Trap) → Option Error
  | .error error => some error
  | .ok (_,trap) => trap.map .trap

theorem initElements_run (sound : s.Sound) (names : ConstNames) (tableAddrs : List TableAddr) (elements : List Element)
    (elemAddrs : List ElemAddr) :
    let (r,s') := s.initElements names tableAddrs elements elemAddrs
    s'.Sound ∧ Sequence.run (fun img => img.applyElement names tableAddrs) s.image elements = (stopped r,s'.image) := by
  induction elements generalizing s elemAddrs with
  | nil => exact ⟨sound,rfl⟩
  | cons element rest ih =>
    have step := initElement_image sound names tableAddrs element
    unfold initElements
    cases ran : s.initElement names tableAddrs element with
    | error error =>
      rw [ran] at step
      exact ⟨sound,Sequence.run_refused step⟩
    | ok result =>
      obtain ⟨_ | _,s'⟩ := result
      · rw [ran] at step
        obtain rfl := initElement_trapped ran
        exact ⟨sound,Sequence.run_refused step⟩
      · rw [ran] at step
        have next := ih (initElement_sound sound ran) (elemAddrs ++ [s.elements.length])
        dsimp only at next step ⊢
        rw [Sequence.run_applied step]
        exact next

variable [Generous]

theorem initDatum_runs (sound : s.Sound) (names : ConstNames) (memAddrs : List MemAddr) (data : Data) :
    ∃ r s', s.initDatum names memAddrs data = .ok (r,s') ∧ s'.Sound ∧ Internal r ∧
      match r with
      | .error error => s'.image = s.image ∧ s.image.applyData names memAddrs data = .error error
      | .ok (.error trap) => s'.image = s.image ∧ s.image.applyData names memAddrs data = .error (.trap trap)
      | .ok (.ok ()) => s.image.applyData names memAddrs data = .ok s'.image := by
  unfold initDatum SegmentImage.applyData
  cases data.kind with
  | passive => exact ⟨_,_,rfl,⟨sound.tables,sound.memories⟩,.ok _,rfl⟩
  | active mem offset =>
    dsimp only
    cases memAddrs[mem]? with
    | none => exact ⟨_,_,rfl,sound,.other _,rfl,rfl⟩
    | some addr =>
      dsimp only
      cases evaluated : names.evalSizeConst offset with
      | error error =>
        exact ⟨_,_,rfl,sound,fun _ same => names.evalSizeConst_internal offset _ (by cases same; exact evaluated),rfl,rfl⟩
      | ok offset =>
        have shown : s.image.memories[addr]? = s.memories[addr]?.map fun mem => bytes mem.inner := List.getElem?_map
        simp only [bind,Except.bind]
        rw [shown]
        cases found : s.memories[addr]? with
        | none => exact ⟨_,_,rfl,sound,.other _,rfl,rfl⟩
        | some mem =>
          have valid := sound.memories mem (List.mem_of_getElem? found)
          obtain ⟨inner,wrote,valid',_,after⟩ := writeAll_law valid offset data.data
          have kept : ∀ other ∈ s.memories.set addr {mem with inner}, Valid other.inner := fun other listed => by
            rcases List.mem_or_eq_of_mem_set listed with old | rfl
            · exact sound.memories other old
            · exact valid'
          have length := len_law valid'
          have image : ({s with memories := s.memories.set addr {mem with inner}} : State).image =
              {s.image with memories := s.image.memories.set addr (bytes inner)} := by
            simp only [State.image,List.map_set]
          dsimp only [Option.map]
          rw [wrote]
          rcases written : FlatArray.write (bytes mem.inner) offset data.data with ⟨_ | _,xs⟩
          · rw [written] at after
            have unchanged : xs = bytes mem.inner := FlatArray.write_refused written
            refine ⟨_,_,rfl,⟨sound.tables,kept⟩,.ok _,?_,?_⟩
            · rw [image,after,unchanged]
              have place : s.image.memories[addr]? = some (bytes mem.inner) := by rw [shown,found]; rfl
              obtain ⟨inside,held⟩ := List.getElem?_eq_some_iff.mp place
              rw [← held,List.set_getElem_self]
            · rw [length,after,unchanged]
          · rw [written] at after
            refine ⟨_,_,rfl,⟨sound.tables,kept⟩,.ok _,?_⟩
            dsimp only at after ⊢
            rw [← after]
            exact congrArg Except.ok image.symm

theorem initData_run (sound : s.Sound) (names : ConstNames) (memAddrs : List MemAddr) (data : List Data) (dataAddrs : List DataAddr) :
    ∃ r s', s.initData names memAddrs data dataAddrs = .ok (r,s') ∧ s'.Sound ∧ Internal r ∧
      Sequence.run (fun img => img.applyData names memAddrs) s.image data = (stopped r,s'.image) := by
  induction data generalizing s dataAddrs with
  | nil => exact ⟨_,_,rfl,sound,.ok _,rfl⟩
  | cons data rest ih =>
    obtain ⟨r,s',ran,sound',internal,step⟩ := initDatum_runs sound names memAddrs data
    unfold initData
    rw [ran]
    cases r with
    | error error =>
      obtain ⟨same,step⟩ := step
      refine ⟨_,_,rfl,sound',fun _ stop => internal _ (by cases stop; rfl),(Sequence.run_refused step).trans ?_⟩
      rw [same]
      rfl
    | ok result =>
      cases result with
      | error trap =>
        obtain ⟨same,step⟩ := step
        refine ⟨_,_,rfl,sound',.ok _,(Sequence.run_refused step).trans ?_⟩
        rw [same]
        rfl
      | ok _ =>
        obtain ⟨r,last,went,sound'',internal,runs⟩ := ih sound' (dataAddrs ++ [s.data.length])
        exact ⟨r,last,went,sound'',internal,(Sequence.run_applied step).trans runs⟩

theorem memory_valid {backend : MemoryBackend} {mem : MemoryInstance} (made : MemoryMade backend mem) :
    Valid mem.inner := by
  have fits : MemoryInstance.initialLen mem.kind ≤ usizeMax :=
    Nat.le_sub_one_of_lt (Nat.mod_lt _ (Nat.two_pow_pos 64))
  rcases made with eager | lazy
  · unfold MemoryInstance.new at eager
    obtain ⟨storage,created,valid,_⟩ := backend.create_fresh fits
    rw [created] at eager
    split at eager
    · cases eager
    · simp only [bind,Except.bind,Except.ok.injEq] at eager
      split at eager
      · cases eager
      · rw [← Except.ok.inj eager]
        exact valid
  · unfold MemoryInstance.newLazy at lazy
    split at lazy
    · cases lazy
    · rw [← Except.ok.inj (Except.ok.inj lazy)]
      exact fits

theorem add_sound (sound : s.Sound) {fresh : Fresh} {backend : MemoryBackend} {m : Module} {idx : ModuleInstanceAddr}
    {linked : ResolvedImports} (made : fresh.Made backend m idx s linked) : (s.add fresh).Sound := by
  refine ⟨fun t listed => ?_,fun mem listed => ?_⟩
  · rcases List.mem_append.mp listed with old | new
    · exact sound.tables t old
    · exact TableInstance.new_sized (made.tables t new)
  · rcases List.mem_append.mp listed with old | new
    · exact sound.memories mem old
    · exact memory_valid (made.memories mem new)

def answered : Except Error (List ElemAddr × List DataAddr × Option Trap) → Option Error
  | .error error => some error
  | .ok (_,_,trap) => trap.map .trap

-- The segments of a module as the source runs them: an element segment that
-- traps ends the elements, but not the data.
theorem initSegments_runs (sound : s.Sound) (m : Module) (addrs : ResolvedImports) :
    ∃ r s', s.initSegments m addrs = .ok (r,s') ∧ s'.Sound ∧
      let names := s.constNames addrs.globals addrs.funcs
      let ranElements : Option Error × SegmentImage := Sequence.run (fun img => img.applyElement names addrs.tables) s.image m.elements
      let ranData : Option Error × SegmentImage := Sequence.run (fun img => img.applyData names addrs.memories) ranElements.2 m.data
      match ranElements.1 with
      | none => (answered r,s'.image) = ranData
      | some (.trap trap) => s'.image = ranData.2 ∧
        answered r = (match ranData.1 with
          | none | some (.trap _) => some (.trap trap)
          | some error => some error)
      | some error => (answered r,s'.image) = (some error,ranElements.2) := by
  unfold initSegments
  dsimp only
  rcases elements : s.initElements (s.constNames addrs.globals addrs.funcs) addrs.tables m.elements [] with ⟨r₁,s₁⟩
  have ranElements := initElements_run sound (s.constNames addrs.globals addrs.funcs) addrs.tables m.elements []
  have internal₁ := s.initElements_internal (s.constNames addrs.globals addrs.funcs) addrs.tables m.elements []
  rw [elements] at ranElements internal₁
  obtain ⟨sound₁,ranElements⟩ := ranElements
  rw [ranElements]
  cases r₁ with
  | error error =>
    obtain ⟨text,rfl⟩ := internal₁ error rfl
    exact ⟨_,_,rfl,sound₁,rfl⟩
  | ok result₁ =>
    obtain ⟨elemAddrs,elemTrapped⟩ := result₁
    obtain ⟨r₂,s₂,ran,sound₂,internal₂,ranData⟩ :=
      initData_run sound₁ (s.constNames addrs.globals addrs.funcs) addrs.memories m.data []
    dsimp only
    rw [ran,ranData]
    cases r₂ with
    | error error =>
      obtain ⟨text,rfl⟩ := internal₂ error rfl
      refine ⟨_,_,rfl,sound₂,?_⟩
      cases elemTrapped with
      | none => rfl
      | some trap => exact ⟨rfl,rfl⟩
    | ok result₂ =>
      obtain ⟨dataAddrs,dataTrapped⟩ := result₂
      refine ⟨_,_,rfl,sound₂,?_⟩
      cases elemTrapped with
      | none => rfl
      | some trap => cases dataTrapped <;> exact ⟨rfl,rfl⟩

end State

section Order
variable [Allocator]

def refusal {α : Type} : Except Error α → Option Error
  | .error error => some error
  | .ok _ => none

-- An instantiation ends as its segments do when they are applied one after the
-- other, up to the first that is refused, once its items are in the store.
def Store.AppliesInOrder (store : Store) (m : Module) (imports : Imports) (s : State) (addrs : ResolvedImports) : Prop :=
  ∃ result store', store.instantiateNoStart m imports = .ok (result,store') ∧
    Sequence.run (SegmentImage.apply (s.constNames addrs.globals addrs.funcs) addrs) s.image m.segments =
      (refusal result,store'.state.image)

-- After an element segment that traps, the data segments leave the memories as
-- they are, and if they stop it is at one that is out of bounds.
def SegmentImage.DataInPlace (img : SegmentImage) (names : ConstNames) (addrs : ResolvedImports) (m : Module) : Prop :=
  ∀ trap img',
    Sequence.run (fun img => img.applyElement names addrs.tables) img m.elements = (some (.trap trap),img') →
    ∃ stop, (stop = none ∨ ∃ trap, stop = some (.trap trap)) ∧
      Sequence.run (fun img => img.applyData names addrs.memories) img' m.data = (stop,img')

variable {store : Store} {m : Module} {imports : Imports} {linked addrs : ResolvedImports} {s : State}

theorem Store.instantiateNoStart_segments
    (links : imports.link store m = .ok (.ok linked))
    (items : store.state.initItems store.config.memoryBackend m store.moduleInstances.length linked = .ok (.ok addrs,s))
    {r : Except Error (List ElemAddr × List DataAddr × Option Trap)} {s' : State}
    (ran : s.initSegments m addrs = .ok (r,s')) :
    ∃ result store', store.instantiateNoStart m imports = .ok (result,store') ∧ refusal result = State.answered r ∧
      store'.state = s' := by
  unfold instantiateNoStart
  rw [links]
  dsimp only [bind,Except.bind]
  rw [items]
  dsimp only
  rw [ran]
  cases r with
  | error error => exact ⟨_,_,rfl,rfl,rfl⟩
  | ok result =>
    obtain ⟨elemAddrs,dataAddrs,_ | trap⟩ := result
    · exact ⟨_,_,rfl,rfl,rfl⟩
    · exact ⟨_,_,rfl,rfl,rfl⟩

theorem Store.applies_in_order_iff_data_in_place [Generous] (sound : store.state.Sound)
    (links : imports.link store m = .ok (.ok linked))
    (items : store.state.initItems store.config.memoryBackend m store.moduleInstances.length linked = .ok (.ok addrs,s)) :
    store.AppliesInOrder m imports s addrs ↔
      s.image.DataInPlace (s.constNames addrs.globals addrs.funcs) addrs m := by
  obtain ⟨fresh,rfl,made,_⟩ := State.initItems_added items
  obtain ⟨r,s',ran,_,answer⟩ := State.initSegments_runs (State.add_sound sound made) m addrs
  obtain ⟨result,store',instantiated,refused,rfl⟩ := instantiateNoStart_segments links items ran
  have ordered : store.AppliesInOrder m imports (store.state.add fresh) addrs ↔
      Sequence.run (SegmentImage.apply ((store.state.add fresh).constNames addrs.globals addrs.funcs) addrs)
        (store.state.add fresh).image m.segments = (State.answered r,store'.state.image) := by
    constructor
    · rintro ⟨result',store'',instantiated',applied⟩
      rw [instantiated] at instantiated'
      cases instantiated'
      rw [← refused]
      exact applied
    · intro applied
      exact ⟨result,store',instantiated,by rw [refused]; exact applied⟩
  rw [ordered]
  dsimp only at answer
  rw [SegmentImage.run_segments]
  unfold SegmentImage.DataInPlace
  rcases elements : Sequence.run (fun img => SegmentImage.applyElement img _ addrs.tables)
    (store.state.add fresh).image m.elements with ⟨stop,img⟩
  rw [elements] at answer
  rcases data : Sequence.run (fun img => SegmentImage.applyData img _ addrs.memories) img m.data with ⟨stop',img'⟩
  rw [data] at answer
  cases stop with
  | none =>
    dsimp only at answer ⊢
    rw [data,answer]
    exact ⟨fun _ => nofun,fun _ => rfl⟩
  | some error =>
    cases error with
    | trap trap =>
      obtain ⟨image,answer⟩ := answer
      rw [image,answer]
      constructor
      · intro same trap' img'' stopped
        cases stopped
        obtain ⟨kind,rfl⟩ := Prod.mk.inj same
        refine ⟨stop',?_,data⟩
        rcases stop' with _ | _ | _ | _ | _ | _
        · exact .inl rfl
        · exact .inr ⟨_,rfl⟩
        all_goals cases kind
      · intro kept
        obtain ⟨stop,kind,same⟩ := kept trap img rfl
        rw [data] at same
        cases same
        rcases kind with rfl | ⟨_,rfl⟩
        · rfl
        · rfl
    | linker error | other text | unsupportedFeature text | invalidHostFnReturn expected actual =>
      dsimp only at answer ⊢
      exact ⟨fun _ => nofun,fun _ => answer.symm⟩

end Order

-- An empty table, a memory of one byte, and segments for both.
namespace SegmentOrder

def config : Config := ⟨fun _ => ⟨8,8,false⟩,⟨8,8,false⟩,.perInstruction,.vec,false⟩

def store : Store := .new 0 config

def nullAtZero : Element := ⟨.active 0 [.i32Const 0],[.expr [.refFunc none]]⟩

def letterAtZero : Data := ⟨[65],.active 0 [.i32Const 0]⟩

def module (elements : List Element) : Module where
  startFunc := none
  funcs := []
  funcTypes := []
  funcTypeIdxs := []
  exports := []
  globals := []
  tableTypes := [⟨.i32,.refFunc,0,none⟩]
  memoryTypes := [⟨.i32,1,none,some 1⟩]
  imports := []
  data := [letterAtZero]
  elements
  localMemoryAllocation := .eager

def addrs : ResolvedImports := ⟨[],[0],[0],[]⟩

def items : State :=
  {State.empty with
    tables := [⟨[],⟨.i32,.refFunc,0,none⟩⟩],memories := [⟨⟨.i32,1,none,some 1⟩,.left (.vec ⟨[0]⟩),1⟩]}

theorem sound [Allocator] : store.state.Sound := ⟨nofun,nofun⟩

theorem items_made (elements : List Element) :
    let _ := Allocator.unlimited
    store.state.initItems store.config.memoryBackend (module elements) store.moduleInstances.length ⟨[],[],[],[]⟩ =
      .ok (.ok addrs,items) := rfl

end SegmentOrder

open SegmentOrder in
theorem applies_in_order_iff_data_in_place_one_segment :
    let _ := Allocator.unlimited
    store.AppliesInOrder (module []) .empty items addrs := by
  let _ := Allocator.unlimited
  have _ := Allocator.unlimited_generous
  refine (Store.applies_in_order_iff_data_in_place sound rfl (items_made [])).mpr fun trap img stopped => ?_
  cases stopped

open SegmentOrder in
-- The element segment does not fit its table, and the letter is written.
theorem data_written_after_element_trap :
    let _ := Allocator.unlimited
    ¬∀ (store : Store) (m : Module) (imports : Imports) (linked addrs : ResolvedImports) (s : State),
      store.state.Sound → imports.link store m = .ok (.ok linked) →
      store.state.initItems store.config.memoryBackend m store.moduleInstances.length linked = .ok (.ok addrs,s) →
      store.AppliesInOrder m imports s addrs := by
  let _ := Allocator.unlimited
  intro _ always
  obtain ⟨result,store',instantiated,applied⟩ :=
    always store (module [nullAtZero]) .empty _ addrs items sound rfl (items_made [nullAtZero])
  have letter : store'.state.image.memories = [[65]] := by
    cases instantiated
    rfl
  have empty : store'.state.image.memories = [[0]] := by
    have images := congrArg (fun answer : Option Error × SegmentImage => answer.2.memories) applied
    exact images.symm
  rw [letter] at empty
  cases empty

end TinyWasm
