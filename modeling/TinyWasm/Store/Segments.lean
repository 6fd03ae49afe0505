import TinyWasm.Store.State

namespace TinyWasm

-- Float constants are their bits.
inductive ConstInstruction where
  | i32Const (v : Value .s32)
  | i64Const (v : Value .s64)
  | f32Const (v : Value .s32)
  | f64Const (v : Value .s64)
  | v128Const (v : Value .s128)
  | globalGet (global : GlobalAddr)
  | refFunc (func : Option FuncAddr)
  | refExtern (externAddr : Option Addr)
  | i32Add | i32Sub | i32Mul
  | i64Add | i64Sub | i64Mul
  deriving DecidableEq, Repr

inductive ElementItem where
  | func (index : FuncAddr)
  | expr (instrs : List ConstInstruction)

inductive ElementKind where
  | passive
  | active (table : TableAddr) (offset : List ConstInstruction)
  | declared

structure Element where
  kind : ElementKind
  items : List ElementItem

-- The store's globals and what a module's indices stand for in it.
structure ConstNames where
  globals : List GlobalInstance
  globalAddrs : List GlobalAddr
  funcAddrs : List FuncAddr

namespace ConstNames

-- The texts of the internal errors leave out the values they print.
def resolveGlobal (names : ConstNames) (idx : GlobalAddr) : Except Error TinyWasmValue :=
  match names.globalAddrs[idx]? with
  | none => .error (.other "global not found. This should have been caught by the validator")
  | some addr =>
    match names.globals[addr]? with
    | none => .error (.other "global not found")
    | some global => .ok global.value

def resolveFunc (names : ConstNames) (idx : FuncAddr) : Except Error FuncAddr :=
  match names.funcAddrs[idx]? with
  | some addr => .ok addr
  | none => .error (.other "function not found. This should have been caught by the validator")

def popOperands (stack : List TinyWasmValue) : Except Error (TinyWasmValue × TinyWasmValue × List TinyWasmValue) :=
  match stack with
  | rhs :: lhs :: rest => .ok (lhs,rhs,rest)
  | _ => .error (.other "const stack underflow")

def i32Op (stack : List TinyWasmValue) (op : Value .s32 → Value .s32 → Value .s32) : Except Error (List TinyWasmValue) := do
  match ← popOperands stack with
  | (.value32 lhs,.value32 rhs,rest) => .ok (.value32 (op lhs rhs) :: rest)
  | _ => .error (.other "type mismatch in const i32 op")

def i64Op (stack : List TinyWasmValue) (op : Value .s64 → Value .s64 → Value .s64) : Except Error (List TinyWasmValue) :=
  match stack with
  | .value64 rhs :: .value64 lhs :: rest => .ok (.value64 (op lhs rhs) :: rest)
  | _ => .error (.other "type mismatch in const i64 op")

-- The stack's top is the head of the list.
def step (names : ConstNames) (stack : List TinyWasmValue) : ConstInstruction → Except Error (List TinyWasmValue)
  | .i32Const v | .f32Const v => .ok (.value32 v :: stack)
  | .i64Const v | .f64Const v => .ok (.value64 v :: stack)
  | .v128Const v => .ok (.value128 v :: stack)
  | .globalGet idx => do .ok ((← names.resolveGlobal idx) :: stack)
  | .refFunc none | .refExtern none => .ok (.valueRef .null :: stack)
  | .refFunc (some idx) => do .ok (.valueRef (.fromAddr (some (← names.resolveFunc idx))) :: stack)
  | .refExtern (some _) => .error (.other "ref.extern constants are not supported in init expressions")
  | .i32Add => i32Op stack (· + ·)
  | .i32Sub => i32Op stack (· - ·)
  | .i32Mul => i32Op stack (· * ·)
  | .i64Add => i64Op stack (· + ·)
  | .i64Sub => i64Op stack (· - ·)
  | .i64Mul => i64Op stack (· * ·)

def evalSingle (names : ConstNames) : ConstInstruction → Except Error TinyWasmValue
  | .i32Const v | .f32Const v => .ok (.value32 v)
  | .i64Const v | .f64Const v => .ok (.value64 v)
  | .v128Const v => .ok (.value128 v)
  | .globalGet idx => names.resolveGlobal idx
  | .refFunc none | .refExtern none => .ok (.valueRef .null)
  | .refFunc (some idx) => do .ok (.valueRef (.fromAddr (some (← names.resolveFunc idx))))
  | _ => .error (.other "unsupported const instruction")

def evalConst (names : ConstNames) (instrs : List ConstInstruction) : Except Error TinyWasmValue :=
  match instrs with
  | [instr] => names.evalSingle instr
  | _ => do
    match ← instrs.foldlM names.step [] with
    | [] => .error (.other "empty const expression")
    | [value] => .ok value
    | _ => .error (.other "const expression did not reduce to single value")

-- An offset is unsigned in either width.
def evalSizeConst (names : ConstNames) (instrs : List ConstInstruction) : Except Error Nat := do
  match ← names.evalConst instrs with
  | .value32 i => .ok i.toNat
  | .value64 i => .ok i.toNat
  | _ => .error (.other "expected i32 or i64")

def elemAddr (names : ConstNames) : ElementItem → Except Error (Option Addr)
  | .expr instrs => do
    match ← names.evalConst instrs with
    | .valueRef v => .ok v.addr
    | _ => .error (.other "expected ref type")
  | .func index =>
    match names.funcAddrs[index]? with
    | some addr => .ok (some addr)
    | none => .error (.other "function not found. This should have been caught by the validator")

def elemItems (names : ConstNames) (items : List ElementItem) : Except Error (List TableElement) :=
  items.mapM fun item => do .ok (TableElement.ofAddr (← names.elemAddr item))

end ConstNames

-- A constant expression never traps: what a validator rules out is an internal
-- error.
def Internal {α : Type} (x : Except Error α) : Prop := ∀ error, x = .error error → ∃ text, error = .other text

namespace Internal
variable {α β : Type}

theorem ok (a : α) : Internal (.ok a) := nofun

theorem other (text : String) : Internal (.error (.other text) : Except Error α) := fun _ same => ⟨text,by cases same; rfl⟩

theorem bind {x : Except Error α} {f : α → Except Error β} (first : Internal x) (rest : ∀ a, Internal (f a)) :
    Internal (x >>= f) := by
  cases x with
  | error error => exact fun _ same => first _ (by cases same; rfl)
  | ok a => exact rest a

theorem foldlM {f : β → α → Except Error β} (each : ∀ b a, Internal (f b a)) (xs : List α) (b : β) :
    Internal (xs.foldlM f b) := by
  induction xs generalizing b with
  | nil => exact ok b
  | cons a xs ih => exact bind (each b a) ih

theorem mapM {f : α → Except Error β} (each : ∀ a, Internal (f a)) (xs : List α) : Internal (xs.mapM f) := by
  induction xs with
  | nil => exact ok []
  | cons a xs ih =>
    rw [List.mapM_cons]
    exact bind (each a) fun _ => bind ih fun _ => ok _

end Internal

namespace ConstNames
variable (names : ConstNames)

theorem resolveGlobal_internal (idx : GlobalAddr) : Internal (names.resolveGlobal idx) := by
  unfold resolveGlobal
  split
  · exact .other _
  · split
    · exact .other _
    · exact .ok _

theorem resolveFunc_internal (idx : FuncAddr) : Internal (names.resolveFunc idx) := by
  unfold resolveFunc
  split
  · exact .ok _
  · exact .other _

theorem i32Op_internal (stack : List TinyWasmValue) (op : Value .s32 → Value .s32 → Value .s32) :
    Internal (i32Op stack op) := by
  have popped : Internal (popOperands stack) := by
    unfold popOperands
    split
    · exact .ok _
    · exact .other _
  refine popped.bind fun operands => ?_
  split
  · exact .ok _
  · exact .other _

theorem i64Op_internal (stack : List TinyWasmValue) (op : Value .s64 → Value .s64 → Value .s64) :
    Internal (i64Op stack op) := by
  unfold i64Op
  split
  · exact .ok _
  · exact .other _

theorem step_internal (stack : List TinyWasmValue) (instr : ConstInstruction) : Internal (names.step stack instr) := by
  cases instr with
  | i32Const v | f32Const v | i64Const v | f64Const v | v128Const v => exact .ok _
  | globalGet idx => exact (names.resolveGlobal_internal idx).bind fun _ => .ok _
  | refFunc func =>
    cases func with
    | none => exact .ok _
    | some idx => exact (names.resolveFunc_internal idx).bind fun _ => .ok _
  | refExtern externAddr =>
    cases externAddr with
    | none => exact .ok _
    | some addr => exact .other _
  | i32Add | i32Sub | i32Mul => exact i32Op_internal stack _
  | i64Add | i64Sub | i64Mul => exact i64Op_internal stack _

theorem evalSingle_internal (instr : ConstInstruction) : Internal (names.evalSingle instr) := by
  cases instr with
  | i32Const v | f32Const v | i64Const v | f64Const v | v128Const v => exact .ok _
  | globalGet idx => exact names.resolveGlobal_internal idx
  | refFunc func =>
    cases func with
    | none => exact .ok _
    | some idx => exact (names.resolveFunc_internal idx).bind fun _ => .ok _
  | refExtern externAddr =>
    cases externAddr with
    | none => exact .ok _
    | some addr => exact .other _
  | i32Add | i32Sub | i32Mul | i64Add | i64Sub | i64Mul => exact .other _

theorem evalConst_internal (instrs : List ConstInstruction) : Internal (names.evalConst instrs) := by
  have reduced (stack : List TinyWasmValue) : Internal (match stack with
      | [] => .error (.other "empty const expression")
      | [value] => .ok value
      | _ => .error (.other "const expression did not reduce to single value") : Except Error TinyWasmValue) := by
    rcases stack with _ | ⟨value,_ | _⟩
    · exact .other _
    · exact .ok value
    · exact .other _
  have folded (instrs : List ConstInstruction) := (Internal.foldlM names.step_internal instrs []).bind reduced
  rcases instrs with _ | ⟨instr,_ | ⟨second,rest⟩⟩
  · exact folded []
  · exact names.evalSingle_internal instr
  · exact folded (instr :: second :: rest)

theorem evalSizeConst_internal (instrs : List ConstInstruction) : Internal (names.evalSizeConst instrs) := by
  refine (names.evalConst_internal instrs).bind fun value => ?_
  split
  · exact .ok _
  · exact .ok _
  · exact .other _

theorem elemItems_internal (items : List ElementItem) : Internal (names.elemItems items) := by
  refine Internal.mapM (fun item => Internal.bind ?_ fun _ => .ok _) items
  unfold elemAddr
  split
  · refine (names.evalConst_internal _).bind fun value => ?_
    split
    · exact .ok _
    · exact .other _
  · split
    · exact .ok _
    · exact .other _

end ConstNames

namespace State

def constNames (s : State) (globalAddrs : List GlobalAddr) (funcAddrs : List FuncAddr) : ConstNames :=
  ⟨s.globals,globalAddrs,funcAddrs⟩

-- One segment: its items, or the trap that ends the instantiation.
def initElement (s : State) (names : ConstNames) (tableAddrs : List TableAddr) (element : Element) :
    Except Error (Except Trap Unit × State) := do
  let init ← names.elemItems element.items
  match element.kind with
  | .passive => .ok (.ok (),{s with elements := s.elements ++ [⟨some init⟩]})
  | .declared => .ok (.ok (),{s with elements := s.elements ++ [⟨none⟩]})
  | .active table offset => do
    let offset ← names.evalSizeConst offset
    match tableAddrs[table]? with
    | none => .error (.other "table not found for element")
    | some tableAddr =>
      match s.tables[tableAddr]? with
      | none => .error (.other "table not found for element")
      | some t =>
        match t.init offset init with
        | (.error trap,_) => .ok (.error trap,s)
        | (.ok (),t) => .ok (.ok (),{s with tables := s.tables.set tableAddr t,elements := s.elements ++ [⟨none⟩]})

-- A segment that traps leaves nothing, one that does not is recorded, and an
-- active one is copied into its table as well.
theorem initElement_cases {s s' : State} {names : ConstNames} {tableAddrs : List TableAddr} {element : Element}
    {r : Except Trap Unit} (ran : s.initElement names tableAddrs element = .ok (r,s')) :
    (∃ trap, r = .error trap ∧ s' = s) ∨
    (r = .ok () ∧ ∃ items, s' = {s with elements := s.elements ++ [items]}) ∨
    (r = .ok () ∧ ∃ init offset addr t t', names.elemItems element.items = .ok init ∧ s.tables[addr]? = some t ∧
      t.init offset init = (.ok (),t') ∧
      s' = {s with tables := s.tables.set addr t',elements := s.elements ++ [⟨none⟩]}) := by
  unfold initElement at ran
  cases items : names.elemItems element.items with
  | error error => rw [items] at ran; cases ran
  | ok init =>
    simp only [items,bind,Except.bind] at ran
    cases kind : element.kind with
    | passive => rw [kind] at ran; cases ran; exact .inr (.inl ⟨rfl,_,rfl⟩)
    | declared => rw [kind] at ran; cases ran; exact .inr (.inl ⟨rfl,_,rfl⟩)
    | active table offset =>
      rw [kind] at ran
      dsimp only at ran
      split at ran
      · cases ran
      · rename_i position _
        split at ran
        · cases ran
        · rename_i addr _
          split at ran
          · cases ran
          · rename_i t found
            split at ran
            · cases ran; exact .inl ⟨_,rfl,rfl⟩
            · rename_i t' placed
              cases ran
              exact .inr (.inr ⟨rfl,init,position,addr,t,t',rfl,found,placed,rfl⟩)

theorem initElement_trapped {s s' : State} {names : ConstNames} {tableAddrs : List TableAddr} {element : Element}
    {trap : Trap} (ran : s.initElement names tableAddrs element = .ok (.error trap,s')) : s' = s := by
  rcases initElement_cases ran with ⟨_,_,same⟩ | ⟨other,_⟩ | ⟨other,_⟩
  · exact same
  · cases other
  · cases other

theorem initElement_internal (s : State) (names : ConstNames) (tableAddrs : List TableAddr) (element : Element) :
    Internal (s.initElement names tableAddrs element) := by
  refine (names.elemItems_internal element.items).bind fun init => ?_
  split
  · exact .ok _
  · exact .ok _
  · refine (names.evalSizeConst_internal _).bind fun offset => ?_
    split
    · exact .other _
    · split
      · exact .other _
      · split
        · exact .ok _
        · exact .ok _

-- A trap keeps the segments before it; an internal error keeps them too.
def initElements (s : State) (names : ConstNames) (tableAddrs : List TableAddr) :
    List Element → List ElemAddr → Except Error (List ElemAddr × Option Trap) × State
  | [],elemAddrs => (.ok (elemAddrs,none),s)
  | element :: rest,elemAddrs =>
    match s.initElement names tableAddrs element with
    | .error error => (.error error,s)
    | .ok (.error trap,s) => (.ok (elemAddrs,some trap),s)
    | .ok (.ok (),s') => s'.initElements names tableAddrs rest (elemAddrs ++ [s.elements.length])

theorem initElements_internal (s : State) (names : ConstNames) (tableAddrs : List TableAddr) (elements : List Element)
    (elemAddrs : List ElemAddr) : Internal (s.initElements names tableAddrs elements elemAddrs).1 := by
  induction elements generalizing s elemAddrs with
  | nil => exact .ok _
  | cons element rest ih =>
    unfold initElements
    cases ran : s.initElement names tableAddrs element with
    | error error => exact fun _ same => s.initElement_internal names tableAddrs element _ (by cases same; exact ran)
    | ok result =>
      obtain ⟨_ | _,s'⟩ := result
      · exact .ok _
      · exact ih s' _

-- What the segments of a module leave of a store.
structure SegmentsRan (s s' : State) : Prop where
  funcs : s'.funcs = s.funcs
  globals : s'.globals = s.globals
  tables : s'.tables.length = s.tables.length
  memories : s'.memories.length = s.memories.length
  elements : s.elements.length ≤ s'.elements.length
  data : s.data.length ≤ s'.data.length

theorem SegmentsRan.refl (s : State) : s.SegmentsRan s := ⟨rfl,rfl,rfl,rfl,Nat.le_refl _,Nat.le_refl _⟩

theorem SegmentsRan.trans {s₁ s₂ s₃ : State} (first : s₁.SegmentsRan s₂) (rest : s₂.SegmentsRan s₃) : s₁.SegmentsRan s₃ :=
  ⟨rest.funcs.trans first.funcs,rest.globals.trans first.globals,rest.tables.trans first.tables,
    rest.memories.trans first.memories,Nat.le_trans first.elements rest.elements,Nat.le_trans first.data rest.data⟩

theorem initElement_ran {s s' : State} {names : ConstNames} {tableAddrs : List TableAddr} {element : Element} {r : Except Trap Unit}
    (ran : s.initElement names tableAddrs element = .ok (r,s')) : s.SegmentsRan s' := by
  rcases initElement_cases ran with ⟨_,_,rfl⟩ | ⟨_,_,rfl⟩ | ⟨_,_,_,_,_,_,_,_,_,rfl⟩
  · exact .refl _
  · exact ⟨rfl,rfl,rfl,rfl,by simp,Nat.le_refl _⟩
  · exact ⟨rfl,rfl,List.length_set,rfl,by simp,Nat.le_refl _⟩

theorem initElements_ran (s : State) (names : ConstNames) (tableAddrs : List TableAddr) (elements : List Element)
    (elemAddrs : List ElemAddr) : s.SegmentsRan (s.initElements names tableAddrs elements elemAddrs).2 := by
  induction elements generalizing s elemAddrs with
  | nil => exact .refl s
  | cons element rest ih =>
    unfold initElements
    cases ran : s.initElement names tableAddrs element with
    | error error => exact .refl s
    | ok result =>
      obtain ⟨_ | _,s'⟩ := result
      · exact initElement_ran ran
      · exact (initElement_ran ran).trans (ih s' _)

end State

end TinyWasm
