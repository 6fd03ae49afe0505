import TinyWasm.SharedArrays
import TinyWasm.Interpreter.TableOps
import TinyWasm.Store.HostTable
import TinyWasm.Store.Segments

namespace TinyWasm
open ListRange SharedArrays

-- A reference is null or an address of the store, whoever holds it.
abbrev Reference := Option Addr

-- The largest 32-bit number is the null reference.
def AddressFits (r : Reference) : Prop := ∀ a : Nat, r = some a → a < 2 ^ 32 - 1

namespace TableInstance

def refs (t : TableInstance) : List Reference := t.elements.map TableElement.addr

end TableInstance

def TableType.limit (kind : TableType) : Nat := min (kind.sizeMax.getD usizeMax) maxTableSize

def ElementInstance.refs (elem : ElementInstance) : List Reference := (elem.items.getD []).map TableElement.addr

def State.arrays (s : State) : Arrays Reference :=
  ⟨s.tables.map TableInstance.refs,s.tables.map (·.kind.limit),s.elements.map ElementInstance.refs⟩

-- An index or a length in the width of its table.
inductive TableIndex where
  | i32 (v : Value .s32)
  | i64 (v : Value .s64)

namespace TableIndex

def arch : TableIndex → MemoryArch
  | i32 _ => .i32
  | i64 _ => .i64

def toNat : TableIndex → Nat
  | i32 v => v.toNat
  | i64 v => v.toNat

def onTop (index : TableIndex) (m : Machine) : Machine :=
  match index with
  | i32 v => m.onTop .s32 v
  | i64 v => m.onTop .s64 v

end TableIndex

-- The table instructions with their operands.
inductive TableInstruction where
  | tableGet (t : TableAddr) (i : TableIndex)
  | tableSet (t : TableAddr) (i : TableIndex) (r : ValueRef)
  | tableSize (t : TableAddr)
  | tableFill (t : TableAddr) (i n : TableIndex) (r : ValueRef)
  | tableGrow (t : TableAddr) (n : TableIndex) (r : ValueRef)
  | tableCopy (dst src : TableAddr) (i j n : TableIndex)
  | tableInit (elem : ElemAddr) (t : TableAddr) (i : TableIndex) (j n : Value .s32)
  | elemDrop (elem : ElemAddr)

-- What anyone does to the tables of a store: an instruction of any instance on
-- any stack, the element segments of a new instance, or a call on a handle.
inductive TableOp where
  | run (ctx : Context) (stack : ValueStack) (instr : TableInstruction)
  | initElements (module : ModuleInstance) (elements : List Element)
  | hostSize (table : Table)
  | hostGet (table : Table) (index : TableAddr)
  | hostLoad (table : Table) (offset len : Nat)
  | hostSet (table : Table) (index : TableAddr) (value : WasmValue)
  | hostCopyWithin (table : Table) (src dst len : Nat)
  | hostGrow (table : Table) (delta : Int) (init : WasmValue)

def trapAnswer : Trap → Answer Reference
  | .tableOutOfBounds _ _ _ => .outOfBounds
  | _ => .failed

def exceptAnswer : Except Trap (Answer Reference) → Answer Reference
  | .ok out => out
  | .error trap => trapAnswer trap

def WasmValue.reference : WasmValue → Reference
  | .refFunc r | .refExtern r => r.addr
  | _ => none

namespace TableInstruction

def operands (instr : TableInstruction) (m : Machine) : Machine :=
  match instr with
  | tableGet _ i => i.onTop m
  | tableSet _ i r => (i.onTop m).onTop .s32 r.raw
  | tableSize _ => m
  | tableFill _ i n r => n.onTop ((i.onTop m).onTop .s32 r.raw)
  | tableGrow _ n r => n.onTop (m.onTop .s32 r.raw)
  | tableCopy _ _ i j n => n.onTop (j.onTop (i.onTop m))
  | tableInit _ _ i j n => ((i.onTop m).onTop .s32 j).onTop .s32 n
  | elemDrop _ => m

-- The result as the program reads it off its stack, -1 for a refused grow.
def popResult (ctx : Context) (t : TableAddr) : Step (Answer Reference) := do
  let (_,table) ← ctx.table t
  let n ← popTableOperand table.kind.arch
  pure (if n = 2 ^ (OperandSize.ofArch table.kind.arch).bits - 1 then .failed else .number n)

variable [Allocator]

def exec (ctx : Context) (instr : TableInstruction) : Step (Answer Reference) :=
  match instr with
  | tableGet t _ => do
    execTableGet ctx t
    let r ← Machine.popRef
    pure (.item r.addr)
  | tableSet t _ _ => do
    execTableSet ctx t
    pure .done
  | tableSize t => do
    execTableSize ctx t
    popResult ctx t
  | tableFill t _ _ _ => do
    execTableFill ctx t
    pure .done
  | tableGrow t _ _ => do
    execTableGrow ctx t
    popResult ctx t
  | tableCopy dst src _ _ _ => do
    execTableCopy ctx dst src
    pure .done
  | tableInit elem t _ _ _ => do
    execTableInit ctx elem t
    pure .done
  | elemDrop elem => do
    execElemDrop ctx elem
    pure .done

end TableInstruction

namespace TableOp
variable [Allocator]

def exec (op : TableOp) (s : State) : Checked (Answer Reference × State) :=
  match op with
  | run ctx stack instr => do
    let (r,m) ← instr.exec ctx (instr.operands ⟨stack,s⟩)
    .ok (exceptAnswer r,m.state)
  | initElements module elements =>
    let (r,s) := s.initElements (s.constNames module.globalAddrs module.funcAddrs) module.tableAddrs elements []
    match r with
    | .ok (_,none) => .ok (.done,s)
    | .ok (_,some trap) => .ok (trapAnswer trap,s)
    | .error _ => .ok (.failed,s)
  | hostSize table => do .ok (.number (← table.size s),s)
  | hostGet table index => do
    let r ← table.get s index
    .ok (exceptAnswer (r.map fun v => .item v.reference),s)
  | hostLoad table offset len => do
    let r ← table.load s offset len
    .ok (exceptAnswer (r.map fun vs => .items (vs.map WasmValue.reference)),s)
  | hostSet table index value => do
    let (r,s) ← table.set s index value
    .ok (exceptAnswer (r.map fun _ => .done),s)
  | hostCopyWithin table src dst len => do
    let (r,s) ← table.copyWithin s src dst len
    .ok (exceptAnswer (r.map fun _ => .done),s)
  | hostGrow table delta init => do
    let (r,s) ← table.grow s delta init
    .ok (match r with | .ok size => .number size | .error _ => .failed,s)

def execAll (s : State) : List TableOp → Checked (List (Answer Reference) × State)
  | [] => .ok ([],s)
  | op :: rest => do
    let (out,s') ← op.exec s
    let (outs,last) ← execAll s' rest
    .ok (out :: outs,last)

end TableOp

-- What the names of an operation stand for: every index of an instance and
-- every function of a segment is resolved here, once.
structure TableNames where
  kinds : List TableType
  globals : List GlobalInstance

def State.tableNames (s : State) : TableNames := ⟨s.tables.map TableInstance.kind,s.globals⟩

def ConstNames.reference (consts : ConstNames) (item : ElementItem) : Reference :=
  match consts.elemAddr item with
  | .ok r => r
  | .error _ => none

def ConstNames.offset (consts : ConstNames) (instrs : List ConstInstruction) : Nat :=
  match consts.evalSizeConst instrs with
  | .ok i => i
  | .error _ => 0

def Element.segment (consts : ConstNames) (tableAddrs : List TableAddr) (element : Element) : Segment Reference :=
  ⟨element.items.map consts.reference,match element.kind with
    | .passive => .kept
    | .declared => .dropped
    | .active table offset => .written (tableAddrs[table]?.getD 0) (consts.offset offset)⟩

namespace TableNames

-- A handle takes values of its table's type only.
def accepts (names : TableNames) (table : Table) (value : WasmValue) : Bool :=
  names.kinds[table.addr]?.map TableType.elementType = some value.type ∧ (value.type = .refFunc ∨ value.type = .refExtern)

def resolve (names : TableNames) : TableOp → Op Reference
  | .run ctx _ instr =>
    let tableAt (t : TableAddr) := ctx.module.tableAddrs[t]?.getD 0
    let elemAt (elem : ElemAddr) := ctx.module.elemAddrs[elem]?.getD 0
    match instr with
    | .tableGet t i => .get (tableAt t) i.toNat
    | .tableSet t i r => .set (tableAt t) i.toNat r.addr
    | .tableSize t => .size (tableAt t)
    | .tableFill t i n r => .fill (tableAt t) i.toNat n.toNat r.addr
    | .tableGrow t n r => .grow (tableAt t) n.toNat r.addr
    | .tableCopy dst src i j n => .copy (tableAt dst) i.toNat (tableAt src) j.toNat n.toNat
    | .tableInit elem t i j n => .init (elemAt elem) j.toNat n.toNat (tableAt t) i.toNat
    | .elemDrop elem => .drop (elemAt elem)
  | .initElements module elements =>
    .place (elements.map (Element.segment ⟨names.globals,module.globalAddrs,module.funcAddrs⟩ module.tableAddrs))
  | .hostSize table => .size table.addr
  | .hostGet table index => .get table.addr index
  | .hostLoad table offset len => .load table.addr offset len
  | .hostSet table index value => if names.accepts table value then .set table.addr index value.reference else .refuse
  | .hostCopyWithin table src dst len => .copy table.addr dst table.addr src len
  | .hostGrow table delta init =>
    if names.accepts table init ∧ 0 ≤ delta then .grow table.addr delta.toNat init.reference else .refuse

end TableNames

-- What the validator checks about an index and its operands.
def ModuleInstance.NamesTable (module : ModuleInstance) (s : State) (t : TableAddr) (arch : MemoryArch) : Prop :=
  ∃ addr table, module.tableAddrs[t]? = some addr ∧ s.tables[addr]? = some table ∧ table.kind.arch = arch

def ModuleInstance.NamesSegment (module : ModuleInstance) (s : State) (elem : ElemAddr) : Prop :=
  ∃ addr segment, module.elemAddrs[elem]? = some addr ∧ s.elements[addr]? = some segment

def TableInstruction.Valid (ctx : Context) (s : State) : TableInstruction → Prop
  | tableGet t i | tableSet t i _ => ctx.module.NamesTable s t i.arch
  | tableSize t => ∃ arch, ctx.module.NamesTable s t arch
  | tableFill t i n _ => ctx.module.NamesTable s t i.arch ∧ n.arch = i.arch
  | tableGrow t n _ => ctx.module.NamesTable s t n.arch
  | tableCopy dst src i j n =>
    ctx.module.NamesTable s dst i.arch ∧ ctx.module.NamesTable s src j.arch ∧ n.arch = lenArch i.arch j.arch
  | tableInit elem t i _ _ => ctx.module.NamesTable s t i.arch ∧ ctx.module.NamesSegment s elem
  | elemDrop elem => ctx.module.NamesSegment s elem

structure Element.Valid (consts : ConstNames) (tableAddrs : List TableAddr) (s : State) (element : Element) : Prop where
  items : ∀ item ∈ element.items, ∃ r, consts.elemAddr item = .ok r ∧ AddressFits r
  active : ∀ table offset, element.kind = .active table offset → (∃ i, consts.evalSizeConst offset = .ok i) ∧
    ∃ addr, tableAddrs[table]? = some addr ∧ addr < s.tables.length

-- The stack of an instruction also has room for its result: a full one stops
-- the program on its own account.
def TableOp.Valid (s : State) : TableOp → Prop
  | run ctx stack instr => instr.Valid ctx s ∧ ∀ size, (stack.lane size).len < (stack.lane size).capacity
  | initElements module elements =>
    ∀ element ∈ elements, element.Valid (s.constNames module.globalAddrs module.funcAddrs) module.tableAddrs s
  | hostSize table | hostGet table _ | hostLoad table _ _ | hostSet table _ _ | hostCopyWithin table _ _ _
    | hostGrow table _ _ => table.addr < s.tables.length

-- A fill of a function table looks its reference up among the instance's
-- functions. It stores the reference itself only where that finds it again, or
-- where nothing is stored.
def TableOp.FillsItself (s : State) : TableOp → Prop
  | run ctx _ (.tableFill t i n r) => ∀ a addr table, r.addr = some a → ctx.module.tableAddrs[t]? = some addr →
      s.tables[addr]? = some table → table.kind.elementType = .refFunc →
        ∃ b, ctx.module.funcAddrs[a]? = some b ∧ (b = a ∨ n.toNat = 0 ∨ table.size < i.toNat + n.toNat)
  | _ => True

-- The tables a store can hold: references, no more of them than the limit.
structure TablesFit (s : State) : Prop where
  keeps : s.arrays.Keeps AddressFits maxTableSize
  typed : ∀ kind ∈ s.tableNames.kinds, kind.elementType = .refFunc ∨ kind.elementType = .refExtern

-- The answer and the tables are those of the arrays.
def Simulates [Allocator] (s : State) (op : Op Reference) (result : Checked (Answer Reference × State)) : Prop :=
  ∃ s', result = .ok ((s.arrays.apply Allocator.tryReserveExact op).1,s') ∧
    s'.arrays = (s.arrays.apply Allocator.tryReserveExact op).2 ∧ s'.tableNames = s.tableNames

section Tables
variable {s : State} {t : TableInstance} {addr a' n : Nat}

theorem map_set_same {α β : Type} {f : α → β} {xs : List α} {i : Nat} {x y : α} (found : xs[i]? = some x)
    (same : f y = f x) : (xs.set i y).map f = xs.map f := by
  obtain ⟨inside,rfl⟩ := List.getElem?_eq_some_iff.mp found
  rw [List.map_set,same,←List.getElem_map f,List.set_getElem_self]
  simpa using inside

theorem State.array_at (found : s.tables[addr]? = some t) : s.arrays.array addr = t.refs := by
  simp [State.arrays,Arrays.array,found]

theorem State.segment_at {elem : ElementInstance} (found : s.elements[addr]? = some elem) :
    s.arrays.segment addr = elem.refs := by
  simp [State.arrays,Arrays.segment,found]

theorem State.limit_at (found : s.tables[addr]? = some t) : s.arrays.limits[addr]?.getD 0 = t.kind.limit := by
  simp [State.arrays,found]

theorem TablesFit.small (fit : TablesFit s) (found : s.tables[addr]? = some t) : t.elements.length ≤ maxTableSize := by
  have short := (fit.keeps.array addr).1
  rwa [State.array_at found,TableInstance.refs,List.length_map] at short

theorem TablesFit.fits (fit : TablesFit s) (found : s.tables[addr]? = some t) : t.elements.length ≤ usizeMax :=
  Nat.le_trans (fit.small found) (by decide)

theorem TablesFit.reference (fit : TablesFit s) (found : s.tables[addr]? = some t) :
    t.kind.elementType = .refFunc ∨ t.kind.elementType = .refExtern :=
  fit.typed t.kind (List.mem_map_of_mem (List.mem_of_getElem? found))

-- A table replaced by one of its kind.
theorem State.setTable_arrays (found : s.tables[addr]? = some t) (elements : List TableElement) :
    ({s with tables := s.tables.set addr {t with elements}} : State).arrays =
        {s.arrays with arrays := s.arrays.arrays.set addr (elements.map TableElement.addr)} ∧
      ({s with tables := s.tables.set addr {t with elements}} : State).tableNames = s.tableNames := by
  refine ⟨?_,?_⟩
  · simp only [State.arrays,List.map_set,Arrays.mk.injEq,and_true]
    refine ⟨rfl,?_⟩
    rw [←List.map_set,map_set_same found rfl]
  · simp only [State.tableNames,TableNames.mk.injEq,and_true]
    exact map_set_same found rfl

theorem State.setTable_self (found : s.tables[addr]? = some t) : {s with tables := s.tables.set addr t} = s := by
  obtain ⟨inside,rfl⟩ := List.getElem?_eq_some_iff.mp found
  rw [List.set_getElem_self]

namespace TableInstance

theorem checkedRange_eq (fits : t.elements.length ≤ usizeMax) (a n : Nat) :
    t.checkedRange a n = if a + n ≤ t.elements.length then .ok () else .error (t.trapOob a n) := by
  unfold checkedRange
  by_cases within : a + n ≤ usizeMax
  · rw [checkedAdd_fits within]
    by_cases inside : a + n ≤ t.elements.length
    · rw [if_pos inside]
      exact if_neg (Nat.not_lt_of_le inside)
    · rw [if_neg inside]
      exact if_pos (Nat.lt_of_not_le inside)
  · rw [checkedAdd_wraps (Nat.lt_of_not_le within),if_neg (by omega)]

theorem load_eq (fits : t.elements.length ≤ usizeMax) (a n : Nat) :
    t.load a n = if a + n ≤ t.elements.length then .ok (slice t.elements a n) else .error (t.trapOob a n) := by
  rw [load,checkedRange_eq fits]
  split <;> rfl

theorem refs_slice (a n : Nat) : (slice t.elements a n).map TableElement.addr = slice t.refs a n := by
  simp only [slice,refs,List.map_take,List.map_drop]

theorem refs_length (t : TableInstance) : t.refs.length = t.elements.length := List.length_map _

theorem refs_read (a n : Nat) :
    FlatArray.read t.refs a n = if a + n ≤ t.elements.length then some (slice t.refs a n) else none := by
  rw [FlatArray.read,refs_length]

-- Every writer is the initialisation with what it writes.
theorem set_eq (fits : t.elements.length ≤ usizeMax) (i : Nat) (value : TableElement) : t.set i value = t.init i [value] := by
  rw [set,init,List.length_singleton,checkedRange_eq fits]
  by_cases inside : i + 1 ≤ t.elements.length
  · have put : t.elements.set i value = splice t.elements i [value] := by
      rw [List.set_eq_take_append_cons_drop,if_pos (Nat.lt_of_succ_le inside)]
      simp [splice]
    rw [if_pos inside,put]
  · rw [if_neg inside]

theorem copyWithin_eq (fits : t.elements.length ≤ usizeMax) (dst src len : Nat) :
    t.copyWithin dst src len = match t.load src len with
      | .error trap => (.error trap,t)
      | .ok items => t.init dst items := by
  rw [copyWithin,load_eq fits,checkedRange_eq fits,checkedRange_eq fits]
  by_cases inside : src + len ≤ t.elements.length
  · simp only [if_pos inside,init,slice_length inside,checkedRange_eq fits]
    by_cases room : dst + len ≤ t.elements.length
    · simp only [if_pos room]
    · simp only [if_neg room]
  · simp only [if_neg inside]

end TableInstance

-- Initialising a range either fits both ways or stops both ways.
theorem TableInstance.init_cases (fit : TablesFit s) (found : s.tables[addr]? = some t) (a : Nat)
    (elements : List TableElement) :
    (∃ t', t.init a elements = (.ok (),t') ∧
      s.arrays.tryWrite addr a (elements.map TableElement.addr) = some ({s with tables := s.tables.set addr t'} : State).arrays ∧
        ({s with tables := s.tables.set addr t'} : State).tableNames = s.tableNames) ∨
      t.init a elements = (.error (t.trapOob a elements.length),t) ∧
        s.arrays.tryWrite addr a (elements.map TableElement.addr) = none := by
  rw [Arrays.tryWrite,State.array_at found,TableInstance.refs_length,List.length_map,init,checkedRange_eq (fit.fits found)]
  by_cases inside : a + elements.length ≤ t.elements.length
  · rw [if_pos inside,if_pos inside]
    obtain ⟨arrays,names⟩ := State.setTable_arrays found (splice t.elements a elements)
    refine .inl ⟨_,rfl,congrArg some (Eq.trans ?_ arrays.symm),names⟩
    simp only [splice,refs,List.map_append,List.map_take,List.map_drop,List.length_map]
  · rw [if_neg inside,if_neg inside]
    exact .inr ⟨rfl,rfl⟩

-- What writing some elements through a table does to the store.
def Writes (s : State) (addr a : Nat) (refs : List Reference) (result : Except Trap Unit × TableInstance) : Prop :=
  exceptAnswer (result.1.map fun _ => .done) = (s.arrays.write addr a refs).1 ∧
    ({s with tables := s.tables.set addr result.2} : State).arrays = (s.arrays.write addr a refs).2 ∧
      ({s with tables := s.tables.set addr result.2} : State).tableNames = s.tableNames

theorem TableInstance.init_writes (fit : TablesFit s) (found : s.tables[addr]? = some t) (a : Nat)
    (elements : List TableElement) : Writes s addr a (elements.map TableElement.addr) (t.init a elements) := by
  rw [Writes,Arrays.write]
  rcases init_cases fit found a elements with ⟨t',wrote,abstract,names⟩ | ⟨refused,abstract⟩
  · rw [wrote,abstract]
    exact ⟨rfl,rfl,names⟩
  · rw [refused,abstract]
    exact ⟨rfl,congrArg State.arrays (State.setTable_self found),congrArg State.tableNames (State.setTable_self found)⟩

theorem TableInstance.set_writes (fit : TablesFit s) (found : s.tables[addr]? = some t) (a : Nat) (r : Reference) :
    Writes s addr a [r] (t.set a (.ofAddr r)) := by
  rw [set_eq (fit.fits found)]
  have wrote := init_writes fit found a [.ofAddr r]
  rwa [List.map_singleton,TableElement.addr_ofAddr] at wrote

-- What `fill` stores, and when the instance's functions let it store `r`.
theorem TableInstance.fill_writes (fit : TablesFit s) (found : s.tables[addr]? = some t) {funcAddrs : List FuncAddr}
    {r : Reference} (itself : ∀ a, r = some a → t.kind.elementType = .refFunc →
      ∃ b, funcAddrs[a]? = some b ∧ (b = a ∨ n = 0 ∨ t.size < a' + n)) :
    ∃ result, t.fill funcAddrs a' n (.ofAddr r) = .ok result ∧ Writes s addr a' (List.replicate n r) result := by
  -- A reference that changes on the way is never stored.
  have stores (stored : TableElement) (same : stored.addr = r ∨ n = 0 ∨ t.size < a' + n) :
      Writes s addr a' (List.replicate n r) (t.init a' (List.replicate n stored)) := by
    have wrote := init_writes fit found a' (List.replicate n stored)
    rw [List.map_replicate] at wrote
    rcases same with rfl | rfl | outside
    · exact wrote
    · exact wrote
    · have long (x : Reference) : ¬a' + (List.replicate n x).length ≤ t.refs.length := by
        rw [List.length_replicate,refs_length]
        exact Nat.not_le_of_lt outside
      simp only [Writes,Arrays.write,Arrays.tryWrite,State.array_at found,if_neg (long _)] at wrote ⊢
      exact wrote
  have filled (stored : TableElement)
      (resolved : (TableElement.ofAddr r).map (t.resolveFuncRef funcAddrs) = .ok stored) :
      t.fill funcAddrs a' n (.ofAddr r) = .ok (t.init a' (List.replicate n stored)) := by
    rw [fill,resolved,ok_bind,init,List.length_replicate]
    cases t.checkedRange a' n <;> rfl
  cases r with
  | none => exact ⟨_,filled .uninitialized rfl,stores .uninitialized (.inl rfl)⟩
  | some a =>
    by_cases func : t.kind.elementType = .refFunc
    · obtain ⟨b,resolves,same⟩ := itself a rfl func
      refine ⟨_,filled (.initialized b) ?_,stores (.initialized b) ?_⟩
      · simp only [TableElement.ofAddr,TableElement.map,resolveFuncRef,func,ne_eq,not_true_eq_false,if_false,resolves]
        rfl
      · exact same.imp_left (congrArg some)
    · refine ⟨_,filled (.initialized a) ?_,stores (.initialized a) (.inl rfl)⟩
      simp only [TableElement.ofAddr,TableElement.map,resolveFuncRef,ne_eq,func,not_false_eq_true,if_true]
      rfl

end Tables

section Operands
variable {m : Machine} {ctx : Context} {s : State} {t : TableInstance} {addr : Nat}

theorem popTableOperand_onTop (index : TableIndex) {arch : MemoryArch} (width : index.arch = arch) (m : Machine) :
    popTableOperand arch (index.onTop m) = .ok (.ok index.toNat,m) := by
  subst width
  cases index with
  | i32 v => exact Exec.bind_ok (Machine.pop_onTop m .s32 v)
  | i64 v => exact Exec.bind_ok (Machine.pop_onTop m .s64 v)

theorem popTableOperand_s32 (v : Value .s32) (m : Machine) : popTableOperand .i32 (m.onTop .s32 v) = .ok (.ok v.toNat,m) :=
  popTableOperand_onTop (.i32 v) rfl m

theorem Machine.popRef_onTop (r : ValueRef) (m : Machine) : popRef (m.onTop .s32 r.raw) = .ok (.ok r,m) :=
  Exec.bind_ok (pop_onTop m .s32 r.raw)

@[simp] theorem TableIndex.onTop_state (index : TableIndex) (m : Machine) : (index.onTop m).state = m.state := by
  cases index <;> rfl

theorem Context.table_run {index : TableAddr} (named : ctx.module.tableAddrs[index]? = some addr)
    (found : m.state.tables[addr]? = some t) : ctx.table index m = .ok (.ok (addr,t),m) := by
  simp only [Context.table,State.at_some named,Exec.ofChecked_bind,Exec.get_bind,State.at_some found,Exec.pure_run]

end Operands

end TinyWasm
