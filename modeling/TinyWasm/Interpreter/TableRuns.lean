import TinyWasm.Fallible
import TinyWasm.Interpreter.TableInstructions

namespace TinyWasm
open Fallible ListRange SharedArrays

section Clients
variable {s : State} {t : TableInstance} {addr index : Nat}

-- A handle's write, or none when the value is not of its table's type.
theorem Table.valueToElement_accepts {table : Table} (found : s.tables[table.addr]? = some t)
    (typed : t.kind.elementType = .refFunc ∨ t.kind.elementType = .refExtern) (value : WasmValue) :
    valueToElement t.kind.elementType value = if s.tableNames.accepts table value then .ok (.ofAddr value.reference)
      else .error (.other "invalid table value type") := by
  have kind : s.tableNames.kinds[table.addr]? = some t.kind := by
    simp only [State.tableNames,List.getElem?_map,found,Option.map_some]
  simp only [TableNames.accepts,kind,Option.map_some,Option.some.injEq]
  rcases typed with func | external
  · rw [func]
    cases value <;> rfl
  · rw [external]
    cases value <;> rfl

theorem elemItems_ok {consts : ConstNames} {items : List ElementItem}
    (valid : ∀ item ∈ items, ∃ r, consts.elemAddr item = .ok r ∧ AddressFits r) :
    ∃ elements, consts.elemItems items = .ok elements ∧ elements.map TableElement.addr = items.map consts.reference ∧
      ∀ r ∈ items.map consts.reference, AddressFits r := by
  refine ⟨items.map fun item => .ofAddr (consts.reference item),mapM_ok fun item member => ?_,?_,fun r member => ?_⟩
  · obtain ⟨r,evaluates,_⟩ := valid item member
    rw [ConstNames.reference,evaluates]
    rfl
  · simp [Function.comp_def]
  · obtain ⟨item,inside,rfl⟩ := List.mem_map.mp member
    obtain ⟨r,evaluates,fits⟩ := valid item inside
    rw [ConstNames.reference,evaluates]
    exact fits

theorem TablesFit.next (fit : TablesFit s) {s' : State} (keeps : s'.arrays.Keeps AddressFits maxTableSize)
    (names : s'.tableNames = s.tableNames) : TablesFit s' := ⟨keeps,by rw [names]; exact fit.typed⟩

theorem TablesFit.addSegment (fit : TablesFit s) (items : Option (List TableElement))
    (all : ∀ r ∈ (ElementInstance.mk items).refs, AddressFits r) :
    ({s with elements := s.elements ++ [⟨items⟩]} : State).arrays = s.arrays.add (ElementInstance.mk items).refs ∧
      TablesFit {s with elements := s.elements ++ [⟨items⟩]} := by
  have added : ({s with elements := s.elements ++ [⟨items⟩]} : State).arrays = s.arrays.add (ElementInstance.mk items).refs := by
    simp [State.arrays,Arrays.add]
  exact ⟨added,fit.next (by rw [added]; exact fit.keeps.add all) rfl⟩

theorem Element.Valid.kept {consts : ConstNames} {tableAddrs : List TableAddr} {s' : State} {element : Element}
    (valid : element.Valid consts tableAddrs s) (names : s'.tableNames = s.tableNames) :
    element.Valid consts tableAddrs s' := by
  have kinds := congrArg (List.length ∘ TableNames.kinds) names
  simp only [State.tableNames,Function.comp_apply,List.length_map] at kinds
  exact ⟨valid.items,by rw [kinds]; exact valid.active⟩

def placeAnswer : Except Error (List ElemAddr × Option Trap) → Answer Reference
  | .ok (_,none) => .done
  | .ok (_,some trap) => trapAnswer trap
  | .error _ => .failed

-- One segment more, or the trap of a write that does not fit.
theorem initElement_place (fit : TablesFit s) {consts : ConstNames} {tableAddrs : List TableAddr} {element : Element}
    (valid : element.Valid consts tableAddrs s) :
    (∃ trap, s.initElement consts tableAddrs element = .ok (.error trap,s) ∧
      ∀ rest, s.arrays.place (element.segment consts tableAddrs :: rest) = (trapAnswer trap,s.arrays)) ∨
    ∃ s', s.initElement consts tableAddrs element = .ok (.ok (),s') ∧ TablesFit s' ∧ s'.tableNames = s.tableNames ∧
      ∀ rest, s.arrays.place (element.segment consts tableAddrs :: rest) = s'.arrays.place rest := by
  obtain ⟨elements,evaluated,refs,fitting⟩ := elemItems_ok valid.items
  obtain ⟨kind,items⟩ := element
  cases kind with
  | passive =>
    obtain ⟨added,fit'⟩ := fit.addSegment (some elements) (by rw [ElementInstance.refs,Option.getD_some,refs]; exact fitting)
    refine .inr ⟨_,by rw [State.initElement,evaluated]; rfl,fit',rfl,fun rest => ?_⟩
    rw [added,ElementInstance.refs,Option.getD_some,refs]
    rfl
  | declared =>
    obtain ⟨added,fit'⟩ := fit.addSegment none (by simp [ElementInstance.refs])
    refine .inr ⟨_,by rw [State.initElement,evaluated]; rfl,fit',rfl,fun rest => ?_⟩
    rw [added]
    rfl
  | active table offset =>
    obtain ⟨⟨i,sized⟩,addr,named,inside⟩ := valid.active table offset rfl
    have found := List.getElem?_eq_getElem inside
    have placed : Element.segment consts tableAddrs ⟨.active table offset,items⟩ =
        ⟨elements.map TableElement.addr,.written addr i⟩ := by
      simp only [Element.segment,ConstNames.offset,sized,named,Option.getD_some,refs]
    rcases TableInstance.init_cases fit found i elements with ⟨t',wrote,abstract,names⟩ | ⟨refused,abstract⟩
    · have written := fit.next (fit.keeps.tryWrite (by rw [←refs] at fitting; exact fitting) abstract) names
      obtain ⟨added,fit'⟩ := written.addSegment none (by simp [ElementInstance.refs])
      refine .inr ⟨_,by simp only [State.initElement,evaluated,bind,Except.bind,sized,named,found,wrote],fit',names,fun rest => ?_⟩
      rw [placed,Arrays.place,abstract]
      exact congrArg (Arrays.place · rest) added.symm
    · refine .inl ⟨s.tables[addr].trapOob i elements.length,
        by simp only [State.initElement,evaluated,bind,Except.bind,sized,named,found,refused],fun rest => ?_⟩
      simp only [placed,Arrays.place,abstract,TableInstance.trapOob,trapAnswer]

theorem initElements_place {consts : ConstNames} {tableAddrs : List TableAddr} {elements : List Element}
    (fit : TablesFit s) (valid : ∀ element ∈ elements, element.Valid consts tableAddrs s) (elemAddrs : List ElemAddr) :
    ∃ r s', s.initElements consts tableAddrs elements elemAddrs = (r,s') ∧
      placeAnswer r = (s.arrays.place (elements.map (Element.segment consts tableAddrs))).1 ∧
        s'.arrays = (s.arrays.place (elements.map (Element.segment consts tableAddrs))).2 ∧ s'.tableNames = s.tableNames := by
  induction elements generalizing s elemAddrs with
  | nil => exact ⟨_,s,rfl,rfl,rfl,rfl⟩
  | cons element rest ih =>
    rw [List.map_cons,State.initElements]
    rcases initElement_place fit (valid element List.mem_cons_self) with
      ⟨trap,stopped,abstract⟩ | ⟨s',ran,fit',names,abstract⟩
    · rw [stopped,abstract]
      exact ⟨_,s,rfl,rfl,rfl,rfl⟩
    · rw [ran,abstract]
      obtain ⟨r,last,ran',answer,arrays,names'⟩ := ih fit'
        (fun next later => (valid next (List.mem_cons_of_mem element later)).kept names) (elemAddrs ++ [s.elements.length])
      exact ⟨r,last,ran',answer,arrays,names'.trans names⟩

-- What an operation brings into the tables are references.
theorem TableOp.Valid.brings {op : TableOp} (valid : op.Valid s) : (s.tableNames.resolve op).Brings AddressFits := by
  have given (r : ValueRef) : AddressFits r.addr := by
    intro a addressed
    have below : r.raw.toNat < 2 ^ 32 := r.raw.isLt
    unfold ValueRef.addr at addressed
    split at addressed
    · cases addressed
    · rename_i notNull
      cases addressed
      have different : r.raw.toNat ≠ 2 ^ 32 - 1 := fun same => notNull (by
        rw [ValueRef.isNull,beq_iff_eq,ValueRef.null,ValueRef.mk.injEq]
        exact BitVec.eq_of_toNat_eq same)
      omega
  have value (v : WasmValue) : AddressFits v.reference := by
    cases v with
    | refFunc r | refExtern r => exact given r
    | _ => exact fun a impossible => by cases impossible
  cases op with
  | run ctx stack instr =>
    cases instr with
    | tableSet _ _ r | tableFill _ _ _ r | tableGrow _ _ r => exact given r
    | _ => trivial
  | initElements module elements =>
    intro segment member r inside
    obtain ⟨element,present,rfl⟩ := List.mem_map.mp member
    obtain ⟨_,_,_,fitting⟩ := elemItems_ok (valid element present).items
    exact fitting r inside
  | hostSet table i v =>
    rw [TableNames.resolve]
    split
    · exact value v
    · trivial
  | hostGrow table delta v =>
    rw [TableNames.resolve]
    split
    · exact value v
    · trivial
  | _ => trivial

variable [Allocator]

theorem host_get_simulates (fit : TablesFit s) {table : Table} (inside : table.addr < s.tables.length) (i : Nat) :
    Simulates s (.get table.addr i) ((TableOp.hostGet table i).exec s) := by
  have found := List.getElem?_eq_getElem inside
  have applies := apply_get found i
  simp only [TableOp.exec,Table.get,State.at_some found,ok_bind]
  cases at_i : s.tables[table.addr].elements[i]? with
  | some e =>
    obtain ⟨v,got,reference,_⟩ := TableInstance.getWasmVal_some (fit.reference found) at_i (fit.element found at_i)
    rw [at_i] at applies
    rw [got,show exceptAnswer ((Except.ok v : Except Trap WasmValue).map fun v => .item v.reference) = .item e.addr by
      rw [←reference]; rfl]
    exact .same applies
  | none =>
    rw [at_i] at applies
    rw [TableInstance.getWasmVal_none at_i]
    exact .same applies

theorem host_load_simulates (fit : TablesFit s) {table : Table} (inside : table.addr < s.tables.length) (i n : Nat) :
    Simulates s (.load table.addr i n) ((TableOp.hostLoad table i n).exec s) := by
  have found := List.getElem?_eq_getElem inside
  have applies : s.arrays.apply Allocator.tryReserveExact (.load table.addr i n) =
      if i + n ≤ s.tables[table.addr].elements.length then (.items (slice s.tables[table.addr].refs i n),s.arrays)
      else (.outOfBounds,s.arrays) := by
    rw [Arrays.apply,State.array_at found,TableInstance.refs_read]
    by_cases within : i + n ≤ s.tables[table.addr].elements.length
    · rw [if_pos within,if_pos within]
    · rw [if_neg within,if_neg within]
  simp only [TableOp.exec,Table.load,State.at_some found,ok_bind,TableInstance.load_eq (fit.fits found)]
  by_cases within : i + n ≤ s.tables[table.addr].elements.length
  · rw [if_pos within] at applies ⊢
    -- Each element is a value of the table's type with the element's reference.
    have each : ∀ e ∈ slice s.tables[table.addr].elements i n, Table.elementToValue s.tables[table.addr].kind.elementType e =
        .ok (if s.tables[table.addr].kind.elementType = .refFunc then .refFunc (.fromAddr e.addr)
          else .refExtern (.fromAddr e.addr)) := by
      intro e _
      rcases fit.reference found with func | external
      · rw [func]
        rfl
      · rw [external]
        rfl
    have references : ((slice s.tables[table.addr].elements i n).map fun e =>
        if s.tables[table.addr].kind.elementType = .refFunc then WasmValue.refFunc (.fromAddr e.addr)
          else .refExtern (.fromAddr e.addr)).map WasmValue.reference = slice s.tables[table.addr].refs i n := by
      rw [←TableInstance.refs_slice,List.map_map]
      refine List.map_congr_left fun e member => ?_
      obtain ⟨k,at_k⟩ := List.mem_iff_getElem?.mp (mem_slice member)
      have same := fromAddr_reference (fit.element found at_k)
      simp only [Function.comp_apply]
      split <;> exact same
    simp only [mapM_ok each,ok_bind,Except.map,exceptAnswer,references]
    exact .same applies
  · rw [if_neg within] at applies ⊢
    exact .same applies

theorem host_set_simulates (fit : TablesFit s) {table : Table} (inside : table.addr < s.tables.length) (i : Nat)
    (value : WasmValue) :
    Simulates s (s.tableNames.resolve (.hostSet table i value)) ((TableOp.hostSet table i value).exec s) := by
  have found := List.getElem?_eq_getElem inside
  simp only [TableOp.exec,Table.set,State.at_some found,ok_bind,TableNames.resolve,
    Table.valueToElement_accepts found (fit.reference found) value]
  by_cases accepted : s.tableNames.accepts table value = true
  · rw [if_pos accepted,if_pos accepted]
    obtain ⟨answer,arrays,names⟩ := TableInstance.set_writes fit found i value.reference
    exact ⟨_,by rw [Arrays.apply,←answer]; rfl,arrays,names⟩
  · rw [if_neg accepted,if_neg accepted]
    exact .same rfl

theorem host_copyWithin_simulates (fit : TablesFit s) {table : Table} (inside : table.addr < s.tables.length)
    (src dst n : Nat) :
    Simulates s (.copy table.addr dst table.addr src n) ((TableOp.hostCopyWithin table src dst n).exec s) := by
  have found := List.getElem?_eq_getElem inside
  simp only [TableOp.exec,Table.copyWithin,State.at_some found,ok_bind,TableInstance.copyWithin_eq (fit.fits found),
    TableInstance.load_eq (fit.fits found)]
  have applies : s.arrays.apply Allocator.tryReserveExact (.copy table.addr dst table.addr src n) =
      s.arrays.transfer s.tables[table.addr].refs src n table.addr dst := by
    rw [Arrays.apply,State.array_at found]
  rw [Arrays.transfer,TableInstance.refs_read] at applies
  by_cases within : src + n ≤ s.tables[table.addr].elements.length
  · rw [if_pos within] at applies ⊢
    obtain ⟨answer,arrays,names⟩ := TableInstance.init_writes fit found dst (slice s.tables[table.addr].elements src n)
    rw [TableInstance.refs_slice] at answer arrays
    exact ⟨_,by rw [applies,←answer],by rw [applies]; exact arrays,names⟩
  · rw [if_neg within] at applies ⊢
    rw [State.setTable_self found]
    exact .same applies

theorem host_grow_simulates (fit : TablesFit s) {table : Table} (inside : table.addr < s.tables.length) (delta : Int)
    (init : WasmValue) :
    Simulates s (s.tableNames.resolve (.hostGrow table delta init)) ((TableOp.hostGrow table delta init).exec s) := by
  have found := List.getElem?_eq_getElem inside
  simp only [TableOp.exec,Table.grow,State.at_some found,ok_bind,TableNames.resolve,
    Table.valueToElement_accepts found (fit.reference found) init]
  by_cases accepted : s.tableNames.accepts table init = true
  · rw [if_pos accepted]
    by_cases negative : delta < 0
    · rw [if_neg (show ¬(_ ∧ 0 ≤ delta) by omega)]
      simp only [if_pos negative,ok_bind]
      exact .same rfl
    · rw [if_pos (show _ ∧ 0 ≤ delta from ⟨accepted,by omega⟩)]
      simp only [if_neg negative,ok_bind]
      obtain ⟨answer,arrays,names,_⟩ := TableInstance.grow_simulates fit found delta.toNat init.reference
      refine ⟨_,?_,arrays,names⟩
      rw [answer]
      cases (s.tables[table.addr].grow delta.toNat (.ofAddr init.reference)).1 <;> rfl
  · rw [if_neg accepted,if_neg (fun both => accepted both.1)]
    exact .same rfl

theorem step_simulates (fit : TablesFit s) {op : TableOp} (valid : op.Valid s) (itself : op.FillsItself s) :
    Simulates s (s.tableNames.resolve op) (op.exec s) := by
  cases op with
  | run ctx stack instr => exact instruction_simulates fit valid itself
  | initElements module elements =>
    obtain ⟨r,s',ran,answer,arrays,names⟩ := initElements_place fit valid []
    refine ⟨s',?_,arrays,names⟩
    simp only [TableOp.exec,ran]
    refine Eq.trans ?_ (congrArg (fun answer => Except.ok (answer,s')) answer)
    rcases r with _ | ⟨_,_ | _⟩ <;> rfl
  | hostSize table =>
    have found := List.getElem?_eq_getElem valid
    simp only [TableOp.exec,Table.size,State.at_some found,ok_bind]
    refine .same ?_
    rw [TableNames.resolve,Arrays.apply,State.array_at found,TableInstance.refs_length]
    rfl
  | hostGet table i => exact host_get_simulates fit valid i
  | hostLoad table i n => exact host_load_simulates fit valid i n
  | hostSet table i value => exact host_set_simulates fit valid i value
  | hostCopyWithin table src dst n => exact host_copyWithin_simulates fit valid src dst n
  | hostGrow table delta init => exact host_grow_simulates fit valid delta init

-- A property of the state before each operation of a run.
def TableOp.Along (P : State → TableOp → Prop) (s : State) : List TableOp → Prop
  | [] => True
  | op :: rest => P s op ∧ ∀ answer s', op.exec s = .ok (answer,s') → Along P s' rest

theorem tables_refine_arrays {ops : List TableOp} (fit : TablesFit s) (valid : TableOp.Along TableOp.Valid s ops)
    (itself : TableOp.Along TableOp.FillsItself s ops) :
    ∃ answers s', TableOp.execAll s ops = .ok (answers,s') ∧ TablesFit s' ∧
      s.arrays.applyAll Allocator.tryReserveExact (ops.map s.tableNames.resolve) = (answers,s'.arrays) := by
  induction ops generalizing s with
  | nil => exact ⟨[],s,rfl,fit,rfl⟩
  | cons op rest ih =>
    obtain ⟨s',ran,arrays,names⟩ := step_simulates fit valid.1 itself.1
    have fit' : TablesFit s' := fit.next (by rw [arrays]; exact fit.keeps.apply _ valid.1.brings) names
    obtain ⟨answers,last,ran',fitLast,applied⟩ := ih fit' (valid.2 _ _ ran) (itself.2 _ _ ran)
    refine ⟨(s.arrays.apply Allocator.tryReserveExact (s.tableNames.resolve op)).1 :: answers,last,
      by simp [TableOp.execAll,ran,ran'],fitLast,?_⟩
    rw [names,arrays] at applied
    exact congrArg (fun tail : List (Answer Reference) × Arrays Reference =>
      ((s.arrays.apply Allocator.tryReserveExact (s.tableNames.resolve op)).1 :: tail.1,tail.2)) applied

end Clients

-- A one-element function table and an instance of two functions: the store's
-- first, and one at some other address.
def fillExample (other : FuncAddr) : State × List TableOp :=
  let ty : FuncType := ⟨[],[]⟩
  let ctx : Context := ⟨.new 0 (fun _ => 0) (fun _ => 0),⟨[],⟨[],[]⟩,fun _ => 0,fun _ => 0,fun _ => 0,ty⟩,
    ⟨0,[ty],[0,0],[0,other],[0],[],[],[],[]⟩,⟨fun _ => ⟨4,4,false⟩,⟨4,4,false⟩,.perInstruction,.vec,false⟩⟩
  let stack : ValueStack := ⟨fun _ => .new ⟨4,4,false⟩⟩
  (⟨[.host ty 0,.host ty 1,.host ty 2],[⟨[.uninitialized],⟨.i32,.refFunc,1,none⟩⟩],[],[],[],[]⟩,
    [.run ctx stack (.tableFill 0 (.i32 0) (.i32 1) ⟨1⟩),.run ctx stack (.tableGet 0 (.i32 0))])

theorem fillExample_fit (other : FuncAddr) : TablesFit (fillExample other).1 := by
  refine ⟨⟨?_,?_,?_⟩,?_⟩ <;> simp [fillExample,State.arrays,State.tableNames,TableInstance.refs,TableType.limit,
    TableElement.addr,AddressFits,maxTableSize,usizeMax,usizeBits]

section Example
variable [Allocator]

theorem fillExample_valid (other : FuncAddr) :
    TableOp.Along TableOp.Valid (fillExample other).1 (fillExample other).2 := by
  have room (size : OperandSize) : ([] : List (Value size)).length < 4 := by simp
  refine ⟨⟨⟨⟨0,_,rfl,rfl,rfl⟩,rfl⟩,room⟩,fun answer s' ran => ⟨⟨⟨0,⟨[.initialized other],⟨.i32,.refFunc,1,none⟩⟩,rfl,?_,rfl⟩,room⟩,
    fun _ _ _ => trivial⟩⟩
  cases ran
  rfl

end Example

theorem tables_refine_arrays_identity :
    letI := Allocator.unlimited
    ∃ s', TableOp.execAll (fillExample 1).1 (fillExample 1).2 = .ok ([.done,.item (some 1)],s') ∧ TablesFit s' := by
  let _ := Allocator.unlimited
  obtain ⟨answers,s',ran,fit,applied⟩ := tables_refine_arrays (fillExample_fit 1) (fillExample_valid 1) (by
    refine ⟨?_,fun _ _ _ => ⟨trivial,fun _ _ _ => trivial⟩⟩
    rintro a addr t given _ _ _
    cases given
    exact ⟨1,rfl,.inl rfl⟩)
  have wanted : ((fillExample 1).1.arrays.applyAll Allocator.tryReserveExact
    ((fillExample 1).2.map (fillExample 1).1.tableNames.resolve)).1 = [.done,.item (some 1)] := rfl
  rw [applied] at wanted
  exact ⟨s',by rw [ran,←wanted],fit⟩

-- The reference of the store's function 1 fills the table of an instance whose
-- second function is the store's function 2.
theorem table_fill_resolves_twice :
    letI := Allocator.unlimited
    ¬∀ (s : State) (ops : List TableOp), TablesFit s → TableOp.Along TableOp.Valid s ops →
      ∃ answers s', TableOp.execAll s ops = .ok (answers,s') ∧
        s.arrays.applyAll Allocator.tryReserveExact (ops.map s.tableNames.resolve) = (answers,s'.arrays) := by
  let _ := Allocator.unlimited
  intro always
  obtain ⟨answers,s',ran,applied⟩ := always _ _ (fillExample_fit 2) (fillExample_valid 2)
  have stored : (TableOp.execAll (fillExample 2).1 (fillExample 2).2).map Prod.fst = .ok [.done,.item (some 2)] := rfl
  have wanted : ((fillExample 2).1.arrays.applyAll Allocator.tryReserveExact
    ((fillExample 2).2.map (fillExample 2).1.tableNames.resolve)).1 = [.done,.item (some 1)] := rfl
  rw [applied] at wanted
  rw [ran,Except.map,wanted] at stored
  cases stored

end TinyWasm
