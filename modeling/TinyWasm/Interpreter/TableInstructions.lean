import TinyWasm.Interpreter.TableRefinement

namespace TinyWasm
open ListRange SharedArrays

def Machine.putTable (m : Machine) (addr : TableAddr) (t : TableInstance) : Machine :=
  {m with state := {m.state with tables := m.state.tables.set addr t}}

section Instructions
variable {m : Machine} {ctx : Context} {s : State} {t : TableInstance} {addr index : Nat}

theorem execTableSet_run (named : ctx.module.tableAddrs[index]? = some addr) (found : m.state.tables[addr]? = some t)
    (i : TableIndex) (width : t.kind.arch = i.arch) (r : ValueRef) :
    let result := t.set i.toNat (.ofAddr r.addr)
    execTableSet ctx index ((i.onTop m).onTop .s32 r.raw) = .ok (result.1,m.putTable addr result.2) := by
  have atTop : (i.onTop m).state.tables[addr]? = some t := by rwa [TableIndex.onTop_state]
  exact (Exec.bind_ok (Machine.popRef_onTop r (i.onTop m))).trans
    ((Exec.bind_ok (Context.table_run named atTop)).trans (Exec.bind_ok (popTableOperand_onTop i width.symm m)))

theorem execTableFill_run (named : ctx.module.tableAddrs[index]? = some addr) (found : m.state.tables[addr]? = some t)
    (i n : TableIndex) (width : t.kind.arch = i.arch) (same : n.arch = i.arch) (r : ValueRef)
    {result : Except Trap Unit × TableInstance}
    (filled : t.fill ctx.module.funcAddrs i.toNat n.toNat (.ofAddr r.addr) = .ok result) :
    execTableFill ctx index (n.onTop ((i.onTop m).onTop .s32 r.raw)) = .ok (result.1,m.putTable addr result.2) := by
  have atTop : (n.onTop ((i.onTop m).onTop .s32 r.raw)).state.tables[addr]? = some t := by
    rwa [TableIndex.onTop_state,Machine.onTop_state,TableIndex.onTop_state]
  refine (Exec.bind_ok (Context.table_run named atTop)).trans
    ((Exec.bind_ok (popTableOperand_onTop n (same.trans width.symm) _)).trans
      ((Exec.bind_ok (Machine.popRef_onTop r (i.onTop m))).trans
        ((Exec.bind_ok (popTableOperand_onTop i width.symm m)).trans ?_)))
  rw [filled]
  rfl

theorem execTableInit_run (named : ctx.module.tableAddrs[index]? = some addr) (found : m.state.tables[addr]? = some t)
    {elem elemAddr : Nat} {segment : ElementInstance} (namedElem : ctx.module.elemAddrs[elem]? = some elemAddr)
    (foundElem : m.state.elements[elemAddr]? = some segment) (i : TableIndex) (width : t.kind.arch = i.arch)
    (j n : Value .s32) :
    let items := segment.items.getD []
    let result := if j.toNat + n.toNat ≤ items.length then t.init i.toNat (slice items j.toNat n.toNat)
      else (.error (.tableOutOfBounds j.toNat n.toNat items.length),t)
    execTableInit ctx elem index (((i.onTop m).onTop .s32 j).onTop .s32 n) = .ok (result.1,m.putTable addr result.2) := by
  intro items result
  have atTop : (i.onTop m).state.tables[addr]? = some t := by rwa [TableIndex.onTop_state]
  have fits : j.toNat + n.toNat ≤ usizeMax := by
    have small : j.toNat < 2 ^ 32 := j.isLt
    have small' : n.toNat < 2 ^ 32 := n.isLt
    simp only [usizeMax,usizeBits]
    omega
  refine (Exec.bind_ok (popTableOperand_s32 n _)).trans
    ((Exec.bind_ok (popTableOperand_s32 j (i.onTop m))).trans
      ((Exec.bind_ok (Context.table_run named atTop)).trans
        ((Exec.bind_ok (popTableOperand_onTop i width.symm m)).trans ?_)))
  simp only [State.at_some namedElem,Exec.ofChecked_bind,Exec.get_bind,foundElem,checkedAdd_fits fits]
  by_cases inside : j.toNat + n.toNat ≤ items.length
  · rw [if_neg (Nat.not_lt_of_le inside)]
    simp only [result,if_pos inside]
    rfl
  · rw [if_pos (Nat.lt_of_not_le inside)]
    simp only [result,if_neg inside,Machine.putTable,State.setTable_self found]
    rfl

theorem execTableCopy_run {index' addr' : Nat} {t' : TableInstance}
    (named : ctx.module.tableAddrs[index]? = some addr) (found : m.state.tables[addr]? = some t)
    (named' : ctx.module.tableAddrs[index']? = some addr') (found' : m.state.tables[addr']? = some t')
    (fits : t'.elements.length ≤ usizeMax) (i j n : TableIndex) (width : t.kind.arch = i.arch)
    (width' : t'.kind.arch = j.arch) (length : n.arch = lenArch i.arch j.arch) :
    let result := if j.toNat + n.toNat ≤ t'.elements.length then t.init i.toNat (slice t'.elements j.toNat n.toNat)
      else (.error (t'.trapOob j.toNat n.toNat),t)
    execTableCopy ctx index index' (n.onTop (j.onTop (i.onTop m))) = .ok (result.1,m.putTable addr result.2) := by
  intro result
  have atTop : (n.onTop (j.onTop (i.onTop m))).state = m.state := by simp only [TableIndex.onTop_state]
  refine (Exec.bind_ok (Context.table_run named (by rwa [atTop]))).trans
    ((Exec.bind_ok (Context.table_run named' (by rwa [atTop]))).trans
      ((Exec.bind_ok (popTableOperand_onTop n (by rw [length,width,width']) _)).trans
        ((Exec.bind_ok (popTableOperand_onTop j width'.symm (i.onTop m))).trans
          ((Exec.bind_ok (popTableOperand_onTop i width.symm m)).trans ?_))))
  have loaded := TableInstance.load_eq fits j.toNat n.toNat
  by_cases same : addr = addr'
  · subst same
    cases found.symm.trans found'
    rw [if_pos rfl,TableInstance.copyWithin_eq fits,loaded]
    by_cases inside : j.toNat + n.toNat ≤ t.elements.length
    · simp only [result,if_pos inside]
      rfl
    · simp only [result,if_neg inside]
      rfl
  · rw [if_neg same,loaded]
    by_cases inside : j.toNat + n.toNat ≤ t'.elements.length
    · simp only [result,if_pos inside]
      rfl
    · simp only [result,if_neg inside,Machine.putTable,State.setTable_self found]
      rfl

theorem execElemDrop_run {elem elemAddr : Nat} {segment : ElementInstance}
    (named : ctx.module.elemAddrs[elem]? = some elemAddr) (found : m.state.elements[elemAddr]? = some segment) :
    execElemDrop ctx elem m =
      .ok (.ok (),{m with state := {m.state with elements := m.state.elements.set elemAddr segment.drop}}) := by
  simp only [execElemDrop,State.at_some named,Exec.ofChecked_bind,Exec.get_bind,State.at_some found,Exec.set_run]

theorem fromAddr_reference {r : Reference} (fits : AddressFits r) : (ValueRef.fromAddr r).addr = r := by
  cases r with
  | none => exact ValueRef.addr_null
  | some a => exact ValueRef.addr_fromAddr (fits a rfl)

theorem TableInstance.getWasmVal_some (typed : t.kind.elementType = .refFunc ∨ t.kind.elementType = .refExtern)
    {i : Nat} {e : TableElement} (found : t.elements[i]? = some e) (fits : AddressFits e.addr) :
    ∃ v, t.getWasmVal i = .ok v ∧ v.reference = e.addr ∧ v.toTinyWasm = .valueRef (.fromAddr e.addr) := by
  have got : t.get i = .ok e := by simp only [get,found]
  have same := fromAddr_reference fits
  rcases typed with func | external
  · refine ⟨.refFunc (.fromAddr e.addr),?_,same,by rw [WasmValue.toTinyWasm,same]⟩
    simp only [getWasmVal,got,func]
    rfl
  · refine ⟨.refExtern (.fromAddr e.addr),?_,same,by rw [WasmValue.toTinyWasm,same]⟩
    simp only [getWasmVal,got,external]
    rfl

theorem TableInstance.getWasmVal_none {i : Nat} (outside : t.elements[i]? = none) :
    t.getWasmVal i = .error (t.trapOob i 1) := by
  simp only [getWasmVal,get,outside]
  rfl

-- The program reads a size back as it was, and the -1 of a failed grow apart
-- from every size.
theorem popResult_run (named : ctx.module.tableAddrs[index]? = some addr) (found : m.state.tables[addr]? = some t)
    {result : TableIndex} (width : result.arch = t.kind.arch) :
    TableInstruction.popResult ctx index (result.onTop m) =
      .ok (.ok (if result.toNat = 2 ^ (OperandSize.ofArch t.kind.arch).bits - 1 then .failed else .number result.toNat),m) := by
  have atTop : (result.onTop m).state.tables[addr]? = some t := by rwa [TableIndex.onTop_state]
  exact (Exec.bind_ok (Context.table_run named atTop)).trans (Exec.bind_ok (popTableOperand_onTop result width m))

variable [Allocator]

theorem Machine.push_room {size : OperandSize} (room : (m.valueStack.lane size).len < (m.valueStack.lane size).capacity)
    (v : Value size) : push size v m = .ok (.ok (),m.onTop size v) := by
  have enough : ¬(m.valueStack.lane size).len + 1 > (m.valueStack.lane size).capacity := Nat.not_lt_of_le room
  simp only [push,ValueStack.push,Stack.push,Stack.ensureCapacityFor,if_neg enough]
  rfl

theorem Machine.pushSize_room (room : ∀ size, (m.valueStack.lane size).len < (m.valueStack.lane size).capacity)
    (arch : MemoryArch) (size : Int) : ∃ index : TableIndex, index.arch = arch ∧
      index.toNat = (size % 2 ^ (OperandSize.ofArch arch).bits).toNat ∧
        pushSize arch size m = .ok (.ok (),index.onTop m) := by
  cases arch with
  | i32 => exact ⟨.i32 (BitVec.ofInt 32 size),rfl,BitVec.toNat_ofInt size,push_room (room .s32) _⟩
  | i64 => exact ⟨.i64 (BitVec.ofInt 64 size),rfl,BitVec.toNat_ofInt size,push_room (room .s64) _⟩

theorem answer_run (named : ctx.module.tableAddrs[index]? = some addr) (found : m.state.tables[addr]? = some t)
    (room : ∀ size, (m.valueStack.lane size).len < (m.valueStack.lane size).capacity) {size : Int} {answer : Answer Reference}
    (read : (size = -1 ∧ answer = .failed) ∨ ∃ n : Nat, size = n ∧ n ≤ maxTableSize ∧ answer = .number n) :
    (do Machine.pushSize t.kind.arch size; TableInstruction.popResult ctx index) m = .ok (.ok answer,m) := by
  obtain ⟨result,width,value,pushed⟩ := Machine.pushSize_room room t.kind.arch size
  refine (Exec.bind_ok pushed).trans ((popResult_run named found width).trans ?_)
  rw [value]
  rcases read with ⟨rfl,rfl⟩ | ⟨n,rfl,small,rfl⟩
  · cases t.kind.arch <;> rfl
  · have below : n < 2 ^ 32 - 1 := Nat.lt_of_le_of_lt small (by decide)
    have whole : (((n : Int)) % 2 ^ (OperandSize.ofArch t.kind.arch).bits).toNat = n ∧
        n ≠ 2 ^ (OperandSize.ofArch t.kind.arch).bits - 1 := by
      cases t.kind.arch with
      | i32 => change ((n : Int) % 2 ^ 32).toNat = n ∧ n ≠ 2 ^ 32 - 1; omega
      | i64 => change ((n : Int) % 2 ^ 64).toNat = n ∧ n ≠ 2 ^ 64 - 1; omega
    rw [whole.1,if_neg whole.2]

end Instructions

section Simulation
variable {s : State} {t : TableInstance} {addr index a : Nat} {ctx : Context} {stack : ValueStack}

-- An instruction, as one that does a step and then reads its answer.
def answered (x : Step (Answer Reference)) (m : Machine) : Checked (Answer Reference × State) := do
  let (r,m) ← x m
  .ok (exceptAnswer r,m.state)

theorem answered_run {x : Step (Answer Reference)} {m m' : Machine} {r : Except Trap (Answer Reference)}
    (ran : x m = .ok (r,m')) : answered x m = .ok (exceptAnswer r,m'.state) := by
  rw [answered,ran]
  rfl

theorem TablesFit.element (fit : TablesFit s) (found : s.tables[addr]? = some t) {i : Nat} {e : TableElement}
    (inside : t.elements[i]? = some e) : AddressFits e.addr := by
  refine (fit.keeps.array addr).2 e.addr ?_
  rw [State.array_at found]
  exact List.mem_map_of_mem (List.mem_of_getElem? inside)

variable [Allocator]

theorem Writes.simulates {op : Op Reference} {refs : List Reference} {result : Except Trap Unit × TableInstance}
    (wrote : Writes s addr a refs result)
    (applies : s.arrays.apply Allocator.tryReserveExact op = s.arrays.write addr a refs) {x : Step Unit} {top : Machine}
    (ran : x top = .ok (result.1,Machine.putTable ⟨stack,s⟩ addr result.2)) :
    Simulates s op (answered (do x; pure .done) top) := by
  have done : (do x; pure .done : Step (Answer Reference)) top =
      .ok (result.1.map fun _ => .done,Machine.putTable ⟨stack,s⟩ addr result.2) := by
    rw [Exec.bind_run,ran]
    cases result.1 <;> rfl
  refine ⟨_,?_,?_,wrote.2.2⟩
  · rw [answered_run done,applies,wrote.1]
    rfl
  · rw [applies]
    exact wrote.2.1

-- An operation that leaves the store alone.
theorem Simulates.same {op : Op Reference} {answer : Answer Reference}
    (applies : s.arrays.apply Allocator.tryReserveExact op = (answer,s.arrays)) : Simulates s op (.ok (answer,s)) :=
  ⟨s,by rw [applies],by rw [applies],rfl⟩

-- A range of items, of a table or of a segment, read and then written.
theorem read_writes (fit : TablesFit s) (found : s.tables[addr]? = some t) (items : List TableElement) {i j n : Nat}
    {op : Op Reference} (reads : s.arrays.apply Allocator.tryReserveExact op =
      s.arrays.transfer (items.map TableElement.addr) j n addr i)
    {x : Step Unit} {top : Machine} {offset len max : Nat} (ran :
      let result := if j + n ≤ items.length then t.init i (slice items j n) else (.error (.tableOutOfBounds offset len max),t)
      x top = .ok (result.1,Machine.putTable ⟨stack,s⟩ addr result.2)) :
    Simulates s op (answered (do x; pure .done) top) := by
  rw [Arrays.transfer,FlatArray.read,List.length_map] at reads
  by_cases inside : j + n ≤ items.length
  · rw [if_pos inside] at reads ran
    have wrote := TableInstance.init_writes fit found i (slice items j n)
    refine wrote.simulates (reads.trans ?_) ran
    simp only [slice,List.map_take,List.map_drop]
  · rw [if_neg inside] at reads ran
    have stopped := answered_run (Exec.bind_trap (f := fun _ => pure .done) ran)
    rw [Machine.putTable,State.setTable_self found] at stopped
    rw [stopped]
    exact .same reads

theorem apply_get (found : s.tables[addr]? = some t) (i : Nat) :
    s.arrays.apply Allocator.tryReserveExact (.get addr i) =
      match t.elements[i]? with
      | some e => (.item e.addr,s.arrays)
      | none => (.outOfBounds,s.arrays) := by
  rw [Arrays.apply,State.array_at found,TableInstance.refs,List.getElem?_map]
  cases t.elements[i]? <;> rfl

theorem tableGet_simulates (fit : TablesFit s) (named : ctx.module.tableAddrs[index]? = some addr)
    (found : s.tables[addr]? = some t) (i : TableIndex) (width : t.kind.arch = i.arch)
    (room : ∀ size, (stack.lane size).len < (stack.lane size).capacity) :
    Simulates s (.get addr i.toNat) (answered (TableInstruction.exec ctx (.tableGet index i)) (i.onTop ⟨stack,s⟩)) := by
  have atTop : (i.onTop ⟨stack,s⟩).state.tables[addr]? = some t := by rwa [TableIndex.onTop_state]
  have applies := apply_get found i.toNat
  -- Up to the read of the element nothing can go wrong.
  have looked {v : Except Trap WasmValue} (got : t.getWasmVal i.toNat = v) : execTableGet ctx index (i.onTop ⟨stack,s⟩) =
      (do let v ← .ofExcept v; Machine.pushDyn v.toTinyWasm : Step Unit) ⟨stack,s⟩ := by
    subst got
    exact (Exec.bind_ok (Context.table_run named atTop)).trans (Exec.bind_ok (popTableOperand_onTop i width.symm _))
  cases inside : t.elements[i.toNat]? with
  | some e =>
    obtain ⟨v,got,_,pushed⟩ := TableInstance.getWasmVal_some (fit.reference found) inside (fit.element found inside)
    rw [inside] at applies
    have top : execTableGet ctx index (i.onTop ⟨stack,s⟩) =
        .ok (.ok (),(⟨stack,s⟩ : Machine).onTop .s32 (ValueRef.fromAddr e.addr).raw) := by
      rw [looked got,Exec.ofExcept_bind,pushed]
      exact Machine.push_room (room .s32) _
    have answer : TableInstruction.exec ctx (.tableGet index i) (i.onTop ⟨stack,s⟩) = .ok (.ok (.item e.addr),⟨stack,s⟩) := by
      refine (Exec.bind_ok top).trans ((Exec.bind_ok (Machine.popRef_onTop _ _)).trans ?_)
      rw [fromAddr_reference (fit.element found inside)]
      rfl
    rw [answered_run answer]
    exact .same applies
  | none =>
    rw [inside] at applies
    have top : execTableGet ctx index (i.onTop ⟨stack,s⟩) = .ok (.error (t.trapOob i.toNat 1),⟨stack,s⟩) :=
      looked (TableInstance.getWasmVal_none inside)
    rw [answered_run (show TableInstruction.exec ctx (.tableGet index i) (i.onTop ⟨stack,s⟩) = _ from Exec.bind_trap top)]
    exact .same applies

theorem tableSize_simulates (fit : TablesFit s) (named : ctx.module.tableAddrs[index]? = some addr)
    (found : s.tables[addr]? = some t) (room : ∀ size, (stack.lane size).len < (stack.lane size).capacity) :
    Simulates s (.size addr) (answered (TableInstruction.exec ctx (.tableSize index)) ⟨stack,s⟩) := by
  have sized : execTableSize ctx index ⟨stack,s⟩ = Machine.pushSize t.kind.arch t.size ⟨stack,s⟩ :=
    Exec.bind_ok (Context.table_run named found)
  have answer := answer_run (m := ⟨stack,s⟩) named found room (.inr ⟨t.size,rfl,fit.small found,rfl⟩)
  rw [answered_run (show TableInstruction.exec ctx (.tableSize index) ⟨stack,s⟩ = _ by
    rw [←answer,TableInstruction.exec,Exec.bind_run,sized]; rfl)]
  refine .same ?_
  rw [Arrays.apply,State.array_at found,TableInstance.refs_length]
  rfl

-- A grow beyond the limit, or beyond what the host grants, changes nothing.
theorem TableInstance.grow_simulates (fit : TablesFit s) (found : s.tables[addr]? = some t) (n : Nat) (r : Reference) :
    let result := t.grow n (.ofAddr r)
    let after : State := {s with tables := s.tables.set addr result.2}
    let applied := s.arrays.apply Allocator.tryReserveExact (.grow addr n r)
    applied.1 = (match result.1 with | .ok () => .number t.size | .error _ => .failed) ∧
      after.arrays = applied.2 ∧ after.tableNames = s.tableNames ∧ result.2.kind = t.kind := by
  intro result after applied
  have small := fit.small found
  have refused (trap : Trap) (failed : result = (.error trap,t))
      (abstract : applied = (.failed,s.arrays)) : applied.1 = (match result.1 with
        | .ok () => .number t.size
        | .error _ => .failed) ∧ after.arrays = applied.2 ∧ after.tableNames = s.tableNames ∧ result.2.kind = t.kind := by
    have same : after = s := by
      simp only [after,failed]
      exact State.setTable_self found
    rw [abstract,failed,same]
    exact ⟨rfl,rfl,rfl,rfl⟩
  have room : (s.arrays.array addr).length + n ≤ s.arrays.limits[addr]?.getD 0 ↔ n + t.elements.length ≤ t.kind.limit := by
    rw [State.array_at found,State.limit_at found,refs_length,Nat.add_comm]
  have bounded : t.kind.limit ≤ usizeMax := Nat.le_trans (Nat.min_le_right _ _) (by decide)
  by_cases fits : n + t.elements.length ≤ t.kind.limit
  · have sum : checkedAdd n t.elements.length = some (n + t.elements.length) := checkedAdd_fits (Nat.le_trans fits bounded)
    cases granted : Allocator.tryReserveExact n with
    | true =>
      have grown : result = (.ok (),{t with elements := t.elements ++ List.replicate n (.ofAddr r)}) := by
        simp only [result,grow,sum,granted,if_true]
        exact if_neg (Nat.not_lt_of_le fits)
      have abstract : applied = (.number t.size,{s.arrays with
          arrays := s.arrays.arrays.set addr (t.refs ++ List.replicate n r)}) := by
        refine (if_pos ⟨room.mpr fits,granted⟩).trans ?_
        rw [State.array_at found,refs_length]
        rfl
      obtain ⟨arrays,names⟩ := State.setTable_arrays found (t.elements ++ List.replicate n (.ofAddr r))
      rw [abstract,grown]
      refine ⟨rfl,?_,?_,rfl⟩
      · simp only [after,grown]
        refine arrays.trans ?_
        rw [List.map_append,List.map_replicate,TableElement.addr_ofAddr]
        rfl
      · simp only [after,grown]
        exact names
    | false =>
      refine refused .outOfMemory ?_ (if_neg fun both => by simp [granted] at both)
      simp only [result,grow,sum,granted]
      exact if_neg (Nat.not_lt_of_le fits)
  · have abstract : applied = (.failed,s.arrays) := if_neg fun both => fits (room.mp both.1)
    by_cases sum : n + t.elements.length ≤ usizeMax
    · refine refused (.tableOutOfBounds (n + t.elements.length) 1 t.elements.length) ?_ abstract
      simp only [result,grow,checkedAdd_fits sum]
      exact if_pos (Nat.lt_of_not_le fits)
    · refine refused .outOfMemory ?_ abstract
      simp only [result,grow,checkedAdd_wraps (Nat.lt_of_not_le sum)]

theorem tableGrow_simulates (fit : TablesFit s) (named : ctx.module.tableAddrs[index]? = some addr)
    (found : s.tables[addr]? = some t) (n : TableIndex) (width : t.kind.arch = n.arch) (r : ValueRef)
    (room : ∀ size, (stack.lane size).len < (stack.lane size).capacity) :
    Simulates s (.grow addr n.toNat r.addr) (answered (TableInstruction.exec ctx (.tableGrow index n r))
      (n.onTop ((⟨stack,s⟩ : Machine).onTop .s32 r.raw))) := by
  obtain ⟨outcome,arrays,names,kind⟩ := TableInstance.grow_simulates fit found n.toNat r.addr
  have inside := (List.getElem?_eq_some_iff.mp found).1
  have atTop : (n.onTop ((⟨stack,s⟩ : Machine).onTop .s32 r.raw)).state.tables[addr]? = some t := by
    rwa [TableIndex.onTop_state,Machine.onTop_state]
  -- The size is pushed in the width of the table, which a grow keeps.
  have popped : execTableGrow ctx index (n.onTop ((⟨stack,s⟩ : Machine).onTop .s32 r.raw)) =
      Machine.pushSize t.kind.arch (match (t.grow n.toNat (.ofAddr r.addr)).1 with | .ok () => (t.size : Int) | .error _ => -1)
        (Machine.putTable ⟨stack,s⟩ addr (t.grow n.toNat (.ofAddr r.addr)).2) := by
    refine (Exec.bind_ok (Context.table_run named atTop)).trans
      ((Exec.bind_ok (popTableOperand_onTop n width.symm _)).trans
        ((Exec.bind_ok (Machine.popRef_onTop r ⟨stack,s⟩)).trans ?_))
    rcases t.grow n.toNat (.ofAddr r.addr) with ⟨_ | _,_⟩ <;> rfl
  have after : (Machine.putTable ⟨stack,s⟩ addr (t.grow n.toNat (.ofAddr r.addr)).2).state.tables[addr]? =
      some (t.grow n.toNat (.ofAddr r.addr)).2 := List.getElem?_set_self inside
  have answer : (do
      Machine.pushSize (t.grow n.toNat (.ofAddr r.addr)).2.kind.arch
        (match (t.grow n.toNat (.ofAddr r.addr)).1 with | .ok () => (t.size : Int) | .error _ => -1)
      TableInstruction.popResult ctx index : Step (Answer Reference))
        (Machine.putTable ⟨stack,s⟩ addr (t.grow n.toNat (.ofAddr r.addr)).2) =
      .ok (.ok (match (t.grow n.toNat (.ofAddr r.addr)).1 with | .ok () => .number t.size | .error _ => .failed),
        Machine.putTable ⟨stack,s⟩ addr (t.grow n.toNat (.ofAddr r.addr)).2) := by
    refine answer_run named after room ?_
    cases (t.grow n.toNat (.ofAddr r.addr)).1 with
    | ok => exact .inr ⟨t.size,rfl,fit.small found,rfl⟩
    | error => exact .inl ⟨rfl,rfl⟩
  rw [kind] at answer
  have ran : TableInstruction.exec ctx (.tableGrow index n r) (n.onTop ((⟨stack,s⟩ : Machine).onTop .s32 r.raw)) =
      .ok (.ok (match (t.grow n.toNat (.ofAddr r.addr)).1 with | .ok () => .number t.size | .error _ => .failed),
        Machine.putTable ⟨stack,s⟩ addr (t.grow n.toNat (.ofAddr r.addr)).2) := (Exec.bind_congr popped).trans answer
  rw [answered_run ran]
  exact ⟨_,by rw [outcome]; rfl,arrays,names⟩

theorem elemDrop_simulates {elem : Nat} {segment : ElementInstance} (named : ctx.module.elemAddrs[index]? = some elem)
    (found : s.elements[elem]? = some segment) :
    Simulates s (.drop elem) (answered (TableInstruction.exec ctx (.elemDrop index)) ⟨stack,s⟩) := by
  have dropped := execElemDrop_run (m := ⟨stack,s⟩) named found
  rw [answered_run (show TableInstruction.exec ctx (.elemDrop index) ⟨stack,s⟩ = _ from Exec.bind_ok dropped)]
  refine ⟨_,rfl,?_,rfl⟩
  simp only [State.arrays,Arrays.apply,List.map_set]
  rfl

theorem instruction_simulates (fit : TablesFit s) {instr : TableInstruction}
    (valid : (TableOp.run ctx stack instr).Valid s) (itself : (TableOp.run ctx stack instr).FillsItself s) :
    Simulates s (s.tableNames.resolve (.run ctx stack instr)) ((TableOp.run ctx stack instr).exec s) := by
  obtain ⟨valid,room⟩ := valid
  cases instr with
  | tableGet index i =>
    obtain ⟨addr,t,named,found,width⟩ := valid
    simp only [TableNames.resolve,named,Option.getD_some]
    exact tableGet_simulates fit named found i width room
  | tableSet index i r =>
    obtain ⟨addr,t,named,found,width⟩ := valid
    simp only [TableNames.resolve,named,Option.getD_some]
    exact (TableInstance.set_writes fit found i.toNat r.addr).simulates rfl
      (execTableSet_run (m := ⟨stack,s⟩) named found i width r)
  | tableSize index =>
    obtain ⟨_,addr,t,named,found,_⟩ := valid
    simp only [TableNames.resolve,named,Option.getD_some]
    exact tableSize_simulates fit named found room
  | tableFill index i n r =>
    obtain ⟨⟨addr,t,named,found,width⟩,same⟩ := valid
    simp only [TableNames.resolve,named,Option.getD_some]
    obtain ⟨result,filled,wrote⟩ := TableInstance.fill_writes fit found fun a given func =>
      itself a addr t given named found func
    exact wrote.simulates rfl (execTableFill_run (m := ⟨stack,s⟩) named found i n width same r filled)
  | tableGrow index n r =>
    obtain ⟨addr,t,named,found,width⟩ := valid
    simp only [TableNames.resolve,named,Option.getD_some]
    exact tableGrow_simulates fit named found n width r room
  | tableCopy dst src i j n =>
    obtain ⟨⟨addr,t,named,found,width⟩,⟨addr',t',named',found',width'⟩,length⟩ := valid
    simp only [TableNames.resolve,named,named',Option.getD_some]
    refine read_writes fit found t'.elements ?_
      (execTableCopy_run (m := ⟨stack,s⟩) named found named' found' (fit.fits found') i j n width width' length)
    rw [Arrays.apply,State.array_at found']
    rfl
  | tableInit elem index i j n =>
    obtain ⟨⟨addr,t,named,found,width⟩,addr',segment,named',found'⟩ := valid
    simp only [TableNames.resolve,named,named',Option.getD_some]
    refine read_writes fit found (segment.items.getD []) ?_
      (execTableInit_run (m := ⟨stack,s⟩) named found named' found' i width j n)
    rw [Arrays.apply,State.segment_at found']
    rfl
  | elemDrop index =>
    obtain ⟨addr,segment,named,found⟩ := valid
    simp only [TableNames.resolve,named,Option.getD_some]
    exact elemDrop_simulates named found

end Simulation

end TinyWasm
