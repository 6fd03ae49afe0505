import TinyWasm.Interpreter.Straight

namespace TinyWasm
open ListRange

-- What every straight-line instruction but global.set leaves of a store.
structure Shape where
  funcs : List FunctionInstance
  memories : List MemoryType
  tables : List TableType
  globals : List GlobalInstance
  elements : Nat
  data : Nat

def State.shape (s : State) : Shape :=
  ⟨s.funcs,s.memories.map MemoryInstance.kind,s.tables.map TableInstance.kind,s.globals,s.elements.length,
    s.data.length⟩

-- Dropping a segment leaves its place.
theorem State.shape_setElement (s : State) (addr : ElemAddr) (elem : ElementInstance) :
    ({s with elements := s.elements.set addr elem} : State).shape = s.shape := by
  simp only [shape,List.length_set]

theorem State.shape_setData (s : State) (addr : DataAddr) (data : DataInstance) :
    ({s with data := s.data.set addr data} : State).shape = s.shape := by
  simp only [shape,List.length_set]

def TinyWasmValue.size : TinyWasmValue → OperandSize
  | .value32 _ | .valueRef _ => .s32
  | .value64 _ => .s64
  | .value128 _ => .s128

namespace Shape

-- The lane an address of the memory, an index of the table and the value of
-- the global named by an immediate live in.
def memorySize (K : Shape) (module : ModuleInstance) (memIdx : MemAddr) : OperandSize :=
  (module.memAddrs[memIdx]?.bind (K.memories[·]?)).elim .s32 fun kind => .ofArch kind.arch

def tableArch (K : Shape) (module : ModuleInstance) (tableIndex : TableAddr) : MemoryArch :=
  (module.tableAddrs[tableIndex]?.bind (K.tables[·]?)).elim .i32 TableType.arch

def tableSize (K : Shape) (module : ModuleInstance) (tableIndex : TableAddr) : OperandSize :=
  .ofArch (K.tableArch module tableIndex)

def globalSize (K : Shape) (module : ModuleInstance) (globalIndex : GlobalAddr) : OperandSize :=
  (module.globalAddrs[globalIndex]?.bind (K.globals[·]?)).elim .s32 fun g => g.value.size

end Shape

def LaneCounts.list (counts : LaneCounts) : List OperandSize :=
  List.replicate (counts .s32) .s32 ++ List.replicate (counts .s64) .s64 ++ List.replicate (counts .s128) .s128

@[simp] theorem LaneCounts.count_list (counts : LaneCounts) (size : OperandSize) :
    counts.list.count size = counts size := by
  cases size <;> simp [list,List.count_replicate]

-- From `s` to `s'` with operands `ins` above `base`: the lanes below the locals
-- are as they were, none falls below `base`, and unless `r` is a trap the
-- operands made way for the results `outs`.
structure Landed {α : Type} (cf : CallFrame) (base : StackBase) (ins outs : List OperandSize) (r : Except Trap α)
    (s s' : ValueStack) : Prop where
  kept (size) : (s'.lane size).data.take (cf.localsBase size) = (s.lane size).data.take (cf.localsBase size)
  above (size) : base size ≤ s'.base size
  exact (a) : r = .ok a → ∀ size, s'.base size + ins.count size = s.base size + outs.count size

structure Room (cf : CallFrame) (base : StackBase) (ins : List OperandSize) (s : ValueStack) : Prop where
  locals (size) : cf.localsBase size ≤ base size
  operands (size) : base size + ins.count size ≤ s.base size

structure Uses {α : Type} (cf : CallFrame) (K : Shape) (ins outs : List OperandSize) (x : Step α) : Prop where
  run : ∀ m r m', m.state.shape = K → x m = .ok (r,m') → m'.state.shape = K ∧
    ∀ base, Room cf base ins m.valueStack → Landed cf base ins outs r m.valueStack m'.valueStack

namespace Uses
variable {α β : Type} {cf : CallFrame} {K : Shape} {ins outs ins₁ ins₂ outs₁ outs₂ : List OperandSize}
  {x : Step α} {f : α → Step β}

theorem bind (first : Uses cf K ins₁ outs₁ x) (next : ∀ a, Uses cf K ins₂ outs₂ (f a))
    (taken : ∀ size, ins.count size = ins₁.count size + (ins₂.count size - outs₁.count size))
    (given : ∀ size, outs.count size = outs₂.count size + (outs₁.count size - ins₂.count size)) :
    Uses cf K ins outs (x >>= f) := by
  refine ⟨fun m r m' same ran => ?_⟩
  rw [Exec.bind_run] at ran
  cases stepped : x m with
  | error abort => simp [stepped] at ran
  | ok answer =>
    obtain ⟨r₁,m₁⟩ := answer
    obtain ⟨same₁,landed₁⟩ := first.run m r₁ m₁ same stepped
    cases r₁ with
    | error trap =>
      simp only [stepped,Except.ok.injEq,Prod.mk.injEq] at ran
      obtain ⟨rfl,rfl⟩ := ran
      refine ⟨same₁,fun base room => ?_⟩
      have landed := landed₁ base ⟨room.locals,fun size => by
        have enough := room.operands size
        have counted := taken size
        omega⟩
      exact ⟨landed.kept,landed.above,fun a answered => by cases answered⟩
    | ok a =>
      simp only [stepped] at ran
      obtain ⟨same',landed'⟩ := (next a).run m₁ r m' same₁ ran
      refine ⟨same',fun base room => ?_⟩
      have landed := landed₁ (fun size => base size + (ins₂.count size - outs₁.count size))
        ⟨fun size => Nat.le_trans (room.locals size) (Nat.le_add_right _ _),fun size => by
          have enough := room.operands size
          have counted := taken size
          omega⟩
      have rest := landed' base ⟨room.locals,fun size => by
        have enough := room.operands size
        have moved := landed.exact a rfl size
        have counted := taken size
        omega⟩
      refine ⟨fun size => (rest.kept size).trans (landed.kept size),rest.above,fun b answered size => ?_⟩
      have moved := landed.exact a rfl size
      have moved' := rest.exact b answered size
      have counted := taken size
      have counted' := given size
      have enough := room.operands size
      omega

-- Operands first, then the rest.
theorem pops (first : Uses cf K ins₁ [] x) (next : ∀ a, Uses cf K ins₂ outs (f a)) :
    Uses cf K (ins₁ ++ ins₂) outs (x >>= f) := first.bind next (by simp) (by simp)

-- Nothing is popped after the first result.
theorem pushes (first : Uses cf K ins outs₁ x) (next : ∀ a, Uses cf K [] outs₂ (f a)) :
    Uses cf K ins (outs₁ ++ outs₂) (x >>= f) := first.bind next (by simp) (by simp [Nat.add_comm])

theorem silent (first : Uses cf K [] [] x) (next : ∀ a, Uses cf K ins outs (f a)) :
    Uses cf K ins outs (x >>= f) := first.bind next (by simp) (by simp)

-- The second part works on the results of the first.
theorem chain {mid : List OperandSize} (first : Uses cf K ins mid x) (next : ∀ a, Uses cf K mid outs (f a)) :
    Uses cf K ins outs (x >>= f) := first.bind next (by simp) (by simp)

theorem congr (uses : Uses cf K ins₁ outs₁ x) (taken : ∀ size, ins₁.count size = ins.count size)
    (given : ∀ size, outs₁.count size = outs.count size) : Uses cf K ins outs x := by
  refine ⟨fun m r m' same ran => ?_⟩
  obtain ⟨same',landed⟩ := uses.run m r m' same ran
  refine ⟨same',fun base room => ?_⟩
  obtain ⟨kept,above,exact⟩ := landed base ⟨room.locals,fun size => by rw [taken]; exact room.operands size⟩
  exact ⟨kept,above,fun a answered size => by rw [←taken,←given]; exact exact a answered size⟩

theorem swap {a b : OperandSize} (uses : Uses cf K [a,b] outs x) : Uses cf K [b,a] outs x :=
  uses.congr (fun size => by simp [List.count_cons,Nat.add_comm]) fun _ => rfl

-- What a part neither pops nor pushes may be there or not.
theorem idle (uses : Uses cf K [] [] x) : Uses cf K ins ins x := by
  refine ⟨fun m r m' same ran => ?_⟩
  obtain ⟨same',landed⟩ := uses.run m r m' same ran
  refine ⟨same',fun base room => ?_⟩
  obtain ⟨kept,above,exact⟩ := landed base ⟨room.locals,fun size => Nat.le_trans (Nat.le_add_right _ _) (room.operands size)⟩
  exact ⟨kept,above,fun a answered size => congrArg (· + ins.count size) (exact a answered size)⟩

-- A part that leaves the stack as it is, or stops.
theorem still (shape : ∀ m r m', m.state.shape = K → x m = .ok (r,m') → m'.state.shape = K)
    (stack : ∀ m r m', x m = .ok (r,m') → m'.valueStack = m.valueStack) : Uses cf K [] [] x := by
  refine ⟨fun m r m' same ran => ⟨shape m r m' same ran,fun base room => ?_⟩⟩
  rw [stack m r m' ran]
  exact ⟨fun _ => rfl,room.operands,fun _ _ _ => rfl⟩

theorem reads (unmoved : ∀ m r m', x m = .ok (r,m') → m' = m) : Uses cf K [] [] x :=
  still (fun m r m' same ran => by rw [unmoved m r m' ran]; exact same) (fun m r m' ran => by rw [unmoved m r m' ran])

theorem answers (a : α) : Uses cf K [] [] (pure a : Step α) :=
  reads fun m r m' ran => by cases ran; rfl

theorem ofExcept (r : Except Trap α) : Uses cf K [] [] (.ofExcept r : Step α) :=
  reads fun m r m' ran => by cases ran; rfl

theorem traps (t : Trap) : Uses cf K ins outs (.trap t : Step α) := by
  refine ⟨fun m r m' same ran => ?_⟩
  cases ran
  exact ⟨same,fun base room => ⟨fun _ => rfl,fun size => Nat.le_trans (Nat.le_add_right _ _) (room.operands size),
    fun a answered => by cases answered⟩⟩

theorem aborts (abort : Abort) : Uses cf K ins outs (.ofChecked (.error abort) : Step α) :=
  ⟨fun m r m' _ ran => by cases ran⟩

theorem get {f : Machine → Step β} (next : ∀ m : Machine, m.state.shape = K → Uses cf K ins outs (f m)) :
    Uses cf K ins outs (.get >>= f) := ⟨fun m r m' same ran => (next m same).run m r m' same ran⟩

theorem checked {r : Checked α} (next : ∀ a, r = .ok a → Uses cf K ins outs (f a)) :
    Uses cf K ins outs (.ofChecked r >>= f) := by
  cases r with
  | error abort => exact ⟨fun m r m' _ ran => by cases ran⟩
  | ok a => exact next a rfl

theorem excepted {r : Except Trap α} (next : ∀ a, r = .ok a → Uses cf K ins outs (f a)) :
    Uses cf K ins outs (.ofExcept r >>= f) := by
  cases r with
  | error t => exact traps t
  | ok a => exact next a rfl

theorem sets {t : Machine → State} (same : ∀ m : Machine, m.state.shape = K → (t m).shape = K) :
    Uses cf K [] [] (Exec.get >>= fun m => Exec.set {m with state := t m}) :=
  still (fun m r m' shape ran => by cases ran; exact same m shape) (fun m r m' ran => by cases ran; rfl)

theorem setsChecked {γ : Type} {r : Machine → Checked γ} {t : Machine → γ → State}
    (same : ∀ (m : Machine) c, m.state.shape = K → (t m c).shape = K) :
    Uses cf K [] [] (Exec.get >>= fun m => Exec.ofChecked (r m) >>= fun c => Exec.set {m with state := t m c}) := by
  have answers {m m' : Machine} {out : Except Trap Unit}
      (ran : (Exec.get >>= fun m => Exec.ofChecked (r m) >>= fun c => Exec.set {m with state := t m c}) m = .ok (out,m')) :
      ∃ c, m' = {m with state := t m c} := by
    rw [Exec.get_bind] at ran
    cases checked : r m with
    | error abort => rw [checked] at ran; cases ran
    | ok c => rw [checked] at ran; cases ran; exact ⟨c,rfl⟩
  refine still (fun m out m' shape ran => ?_) fun m out m' ran => ?_
  · obtain ⟨c,rfl⟩ := answers ran
    exact same m c shape
  · obtain ⟨c,rfl⟩ := answers ran
    rfl

theorem setMemory {addr : MemAddr} {mem : MemoryInstance} (kind : K.memories[addr]? = some mem.kind) :
    Uses cf K [] [] (Machine.setMemory addr mem) := by
  refine sets fun m same => ?_
  rw [←same] at kind ⊢
  obtain ⟨inside,here⟩ := List.getElem?_eq_some_iff.mp kind
  have unchanged : (m.state.memories.set addr mem).map MemoryInstance.kind = m.state.memories.map MemoryInstance.kind := by
    rw [List.map_set,←here]
    exact List.set_getElem_self inside
  exact congrArg (fun memories => Shape.mk _ memories _ _ _ _) unchanged

theorem setTable {addr : TableAddr} {t : TableInstance} (kind : K.tables[addr]? = some t.kind) :
    Uses cf K [] [] (Machine.setTable addr t) := by
  refine sets fun m same => ?_
  rw [←same] at kind ⊢
  obtain ⟨inside,here⟩ := List.getElem?_eq_some_iff.mp kind
  have unchanged : (m.state.tables.set addr t).map TableInstance.kind = m.state.tables.map TableInstance.kind := by
    rw [List.map_set,←here]
    exact List.set_getElem_self inside
  exact congrArg (fun tables => Shape.mk _ _ tables _ _ _) unchanged

end Uses

namespace Landed
variable {α : Type} {cf : CallFrame} {base : StackBase} {ins outs : List OperandSize} {r : Except Trap α}
  {s : ValueStack} {size : OperandSize}

-- One lane changes.
theorem ofLane (room : Room cf base ins s) {t : Stack (Value size)}
    (others : ∀ other, other ≠ size → ins.count other = outs.count other)
    (kept : t.data.take (cf.localsBase size) = (s.lane size).data.take (cf.localsBase size))
    (above : base size ≤ t.len) (exact : ∀ a, r = .ok a → t.len + ins.count size = s.base size + outs.count size) :
    Landed cf base ins outs r s (s.setLane size t) := by
  refine ⟨fun other => ?_,fun other => ?_,fun a answered other => ?_⟩
  all_goals by_cases same : other = size
  · subst same
    rw [ValueStack.setLane_same]
    exact kept
  · rw [ValueStack.setLane_other s t same]
  · subst same
    rw [ValueStack.base,ValueStack.setLane_same]
    exact above
  · rw [ValueStack.base,ValueStack.setLane_other s t same]
    exact Nat.le_trans (Nat.le_add_right _ _) (room.operands other)
  · subst same
    rw [ValueStack.base,ValueStack.setLane_same]
    exact exact a answered
  · rw [ValueStack.base,ValueStack.setLane_other s t same,others other same]
    rfl

end Landed

namespace Machine
variable {size : OperandSize} {m m' : Machine}

theorem pop_cases {r : Except Trap (Value size)} (ran : pop size m = .ok (r,m')) :
    ∃ data v, (m.valueStack.lane size).data = data ++ [v] ∧ r = .ok v ∧
      m' = {m with valueStack := m.valueStack.setLane size {m.valueStack.lane size with data}} := by
  cases top : (m.valueStack.lane size).data.getLast? with
  | none => simp [Machine.pop,ValueStack.pop,Stack.pop,top] at ran
  | some v =>
    simp only [Machine.pop,ValueStack.pop,Stack.pop,top,ok_bind,Except.ok.injEq,Prod.mk.injEq] at ran
    obtain ⟨rfl,rfl⟩ := ran
    exact ⟨_,v,(List.dropLast_append_getLast? v top).symm,rfl,rfl⟩

theorem peek_cases {r : Except Trap (Value size)} (ran : peek size m = .ok (r,m')) :
    m' = m ∧ ∃ data v, (m.valueStack.lane size).data = data ++ [v] ∧ r = .ok v := by
  cases top : (m.valueStack.lane size).data.getLast? with
  | none => simp [Machine.peek,Stack.last,top] at ran
  | some v =>
    simp only [Machine.peek,Stack.last,top,ok_bind,Except.ok.injEq,Prod.mk.injEq] at ran
    obtain ⟨rfl,rfl⟩ := ran
    exact ⟨rfl,_,v,(List.dropLast_append_getLast? v top).symm,rfl⟩

theorem localGet_cases {cf : CallFrame} {index : LocalAddr} {r : Except Trap (Value size)}
    (ran : localGet cf size index m = .ok (r,m')) :
    m' = m ∧ ∃ v, (m.valueStack.lane size).data[cf.localsBase size + index]? = some v ∧ r = .ok v := by
  cases found : (m.valueStack.lane size).data[cf.localsBase size + index]? with
  | none => simp [localGet,Stack.get,found] at ran
  | some v =>
    simp only [localGet,Stack.get,found,ok_bind,Except.ok.injEq,Prod.mk.injEq] at ran
    obtain ⟨rfl,rfl⟩ := ran
    exact ⟨rfl,v,rfl,rfl⟩

theorem localSet_cases {cf : CallFrame} {index : LocalAddr} {v : Value size} {r : Except Trap Unit}
    (ran : localSet cf size index v m = .ok (r,m')) :
    cf.localsBase size + index < (m.valueStack.lane size).len ∧ r = .ok () ∧
      m' = {m with valueStack := m.valueStack.setLane size {m.valueStack.lane size with
        data := (m.valueStack.lane size).data.set (cf.localsBase size + index) v}} := by
  by_cases inside : cf.localsBase size + index < (m.valueStack.lane size).len
  · simp only [localSet,Stack.set,if_pos inside,ok_bind,Except.ok.injEq,Prod.mk.injEq] at ran
    obtain ⟨rfl,rfl⟩ := ran
    exact ⟨inside,rfl,rfl⟩
  · simp [localSet,Stack.set,if_neg inside] at ran

theorem push_cases [Allocator] {v : Value size} {r : Except Trap Unit} (ran : push size v m = .ok (r,m')) :
    (r = .error .valueStackOverflow ∧ m' = m) ∨
    (r = .ok () ∧ ∃ s : Stack (Value size), s.data = (m.valueStack.lane size).data ++ [v] ∧
      m' = {m with valueStack := m.valueStack.setLane size s}) := by
  simp only [push,ValueStack.push,Except.ok.injEq,Prod.mk.injEq] at ran
  obtain ⟨rfl,rfl⟩ := ran
  rcases Stack.push_cases (m.valueStack.lane size) v with full | ⟨s,pushed,data⟩
  · rw [full]
    exact .inl ⟨rfl,by simp⟩
  · rw [pushed]
    exact .inr ⟨rfl,s,data,rfl⟩

end Machine

namespace Uses
variable {α β : Type} {cf : CallFrame} {K : Shape} {ins outs : List OperandSize} {f : α → Step β}

theorem pop (size : OperandSize) : Uses cf K [size] [] (Machine.pop size) := by
  refine ⟨fun m r m' same ran => ?_⟩
  obtain ⟨data,v,split,rfl,rfl⟩ := Machine.pop_cases ran
  refine ⟨same,fun base room => .ofLane room (fun other different => by simp [different.symm]) ?_ ?_ ?_⟩
  all_goals
    have enough := room.operands size
    have below := room.locals size
    simp only [ValueStack.base,Stack.len,split,List.length_append,List.length_singleton,List.count_singleton_self] at enough
  · rw [split,List.take_append_of_le_length (by omega)]
  · exact Nat.le_of_add_le_add_right enough
  · intro a _
    simp [ValueStack.base,Stack.len,split]

theorem peek (size : OperandSize) : Uses cf K [size] [size] (Machine.peek size) := by
  refine ⟨fun m r m' same ran => ?_⟩
  obtain ⟨rfl,_⟩ := Machine.peek_cases ran
  exact ⟨same,fun base room => ⟨fun _ => rfl,fun size => Nat.le_trans (Nat.le_add_right _ _) (room.operands size),
    fun _ _ _ => rfl⟩⟩

theorem localGet (size : OperandSize) (index : LocalAddr) : Uses cf K [] [] (Machine.localGet cf size index) :=
  reads fun _ _ _ ran => (Machine.localGet_cases ran).1

theorem localSet (size : OperandSize) (index : LocalAddr) (v : Value size) :
    Uses cf K [] [] (Machine.localSet cf size index v) := by
  refine ⟨fun m r m' same ran => ?_⟩
  obtain ⟨inside,rfl,rfl⟩ := Machine.localSet_cases ran
  refine ⟨same,fun base room => .ofLane room (fun _ _ => rfl) ?_ ?_ ?_⟩
  · exact List.take_set_of_le (Nat.le_add_right _ _)
  · have enough := room.operands size
    simpa [Stack.len,ValueStack.base] using enough
  · intro a _
    simp [ValueStack.base,Stack.len]

theorem push [Allocator] (size : OperandSize) (v : Value size) : Uses cf K [] [size] (Machine.push size v) := by
  refine ⟨fun m r m' same ran => ?_⟩
  rcases Machine.push_cases ran with ⟨rfl,rfl⟩ | ⟨rfl,s,data,rfl⟩
  · exact ⟨same,fun base room => ⟨fun _ => rfl,room.operands,fun a answered => by cases answered⟩⟩
  · refine ⟨same,fun base room => .ofLane room (fun other different => by simp [different.symm]) ?_ ?_ ?_⟩
    all_goals
      have enough := room.operands size
      have below := room.locals size
      simp only [ValueStack.base,Stack.len,List.count_nil,Nat.add_zero] at enough
    · rw [data,List.take_append_of_le_length (by omega)]
    · simp only [Stack.len,data,List.length_append]
      omega
    · intro a _
      simp [ValueStack.base,Stack.len,data]

theorem drop (size : OperandSize) : Uses cf K [size] [] (Machine.drop size) := (pop size).pops fun _ => answers ()

theorem select [Allocator] (size : OperandSize) : Uses cf K [.s32,size,size] [size] (Machine.select size) := by
  refine (pop .s32).pops fun cond => (pop size).pops fun val2 => ?_
  by_cases zero : cond = 0
  · simp only [if_pos zero]
    exact (drop size).pops fun _ => push size val2
  · simp only [if_neg zero]
    exact (answers ()).idle

theorem selectMany (size : OperandSize) (count : Nat) (condition : Bool) :
    Uses cf K (List.replicate count size ++ List.replicate count size) (List.replicate count size)
      (Machine.selectMany size count condition) := by
  refine ⟨fun m r m' same ran => ?_⟩
  cases selected : (m.valueStack.lane size).selectMany count condition with
  | error abort => simp [Machine.selectMany,selected] at ran
  | ok s =>
    simp only [Machine.selectMany,selected,ok_bind,Except.ok.injEq,Prod.mk.injEq] at ran
    obtain ⟨rfl,rfl⟩ := ran
    obtain ⟨_,shorter,kept⟩ := Stack.selectMany_cases selected
    refine ⟨same,fun base room => .ofLane room ?_ ?_ ?_ ?_⟩
    · intro other different
      simp [List.count_replicate,different.symm]
    all_goals
      have enough := room.operands size
      have below := room.locals size
      simp only [ValueStack.base,List.count_append,List.count_replicate_self] at enough ⊢
    · exact kept _ (by omega)
    · omega
    · intro a _
      omega

theorem selectMulti (counts : ValueCounts) :
    Uses cf K (.s32 :: (counts.list ++ counts.list)) counts.list (Machine.selectMulti counts) := by
  let lane (size : OperandSize) := List.replicate (counts size) size
  have upper (v : Bool) : Uses cf K ((lane .s64 ++ lane .s64) ++ (lane .s128 ++ lane .s128)) (lane .s64 ++ lane .s128)
      (Machine.selectMany .s64 (counts .s64) v >>= fun _ => Machine.selectMany .s128 (counts .s128) v) := by
    refine (selectMany .s64 _ _).bind (fun _ => selectMany .s128 _ _) ?_ ?_
    all_goals intro size; cases size <;> simp [lane,List.count_replicate]
  refine (pop .s32).pops fun v => (selectMany .s32 _ _).bind (fun _ => upper _) ?_ ?_
  all_goals intro size; cases size <;> simp [lane,List.count_replicate]

end Uses

namespace Uses
variable {β : Type} {K : Shape} {ins outs : List OperandSize} {ctx : Context}

theorem memory {memIdx : MemAddr} {f : MemAddr × MemoryInstance → Step β}
    (next : ∀ addr mem, K.memories[addr]? = some mem.kind → K.memorySize ctx.module memIdx = .ofArch mem.kind.arch →
      Uses ctx.cf K ins outs (f (addr,mem))) : Uses ctx.cf K ins outs (ctx.memory memIdx >>= f) := by
  simp only [Context.memory,Exec.bind_assoc]
  refine checked fun addr named => get fun m same => checked fun mem found => next addr mem ?_ ?_
  all_goals
    have named := State.at_some_iff.mp named
    have found := State.at_some_iff.mp found
  · simp [←same,State.shape,found]
  · simp [Shape.memorySize,named,←same,State.shape,found]

theorem table {tableIndex : TableAddr} {f : TableAddr × TableInstance → Step β}
    (next : ∀ addr t, K.tables[addr]? = some t.kind → K.tableArch ctx.module tableIndex = t.kind.arch →
      Uses ctx.cf K ins outs (f (addr,t))) : Uses ctx.cf K ins outs (ctx.table tableIndex >>= f) := by
  simp only [Context.table,Exec.bind_assoc]
  refine checked fun addr named => get fun m same => checked fun t found => next addr t ?_ ?_
  all_goals
    have named := State.at_some_iff.mp named
    have found := State.at_some_iff.mp found
  · simp [←same,State.shape,found]
  · simp [Shape.tableArch,named,←same,State.shape,found]

theorem global {globalIndex : GlobalAddr} {f : GlobalAddr × GlobalInstance → Step β}
    (next : ∀ addr g, K.globalSize ctx.module globalIndex = g.value.size → Uses ctx.cf K ins outs (f (addr,g))) :
    Uses ctx.cf K ins outs (ctx.global globalIndex >>= f) := by
  simp only [Context.global,Exec.bind_assoc]
  refine checked fun addr named => get fun m same => checked fun g found => next addr g ?_
  have named := State.at_some_iff.mp named
  have found := State.at_some_iff.mp found
  simp [Shape.globalSize,named,←same,State.shape,found]

end Uses

end TinyWasm
