import TinyWasm.Interpreter.Window

namespace TinyWasm

section
variable {α β : Type} {cf : CallFrame} {K : Shape} {below : StackBase} {ts : List OperandSize}

-- A step that looks at the store and at locals of the frame alone.
def Reads (cf : CallFrame) (K : Shape) (x : Step α) : Prop :=
  ∀ below m ts, Stands cf K below m ts →
    (∃ abort, x m = .error abort ∧ ∀ size v, x (m.onTop size v) = .error abort) ∨
    (∃ t, x m = .ok (.error t,m) ∧ ∀ size v, x (m.onTop size v) = .ok (.error t,m.onTop size v)) ∨
    ∃ a, x m = .ok (.ok a,m) ∧ ∀ size v, x (m.onTop size v) = .ok (.ok a,m.onTop size v)

namespace Reads

theorem store {x : Step α} (g : State → Checked (Except Trap α)) (as : ∀ m, x m = (g m.state).map (·,m)) : Reads cf K x := by
  intro below m ts _
  have above (size) (v : Value size) : x (m.onTop size v) = (g m.state).map (·,m.onTop size v) := as _
  rcases given : g m.state with abort | t | a
  all_goals simp only [as m,above,given]
  · exact .inl ⟨abort,rfl,fun _ _ => rfl⟩
  · exact .inr (.inl ⟨t,rfl,fun _ _ => rfl⟩)
  · exact .inr (.inr ⟨a,rfl,fun _ _ => rfl⟩)

theorem ofExcept (r : Except Trap α) : Reads cf K (.ofExcept r : Step α) := store (fun _ => .ok r) fun _ => rfl

theorem pure (a : α) : Reads cf K (Pure.pure a : Step α) := ofExcept (.ok a)

theorem ofChecked (c : Checked α) : Reads cf K (.ofChecked c : Step α) :=
  store (fun _ => c.map .ok) fun m => by cases c <;> rfl

theorem bind {x : Step α} {f : α → Step β} (first : Reads cf K x) (rest : ∀ a, Reads cf K (f a)) : Reads cf K (x >>= f) := by
  intro below m ts stands
  rcases first below m ts stands with ⟨abort,ran,above⟩ | ⟨t,ran,above⟩ | ⟨a,ran,above⟩
  all_goals simp only [Exec.bind_run,ran,above]
  · exact .inl ⟨abort,rfl,fun _ _ => rfl⟩
  · exact .inr (.inl ⟨t,rfl,fun _ _ => rfl⟩)
  · exact rest a below m ts stands

theorem localGet {size : OperandSize} {a : LocalAddr} (small : a < cf.stackOffset size) :
    Reads cf K (Machine.localGet cf size a) := by
  intro below m ts stands
  have inside := stands.inside small
  refine .inr (.inr ⟨m.localAt cf size a,Machine.localGet_inside inside,fun other v => ?_⟩)
  have higher : cf.localsBase size + a < (m.onTop other v).height size := by
    rw [Machine.onTop_height]
    exact Nat.lt_of_lt_of_le inside (Nat.le_add_right _ _)
  rw [Machine.localGet_inside higher,Machine.localAt_onTop inside]

theorem localLocal {size : OperandSize} {f : Value size → Value size → Value size} {a b : LocalAddr}
    (first : a < cf.stackOffset size) (second : b < cf.stackOffset size) : Reads cf K (binopLocalLocal cf size f a b) :=
  (localGet first).bind fun _ => (localGet second).bind fun _ => pure _

theorem localConst {size : OperandSize} {f : Value size → Value size → Value size} {a : LocalAddr} {c : Value size}
    (small : a < cf.stackOffset size) : Reads cf K (binopLocalConst cf size f a c) := (localGet small).bind fun _ => pure _

-- The memory an index names has the address type that the shape gives it.
theorem memory {ctx : Context} {memIdx : MemAddr} {f : MemAddr × MemoryInstance → Step β}
    (next : ∀ addr mem, K.memories[addr]? = some mem.kind → K.memorySize ctx.module memIdx = .ofArch mem.kind.arch →
      Reads cf K (f (addr,mem))) : Reads cf K (ctx.memory memIdx >>= f) := by
  intro below m ts stands
  simp only [Context.memory,Exec.bind_assoc]
  rcases named : State.at ctx.module.memAddrs memIdx with abort | addr
  · exact .inl ⟨abort,rfl,fun _ _ => rfl⟩
  · simp only [Exec.ofChecked_bind,Exec.get_bind,Machine.onTop_state]
    rcases found : State.at m.state.memories addr with abort | mem
    · exact .inl ⟨abort,rfl,fun _ _ => rfl⟩
    · have named := State.at_some_iff.mp named
      have found := State.at_some_iff.mp found
      refine next addr mem ?_ ?_ below m ts stands
      · simp [←stands.shape,State.shape,found]
      · simp [Shape.memorySize,named,←stands.shape,State.shape,found]

theorem global {ctx : Context} (globalIndex : GlobalAddr) : Reads cf K (ctx.global globalIndex) := by
  refine .bind (ofChecked _) fun addr => store (fun s => (State.at s.globals addr).map fun g => .ok (addr,g)) fun m => ?_
  simp only [Exec.get_bind]
  rcases State.at m.state.globals addr with abort | g <;> rfl

variable [Allocator]

theorem loadAt (mem : MemoryInstance) (width : AccessWidth) (addr : Nat) : Reads cf K (TinyWasm.loadAt mem width addr) :=
  (ofChecked _).bind fun _ => (ofExcept _).bind fun _ => pure _

theorem localMemoryAddr {ctx : Context} {mem : MemoryInstance} (n offset : Nat) {addrLocal : LocalAddr}
    (small : addrLocal < ctx.cf.stackOffset (.ofArch mem.kind.arch)) :
    Reads ctx.cf K (TinyWasm.localMemoryAddr ctx mem n offset addrLocal) := by
  unfold TinyWasm.localMemoryAddr MemoryInstance.is64Bit
  rcases arch : mem.kind.arch with _ | _
  · rw [arch] at small
    exact (localGet small).bind fun _ => ofExcept _
  · rw [arch] at small
    exact (localGet small).bind fun _ => ofExcept _

theorem loadLocalValue {ctx : Context} {op : LoadOp} {arg : MemoryArg} {addrLocal : LocalAddr}
    (small : addrLocal < ctx.cf.stackOffset (K.memorySize ctx.module arg.memAddr)) :
    Reads ctx.cf K (execLoadLocalValue ctx op arg addrLocal) := by
  refine memory fun addr mem _ size => ?_
  rw [size] at small
  exact (localMemoryAddr _ _ small).bind fun _ => (loadAt _ _ _).bind fun _ => pure _

end Reads

-- How a window ends beside another: with nothing to tell them apart, or with
-- one trap, where what they were not given may differ.
def Ends (below : StackBase) (end_ end' : Checked (Except Trap Unit × Machine)) : Prop :=
  end_ = end' ∨ ∃ t m m', end_ = .ok (.error t,m) ∧ end' = .ok (.error t,m') ∧ m.state = m'.state ∧
    ∀ size, (m.valueStack.lane size).data.take (below size) = (m'.valueStack.lane size).data.take (below size)

def Covers (cf : CallFrame) (K : Shape) (below : StackBase) (ts : List OperandSize) (x y : Step Unit) : Prop :=
  ∀ m, Stands cf K below m ts → Overflows (x m) ∨ Ends below (x m) (y m)

theorem Ends.same {end_ end' : Checked (Except Trap Unit × Machine)} (ends : Ends below end_ end') :
    SameEnd below end_ end' := by
  rcases ends with rfl | ⟨t,m,m',rfl,rfl,state,lanes⟩
  · exact .refl
  · exact ⟨rfl,state,lanes⟩

namespace Covers
variable {x y z : Step Unit}

theorem refl : Covers cf K below ts x x := fun _ _ => .inr (.inl rfl)

theorem congr {x' y' : Step Unit} (covers : Covers cf K below ts x y) (first : x' = x) (second : y' = y) :
    Covers cf K below ts x' y' := by
  rw [first,second]
  exact covers

theorem to_same {y' : Step Unit} (covers : Covers cf K below ts x y)
    (same : ∀ m, Stands cf K below m ts → y' m = y m) : Covers cf K below ts x y' := by
  intro m stands
  rw [same m stands]
  exact covers m stands

theorem from_same {x' : Step Unit} (covers : Covers cf K below ts x y)
    (same : ∀ m, Stands cf K below m ts → x' m = x m) : Covers cf K below ts x' y := by
  intro m stands
  rw [same m stands]
  exact covers m stands

theorem trans (first : Covers cf K below ts x y) (second : Covers cf K below ts y z) : Covers cf K below ts x z := by
  intro m stands
  rcases first m stands with exceeds | same | ⟨t,m₁,m₂,ended,ended',state,lanes⟩
  · exact .inl exceeds
  · rw [same]
    exact second m stands
  · rcases second m stands with ⟨m',exceeds⟩ | same | ⟨t',m₃,m₄,ended'',final,state',lanes'⟩
    · cases ended'.symm.trans exceeds
      exact .inl ⟨m₁,ended⟩
    · exact .inr (.inr ⟨t,m₁,m₂,ended,same.symm.trans ended',state,lanes⟩)
    · cases ended'.symm.trans ended''
      exact .inr (.inr ⟨t,m₁,m₄,ended,final,state.trans state',fun size => (lanes size).trans (lanes' size)⟩)

theorem seq (covers : Covers cf K below ts x y) : Covers cf K below ts (x >>= fun _ => z) (y >>= fun _ => z) := by
  intro m stands
  simp only [Exec.bind_run]
  rcases covers m stands with ⟨m',exceeds⟩ | same | ⟨t,m₁,m₂,first,second,rest⟩
  · exact .inl ⟨m',by rw [exceeds]⟩
  · exact .inr (.inl (by rw [same]))
  · exact .inr (.inr ⟨t,m₁,m₂,by rw [first],by rw [second],rest⟩)

end Covers

end

namespace Machine
variable {m : Machine} {size other : OperandSize}

-- What lies under a value is still there under it.
theorem take_onTop {n : Nat} (low : n ≤ m.height other) (v : Value size) :
    ((m.onTop size v).valueStack.lane other).data.take n = (m.valueStack.lane other).data.take n := by
  unfold onTop
  by_cases same : other = size
  · subst same
    simp only [ValueStack.setLane_same]
    exact List.take_append_of_le_length low
  · simp only [ValueStack.setLane_other _ _ same]

end Machine

theorem Stands.low {cf : CallFrame} {K : Shape} {below : StackBase} {m : Machine} {ts : List OperandSize}
    (stands : Stands cf K below m ts) (size : OperandSize) : below size ≤ m.height size :=
  Nat.le_trans (Nat.le_add_right _ _) (Nat.le_of_eq (stands.height size))

-- Two operands popped from one lane and one pushed back.
def execBinary [Allocator] (size : OperandSize) (f : Value size → Value size → Value size) : Step Unit :=
  (NumAction.binary size size size f).exec

section Laws
variable [Allocator] {cf : CallFrame} {K : Shape} {below : StackBase} {ts : List OperandSize} {size : OperandSize}
  {m : Machine} {f : Value size → Value size → Value size}

theorem push_cases (stands : Stands cf K below m ts) (v : Value size) :
    Machine.push size v m = .ok (.error .valueStackOverflow,m) ∨
    (m.Room size ∧ Machine.push size v m = .ok (.ok (),m.onTop size v)) := by
  by_cases room : m.Room size
  · exact .inr ⟨room,Machine.push_onTop room v⟩
  · exact .inl (Machine.push_full stands.fixed room v)

theorem execBinary_onTop (room : m.Room size) (a b : Value size) :
    execBinary size f ((m.onTop size a).onTop size b) = .ok (.ok (),m.onTop size (f a b)) := by
  simp only [execBinary,NumAction.exec,Exec.bind_run,Machine.pop_onTop,Machine.push_onTop room]

omit [Allocator] in
theorem localSet_onTop {dst : LocalAddr} (stands : Stands cf K below m ts) (small : dst < cf.stackOffset size) (v : Value size) :
    Machine.localSet cf size dst v (m.onTop size v) = .ok (.ok (),(m.withLocal cf size dst v).onTop size v) := by
  have inside := stands.inside small
  have higher : cf.localsBase size + dst < (m.onTop size v).height size := by
    rw [Machine.onTop_height]
    exact Nat.lt_of_lt_of_le inside (Nat.le_add_right _ _)
  rw [Machine.localSet_inside higher,Machine.withLocal_onTop inside]

omit [Allocator] in
theorem localTee_onTop {dst : LocalAddr} (stands : Stands cf K below m ts) (small : dst < cf.stackOffset size) (v : Value size) :
    Machine.localTee cf size dst (m.onTop size v) = .ok (.ok (),(m.withLocal cf size dst v).onTop size v) := by
  simp only [Machine.localTee,Exec.bind_run,Machine.peek_onTop,localSet_onTop stands small]

omit [Allocator] in
theorem setPop_onTop {dst : LocalAddr} (stands : Stands cf K below m ts) (small : dst < cf.stackOffset size) (v : Value size) :
    setValue cf size dst (Machine.pop size) (m.onTop size v) = .ok (.ok (),m.withLocal cf size dst v) := by
  simp only [setValue,Exec.bind_run,Machine.pop_onTop,Machine.localSet_inside (stands.inside small)]

-- What is pushed to be stored is stored at once.
theorem push_set {value : Step (Value size)} {dst : LocalAddr} (reads : Reads cf K value) (small : dst < cf.stackOffset size) :
    Covers cf K below ts (pushValue size value >>= fun _ => setValue cf size dst (Machine.pop size))
      (setValue cf size dst value) := by
  intro m stands
  have stored (v) := Machine.localSet_inside (stands.inside small) v
  rcases reads below m ts stands with ⟨abort,ran,_⟩ | ⟨t,ran,_⟩ | ⟨v,ran,_⟩
  · exact .inr (.inl (by simp only [pushValue,setValue,Exec.bind_run,ran]))
  · exact .inr (.inl (by simp only [pushValue,setValue,Exec.bind_run,ran]))
  · rcases push_cases stands v with full | ⟨_,pushed⟩
    · exact .inl ⟨m,by simp only [pushValue,Exec.bind_run,ran,full]⟩
    · exact .inr (.inl (by simp only [pushValue,setValue,Exec.bind_run,ran,pushed,Machine.pop_onTop,stored]))

theorem push_tee {value : Step (Value size)} {dst : LocalAddr} (reads : Reads cf K value) (small : dst < cf.stackOffset size) :
    Covers cf K below ts (pushValue size value >>= fun _ => Machine.localTee cf size dst) (teeValue cf size dst value) := by
  intro m stands
  rcases reads below m ts stands with ⟨abort,ran,_⟩ | ⟨t,ran,_⟩ | ⟨v,ran,_⟩
  · exact .inr (.inl (by simp only [pushValue,teeValue,Exec.bind_run,ran]))
  · exact .inr (.inl (by simp only [pushValue,teeValue,Exec.bind_run,ran]))
  · rcases push_cases stands v with full | ⟨room,pushed⟩
    · exact .inl ⟨m,by simp only [pushValue,Exec.bind_run,ran,full]⟩
    · have stored := Machine.localSet_inside (stands.inside small) v
      have pushed' := Machine.push_onTop (room.withLocal cf dst v) v
      exact .inr (.inl (by
        simp only [pushValue,teeValue,Exec.bind_run,ran,pushed,localTee_onTop stands small,stored,pushed']))

-- A result that is dropped is not pushed.
theorem tee_drop {value : Step (Value size)} {dst : LocalAddr} (reads : Reads cf K value) (small : dst < cf.stackOffset size) :
    Covers cf K below ts (teeValue cf size dst value >>= fun _ => Machine.drop size) (setValue cf size dst value) := by
  intro m stands
  rcases reads below m ts stands with ⟨abort,ran,_⟩ | ⟨t,ran,_⟩ | ⟨v,ran,_⟩
  · exact .inr (.inl (by simp only [setValue,teeValue,Exec.bind_run,ran]))
  · exact .inr (.inl (by simp only [setValue,teeValue,Exec.bind_run,ran]))
  · have stored := Machine.localSet_inside (stands.inside small) v
    rcases push_cases (stands.withLocal (i := dst) v) v with full | ⟨_,pushed⟩
    · exact .inl ⟨m.withLocal cf size dst v,by simp only [teeValue,Exec.bind_run,ran,stored,full]⟩
    · exact .inr (.inl (by
        simp only [setValue,teeValue,Machine.drop,Exec.bind_run,ran,stored,pushed,Machine.pop_onTop,Exec.pure_run]))

omit [Allocator] in
theorem localTee_drop {dst : LocalAddr} (small : dst < cf.stackOffset size) :
    Covers cf K below (size :: ts) (Machine.localTee cf size dst >>= fun _ => Machine.drop size)
      (setValue cf size dst (Machine.pop size)) := by
  intro m stands
  obtain ⟨m₀,v,rfl,stands₀,_⟩ := stands.cons
  exact .inr (.inl (by
    simp only [Exec.bind_run,localTee_onTop stands₀ small,setPop_onTop stands₀ small,Machine.drop,Machine.pop_onTop,
      Exec.pure_run]))

theorem set_get {dst : LocalAddr} (small : dst < cf.stackOffset size) :
    Covers cf K below (size :: ts)
      (setValue cf size dst (Machine.pop size) >>= fun _ => pushValue size (Machine.localGet cf size dst))
      (Machine.localTee cf size dst) := by
  intro m stands
  obtain ⟨m₀,v,rfl,stands₀,room⟩ := stands.cons
  have got := Machine.localGet_inside ((stands₀.withLocal (i := dst) v).inside small)
  have pushed := Machine.push_onTop (room.withLocal cf dst v) v
  exact .inr (.inl (by
    simp only [pushValue,Exec.bind_run,localTee_onTop stands₀ small,setPop_onTop stands₀ small,got,
      Machine.localAt_withLocal (stands₀.inside small),pushed]))

-- Two operands that are read.
theorem push_push_binary {first second : Step (Value size)} (reads : Reads cf K first) (reads' : Reads cf K second) :
    Covers cf K below ts (pushValue size first >>= fun _ => pushValue size second >>= fun _ => execBinary size f)
      (pushValue size (first >>= fun a => second >>= fun b => pure (f a b))) := by
  intro m stands
  rcases reads below m ts stands with ⟨abort,ran,_⟩ | ⟨t,ran,_⟩ | ⟨a,ran,_⟩
  · exact .inr (.inl (by simp only [pushValue,Exec.bind_run,ran]))
  · exact .inr (.inl (by simp only [pushValue,Exec.bind_run,ran]))
  · rcases push_cases stands a with full | ⟨room,pushed⟩
    · exact .inl ⟨m,by simp only [pushValue,Exec.bind_run,ran,full]⟩
    · rcases reads' below m ts stands with ⟨abort,ran',above⟩ | ⟨t,ran',above⟩ | ⟨b,ran',above⟩
      · exact .inr (.inl (by simp only [pushValue,Exec.bind_run,ran,pushed,ran',above]))
      · refine .inr (.inr ⟨t,m.onTop size a,m,?_,?_,?_,?_⟩)
        · simp only [pushValue,Exec.bind_run,ran,pushed,above]
        · simp only [pushValue,Exec.bind_run,ran,ran']
        · rfl
        · exact fun other => Machine.take_onTop (stands.low other) a
      · rcases push_cases (stands.onTop room a) b with full | ⟨_,pushed'⟩
        · exact .inl ⟨m.onTop size a,by simp only [pushValue,Exec.bind_run,ran,pushed,above,full]⟩
        · refine .inr (.inl ?_)
          simp only [pushValue,Exec.bind_run,ran,ran',pushed,above,pushed',execBinary_onTop room,Exec.pure_run,
            Machine.push_onTop room]

-- An operand that is read over one that lies on the stack.
theorem push_binary {second : Step (Value size)} (reads : Reads cf K second) :
    Covers cf K below (size :: ts) (pushValue size second >>= fun _ => execBinary size f)
      (second >>= fun b => execUnary size (f · b)) := by
  intro m stands
  obtain ⟨m₀,a,rfl,stands₀,room⟩ := stands.cons
  rcases reads below _ _ stands with ⟨abort,ran,_⟩ | ⟨t,ran,_⟩ | ⟨b,ran,_⟩
  · exact .inr (.inl (by simp only [pushValue,Exec.bind_run,ran]))
  · exact .inr (.inl (by simp only [pushValue,Exec.bind_run,ran]))
  · rcases push_cases stands b with full | ⟨_,pushed⟩
    · exact .inl ⟨m₀.onTop size a,by simp only [pushValue,Exec.bind_run,ran,full]⟩
    · refine .inr (.inl ?_)
      simp only [pushValue,execUnary,Exec.bind_run,ran,pushed,execBinary_onTop room,Machine.pop_onTop,
        Machine.push_onTop room]

end Laws

end TinyWasm
