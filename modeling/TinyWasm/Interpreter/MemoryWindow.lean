import TinyWasm.Interpreter.WindowLaws

namespace TinyWasm

section Lookup
variable {ctx : Context} {K : Shape} {m : Machine}

-- A memory is looked up in the store alone.
theorem Context.memory_cases (shape : m.state.shape = K) (memIdx : MemAddr) :
    (∃ abort, ∀ s, s.state = m.state → ctx.memory memIdx s = .error abort) ∨
    ∃ addr mem, K.memorySize ctx.module memIdx = .ofArch mem.kind.arch ∧
      ∀ s, s.state = m.state → ctx.memory memIdx s = .ok (.ok (addr,mem),s) := by
  simp only [Context.memory]
  rcases named : State.at ctx.module.memAddrs memIdx with abort | addr
  · exact .inl ⟨abort,fun _ _ => rfl⟩
  · rcases found : State.at m.state.memories addr with abort | mem
    · refine .inl ⟨abort,fun s same => ?_⟩
      simp only [Exec.ofChecked_bind,Exec.get_bind,same,found]
      rfl
    · refine .inr ⟨addr,mem,?_,fun s same => ?_⟩
      · have named := State.at_some_iff.mp named
        have found := State.at_some_iff.mp found
        simp [Shape.memorySize,named,←shape,State.shape,found]
      · simp only [Exec.ofChecked_bind,Exec.get_bind,same,found,Exec.pure_run]

end Lookup

section Laws
variable [Allocator] {ctx : Context} {K : Shape} {below : StackBase} {ts : List OperandSize} {m : Machine} {arg : MemoryArg}
  {addrLocal : LocalAddr}

-- The address a base gives at either address width.
def MemoryInstance.effectiveAddr (mem : MemoryInstance) (n : Nat) (base : Value (.ofArch mem.kind.arch)) (offset : Nat) :
    Except Trap Nat :=
  if mem.is64Bit then mem.effectiveAddr64 n base.toNat offset else mem.effectiveAddr32 base.toNat offset

theorem popMemoryAddr_eq (mem : MemoryInstance) (n offset : Nat) : popMemoryAddr mem n offset = (do
    let base ← Machine.pop (.ofArch mem.kind.arch)
    .ofExcept (mem.effectiveAddr n base offset)) := by
  obtain ⟨⟨arch,initial,max,page⟩,inner,count⟩ := mem
  cases arch <;> rfl

theorem localMemoryAddr_eq (mem : MemoryInstance) (n offset : Nat) : localMemoryAddr ctx mem n offset addrLocal = (do
    let base ← Machine.localGet ctx.cf (.ofArch mem.kind.arch) addrLocal
    .ofExcept (mem.effectiveAddr n base offset)) := by
  obtain ⟨⟨arch,initial,max,page⟩,inner,count⟩ := mem
  cases arch <;> rfl

-- An address pushed from a local is the one read from it.
theorem get_load {size : OperandSize} (op : LoadOp) (sized : K.memorySize ctx.module arg.memAddr = size)
    (small : addrLocal < ctx.cf.stackOffset size) :
    Covers ctx.cf K below ts (pushValue size (Machine.localGet ctx.cf size addrLocal) >>= fun _ => execMemLoad ctx op arg)
      (execLoadLocal ctx op arg addrLocal) := by
  intro m stands
  have got := Machine.localGet_inside (stands.inside small)
  rcases push_cases stands (m.localAt ctx.cf size addrLocal) with full | ⟨_,pushed⟩
  · exact .inl ⟨m,by simp only [pushValue,Exec.bind_run,got,full]⟩
  · refine .inr (.inl ?_)
    simp only [pushValue,execMemLoad,execLoadLocal,execLoadLocalValue,popMemoryAddr_eq,localMemoryAddr_eq,Exec.bind_run,got,
      pushed]
    rcases ctx.memory_cases stands.shape arg.memAddr with ⟨abort,named⟩ | ⟨addr,mem,kind,named⟩
    · rw [named m rfl,named (m.onTop _ _) rfl]
    · obtain rfl := kind.symm.trans sized
      simp only [named m rfl,named (m.onTop _ _) rfl,Machine.pop_onTop,got]
      rcases mem.effectiveAddr op.width.bytes (m.localAt ctx.cf _ addrLocal) arg.offset with t | at_
      · rfl
      · simp only [Exec.ofExcept]
        rcases loadAt mem op.width at_ m with abort | ⟨t | v,m'⟩ <;> rfl

omit [Allocator] in
theorem arch_of_s32 {arch : MemoryArch} (same : OperandSize.ofArch arch = .s32) : arch = .i32 := by
  cases arch with
  | i32 => rfl
  | i64 => cases same

theorem popMemoryAddr_32 {mem : MemoryInstance} (arch : mem.kind.arch = .i32) (n offset : Nat) :
    popMemoryAddr mem n offset = (do
      let base ← Machine.pop .s32
      .ofExcept (mem.effectiveAddr32 base.toNat offset)) := by
  simp [popMemoryAddr,MemoryInstance.is64Bit,arch]

omit [Allocator] in
theorem arch_of_s64 {arch : MemoryArch} (same : OperandSize.ofArch arch = .s64) : arch = .i64 := by
  cases arch with
  | i32 => cases same
  | i64 => rfl

theorem popMemoryAddr_64 {mem : MemoryInstance} (arch : mem.kind.arch = .i64) (n offset : Nat) :
    popMemoryAddr mem n offset = (do
      let base ← Machine.pop .s64
      .ofExcept (mem.effectiveAddr64 n base.toNat offset)) := by
  simp [popMemoryAddr,MemoryInstance.is64Bit,arch]

-- A store of all bits of its operand.
def execFullStore (ctx : Context) (size : OperandSize) (arg : MemoryArg) : Step Unit := do
  let val ← Machine.pop size
  let (memAddr,mem) ← ctx.memory arg.memAddr
  let addr ← popMemoryAddr mem (storeWidth size).bytes arg.offset
  storeAt memAddr mem (storeWidth size) (val.setWidth _) addr

theorem push_local {size : OperandSize} {a : LocalAddr} (stands : Stands ctx.cf K below m ts)
    (small : a < ctx.cf.stackOffset size) :
    pushValue size (Machine.localGet ctx.cf size a) m = .ok (.error .valueStackOverflow,m) ∨
    (m.Room size ∧
      pushValue size (Machine.localGet ctx.cf size a) m = .ok (.ok (),m.onTop size (m.localAt ctx.cf size a))) := by
  simp only [pushValue,Exec.bind_run,Machine.localGet_inside (stands.inside small)]
  exact push_cases stands _

-- An address and a value pushed from locals are read from there.
theorem get_get_store {size : OperandSize} {valueLocal : LocalAddr} (sized : K.memorySize ctx.module arg.memAddr = .s32)
    (small : addrLocal < ctx.cf.stackOffset .s32) (small' : valueLocal < ctx.cf.stackOffset size) :
    Covers ctx.cf K below ts
      (do
        pushValue .s32 (Machine.localGet ctx.cf .s32 addrLocal)
        pushValue size (Machine.localGet ctx.cf size valueLocal)
        execFullStore ctx size arg)
      (execStoreLocalLocal ctx size arg addrLocal valueLocal) := by
  intro m stands
  rcases push_local stands small with full | ⟨room,pushed⟩
  · exact .inl ⟨m,by simp only [Exec.bind_run,full]⟩
  have above := stands.onTop room (m.localAt ctx.cf .s32 addrLocal)
  rcases push_local above small' with full | ⟨_,pushed'⟩
  · exact .inl ⟨m.onTop .s32 (m.localAt ctx.cf .s32 addrLocal),by simp only [Exec.bind_run,pushed,full]⟩
  rw [Machine.localAt_onTop (stands.inside small')] at pushed'
  refine .inr (.inl ?_)
  simp only [execFullStore,execStoreLocalLocal,Exec.bind_run,pushed,pushed',Machine.pop_onTop,
    Machine.localGet_inside (stands.inside small),Machine.localGet_inside (stands.inside small')]
  rcases ctx.memory_cases stands.shape arg.memAddr with ⟨abort,named⟩ | ⟨addr,mem,kind,named⟩
  · rw [named m rfl,named (m.onTop _ _) rfl]
  · have arch := arch_of_s32 (kind.symm.trans sized)
    simp only [named m rfl,named (m.onTop _ _) rfl,popMemoryAddr_32 arch,Exec.bind_run,Machine.pop_onTop]

theorem storeAt_raised (memAddr : MemAddr) (mem : MemoryInstance) (width : ScalarSize)
    (v : BitVec (8 * width.access.bytes)) (addr : Nat) :
    storeAt memAddr mem (storeWidth width.size) ((v.setWidth width.size.bits + 1).setWidth _) addr =
      storeAt memAddr mem width.access (v + 1) addr := by
  cases width with
  | s32 =>
    have raised (v : BitVec 32) : (v.setWidth 32 + 1).setWidth 32 = v + 1 := by simp only [BitVec.setWidth_eq]
    exact congrArg (storeAt memAddr mem .w32 · addr) (raised v)
  | s64 =>
    have raised (v : BitVec 64) : (v.setWidth 64 + 1).setWidth 64 = v + 1 := by simp only [BitVec.setWidth_eq]
    exact congrArg (storeAt memAddr mem .w64 · addr) (raised v)

-- An address from a local, a number read there, raised and put back.
theorem get_load_add_store {size : OperandSize} {width : ScalarSize} {load : LoadOp}
    (loads : execLoadLocal ctx load arg addrLocal = pushValue width.size (do
      let (_,mem) ← ctx.memory arg.memAddr
      let addr ← localMemoryAddr ctx mem width.access.bytes arg.offset addrLocal
      let val ← loadAt mem width.access addr
      pure (val.setWidth _)))
    (sized : K.memorySize ctx.module arg.memAddr = size) (small : addrLocal < ctx.cf.stackOffset size) :
    Covers ctx.cf K below ts
      (do
        pushValue size (Machine.localGet ctx.cf size addrLocal)
        execLoadLocal ctx load arg addrLocal
        execUnary width.size (· + 1)
        execFullStore ctx width.size arg)
      (execIncMemoryLocal ctx width arg addrLocal) := by
  intro m stands
  rcases push_local stands small with full | ⟨room,pushed⟩
  · exact .inl ⟨m,by simp only [Exec.bind_run,full]⟩
  have above := stands.onTop room (m.localAt ctx.cf size addrLocal)
  simp only [loads,execIncMemoryLocal,Exec.bind_run,pushed]
  rcases ctx.memory_cases stands.shape arg.memAddr with ⟨abort,named⟩ | ⟨addr,mem,kind,named⟩
  · refine .inr (.inl ?_)
    simp only [pushValue,Exec.bind_run,named m rfl,named (m.onTop _ _) rfl]
  obtain rfl := kind.symm.trans sized
  have got := Machine.localGet_inside (stands.inside small)
  have got' := Machine.localGet_inside (above.inside small)
  rw [Machine.localAt_onTop (stands.inside small)] at got'
  simp only [pushValue,Exec.bind_run,named m rfl,named (m.onTop _ _) rfl,localMemoryAddr_eq,got,got']
  rcases found : mem.effectiveAddr width.access.bytes (m.localAt ctx.cf _ addrLocal) arg.offset with t | start
  · exact .inr (.inr ⟨t,_,m,rfl,rfl,rfl,fun other => Machine.take_onTop (stands.low other) _⟩)
  simp only [Exec.ofExcept]
  rcases Reads.loadAt mem width.access start below m ts stands with ⟨abort,read,exceeds⟩ | ⟨t,read,exceeds⟩ | ⟨v,read,exceeds⟩
  all_goals simp only [read,exceeds,Exec.pure_run]
  · exact .inr (.inl rfl)
  · exact .inr (.inr ⟨t,_,m,rfl,rfl,rfl,fun other => Machine.take_onTop (stands.low other) _⟩)
  rcases push_cases above (v.setWidth width.size.bits) with full | ⟨room',pushed'⟩
  · exact .inl ⟨_,by simp only [full]; rfl⟩
  refine .inr (.inl ?_)
  simp only [pushed',execUnary,execFullStore,popMemoryAddr_eq,Exec.bind_run,Machine.pop_onTop,Machine.push_onTop room',
    named (m.onTop _ _) rfl]
  have widths : (storeWidth width.size).bytes = width.access.bytes := by cases width <;> rfl
  simp only [widths,found,storeAt_raised]
  rfl

-- A value and a size that are constants.
theorem const_const_fill {memIdx : MemAddr} {val size : Value .s32} :
    Covers ctx.cf K below (.s32 :: ts)
      (do
        Machine.push .s32 val
        Machine.push .s32 size
        execMemoryFill ctx memIdx)
      (execMemoryFillImm ctx memIdx (.ofNat val.toNat) size) := by
  intro m stands
  rcases push_cases stands val with full | ⟨room,pushed⟩
  · exact .inl ⟨m,by simp only [Exec.bind_run,full]⟩
  rcases push_cases (stands.onTop room val) size with full | ⟨_,pushed'⟩
  · exact .inl ⟨m.onTop .s32 val,by simp only [Exec.bind_run,pushed,full]⟩
  refine .inr (.inl ?_)
  simp only [execMemoryFill,execMemoryFillImm,Exec.bind_run,pushed,pushed',Machine.pop_onTop]

section Fma
variable [Numerics] {width : ScalarSize}

-- The unfused product, sum and store.
def execMulAddStore (ctx : Context) (width : ScalarSize) (arg : MemoryArg) : Step Unit := do
  execBinary width.size (BinOp.fMul.eval width)
  execBinary width.size (BinOp.fAdd.eval width)
  execFullStore ctx width.size arg

theorem mul_add_store_32 (sized : K.memorySize ctx.module arg.memAddr = .s32) :
    Covers ctx.cf K below (width.size :: width.size :: width.size :: .s32 :: ts) (execMulAddStore ctx width arg)
      (execFmaStore ctx width arg) := by
  intro m stands
  obtain ⟨m₃,rhs,rfl,stands₃,_⟩ := stands.cons
  obtain ⟨m₂,lhs,rfl,stands₂,room₂⟩ := stands₃.cons
  obtain ⟨m₁,acc,rfl,stands₁,room₁⟩ := stands₂.cons
  obtain ⟨m₀,base,rfl,stands₀,_⟩ := stands₁.cons
  refine .inr (.inl ?_)
  simp only [execMulAddStore,execFmaStore,execFullStore,Exec.bind_run,execBinary_onTop room₂,execBinary_onTop room₁,
    Machine.pop_onTop]
  rcases ctx.memory_cases stands₀.shape arg.memAddr with ⟨abort,named⟩ | ⟨addr,mem,kind,named⟩
  · rw [named m₀ rfl,named (m₀.onTop _ _) rfl]
  · have arch := arch_of_s32 (kind.symm.trans sized)
    simp only [named m₀ rfl,named (m₀.onTop _ _) rfl,popMemoryAddr_32 arch,Exec.bind_run,Machine.pop_onTop]
    cases width <;> rfl

omit [Numerics] in
-- A store leaves the stack as it is.
theorem storeAt_stack {memAddr : MemAddr} {mem : MemoryInstance} {access : AccessWidth} {v : BitVec (8 * access.bytes)}
    {addr : Nat} {r : Except Trap Unit} {m' : Machine} (ran : storeAt memAddr mem access v addr m = .ok (r,m')) :
    m'.valueStack = m.valueStack := by
  unfold storeAt at ran
  rcases written : LinearMemory.writeFixed mem.inner access addr (LittleEndian.toBytes access.bytes v) with abort | ⟨r',inner⟩
  all_goals simp only [Exec.bind_run,Exec.ofChecked,written] at ran
  · cases ran
  · cases r' <;> cases ran <;> rfl

omit [Numerics] [Allocator] in
-- Ends that cannot be told apart are as high, down to what was there before.
theorem SameEnd.low {r r' : Except Trap Unit} {m m' : Machine} (same : SameEnd below (.ok (r,m)) (.ok (r',m')))
    {size : OperandSize} (low : below size ≤ m.height size) : below size ≤ m'.height size := by
  rcases r with t | _ <;> rcases r' with t' | _
  · have lengths := congrArg List.length (same.2.2 size)
    simp only [List.length_take] at lengths
    unfold Machine.height Stack.len at *
    omega
  · exact same.elim
  · exact same.elim
  · have lengths := congrArg List.length (same.lanes size)
    unfold Machine.height Stack.len at *
    omega

-- The fused store takes its address from the 32-bit lane, where none lies.
theorem mul_add_store_64 (sized : K.memorySize ctx.module arg.memAddr = .s64)
    (stands : Stands ctx.cf K below m [width.size,width.size,width.size,.s64])
    (runs : ∀ abort, execMulAddStore ctx width arg m ≠ .error abort) :
    ¬SameEnd below (execMulAddStore ctx width arg m) (execFmaStore ctx width arg m) := by
  obtain ⟨m₃,rhs,rfl,stands₃,_⟩ := stands.cons
  obtain ⟨m₂,lhs,rfl,stands₂,room₂⟩ := stands₃.cons
  obtain ⟨m₁,acc,rfl,stands₁,room₁⟩ := stands₂.cons
  obtain ⟨m₀,base,rfl,stands₀,_⟩ := stands₁.cons
  rcases ctx.memory_cases stands₀.shape arg.memAddr with ⟨abort,named⟩ | ⟨addr,mem,kind,named⟩
  · refine absurd ?_ (runs abort)
    simp only [execMulAddStore,execFullStore,Exec.bind_run,execBinary_onTop room₂,execBinary_onTop room₁,
      Machine.pop_onTop,named (m₀.onTop _ _) rfl]
  have unfused : ∃ r m', execMulAddStore ctx width arg ((((m₀.onTop .s64 base).onTop width.size acc).onTop width.size
      lhs).onTop width.size rhs) = .ok (r,m') ∧ m'.valueStack = m₀.valueStack := by
    have arch := arch_of_s64 (kind.symm.trans sized)
    simp only [execMulAddStore,execFullStore,Exec.bind_run,execBinary_onTop room₂,execBinary_onTop room₁,Machine.pop_onTop,
      named (m₀.onTop _ _) rfl,popMemoryAddr_64 arch] at runs ⊢
    rcases found : mem.effectiveAddr64 (storeWidth width.size).bytes base.toNat arg.offset with t | start
    · exact ⟨_,_,rfl,rfl⟩
    · simp only [Exec.ofExcept,found] at runs ⊢
      rcases ran : storeAt addr mem (storeWidth width.size) _ start m₀ with abort | ⟨r,m'⟩
      · exact absurd ran (runs abort)
      · exact ⟨r,m',rfl,storeAt_stack ran⟩
  have fused (r m') (ran : execFmaStore ctx width arg ((((m₀.onTop .s64 base).onTop width.size acc).onTop width.size
      lhs).onTop width.size rhs) = .ok (r,m')) : m'.height .s32 + 1 = m₀.height .s32 := by
    have height : (m₀.onTop .s64 base).height .s32 = m₀.height .s32 := by simp
    simp only [execFmaStore,Exec.bind_run,Machine.pop_onTop] at ran
    by_cases some_value : 0 < (m₀.onTop .s64 base).height .s32
    · obtain ⟨lower,v,same,_⟩ := Machine.exists_onTop some_value
      have state : lower.state = m₀.state := (congrArg Machine.state same).symm
      rw [←height,same,Machine.onTop_height]
      rw [same] at ran
      simp only [Machine.pop_onTop,named lower state] at ran
      have stack : m'.valueStack = lower.valueStack := storeAt_stack ran
      simp [Machine.height,stack]
    · have none : ((m₀.onTop .s64 base).valueStack.lane .s32).data.getLast? = none := by
        rw [List.getLast?_eq_none_iff,←List.length_eq_zero_iff]
        exact Nat.eq_zero_of_not_pos some_value
      have stuck : Machine.pop .s32 (m₀.onTop .s64 base) = .error .panic := by
        simp only [Machine.pop,ValueStack.pop,Stack.pop,none]
        rfl
      rw [stuck] at ran
      cases ran
  obtain ⟨r,m',ran,stack⟩ := unfused
  rw [ran]
  intro same
  rcases ran' : execFmaStore ctx width arg ((((m₀.onTop .s64 base).onTop width.size acc).onTop width.size
      lhs).onTop width.size rhs) with abort | ⟨r',m''⟩
  · rw [ran'] at same
    cases r <;> exact same
  · rw [ran'] at same
    have lost := fused r' m'' ran'
    have level := stands₀.height .s32
    have low : below .s32 ≤ m'.height .s32 := by
      rw [Machine.height,stack]
      exact stands₀.low .s32
    have high := same.low low
    simp only [List.count_nil] at level
    omega

end Fma

end Laws

end TinyWasm
