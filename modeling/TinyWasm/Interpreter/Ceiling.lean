import TinyWasm.Interpreter.Straight

namespace TinyWasm

namespace Exec
variable {σ α β γ : Type} {P : σ → Prop} {f : σ → σ}

-- A part that does on `f s` what it does on `s`.
structure Commutes (P : σ → Prop) (f : σ → σ) (x : Exec σ α) : Prop where
  run (s) : P s → x (f s) = (x s).map fun (r,s') => (r,f s')
  keeps (s r s') : P s → x s = .ok (r,s') → P s'

namespace Commutes

theorem ofExcept (r : Except Trap α) : Commutes P f (.ofExcept r : Exec σ α) :=
  ⟨fun _ _ => rfl,fun s r s' held ran => by cases ran; exact held⟩

theorem pure (a : α) : Commutes P f (Pure.pure a : Exec σ α) := ofExcept (.ok a)

theorem trap (t : Trap) : Commutes P f (.trap t : Exec σ α) := ofExcept (.error t)

theorem aborts (abort : Abort) : Commutes P f (.ofChecked (.error abort) : Exec σ α) :=
  ⟨fun _ _ => rfl,fun s r s' held ran => by cases ran⟩

theorem bind {x : Exec σ α} {g : α → Exec σ β} (first : Commutes P f x) (rest : ∀ a, Commutes P f (g a)) :
    Commutes P f (x >>= g) := by
  refine ⟨fun s held => ?_,fun s r s' held ran => ?_⟩
  · rw [bind_run,bind_run,first.run s held]
    rcases stepped : x s with abort | ⟨trap | a,s₁⟩
    · rfl
    · rfl
    · exact (rest a).run s₁ (first.keeps s _ s₁ held stepped)
  · rw [bind_run] at ran
    rcases stepped : x s with abort | ⟨trap | a,s₁⟩
    · rw [stepped] at ran; cases ran
    · rw [stepped] at ran; cases ran; exact first.keeps s _ _ held stepped
    · rw [stepped] at ran
      exact (rest a).keeps s₁ r s' (first.keeps s _ s₁ held stepped) ran

theorem checked {c : Checked α} {g : α → Exec σ β} (rest : ∀ a, Commutes P f (g a)) : Commutes P f (.ofChecked c >>= g) := by
  cases c with
  | error abort => exact ⟨fun _ _ => rfl,fun s r s' held ran => by cases ran⟩
  | ok a => exact rest a

-- A part that looks at nothing that `f` changes.
theorem get {g : σ → Exec σ β} (same : ∀ s, g (f s) = g s) (rest : ∀ s, Commutes P f (g s)) :
    Commutes P f (.get >>= g) := by
  refine ⟨fun s held => ?_,fun s r s' held ran => (rest s).keeps s r s' held ran⟩
  rw [get_bind,get_bind,same]
  exact (rest s).run s held

theorem modify {g : σ → Except Trap α × σ} (same : ∀ s, P s → g (f s) = ((g s).1,f (g s).2))
    (keeps : ∀ s, P s → P (g s).2) : Commutes P f fun s => .ok (g s) := by
  refine ⟨fun s held => congrArg Except.ok (same s held),fun s r s' held ran => ?_⟩
  obtain rfl := congrArg Prod.snd (Except.ok.inj ran)
  exact keeps s held

theorem updates {g : σ → σ} (same : ∀ s, g (f s) = f (g s)) (keeps : ∀ s, P s → P (g s)) :
    Commutes P f (.get >>= fun s => .set (g s)) :=
  modify (g := fun s => (.ok (),g s)) (fun s _ => by rw [same]) keeps

theorem updatesChecked {c : σ → Checked γ} {g : σ → γ → σ} (unchanged : ∀ s, c (f s) = c s)
    (same : ∀ s a, g (f s) a = f (g s a)) (keeps : ∀ s a, P s → P (g s a)) :
    Commutes P f (.get >>= fun s => .ofChecked (c s) >>= fun a => .set (g s a)) := by
  refine ⟨fun s held => ?_,fun s r s' held ran => ?_⟩
  · rw [get_bind,get_bind,unchanged]
    rcases c s with abort | a
    · rfl
    · exact congrArg (fun t => Except.ok (Except.ok (),t)) (same s a)
  · rw [get_bind] at ran
    rcases checked : c s with abort | a
    · rw [checked] at ran; cases ran
    · rw [checked] at ran; cases ran; exact keeps s a held

end Commutes

end Exec

namespace Stack
variable {α : Type} [Allocator]

-- What a full lane grows to, and where its growth ends.
def grownCapacity (dynamic : Bool) (maxSize capacity : Nat) : Option Nat :=
  if capacity + 1 > maxSize ∨ dynamic = false then none
  else
    let additional := min (max (capacity + 1) (max capacity 1 * 2)) maxSize - capacity
    if Allocator.tryReserveExact additional then some (capacity + additional) else none

def climb (dynamic : Bool) (maxSize : Nat) : Nat → Nat → Nat
  | 0,capacity => capacity
  | steps + 1,capacity =>
    match grownCapacity dynamic maxSize capacity with
    | some larger => climb dynamic maxSize steps larger
    | none => capacity

def ceiling (s : Stack α) : Nat := climb s.dynamic s.maxSize (s.maxSize - s.capacity) s.capacity

-- The lane with all the room it can ever have.
def settle (s : Stack α) : Stack α := {s with capacity := s.ceiling,dynamic := false}

theorem grownCapacity_some {dynamic : Bool} {maxSize capacity larger : Nat}
    (grown : grownCapacity dynamic maxSize capacity = some larger) : capacity < larger ∧ larger ≤ maxSize := by
  unfold grownCapacity at grown
  split at grown
  · cases grown
  · rename_i room
    dsimp only at grown
    split at grown
    · cases grown; omega
    · cases grown

theorem climb_ge (dynamic : Bool) (maxSize steps capacity : Nat) : capacity ≤ climb dynamic maxSize steps capacity := by
  induction steps generalizing capacity with
  | zero => exact Nat.le_refl _
  | succ steps ih =>
    rw [climb]
    cases grown : grownCapacity dynamic maxSize capacity with
    | none => exact Nat.le_refl _
    | some larger => exact Nat.le_trans (Nat.le_of_lt (grownCapacity_some grown).1) (ih larger)

-- A lane at its maximum has nowhere to go.
theorem climb_enough {dynamic : Bool} {maxSize n k capacity : Nat} (enough : maxSize - capacity ≤ n)
    (enough' : maxSize - capacity ≤ k) : climb dynamic maxSize n capacity = climb dynamic maxSize k capacity := by
  induction n generalizing k capacity with
  | zero =>
    cases k with
    | zero => rfl
    | succ k =>
      have full : grownCapacity dynamic maxSize capacity = none := if_pos (.inl (by omega))
      simp only [climb,full]
  | succ n ih =>
    cases k with
    | zero =>
      have full : grownCapacity dynamic maxSize capacity = none := if_pos (.inl (by omega))
      simp only [climb,full]
    | succ k =>
      rw [climb,climb]
      cases grown : grownCapacity dynamic maxSize capacity with
      | none => rfl
      | some larger =>
        have past := grownCapacity_some grown
        exact ih (by omega) (by omega)

theorem ceiling_ge (s : Stack α) : s.capacity ≤ s.ceiling := climb_ge _ _ _ _

theorem ceiling_full {s : Stack α} (full : grownCapacity s.dynamic s.maxSize s.capacity = none) :
    s.ceiling = s.capacity := by
  unfold ceiling
  cases s.maxSize - s.capacity with
  | zero => rfl
  | succ n => rw [climb,full]

theorem ceiling_grown {s : Stack α} {larger : Nat}
    (grown : grownCapacity s.dynamic s.maxSize s.capacity = some larger) (data : List α) :
    ({s with data,capacity := larger} : Stack α).ceiling = s.ceiling := by
  have past := grownCapacity_some grown
  unfold ceiling
  obtain ⟨n,left⟩ : ∃ n, s.maxSize - s.capacity = n + 1 := ⟨s.maxSize - s.capacity - 1,by omega⟩
  rw [left,climb,grown]
  exact climb_enough (Nat.le_refl _) (by dsimp only; omega)

theorem ensureCapacityFor_room {s : Stack α} (room : s.len < s.capacity) : s.ensureCapacityFor (s.len + 1) = some s :=
  if_neg (by omega)

theorem ensureCapacityFor_full {s : Stack α} (full : s.len = s.capacity) :
    s.ensureCapacityFor (s.len + 1) =
      (grownCapacity s.dynamic s.maxSize s.capacity).map fun capacity => {s with capacity} := by
  unfold ensureCapacityFor grownCapacity tryReserveExact
  rw [if_pos (by omega),full]
  by_cases denied : s.capacity + 1 > s.maxSize ∨ s.dynamic = false
  · rw [if_pos denied,if_pos denied]
    rfl
  · rw [if_neg denied,if_neg denied,if_neg (by omega)]
    dsimp only
    split <;> rfl

theorem push_settle {s : Stack α} (within : s.len ≤ s.capacity) (v : α) :
    s.settle.push v = ((s.push v).1,(s.push v).2.settle) ∧ (s.push v).2.len ≤ (s.push v).2.capacity := by
  have ceiling := s.ceiling_ge
  by_cases room : s.len < s.capacity
  · have wide : s.settle.ensureCapacityFor (s.settle.len + 1) = some s.settle :=
      ensureCapacityFor_room (Nat.lt_of_lt_of_le room ceiling)
    unfold push
    rw [wide,ensureCapacityFor_room room]
    exact ⟨rfl,by simp only [len,List.length_append,List.length_singleton] at *; omega⟩
  · have full : s.len = s.capacity := by omega
    unfold push
    rw [ensureCapacityFor_full full]
    cases grown : grownCapacity s.dynamic s.maxSize s.capacity with
    | none =>
      have shut : s.settle.ensureCapacityFor (s.settle.len + 1) = none := by
        have top := ceiling_full grown
        unfold ensureCapacityFor settle
        rw [if_pos (by simp only [len] at *; omega),if_pos (.inr rfl)]
      rw [shut]
      exact ⟨rfl,within⟩
    | some larger =>
      have same := ceiling_grown grown (s.data ++ [v])
      have below := grownCapacity_some grown
      have open_ : s.settle.ensureCapacityFor (s.settle.len + 1) = some s.settle := by
        refine ensureCapacityFor_room ?_
        have high := ceiling_ge ({s with data := s.data ++ [v],capacity := larger} : Stack α)
        rw [same] at high
        change s.len < s.ceiling
        exact Nat.lt_of_lt_of_le (by omega : s.len < larger) high
      rw [open_]
      refine ⟨?_,by simp only [Option.map_some,len,List.length_append,List.length_singleton] at *; omega⟩
      simp only [Option.map_some,settle,same]

theorem truncateKeep_settle (s : Stack α) (n endKeep : Nat) :
    s.settle.truncateKeep n endKeep = (s.truncateKeep n endKeep).settle := by
  unfold truncateKeep
  by_cases low : n ≥ s.len
  · have low' : n ≥ s.settle.len := low
    rw [if_pos low',if_pos low]
  · have low' : ¬n ≥ s.settle.len := low
    rw [if_neg low',if_neg low]
    rfl

end Stack

namespace Machine

-- A lane is a Vec: what is on it has been reserved.
def Within (m : Machine) : Prop := ∀ size, (m.valueStack.lane size).len ≤ (m.valueStack.lane size).capacity

theorem Within.setLane {m : Machine} (within : m.Within) {size : OperandSize} {s : Stack (Value size)}
    (low : s.len ≤ s.capacity) : Within {m with valueStack := m.valueStack.setLane size s} := by
  intro other
  by_cases same : other = size
  · subst same
    simpa only [ValueStack.setLane_same] using low
  · simpa only [ValueStack.setLane_other _ s same] using within other

variable [Allocator]

def settle (m : Machine) : Machine := {m with valueStack := ⟨fun size => (m.valueStack.lane size).settle⟩}

theorem settle_setLane (m : Machine) {size : OperandSize} (s : Stack (Value size)) :
    settle {m with valueStack := m.valueStack.setLane size s} =
      {m.settle with valueStack := m.settle.valueStack.setLane size s.settle} := by
  refine congrArg (Machine.mk · m.state) (congrArg ValueStack.mk (funext fun other => ?_))
  by_cases same : other = size
  · subst same
    simp [settle,ValueStack.setLane]
  · simp [settle,ValueStack.setLane,same]

-- What a step does does not depend on how its lanes have grown so far.
abbrev Settles {α : Type} (x : Step α) : Prop := Exec.Commutes Within settle x

namespace Settles
variable {α : Type}

theorem push (size : OperandSize) (v : Value size) : Settles (Machine.push size v) := by
  let pushed (m : Machine) : Except Trap Unit × Machine :=
    ((m.valueStack.push size v).1,{m with valueStack := (m.valueStack.push size v).2})
  refine Exec.Commutes.modify (g := pushed) (fun m within => ?_) fun m within => ?_
  · have same := (Stack.push_settle (within size) v).1
    simp only [pushed,ValueStack.push]
    rw [settle_setLane]
    simp only [settle,same]
  · exact within.setLane (Stack.push_settle (within size) v).2

-- A step on one lane that leaves its room as it is.
theorem onLane {x : Step α} {size : OperandSize} (f : Stack (Value size) → Checked (α × List (Value size)))
    (same : ∀ s, f s.settle = f s) (low : ∀ s a data, f s = .ok (a,data) → data.length ≤ s.len)
    (as : ∀ m, x m = (f (m.valueStack.lane size)).map fun (a,data) =>
      (.ok a,{m with valueStack := m.valueStack.setLane size {m.valueStack.lane size with data}})) : Settles x := by
  refine ⟨fun m within => ?_,fun m r m' within ran => ?_⟩
  · have settled := same (m.valueStack.lane size)
    rw [as,as]
    change (f (m.valueStack.lane size).settle).map _ = _
    rw [settled]
    rcases f (m.valueStack.lane size) with abort | ⟨a,data⟩
    · rfl
    · refine congrArg (fun n => Except.ok (Except.ok a,n)) ?_
      dsimp only
      rw [settle_setLane]
      rfl
  · rw [as] at ran
    rcases given : f (m.valueStack.lane size) with abort | ⟨a,data⟩
    · rw [given] at ran; cases ran
    · rw [given] at ran
      cases ran
      exact within.setLane (Nat.le_trans (low _ a data given) (within size))

theorem pop (size : OperandSize) : Settles (Machine.pop size) := by
  refine onLane (fun s => s.pop.map fun popped => (popped.1,popped.2.data)) (fun s => ?_) (fun s v data popped => ?_) fun m => ?_
  · unfold Stack.pop Stack.settle
    dsimp only
    split <;> rfl
  · unfold Stack.pop at popped
    split at popped
    · cases popped
      simp only [List.length_dropLast,Stack.len]
      omega
    · cases popped
  · simp only [Machine.pop,ValueStack.pop]
    unfold Stack.pop
    split <;> rfl

theorem peek (size : OperandSize) : Settles (Machine.peek size) := by
  refine onLane (fun s => s.last.map fun v => (v,s.data)) (fun _ => rfl) (fun s v data read => ?_) fun m => ?_
  · rcases given : s.last with abort | a
    · rw [given] at read; cases read
    · rw [given] at read; cases read; exact Nat.le_refl _
  · simp only [Machine.peek]
    rcases (m.valueStack.lane size).last with abort | v
    · rfl
    · exact congrArg (fun stack => Except.ok (Except.ok v,Machine.mk stack m.state)) (m.valueStack.setLane_lane size).symm

theorem localGet (cf : CallFrame) (size : OperandSize) (index : LocalAddr) : Settles (Machine.localGet cf size index) := by
  refine onLane (fun s => (s.get (cf.localsBase size + index)).map fun v => (v,s.data)) (fun _ => rfl)
    (fun s v data read => ?_) fun m => ?_
  · rcases given : s.get (cf.localsBase size + index) with abort | a
    · rw [given] at read; cases read
    · rw [given] at read; cases read; exact Nat.le_refl _
  · simp only [Machine.localGet]
    rcases (m.valueStack.lane size).get (cf.localsBase size + index) with abort | v
    · rfl
    · exact congrArg (fun stack => Except.ok (Except.ok v,Machine.mk stack m.state)) (m.valueStack.setLane_lane size).symm

theorem localSet (cf : CallFrame) (size : OperandSize) (index : LocalAddr) (value : Value size) :
    Settles (Machine.localSet cf size index value) := by
  refine onLane (fun s => if cf.localsBase size + index < s.len then .ok ((),s.data.set (cf.localsBase size + index) value)
    else .error .panic) (fun _ => rfl) (fun s v data stored => ?_) fun m => ?_
  · split at stored
    · cases stored; exact Nat.le_of_eq List.length_set
    · cases stored
  · simp only [Machine.localSet,Stack.set]
    split <;> rfl

theorem selectMany (size : OperandSize) (count : Nat) (condition : Bool) :
    Settles (Machine.selectMany size count condition) := by
  refine onLane (fun s : Stack (Value size) => (s.selectMany count condition).map fun t => ((),t.data)) (fun s => ?_) (fun s v data chosen => ?_)
    fun m => ?_
  · unfold Stack.selectMany Stack.settle
    dsimp only [Stack.len]
    split
    · rfl
    · split
      · rfl
      · split <;> rfl
  · rcases given : s.selectMany count condition with abort | t
    · rw [given] at chosen; cases chosen
    · rw [given] at chosen
      cases chosen
      exact Nat.le_trans (Nat.le_add_right _ _) (Nat.le_of_eq (Stack.selectMany_cases given).2.1)
  · simp only [Machine.selectMany]
    unfold Stack.selectMany
    split
    · rfl
    · split
      · rfl
      · split <;> rfl

theorem dropKeep (cf : CallFrame) (dropKeep : DropKeep) : Settles (Machine.dropKeep cf dropKeep) := by
  let base : StackBase := fun size => cf.stackBase size + dropKeep.base size
  let dropped (m : Machine) : Except Trap Unit × Machine :=
    (.ok (),{m with valueStack := m.valueStack.truncateKeepCounts base dropKeep.keep})
  refine Exec.Commutes.modify (g := dropped) (fun m _ => ?_) fun m within size => ?_
  · exact congrArg (fun lane => (Except.ok (),Machine.mk (ValueStack.mk lane) m.state))
      (funext fun size => Stack.truncateKeep_settle _ _ _)
  · have low := within size
    simp only [dropped,ValueStack.truncateKeepCounts,Stack.truncateKeep]
    split
    · exact low
    · simp only [Stack.len,List.length_append,List.length_take,List.length_drop] at *
      omega

theorem drop (size : OperandSize) : Settles (Machine.drop size) := (pop size).bind fun _ => .pure ()

theorem select (size : OperandSize) : Settles (Machine.select size) := by
  refine (pop .s32).bind fun cond => (pop size).bind fun val => ?_
  split
  · exact (drop size).bind fun _ => push size val
  · exact .pure ()

theorem selectMulti (counts : ValueCounts) : Settles (Machine.selectMulti counts) :=
  (pop .s32).bind fun _ => (selectMany _ _ _).bind fun _ => (selectMany _ _ _).bind fun _ => selectMany _ _ _

theorem localUpdate (cf : CallFrame) (size : OperandSize) (index : LocalAddr) (f : Value size → Value size) :
    Settles (Machine.localUpdate cf size index f) := (localGet cf size index).bind fun _ => localSet cf size index _

theorem localCopy (cf : CallFrame) (size : OperandSize) (src dst : LocalAddr) : Settles (Machine.localCopy cf size src dst) :=
  (localGet cf size src).bind fun _ => localSet cf size dst _

theorem localTee (cf : CallFrame) (size : OperandSize) (index : LocalAddr) : Settles (Machine.localTee cf size index) :=
  (peek size).bind fun _ => localSet cf size index _

theorem popRef : Settles Machine.popRef := (pop .s32).bind fun _ => .pure _

theorem pushDyn (v : TinyWasmValue) : Settles (Machine.pushDyn v) := by
  cases v with
  | value32 v => exact push .s32 v
  | value64 v => exact push .s64 v
  | value128 v => exact push .s128 v
  | valueRef v => exact push .s32 v.raw

theorem pushSize (arch : MemoryArch) (n : Int) : Settles (Machine.pushSize arch n) := by
  cases arch with
  | i32 => exact push .s32 _
  | i64 => exact push .s64 _

theorem setMemory (addr : MemAddr) (mem : MemoryInstance) : Settles (Machine.setMemory addr mem) :=
  .updates (fun _ => rfl) fun _ within => within

theorem setTable (addr : TableAddr) (t : TableInstance) : Settles (Machine.setTable addr t) :=
  .updates (fun _ => rfl) fun _ within => within

theorem popTableOperand (arch : MemoryArch) : Settles (TinyWasm.popTableOperand arch) := by
  cases arch with
  | i32 => exact (pop .s32).bind fun _ => .pure _
  | i64 => exact (pop .s64).bind fun _ => .pure _

theorem popPages (arch : MemoryArch) : Settles (TinyWasm.popPages arch) := by
  cases arch with
  | i32 => exact (pop .s32).bind fun _ => .pure _
  | i64 => exact (pop .s64).bind fun _ => .pure _

theorem memory (ctx : Context) (memIdx : MemAddr) : Settles (ctx.memory memIdx) :=
  .checked fun _ => .get (fun _ => rfl) fun _ => .checked fun _ => .pure _

theorem table (ctx : Context) (tableIndex : TableAddr) : Settles (ctx.table tableIndex) :=
  .checked fun _ => .get (fun _ => rfl) fun _ => .checked fun _ => .pure _

theorem global (ctx : Context) (globalIndex : GlobalAddr) : Settles (ctx.global globalIndex) :=
  .checked fun _ => .get (fun _ => rfl) fun _ => .checked fun _ => .pure _

theorem popMemoryAddr (mem : MemoryInstance) (n offset : Nat) : Settles (TinyWasm.popMemoryAddr mem n offset) := by
  unfold TinyWasm.popMemoryAddr
  split
  · exact (pop .s64).bind fun _ => .ofExcept _
  · exact (pop .s32).bind fun _ => .ofExcept _

theorem localMemoryAddr (ctx : Context) (mem : MemoryInstance) (n offset : Nat) (addrLocal : LocalAddr) :
    Settles (TinyWasm.localMemoryAddr ctx mem n offset addrLocal) := by
  unfold TinyWasm.localMemoryAddr
  split
  · exact (localGet _ .s64 _).bind fun _ => .ofExcept _
  · exact (localGet _ .s32 _).bind fun _ => .ofExcept _

theorem loadAt (mem : MemoryInstance) (width : AccessWidth) (addr : Nat) : Settles (TinyWasm.loadAt mem width addr) :=
  .checked fun _ => (Exec.Commutes.ofExcept _).bind fun _ => .pure _

theorem storeAt (memAddr : MemAddr) (mem : MemoryInstance) (width : AccessWidth) (v : BitVec (8 * width.bytes)) (addr : Nat) :
    Settles (TinyWasm.storeAt memAddr mem width v addr) :=
  .checked fun _ => (setMemory _ _).bind fun _ => .ofExcept _

theorem fillImpl (ctx : Context) (memIdx : MemAddr) (dst : Value .s32) (val : Byte) (size : Value .s32) :
    Settles (execMemoryFillImpl ctx memIdx dst val size) := by
  refine (memory ctx memIdx).bind fun _ => .checked fun ⟨r,_⟩ => (setMemory _ _).bind fun _ => ?_
  cases r with
  | none => exact .trap _
  | some _ => exact .pure ()

theorem memoryGrow (ctx : Context) (mem : MemAddr) : Settles (execMemoryGrow ctx mem) := by
  refine (memory ctx mem).bind fun _ => (popPages _).bind fun _ => .checked fun _ => (setMemory _ _).bind fun _ =>
    (Exec.Commutes.ofExcept _).bind fun r => ?_
  cases r <;> exact pushSize _ _

theorem memoryCopy (ctx : Context) (dstMem srcMem : MemAddr) : Settles (execMemoryCopy ctx dstMem srcMem) := by
  refine (pop .s32).bind fun _ => (pop .s32).bind fun _ => (pop .s32).bind fun _ => (memory ctx dstMem).bind fun ⟨dstAddr,mem⟩ => ?_
  dsimp only
  split
  · exact .checked fun _ => (setMemory _ _).bind fun _ => .ofExcept _
  · refine (memory ctx srcMem).bind fun ⟨srcAddr,srcMemory⟩ => ?_
    dsimp only
    split
    · exact .aborts _
    · exact .checked fun _ => (setMemory _ _).bind fun _ => .ofExcept _

theorem memoryInit (ctx : Context) (data : DataAddr) (mem : MemAddr) : Settles (execMemoryInit ctx data mem) := by
  refine (pop .s32).bind fun _ => (pop .s32).bind fun _ => (pop .s32).bind fun _ => .checked fun _ =>
    .get (fun _ => rfl) fun _ => .checked fun data => (memory ctx mem).bind fun ⟨addr,mem⟩ => ?_
  dsimp only
  split
  · exact .trap _
  · split
    · exact .pure ()
    · cases data.data with
      | none => exact .trap _
      | some bytes =>
        dsimp only
        split
        · refine .checked fun ⟨r,_⟩ => (setMemory _ _).bind fun _ => ?_
          cases r with
          | none => exact .trap _
          | some _ => exact .pure ()
        · exact .aborts _

theorem tableInit (ctx : Context) (elem : ElemAddr) (table : TableAddr) : Settles (execTableInit ctx elem table) := by
  refine (popTableOperand _).bind fun offset => (popTableOperand _).bind fun size => (Settles.table ctx table).bind fun _ =>
    (popTableOperand _).bind fun _ => .checked fun addr => .get (fun _ => rfl) fun m => ?_
  cases m.state.elements[addr]? with
  | none => exact .trap _
  | some elem =>
    dsimp only
    split
    · exact .trap _
    · split
      · exact .trap _
      · exact (setTable _ _).bind fun _ => .ofExcept _

theorem tableCopy (ctx : Context) (dstTable srcTable : TableAddr) : Settles (execTableCopy ctx dstTable srcTable) := by
  refine (table ctx dstTable).bind fun _ => (table ctx srcTable).bind fun _ => (popTableOperand _).bind fun _ =>
    (popTableOperand _).bind fun _ => (popTableOperand _).bind fun _ => ?_
  split
  · exact (setTable _ _).bind fun _ => .ofExcept _
  · exact (Exec.Commutes.ofExcept _).bind fun _ => (setTable _ _).bind fun _ => .ofExcept _

theorem tableGrow (ctx : Context) (table : TableAddr) : Settles (execTableGrow ctx table) := by
  refine (Settles.table ctx table).bind fun t => (popTableOperand _).bind fun n => popRef.bind fun val => ?_
  dsimp only
  generalize t.2.grow n (.ofAddr val.addr) = outcome
  obtain ⟨r,grown⟩ := outcome
  refine (setTable _ _).bind fun _ => ?_
  cases r <;> exact pushSize _ _

theorem pushValue {size : OperandSize} {value : Step (Value size)} (settles : Settles value) :
    Settles (TinyWasm.pushValue size value) := settles.bind fun _ => push size _

theorem setValue {size : OperandSize} {value : Step (Value size)} (cf : CallFrame) (dst : LocalAddr)
    (settles : Settles value) : Settles (TinyWasm.setValue cf size dst value) := settles.bind fun _ => localSet cf size dst _

theorem teeValue {size : OperandSize} {value : Step (Value size)} (cf : CallFrame) (dst : LocalAddr)
    (settles : Settles value) : Settles (TinyWasm.teeValue cf size dst value) :=
  settles.bind fun _ => (localSet cf size dst _).bind fun _ => push size _

theorem localLocal (cf : CallFrame) (size : OperandSize) (f : Value size → Value size → Value size) (a b : LocalAddr) :
    Settles (binopLocalLocal cf size f a b) := (localGet cf size a).bind fun _ => (localGet cf size b).bind fun _ => .pure _

theorem localConst (cf : CallFrame) (size : OperandSize) (f : Value size → Value size → Value size) (a : LocalAddr)
    (c : Value size) : Settles (binopLocalConst cf size f a c) := (localGet cf size a).bind fun _ => .pure _

theorem unary (size : OperandSize) (f : Value size → Value size) : Settles (execUnary size f) :=
  (pop size).bind fun _ => push size _

theorem loadLocalValue (ctx : Context) (op : LoadOp) (arg : MemoryArg) (addrLocal : LocalAddr) :
    Settles (execLoadLocalValue ctx op arg addrLocal) :=
  (memory ctx _).bind fun _ => (localMemoryAddr ctx _ _ _ _).bind fun _ => (loadAt _ _ _).bind fun _ => .pure _

theorem action (a : NumAction) : Settles a.exec := by
  cases a with
  | unary source target f => exact (pop source).bind fun _ => push target _
  | unaryTry source target f => exact (pop source).bind fun _ => (Exec.Commutes.ofExcept _).bind fun _ => push target _
  | binary lhs rhs target f => exact (pop rhs).bind fun _ => (pop lhs).bind fun _ => push target _
  | binaryTry size f =>
    exact (pop size).bind fun _ => (pop size).bind fun _ => (Exec.Commutes.ofExcept _).bind fun _ => push size _
  | ternary size f => exact (pop size).bind fun _ => (pop size).bind fun _ => (pop size).bind fun _ => push size _
  | binaryInto2 source target f =>
    exact (pop source).bind fun _ => (pop source).bind fun _ => (push target _).bind fun _ => push target _
  | quaternaryInto2 source target f =>
    exact (pop source).bind fun _ => (pop source).bind fun _ => (pop source).bind fun _ => (pop source).bind fun _ =>
      (push target _).bind fun _ => push target _

theorem globalSet (ctx : Context) (size : OperandSize) (globalIndex : GlobalAddr) :
    Settles (execGlobalSet ctx size globalIndex) := by
  refine .checked fun addr => (pop size).bind fun raw => ⟨fun m within => ?_,fun m r m' within ran => ?_⟩
  all_goals simp only [Exec.get_bind] at *
  · change (Exec.ofChecked (State.at m.state.globals addr) >>= _) _ = _
    rcases State.at m.state.globals addr with abort | g
    · rfl
    · simp only [Exec.ofChecked_bind]
      rcases globalValue size g.ty.ty raw with abort | value <;> rfl
  · rcases found : State.at m.state.globals addr with abort | g
    · rw [found] at ran; cases ran
    · rw [found,Exec.ofChecked_bind] at ran
      rcases valued : globalValue size g.ty.ty raw with abort | value
      · rw [valued] at ran; cases ran
      · rw [valued] at ran; cases ran; exact within

-- How far its lanes have grown decides nothing of what straight code does.
theorem straight [Numerics] (ctx : Context) (i : Instruction) : Settles (execStraight ctx i) := by
  cases i <;> simp only [execStraight]
  case drop size => exact drop size
  case select size => exact select size
  case selectMulti counts => exact selectMulti counts
  case dropKeep kept => exact dropKeep ctx.cf kept
  case localGet size index => exact pushValue (localGet ctx.cf size index)
  case localSet size index => exact setValue ctx.cf index (pop size)
  case localTee size index => exact localTee ctx.cf size index
  case localCopy size src dst => exact localCopy ctx.cf size src dst
  case addConst width c => exact unary _ _
  case incLocal width index delta => exact localUpdate _ _ _ _
  case mulAccLocal width acc => exact (pop _).bind fun _ => (pop _).bind fun _ => localUpdate _ _ _ _
  case fMulAccLocal width acc => exact (pop _).bind fun _ => (pop _).bind fun _ => localUpdate _ _ _ _
  case binOpLocalLocal => exact pushValue (localLocal _ _ _ _ _)
  case binOpLocalLocal128 => exact pushValue (localLocal _ _ _ _ _)
  case binOpLocalLocalSet => exact setValue _ _ (localLocal _ _ _ _ _)
  case binOpLocalLocalSet128 => exact setValue _ _ (localLocal _ _ _ _ _)
  case binOpLocalLocalTee => exact teeValue _ _ (localLocal _ _ _ _ _)
  case binOpLocalLocalTee128 => exact teeValue _ _ (localLocal _ _ _ _ _)
  case binOpLocalConst => exact pushValue (localConst _ _ _ _ _)
  case binOpLocalConst128 => exact .checked fun _ => pushValue (localConst _ _ _ _ _)
  case binOpLocalConstSet => exact setValue _ _ (localConst _ _ _ _ _)
  case binOpLocalConstSet128 => exact .checked fun _ => setValue _ _ (localConst _ _ _ _ _)
  case binOpLocalConstTee => exact teeValue _ _ (localConst _ _ _ _ _)
  case binOpLocalConstTee128 => exact .checked fun _ => teeValue _ _ (localConst _ _ _ _ _)
  case binOpStackGlobal =>
    exact (global _ _).bind fun _ => .checked fun _ => (pop _).bind fun _ => push _ _
  case setLocalConst => exact localSet _ _ _ _
  case setLocalConst128 => exact .checked fun _ => localSet _ _ _ _
  case incMemoryLocal =>
    exact (memory _ _).bind fun _ => (localMemoryAddr _ _ _ _ _).bind fun _ =>
      (loadAt _ _ _).bind fun _ => storeAt _ _ _ _ _
  case storeLocalLocal =>
    exact (localGet _ _ _).bind fun _ => (localGet _ _ _).bind fun _ => (memory _ _).bind fun _ =>
      (Exec.Commutes.ofExcept _).bind fun _ => storeAt _ _ _ _ _
  case loadLocal32 => exact pushValue (loadLocalValue _ _ _ _)
  case loadLocal64 => exact pushValue (loadLocalValue _ _ _ _)
  case loadLocalTee32 => exact teeValue _ _ (loadLocalValue _ _ _ _)
  case loadLocalSet32 => exact setValue _ _ (loadLocalValue _ _ _ _)
  case loadLocalTee128 => exact teeValue _ _ (loadLocalValue _ _ _ _)
  case loadLocalSet128 => exact setValue _ _ (loadLocalValue _ _ _ _)
  case andConstTee => exact (unary _ _).bind fun _ => localTee _ _ _
  case subConstTee => exact (unary _ _).bind fun _ => localTee _ _ _
  case fMaStore =>
    exact (pop _).bind fun _ => (pop _).bind fun _ => (pop _).bind fun _ =>
      (pop _).bind fun _ => (memory _ _).bind fun _ => (Exec.Commutes.ofExcept _).bind fun _ =>
      storeAt _ _ _ _ _
  case globalGet => exact (global _ _).bind fun _ => pushDyn _
  case globalSet => exact globalSet _ _ _
  case load =>
    exact (memory _ _).bind fun _ => (popMemoryAddr _ _ _).bind fun _ =>
      (loadAt _ _ _).bind fun _ => push _ _
  case store =>
    exact (pop _).bind fun _ => (memory _ _).bind fun _ => (popMemoryAddr _ _ _).bind fun _ =>
      storeAt _ _ _ _ _
  case loadLane =>
    exact (memory _ _).bind fun _ => (popMemoryAddr _ _ _).bind fun _ =>
      (loadAt _ _ _).bind fun _ => (pop _).bind fun _ => .checked fun _ => push _ _
  case storeLane =>
    exact (pop _).bind fun _ => .checked fun _ => (memory _ _).bind fun _ =>
      (popMemoryAddr _ _ _).bind fun _ => storeAt _ _ _ _ _
  case memorySize => exact (memory _ _).bind fun _ => pushSize _ _
  case memoryGrow mem => exact memoryGrow ctx mem
  case const => exact push _ _
  case const128 => exact .checked fun _ => push _ _
  case refNull => exact push _ _
  case refFunc => exact .checked fun _ => push _ _
  case refIsNull => exact popRef.bind fun _ => push _ _
  case int op => exact action _
  case float op => exact action _
  case vector op => exact action _
  case extractLane => exact (pop _).bind fun _ => push _ _
  case replaceLane => exact (pop _).bind fun _ => (pop _).bind fun _ => push _ _
  case i8x16Shuffle => exact (pop _).bind fun _ => (pop _).bind fun _ => .checked fun _ => push _ _
  case tableInit elem table => exact tableInit ctx elem table
  case tableGet =>
    exact (table _ _).bind fun _ => (popTableOperand _).bind fun _ =>
      (Exec.Commutes.ofExcept _).bind fun _ => pushDyn _
  case tableSet =>
    exact popRef.bind fun _ => (table _ _).bind fun _ => (popTableOperand _).bind fun _ =>
      (setTable _ _).bind fun _ => .ofExcept _
  case tableCopy dst src => exact tableCopy ctx dst src
  case tableGrow table => exact tableGrow ctx table
  case tableSize => exact (table _ _).bind fun _ => pushSize _ _
  case tableFill =>
    exact (table _ _).bind fun _ => (popTableOperand _).bind fun _ => popRef.bind fun _ =>
      (popTableOperand _).bind fun _ => .checked fun _ => (setTable _ _).bind fun _ => .ofExcept _
  case memoryInit data mem => exact memoryInit ctx data mem
  case memoryCopy dst src => exact memoryCopy ctx dst src
  case memoryFill mem =>
    exact (pop _).bind fun _ => (pop _).bind fun _ => (pop _).bind fun _ => fillImpl _ _ _ _ _
  case memoryFillImm mem val size => exact (pop _).bind fun _ => fillImpl _ _ _ _ _
  case dataDrop data =>
    exact .checked fun _ => .updatesChecked (fun _ => rfl) (fun _ _ => rfl) fun _ _ within => within
  case elemDrop elem =>
    exact .checked fun _ => .updatesChecked (fun _ => rfl) (fun _ _ => rfl) fun _ _ within => within
  all_goals exact .pure ()

end Settles

end Machine

end TinyWasm
