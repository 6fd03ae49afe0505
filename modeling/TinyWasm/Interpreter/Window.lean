import TinyWasm.Interpreter.Ceiling
import TinyWasm.Interpreter.StraightEffects

namespace TinyWasm

theorem Exec.bind_unit {σ : Type} (x : Exec σ Unit) : (x >>= fun _ => pure ()) = x := by
  funext s
  rw [Exec.bind_run]
  rcases x s with abort | ⟨trap | _,s'⟩ <;> rfl

-- Straight-line code, one instruction after the other.
def execWindow [Allocator] [Numerics] (ctx : Context) : List Instruction → Step Unit
  | [] => pure ()
  | i :: rest => do
    execStraight ctx i
    execWindow ctx rest

section Runs
variable [Allocator] [Numerics] {ctx : Context}

@[simp] theorem execWindow_nil : execWindow ctx [] = pure () := rfl

@[simp] theorem execWindow_cons (i : Instruction) (rest : List Instruction) :
    execWindow ctx (i :: rest) = (execStraight ctx i >>= fun _ => execWindow ctx rest) := rfl

theorem execWindow_one (i : Instruction) : execWindow ctx [i] = execStraight ctx i := Exec.bind_unit _

theorem execWindow_append (first second : List Instruction) :
    execWindow ctx (first ++ second) = (execWindow ctx first >>= fun _ => execWindow ctx second) := by
  induction first with
  | nil => rfl
  | cons i rest ih =>
    simp only [List.cons_append,execWindow_cons,ih]
    exact (Exec.bind_assoc _ _ _).symm

theorem window_settles (window : List Instruction) : Machine.Settles (execWindow ctx window) := by
  induction window with
  | nil => exact .pure ()
  | cons i rest ih => exact (Machine.Settles.straight ctx i).bind fun _ => ih

end Runs

namespace Machine

-- The same store and the same values on every lane, whatever has been reserved.
structure Alike (m m' : Machine) : Prop where
  state : m.state = m'.state
  lanes (size) : (m.valueStack.lane size).data = (m'.valueStack.lane size).data

theorem Alike.rfl {m : Machine} : m.Alike m := ⟨Eq.refl _,fun _ => Eq.refl _⟩

-- No lane grows any further.
def Fixed (m : Machine) : Prop := ∀ size, (m.valueStack.lane size).dynamic = false

def height (m : Machine) (size : OperandSize) : Nat := (m.valueStack.lane size).len

-- Room for one more value.
def Room (m : Machine) (size : OperandSize) : Prop := m.height size < (m.valueStack.lane size).capacity

def localAt (m : Machine) (cf : CallFrame) (size : OperandSize) (index : LocalAddr) : Value size :=
  (m.valueStack.lane size).data[cf.localsBase size + index]?.getD 0

def withLocal (m : Machine) (cf : CallFrame) (size : OperandSize) (index : LocalAddr) (v : Value size) : Machine :=
  let s := m.valueStack.lane size
  {m with valueStack := m.valueStack.setLane size {s with data := s.data.set (cf.localsBase size + index) v}}

end Machine

-- How a window ends: an overflow of a stack limit, or alike but for the values
-- a trap finds above what the window was given.
def Overflows (end_ : Checked (Except Trap Unit × Machine)) : Prop := ∃ m, end_ = .ok (.error .valueStackOverflow,m)

def SameEnd (below : StackBase) : Checked (Except Trap Unit × Machine) → Checked (Except Trap Unit × Machine) → Prop
  | .ok (.ok (),m),.ok (.ok (),m') => m.Alike m'
  | .ok (.error t,m),.ok (.error t',m') => t = t' ∧ m.state = m'.state ∧
    ∀ size, (m.valueStack.lane size).data.take (below size) = (m'.valueStack.lane size).data.take (below size)
  | .error abort,.error abort' => abort = abort'
  | _,_ => False

theorem SameEnd.refl {below : StackBase} {end_ : Checked (Except Trap Unit × Machine)} : SameEnd below end_ end_ := by
  rcases end_ with abort | ⟨t | _,m⟩
  · exact rfl
  · exact ⟨rfl,rfl,fun _ => rfl⟩
  · exact .rfl

-- `ts` are the lanes of the operands from the top down, above which nothing of
-- the frame lies, and `below` the heights under them.
structure Stands (cf : CallFrame) (K : Shape) (below : StackBase) (m : Machine) (ts : List OperandSize) : Prop where
  shape : m.state.shape = K
  fixed : m.Fixed
  within : m.Within
  frame (size) : cf.stackBase size ≤ below size
  height (size) : below size + ts.count size = m.height size

namespace Machine
variable {m : Machine} {cf : CallFrame} {size other : OperandSize} {i j : LocalAddr}

@[simp] theorem onTop_height (v : Value size) (other : OperandSize) :
    (m.onTop size v).height other = m.height other + [size].count other := by
  by_cases same : other = size
  · subst same
    simp [height,onTop,Stack.len]
  · simp [height,onTop,ValueStack.setLane_other _ _ same,Ne.symm same]

@[simp] theorem withLocal_height (v : Value size) (other : OperandSize) :
    (m.withLocal cf size i v).height other = m.height other := by
  by_cases same : other = size
  · subst same
    simp [height,withLocal,Stack.len]
  · simp [height,withLocal,ValueStack.setLane_other _ _ same]

theorem onTop_capacity (v : Value size) (other : OperandSize) :
    ((m.onTop size v).valueStack.lane other).capacity = (m.valueStack.lane other).capacity := by
  by_cases same : other = size
  · subst same
    simp [onTop]
  · simp [onTop,ValueStack.setLane_other _ _ same]

theorem withLocal_capacity (v : Value size) (other : OperandSize) :
    ((m.withLocal cf size i v).valueStack.lane other).capacity = (m.valueStack.lane other).capacity := by
  by_cases same : other = size
  · subst same
    simp [withLocal]
  · simp [withLocal,ValueStack.setLane_other _ _ same]

theorem Fixed.onTop (fixed : m.Fixed) (v : Value size) : (m.onTop size v).Fixed := by
  intro other
  have held := fixed other
  by_cases same : other = size
  · subst same
    simpa [Machine.onTop] using held
  · simpa [Machine.onTop,ValueStack.setLane_other _ _ same] using held

theorem Fixed.withLocal (fixed : m.Fixed) (v : Value size) : (m.withLocal cf size i v).Fixed := by
  intro other
  have held := fixed other
  by_cases same : other = size
  · subst same
    simpa [Machine.withLocal] using held
  · simpa [Machine.withLocal,ValueStack.setLane_other _ _ same] using held

@[simp] theorem withLocal_state (v : Value size) : (m.withLocal cf size i v).state = m.state := rfl

theorem Room.withLocal (room : m.Room other) (cf : CallFrame) (i : LocalAddr) (v : Value size) :
    (m.withLocal cf size i v).Room other := by
  unfold Room
  rw [withLocal_height,withLocal_capacity]
  exact room

-- Locals lie below the operands.
theorem localAt_onTop (inside : cf.localsBase other + i < m.height other) (v : Value size) :
    (m.onTop size v).localAt cf other i = m.localAt cf other i := by
  unfold localAt onTop
  by_cases same : other = size
  · subst same
    simp only [ValueStack.setLane_same,List.getElem?_append_left inside]
  · simp only [ValueStack.setLane_other _ _ same]

theorem withLocal_onTop (inside : cf.localsBase other + i < m.height other) (v : Value size) (w : Value other) :
    (m.onTop size v).withLocal cf other i w = (m.withLocal cf other i w).onTop size v := by
  unfold withLocal onTop
  by_cases same : other = size
  · subst same
    simp only [ValueStack.setLane_same,ValueStack.setLane_setLane,List.set_append_left _ _ inside]
  · simp only [ValueStack.setLane_other _ _ same,ValueStack.setLane_other _ _ (Ne.symm same)]
    rw [ValueStack.setLane_comm _ _ _ (Ne.symm same)]

theorem localAt_withLocal (inside : cf.localsBase size + i < m.height size) (v : Value size) :
    (m.withLocal cf size i v).localAt cf size i = v := by
  unfold localAt withLocal
  simp only [ValueStack.setLane_same,List.getElem?_set_self inside,Option.getD_some]

theorem localAt_withLocal_ne (different : i ≠ j) (v : Value size) :
    (m.withLocal cf size i v).localAt cf size j = m.localAt cf size j := by
  unfold localAt withLocal
  have apart : cf.localsBase size + i ≠ cf.localsBase size + j := fun same => different (Nat.add_left_cancel same)
  simp only [ValueStack.setLane_same,List.getElem?_set_ne apart]

theorem localAt_withLocal_lane (different : other ≠ size) (v : Value size) :
    (m.withLocal cf size i v).localAt cf other j = m.localAt cf other j := by
  unfold localAt withLocal
  simp only [ValueStack.setLane_other _ _ different]

@[simp] theorem withLocal_withLocal (v w : Value size) :
    (m.withLocal cf size i v).withLocal cf size i w = m.withLocal cf size i w := by
  unfold withLocal
  simp only [ValueStack.setLane_same,ValueStack.setLane_setLane,List.set_set]

theorem Alike.of_onTop {m' : Machine} {v w : Value size} (alike : (m.onTop size v).Alike (m'.onTop size w)) : m.Alike m' := by
  refine ⟨alike.state,fun other => ?_⟩
  have lanes := alike.lanes other
  unfold onTop at lanes
  by_cases same : other = size
  · subst same
    simp only [ValueStack.setLane_same] at lanes
    exact List.append_inj_left' lanes (by simp)
  · simpa only [ValueStack.setLane_other _ _ same] using lanes

theorem Alike.localAt {m' : Machine} (alike : m.Alike m') (cf : CallFrame) (size : OperandSize) (i : LocalAddr) :
    m.localAt cf size i = m'.localAt cf size i := by
  unfold Machine.localAt
  rw [alike.lanes size]

theorem withLocal_localAt (inside : cf.localsBase size + i < m.height size) :
    m.withLocal cf size i (m.localAt cf size i) = m := by
  have got : (m.valueStack.lane size).data.set (cf.localsBase size + i) (m.localAt cf size i) = (m.valueStack.lane size).data := by
    unfold localAt
    rw [List.getElem?_eq_getElem inside]
    exact List.set_getElem_self inside
  unfold withLocal
  dsimp only
  rw [got]
  exact congrArg (Machine.mk · m.state) (m.valueStack.setLane_lane size)

theorem localGet_inside (inside : cf.localsBase size + i < m.height size) :
    localGet cf size i m = .ok (.ok (m.localAt cf size i),m) := by
  have got : (m.valueStack.lane size).data[cf.localsBase size + i]? = some (m.localAt cf size i) := by
    rw [localAt,List.getElem?_eq_getElem inside]
    rfl
  simp only [localGet,Stack.get,got,ok_bind]

theorem localSet_inside (inside : cf.localsBase size + i < m.height size) (v : Value size) :
    localSet cf size i v m = .ok (.ok (),m.withLocal cf size i v) := by
  have stored : (m.valueStack.lane size).set (cf.localsBase size + i) v =
      .ok {m.valueStack.lane size with data := (m.valueStack.lane size).data.set (cf.localsBase size + i) v} := if_pos inside
  simp only [localSet,stored,ok_bind]
  rfl

@[simp] theorem peek_onTop (v : Value size) : peek size (m.onTop size v) = .ok (.ok v,m.onTop size v) := by
  simp [peek,Stack.last,onTop]

section Push
variable [Allocator]

theorem push_onTop (room : m.Room size) (v : Value size) : push size v m = .ok (.ok (),m.onTop size v) := by
  have pushed := Stack.ensureCapacityFor_room room
  simp only [push,ValueStack.push,Stack.push,pushed]
  rfl

theorem push_full (fixed : m.Fixed) (full : ¬m.Room size) (v : Value size) :
    push size v m = .ok (.error .valueStackOverflow,m) := by
  have shut : (m.valueStack.lane size).ensureCapacityFor ((m.valueStack.lane size).len + 1) = none := by
    unfold Room height at full
    unfold Stack.ensureCapacityFor
    rw [if_pos (by omega),if_pos (.inr (fixed size))]
  simp only [push,ValueStack.push,Stack.push,shut,ValueStack.setLane_lane]

end Push

-- A lane with a value on it is a lane with that value on top.
theorem exists_onTop (some_value : 0 < m.height size) : ∃ m₀ v, m = onTop m₀ size v ∧
    (∀ other, (m₀.valueStack.lane other).capacity = (m.valueStack.lane other).capacity ∧
      (m₀.valueStack.lane other).dynamic = (m.valueStack.lane other).dynamic) := by
  have nonempty : (m.valueStack.lane size).data ≠ [] := List.length_pos_iff.mp some_value
  let lower : Stack (Value size) := {m.valueStack.lane size with data := (m.valueStack.lane size).data.dropLast}
  refine ⟨⟨m.valueStack.setLane size lower,m.state⟩,(m.valueStack.lane size).data.getLast nonempty,?_,fun other => ?_⟩
  · unfold onTop
    simp only [lower,ValueStack.setLane_same,ValueStack.setLane_setLane,List.dropLast_append_getLast nonempty]
    exact congrArg (Machine.mk · m.state) (m.valueStack.setLane_lane size).symm
  · by_cases same : other = size
    · subst same
      simp [lower]
    · simp [ValueStack.setLane_other _ _ same]

end Machine

namespace Stands
variable {cf : CallFrame} {K : Shape} {below : StackBase} {m : Machine} {ts : List OperandSize} {size : OperandSize}
  {i : LocalAddr}

theorem inside (stands : Stands cf K below m ts) (small : i < cf.stackOffset size) :
    cf.localsBase size + i < m.height size := by
  have frame := Nat.lt_of_lt_of_le (Nat.add_lt_add_left small (cf.localsBase size)) (stands.frame size)
  exact Nat.lt_of_lt_of_le frame (Nat.le_trans (Nat.le_add_right _ _) (Nat.le_of_eq (stands.height size)))

theorem onTop (stands : Stands cf K below m ts) (room : m.Room size) (v : Value size) :
    Stands cf K below (m.onTop size v) (size :: ts) := by
  refine ⟨stands.shape,stands.fixed.onTop v,fun other => ?_,stands.frame,fun other => ?_⟩
  · have low := stands.within other
    rw [Machine.onTop_capacity]
    change (m.onTop size v).height other ≤ _
    rw [Machine.onTop_height]
    unfold Machine.Room Machine.height at *
    by_cases same : other = size
    · subst same
      simp only [List.count_singleton_self]
      omega
    · simp only [List.count_singleton,beq_iff_eq,Ne.symm same,if_false]
      omega
  · rw [Machine.onTop_height,←stands.height other]
    simp only [List.count_cons,List.count_nil]
    omega

theorem withLocal (stands : Stands cf K below m ts) (v : Value size) : Stands cf K below (m.withLocal cf size i v) ts := by
  refine ⟨stands.shape,stands.fixed.withLocal v,fun other => ?_,stands.frame,fun other => ?_⟩
  · rw [Machine.withLocal_capacity]
    change (m.withLocal cf size i v).height other ≤ _
    rw [Machine.withLocal_height]
    exact stands.within other
  · rw [Machine.withLocal_height]
    exact stands.height other

-- The top operand, over a machine with room for it.
theorem cons (stands : Stands cf K below m (size :: ts)) :
    ∃ m₀ v, m = Machine.onTop m₀ size v ∧ Stands cf K below m₀ ts ∧ m₀.Room size := by
  have tall := stands.height size
  simp only [List.count_cons_self] at tall
  obtain ⟨m₀,v,rfl,same⟩ := Machine.exists_onTop (Nat.lt_of_lt_of_eq (Nat.succ_pos _) tall)
  have heights (other) : below other + ts.count other = m₀.height other := by
    have height := stands.height other
    rw [Machine.onTop_height] at height
    simp only [List.count_cons,List.count_nil] at height
    omega
  refine ⟨m₀,v,rfl,⟨stands.shape,fun other => (same other).2.trans (stands.fixed other),fun other => ?_,stands.frame,heights⟩,?_⟩
  · have low := stands.within other
    change (m₀.onTop size v).height other ≤ _ at low
    rw [Machine.onTop_height,←(same other).1] at low
    exact Nat.le_trans (Nat.le_add_right _ _) low
  · have low := stands.within size
    change (m₀.onTop size v).height size ≤ _ at low
    rw [Machine.onTop_height,←(same size).1,List.count_singleton_self] at low
    exact low

end Stands

end TinyWasm
