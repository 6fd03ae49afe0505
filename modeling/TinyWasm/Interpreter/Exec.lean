import TinyWasm.Store.State

namespace TinyWasm

-- A part of the interpreter that works on a state: it stops the host, or it
-- traps or answers and leaves the state as it is then.
def Exec (σ α : Type) := σ → Checked (Except Trap α × σ)

namespace Exec
variable {σ α β : Type}

def bind (x : Exec σ α) (f : α → Exec σ β) : Exec σ β := fun s =>
  match x s with
  | .error abort => .error abort
  | .ok (.error trap,s') => .ok (.error trap,s')
  | .ok (.ok a,s') => f a s'

instance : Monad (Exec σ) where
  pure a := fun s => .ok (.ok a,s)
  bind := bind

def trap (t : Trap) : Exec σ α := fun s => .ok (.error t,s)

def get : Exec σ σ := fun s => .ok (.ok s,s)

def set (s : σ) : Exec σ Unit := fun _ => .ok (.ok (),s)

def ofExcept (r : Except Trap α) : Exec σ α := fun s => .ok (r,s)

def ofChecked (r : Checked α) : Exec σ α := fun s => r.map fun a => (.ok a,s)

@[simp] theorem pure_run (a : α) (s : σ) : (pure a : Exec σ α) s = .ok (.ok a,s) := rfl

@[simp] theorem trap_run (t : Trap) (s : σ) : (trap t : Exec σ α) s = .ok (.error t,s) := rfl

@[simp] theorem get_run (s : σ) : (get : Exec σ σ) s = .ok (.ok s,s) := rfl

@[simp] theorem set_run (s t : σ) : set s t = .ok (.ok (),s) := rfl

@[simp] theorem ofExcept_run (r : Except Trap α) (s : σ) : ofExcept r s = .ok (r,s) := rfl

@[simp] theorem ofChecked_ok (a : α) (s : σ) : (ofChecked (.ok a) : Exec σ α) s = .ok (.ok a,s) := rfl

@[simp] theorem ofChecked_error (abort : Abort) (s : σ) :
    (ofChecked (.error abort) : Exec σ α) s = .error abort := rfl

theorem bind_run (x : Exec σ α) (f : α → Exec σ β) (s : σ) : (x >>= f) s =
    match x s with
    | .error abort => .error abort
    | .ok (.error trap,s') => .ok (.error trap,s')
    | .ok (.ok a,s') => f a s' := rfl

theorem bind_ok {x : Exec σ α} {f : α → Exec σ β} {s s' : σ} {a : α} (ran : x s = .ok (.ok a,s')) :
    (x >>= f) s = f a s' := by rw [bind_run,ran]

theorem bind_trap {x : Exec σ α} {f : α → Exec σ β} {s s' : σ} {t : Trap} (ran : x s = .ok (.error t,s')) :
    (x >>= f) s = .ok (.error t,s') := by rw [bind_run,ran]

theorem bind_assoc {γ : Type} (x : Exec σ α) (f : α → Exec σ β) (g : β → Exec σ γ) :
    ((x >>= f) >>= g) = (x >>= fun a => f a >>= g) := by
  funext s
  simp only [bind_run]
  rcases x s with abort | ⟨trap | a,s'⟩ <;> rfl

theorem bind_congr {x y : Exec σ α} {f : α → Exec σ β} {s t : σ} (same : x s = y t) :
    (x >>= f) s = (y >>= f) t := by rw [bind_run,bind_run,same]

@[simp] theorem get_bind (f : σ → Exec σ β) (s : σ) : (get >>= f) s = f s s := rfl

@[simp] theorem set_bind (f : Unit → Exec σ β) (s t : σ) : (set s >>= f) t = f () s := rfl

@[simp] theorem pure_bind (a : α) (f : α → Exec σ β) (s : σ) : ((pure a : Exec σ α) >>= f) s = f a s := rfl

@[simp] theorem ofChecked_bind (a : α) (f : α → Exec σ β) (s : σ) :
    ((ofChecked (.ok a) : Exec σ α) >>= f) s = f a s := rfl

@[simp] theorem ofExcept_bind (a : α) (f : α → Exec σ β) (s : σ) :
    ((ofExcept (.ok a) : Exec σ α) >>= f) s = f a s := rfl

-- A sequence that answers has had an answer from its first part.
theorem bind_answered {x : Exec σ α} {f : α → Exec σ β} {s s' : σ} {b : β} (ran : (x >>= f) s = .ok (.ok b,s')) :
    ∃ a s₁, x s = .ok (.ok a,s₁) ∧ f a s₁ = .ok (.ok b,s') := by
  rw [bind_run] at ran
  rcases stepped : x s with abort | ⟨trap | a,s₁⟩
  · rw [stepped] at ran; cases ran
  · rw [stepped] at ran; cases ran
  · rw [stepped] at ran; exact ⟨a,s₁,rfl,ran⟩

-- What a part keeps of the state, however it ends.
def Along (R : σ → σ → Prop) (x : Exec σ α) : Prop := ∀ s r s', x s = .ok (r,s') → R s s'

namespace Along
variable {R : σ → σ → Prop}

theorem modify {f : σ → Except Trap α × σ} (keeps : ∀ s, R s (f s).2) : Along R fun s => .ok (f s) := by
  intro s r s' ran
  obtain rfl := congrArg Prod.snd (Except.ok.inj ran)
  exact keeps s

theorem aborts (abort : Abort) : Along R (.ofChecked (.error abort) : Exec σ α) := fun _ _ _ ran => by cases ran

theorem checked {c : Checked α} {f : α → Exec σ β} (rest : ∀ a, c = .ok a → Along R (f a)) :
    Along R (.ofChecked c >>= f) := by
  cases c with
  | error abort => intro s r s' ran; cases ran
  | ok a => exact rest a rfl

variable [IsPreorder σ R]

theorem ofExcept (r : Except Trap α) : Along R (.ofExcept r : Exec σ α) := modify fun s => refl_of R s

theorem pure (a : α) : Along R (Pure.pure a : Exec σ α) := ofExcept (.ok a)

theorem trap (t : Trap) : Along R (.trap t : Exec σ α) := ofExcept (.error t)

theorem bind {x : Exec σ α} {f : α → Exec σ β} (first : Along R x) (rest : ∀ a, Along R (f a)) : Along R (x >>= f) := by
  intro s r s' ran
  rw [bind_run] at ran
  cases stepped : x s with
  | error abort => rw [stepped] at ran; cases ran
  | ok answer =>
    obtain ⟨r₁,s₁⟩ := answer
    have kept := first s r₁ s₁ stepped
    rw [stepped] at ran
    cases r₁ with
    | error trap => cases ran; exact kept
    | ok a => exact trans_of R kept (rest a s₁ r s' ran)

theorem get {f : σ → Exec σ β} (rest : ∀ s, Along R (f s)) : Along R (.get >>= f) :=
  bind (modify fun s => refl_of R s) rest

theorem update {f : σ → σ} {g : σ → Exec σ β} (keeps : ∀ s, R s (f s)) (rest : ∀ s, Along R (g s)) :
    Along R (.get >>= fun s => .set (f s) >>= fun _ => g s) :=
  fun s r s' ran => trans_of R (keeps s) (rest s (f s) r s' ran)

omit [IsPreorder σ R] in
theorem updates {f : σ → σ} (keeps : ∀ s, R s (f s)) : Along R (.get >>= fun s => .set (f s)) :=
  modify keeps

end Along

end Exec

-- What a straight-line instruction changes, and what it reads of the executor.
structure Machine where
  valueStack : ValueStack
  state : State

structure Context where
  cf : CallFrame
  func : WasmFunction
  module : ModuleInstance
  config : Config

abbrev Step := Exec Machine

namespace Machine

def pop (size : OperandSize) : Step (Value size) := fun m => do
  let (v,valueStack) ← m.valueStack.pop size
  .ok (.ok v,{m with valueStack})

def push [Allocator] (size : OperandSize) (v : Value size) : Step Unit := fun m =>
  let (r,valueStack) := m.valueStack.push size v
  .ok (r,{m with valueStack})

def peek (size : OperandSize) : Step (Value size) := fun m => do
  let v ← (m.valueStack.lane size).last
  .ok (.ok v,m)

-- A machine with one more operand on top of a lane.
def onTop (m : Machine) (size : OperandSize) (v : Value size) : Machine :=
  let s := m.valueStack.lane size
  {m with valueStack := m.valueStack.setLane size {s with data := s.data ++ [v]}}

@[simp] theorem onTop_state (m : Machine) (size : OperandSize) (v : Value size) :
    (m.onTop size v).state = m.state := rfl

@[simp] theorem pop_onTop (m : Machine) (size : OperandSize) (v : Value size) :
    pop size (m.onTop size v) = .ok (.ok v,m) := by
  have same := congrArg (Machine.mk · m.state) (m.valueStack.setLane_lane size)
  simp only [pop,ValueStack.pop,Stack.pop,onTop,ValueStack.setLane_same,List.getLast?_concat,ok_bind,
    List.dropLast_concat,ValueStack.setLane_setLane]
  exact congrArg (fun n => Except.ok (Except.ok v,n)) same

end Machine

end TinyWasm
