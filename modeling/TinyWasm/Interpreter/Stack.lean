import TinyWasm.Instruction

namespace TinyWasm
open ListRange

structure StackConfig where
  initialSize : Nat
  maxSize : Nat
  dynamic : Bool

-- `data` runs from the bottom. Heights are the u32s and u16s of the source.
structure Stack (α : Type) where
  data : List α
  capacity : Nat
  maxSize : Nat
  dynamic : Bool

namespace Stack
variable {α : Type}

def new (config : StackConfig) : Stack α := ⟨[],config.initialSize,config.maxSize,config.dynamic⟩

def clear (s : Stack α) : Stack α := {s with data := []}

@[reducible] def len (s : Stack α) : Nat := s.data.length

-- Vec::try_reserve_exact.
def tryReserveExact [Allocator] (s : Stack α) (additional : Nat) : Option (Stack α) :=
  if additional ≤ s.capacity - s.len then some s
  else if Allocator.tryReserveExact additional then some {s with capacity := s.len + additional}
  else none

def ensureCapacityFor [Allocator] (s : Stack α) (requiredLen : Nat) : Option (Stack α) :=
  if requiredLen > s.capacity then
    if requiredLen > s.maxSize ∨ s.dynamic = false then none
    else s.tryReserveExact (min (max requiredLen (max s.capacity 1 * 2)) s.maxSize - s.capacity)
  else some s

def push [Allocator] (s : Stack α) (value : α) : Except Trap Unit × Stack α :=
  match s.ensureCapacityFor (s.len + 1) with
  | none => (.error .valueStackOverflow,s)
  | some s => (.ok (),{s with data := s.data ++ [value]})

def pop (s : Stack α) : Checked (α × Stack α) :=
  match s.data.getLast? with
  | some value => .ok (value,{s with data := s.data.dropLast})
  | none => .error .panic

def last (s : Stack α) : Checked α :=
  match s.data.getLast? with
  | some value => .ok value
  | none => .error .panic

def get (s : Stack α) (index : Nat) : Checked α :=
  match s.data[index]? with
  | some value => .ok value
  | none => .error .panic

def set (s : Stack α) (index : Nat) (value : α) : Checked (Stack α) :=
  if index < s.len then .ok {s with data := s.data.set index value} else .error .panic

def copy (s : Stack α) (src dst : Nat) : Checked (Stack α) := do
  s.set dst (← s.get src)

def truncateKeep (s : Stack α) (n endKeep : Nat) : Stack α :=
  if n ≥ s.len then s
  else
    let keep := min (s.len - n) endKeep
    {s with data := s.data.take n ++ s.data.drop (s.len - keep)}

def truncateTo (s : Stack α) (n : Nat) : Stack α := {s with data := s.data.take n}

def truncateToOneTail (s : Stack α) (n : Nat) : Checked (Stack α) := do
  let (last,s) ← s.pop
  .ok {s with data := s.data.take n ++ [last]}

-- The parameters on top of the stack become the first locals. On a stack lower
-- than its parameters the source's unchecked difference wraps.
def enterLocals [Allocator] (s : Stack α) (default : α) (paramCount localCount : Nat) :
    Except Trap Nat × Stack α :=
  let (start,last) :=
    if paramCount ≤ s.len then (s.len - paramCount,s.len - paramCount + localCount)
    else (wrappingSub s.len paramCount % 2 ^ 32,wrappingAdd (wrappingSub s.len paramCount) localCount)
  let grown := if last > s.capacity then
      if last > s.maxSize ∨ s.dynamic = false then none
      else s.tryReserveExact (min (max last (max s.capacity 1 * 2)) s.maxSize - s.len)
    else some s
  match grown with
  | none => (.error .valueStackOverflow,s)
  | some s => (.ok start,{s with data := s.data.take last ++ List.replicate (last - s.len) default})

def selectMany (s : Stack α) (count : Nat) (condition : Bool) : Checked (Stack α) :=
  if count = 0 then .ok s
  else if s.len < count * 2 then .error .panic
  else if condition then .ok {s with data := s.data.take (s.len - count)}
  else .ok {s with data := s.data.take (s.len - count * 2) ++ s.data.drop (s.len - count)}

-- Room is made without touching what is on the stack.
theorem tryReserveExact_data [Allocator] {s t : Stack α} {additional : Nat}
    (reserved : s.tryReserveExact additional = some t) : t.data = s.data := by
  unfold tryReserveExact at reserved
  split at reserved
  · cases reserved; rfl
  · split at reserved
    · cases reserved; rfl
    · cases reserved

theorem ensureCapacityFor_data [Allocator] {s t : Stack α} {requiredLen : Nat}
    (ensured : s.ensureCapacityFor requiredLen = some t) : t.data = s.data := by
  unfold ensureCapacityFor at ensured
  split at ensured
  · split at ensured
    · cases ensured
    · exact tryReserveExact_data ensured
  · cases ensured; rfl

theorem push_cases [Allocator] (s : Stack α) (value : α) :
    s.push value = (.error .valueStackOverflow,s) ∨
    ∃ t, s.push value = (.ok (),t) ∧ t.data = s.data ++ [value] := by
  unfold push
  cases ensured : s.ensureCapacityFor (s.len + 1) with
  | none => exact .inl rfl
  | some t => exact .inr ⟨_,rfl,by rw [ensureCapacityFor_data ensured]⟩

theorem selectMany_cases {s t : Stack α} {count : Nat} {condition : Bool}
    (selected : s.selectMany count condition = .ok t) :
    count * 2 ≤ s.len ∧ t.len + count = s.len ∧ ∀ n, n + count * 2 ≤ s.len → t.data.take n = s.data.take n := by
  unfold selectMany at selected
  simp only [len] at selected ⊢
  split at selected
  · rename_i none
    cases selected
    exact ⟨by omega,by omega,fun _ _ => rfl⟩
  · split at selected
    · cases selected
    · split at selected <;> cases selected
      · refine ⟨by omega,by simp only [List.length_take]; omega,fun n small => ?_⟩
        rw [List.take_take,Nat.min_eq_left (by omega)]
      · refine ⟨by omega,by simp only [List.length_append,List.length_take,List.length_drop]; omega,fun n small => ?_⟩
        rw [List.take_append_of_le_length (by simp only [List.length_take]; omega),List.take_take,Nat.min_eq_left (by omega)]

end Stack

structure ValueStack where
  lane : (size : OperandSize) → Stack (Value size)

namespace ValueStack

def setLane (stack : ValueStack) (size : OperandSize) (s : Stack (Value size)) : ValueStack :=
  ⟨Function.update stack.lane size s⟩

@[simp] theorem setLane_same (stack : ValueStack) (size : OperandSize) (s : Stack (Value size)) :
    (stack.setLane size s).lane size = s := by simp [setLane]

@[simp] theorem setLane_other (stack : ValueStack) {size other : OperandSize} (s : Stack (Value size))
    (different : other ≠ size) : (stack.setLane size s).lane other = stack.lane other := by
  simp [setLane,different]

@[simp] theorem setLane_setLane (stack : ValueStack) (size : OperandSize) (s t : Stack (Value size)) :
    (stack.setLane size s).setLane size t = stack.setLane size t := by simp [setLane]

@[simp] theorem setLane_lane (stack : ValueStack) (size : OperandSize) :
    stack.setLane size (stack.lane size) = stack := by simp [setLane]

theorem setLane_comm (stack : ValueStack) {size other : OperandSize} (s : Stack (Value size))
    (t : Stack (Value other)) (different : size ≠ other) :
    (stack.setLane size s).setLane other t = (stack.setLane other t).setLane size s := by
  simp [setLane,Function.update_comm different]

def base (stack : ValueStack) : StackBase := fun size => (stack.lane size).len

def len (stack : ValueStack) : Nat := (stack.lane .s32).len + (stack.lane .s64).len + (stack.lane .s128).len

def pop (stack : ValueStack) (size : OperandSize) : Checked (Value size × ValueStack) := do
  let (v,s) ← (stack.lane size).pop
  .ok (v,stack.setLane size s)

def push [Allocator] (stack : ValueStack) (size : OperandSize) (v : Value size) :
    Except Trap Unit × ValueStack :=
  let (r,s) := (stack.lane size).push v
  (r,stack.setLane size s)

def clear (stack : ValueStack) : ValueStack := ⟨fun size => (stack.lane size).clear⟩

-- A lane that cannot grow leaves the lanes before it with their locals entered.
def enterLocals [Allocator] (stack : ValueStack) (params locals : ValueCounts) :
    Except Trap StackBase × ValueStack :=
  match (stack.lane .s32).enterLocals 0 (params .s32) (locals .s32) with
  | (.error trap,s32) => (.error trap,stack.setLane .s32 s32)
  | (.ok base32,s32) =>
    let stack := stack.setLane .s32 s32
    match (stack.lane .s64).enterLocals 0 (params .s64) (locals .s64) with
    | (.error trap,s64) => (.error trap,stack.setLane .s64 s64)
    | (.ok base64,s64) =>
      let stack := stack.setLane .s64 s64
      match (stack.lane .s128).enterLocals 0 (params .s128) (locals .s128) with
      | (.error trap,s128) => (.error trap,stack.setLane .s128 s128)
      | (.ok base128,s128) => (.ok (.of base32 base64 base128),stack.setLane .s128 s128)

def truncateKeepCounts (stack : ValueStack) (base : StackBase) (keep : ValueCounts) : ValueStack :=
  ⟨fun size => (stack.lane size).truncateKeep (base size) (keep size)⟩

def truncateToBase (stack : ValueStack) (base : StackBase) : ValueStack :=
  ⟨fun size => (stack.lane size).truncateTo (base size)⟩

def popWasmValue (stack : ValueStack) (type : WasmType) : Checked (WasmValue × ValueStack) :=
  match type with
  | .i32 => do
    let (v,stack) ← stack.pop .s32
    .ok (.i32 v,stack)
  | .i64 => do
    let (v,stack) ← stack.pop .s64
    .ok (.i64 v,stack)
  | .f32 => do
    let (v,stack) ← stack.pop .s32
    .ok (.f32 v,stack)
  | .f64 => do
    let (v,stack) ← stack.pop .s64
    .ok (.f64 v,stack)
  | .refExtern => do
    let (v,stack) ← stack.pop .s32
    .ok (.refExtern ⟨v⟩,stack)
  | .refFunc => do
    let (v,stack) ← stack.pop .s32
    .ok (.refFunc ⟨v⟩,stack)
  | .v128 => do
    let (v,stack) ← stack.pop .s128
    .ok (.v128 v,stack)

def popTypes (stack : ValueStack) : List WasmType → Checked (List WasmValue × ValueStack)
  | [] => .ok ([],stack)
  | type :: types => do
    let (v,stack) ← stack.popWasmValue type
    let (vs,stack) ← stack.popTypes types
    .ok (v :: vs,stack)

def pushWasmValue [Allocator] (stack : ValueStack) : WasmValue → Except Trap Unit × ValueStack
  | .i32 v | .f32 v => stack.push .s32 v
  | .i64 v | .f64 v => stack.push .s64 v
  | .refExtern v | .refFunc v => stack.push .s32 v.raw
  | .v128 v => stack.push .s128 v

-- What was pushed before a failure stays on the stack.
def extendFromWasmValues [Allocator] (stack : ValueStack) : List WasmValue → Except Trap Unit × ValueStack
  | [] => (.ok (),stack)
  | v :: vs =>
    match stack.pushWasmValue v with
    | (.error trap,stack) => (.error trap,stack)
    | (.ok (),stack) => stack.extendFromWasmValues vs

end ValueStack

structure CallFrame where
  instrPtr : Nat
  funcAddr : FuncAddr
  localsBase : StackBase
  stackOffset : ValueCounts

namespace CallFrame

def new (funcAddr : FuncAddr) (localsBase : StackBase) (stackOffset : ValueCounts) : CallFrame :=
  ⟨0,funcAddr,localsBase,stackOffset⟩

def stackBase (cf : CallFrame) : StackBase := fun size => cf.localsBase size + cf.stackOffset size

def incrInstrPtr (cf : CallFrame) : CallFrame := {cf with instrPtr := cf.instrPtr + 1}

end CallFrame

structure CallStack where
  stack : List CallFrame
  capacity : Nat
  maxSize : Nat
  dynamic : Bool

namespace CallStack

@[reducible] def len (s : CallStack) : Nat := s.stack.length

def clear (s : CallStack) : CallStack := {s with stack := []}

def truncateTo (s : CallStack) (len : Nat) : CallStack := {s with stack := s.stack.take len}

def popFrame (s : CallStack) (base : Nat) : Option CallFrame × CallStack :=
  if s.len = base then (none,s) else (s.stack.getLast?,{s with stack := s.stack.dropLast})

-- Vec::try_reserve grows by at least the larger of the request and a doubling.
def ensureCapacityFor [Allocator] (s : CallStack) (requiredLen : Nat) : Except Trap CallStack :=
  if requiredLen ≤ s.capacity then .ok s
  else if requiredLen > s.maxSize ∨ s.dynamic = false then .error .callStackOverflow
  else
    let target := min (max requiredLen (max s.capacity 1 * 2)) s.maxSize
    let additional := target - s.len
    if additional ≤ s.capacity - s.len then .ok s
    else if Allocator.tryReserveExact additional then
      .ok {s with capacity := max (s.len + additional) (s.capacity * 2)}
    else .error .callStackOverflow

def push [Allocator] (s : CallStack) (cf : CallFrame) : Except Trap CallStack := do
  let s ← s.ensureCapacityFor (s.len + 1)
  .ok {s with stack := s.stack ++ [cf.incrInstrPtr]}

end CallStack

end TinyWasm
