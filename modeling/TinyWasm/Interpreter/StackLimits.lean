import TinyWasm.Store.State

namespace TinyWasm
open ListRange

-- The three value stacks and the call stack of one store.
inductive StackId where
  | lane (size : OperandSize)
  | calls
  deriving DecidableEq

structure Stacks where
  values : ValueStack
  calls : CallStack

def Stacks.new (config : Config) : Stacks := ⟨.new config,.new config⟩

def Stacks.height (s : Stacks) : StackId → Nat
  | .lane size => (s.values.lane size).len
  | .calls => s.calls.len

def Config.stack (config : Config) : StackId → StackConfig
  | .lane size => config.valueStack size
  | .calls => config.callStack

-- A stack that may not grow ends where it was reserved.
def StackConfig.limit (config : StackConfig) : Nat :=
  if config.dynamic then config.maxSize else config.initialSize

-- What the executor does to its stacks. Moving a list of values or a whole
-- multi-value select is a sequence of these.
inductive StackOp where
  | push (size : OperandSize) (v : Value size)
  | pop (size : OperandSize)
  | set (size : OperandSize) (index : Nat) (v : Value size)
  | copy (size : OperandSize) (src dst : Nat)
  | selectMany (size : OperandSize) (count : Nat) (condition : Bool)
  | enterLocals (params locals : ValueCounts)
  | truncateKeepCounts (base : StackBase) (keep : ValueCounts)
  | truncateToBase (base : StackBase)
  | truncateToOneTail (size : OperandSize) (n : Nat)
  | pushFrame (cf : CallFrame)
  | popFrame (base : Nat)
  | truncateFrames (len : Nat)
  | clear

def Stacks.setLane (s : Stacks) (size : OperandSize) (lane : Stack (Value size)) : Stacks :=
  {s with values := s.values.setLane size lane}

def StackOp.apply [Allocator] (s : Stacks) : StackOp → Checked (Except Trap Unit × Stacks)
  | .push size v => .ok ((s.values.push size v).1,{s with values := (s.values.push size v).2})
  | .pop size => do
    let (_,lane) ← (s.values.lane size).pop
    .ok (.ok (),s.setLane size lane)
  | .set size index v => do
    let lane ← (s.values.lane size).set index v
    .ok (.ok (),s.setLane size lane)
  | .copy size src dst => do
    let lane ← (s.values.lane size).copy src dst
    .ok (.ok (),s.setLane size lane)
  | .selectMany size count condition => do
    let lane ← (s.values.lane size).selectMany count condition
    .ok (.ok (),s.setLane size lane)
  | .enterLocals params locals =>
    match s.values.enterLocals params locals with
    | (.ok _,values) => .ok (.ok (),{s with values})
    | (.error trap,values) => .ok (.error trap,{s with values})
  | .truncateKeepCounts base keep => .ok (.ok (),{s with values := s.values.truncateKeepCounts base keep})
  | .truncateToBase base => .ok (.ok (),{s with values := s.values.truncateToBase base})
  | .truncateToOneTail size n => do
    let lane ← (s.values.lane size).truncateToOneTail n
    .ok (.ok (),s.setLane size lane)
  | .pushFrame cf =>
    match s.calls.push cf with
    | .ok calls => .ok (.ok (),{s with calls})
    | .error trap => .ok (.error trap,s)
  | .popFrame base => .ok (.ok (),{s with calls := (s.calls.popFrame base).2})
  | .truncateFrames len => .ok (.ok (),{s with calls := s.calls.truncateTo len})
  | .clear => .ok (.ok (),⟨s.values.clear,s.calls.clear⟩)

-- Entering a function takes its parameters from the stack. The executor calls
-- it on validated code only.
def StackOp.Admissible (s : Stacks) : StackOp → Prop
  | .enterLocals params _ => ∀ size, params size ≤ (s.values.lane size).len
  | _ => True

-- The heights an operation asks for, on the stacks it makes higher.
def StackOp.Requests (s : Stacks) : StackOp → StackId → Nat → Prop
  | .push size _,id,n => id = .lane size ∧ n = (s.values.lane size).len + 1
  | .enterLocals params locals,id,n =>
    ∃ size, id = .lane size ∧ n = (s.values.lane size).len - params size + locals size
  | .pushFrame _,id,n => id = .calls ∧ n = s.calls.len + 1
  | _,_,_ => False

-- A trap is answered as a value, so a run goes on with the stacks it left.
inductive StacksReached [Allocator] (config : Config) : Stacks → Prop where
  | start : StacksReached config (.new config)
  | step {s t : Stacks} {op : StackOp} {r : Except Trap Unit} (prior : StacksReached config s)
      (admissible : op.Admissible s) (applied : op.apply s = .ok (r,t)) : StacksReached config t

-- The limits as configured: no stack is ever higher than its maximum, and on a
-- host with memory to spare a trap means that a stack would have to be.
structure LimitsExact (config : Config) : Prop where
  bounded [Allocator] {s : Stacks} (reached : StacksReached config s) (id : StackId) :
    s.height id ≤ (config.stack id).maxSize
  needed [Allocator] [Generous] {s t : Stacks} {op : StackOp} {trap : Trap} (reached : StacksReached config s)
    (admissible : op.Admissible s) (trapped : op.apply s = .ok (.error trap,t)) :
    ∃ id n, op.Requests s id n ∧ (config.stack id).limit < n

-- The heights a call stack that doubles can be reserved at.
def StackConfig.DoublesToMax (config : StackConfig) : Prop :=
  config.maxSize = config.initialSize ∨ ∃ k, config.maxSize = max config.initialSize 1 * 2 ^ k

namespace Stack
variable {α : Type} {s t : Stack α} {config : StackConfig}

-- Reserved within the maximum, and at the initial size where it may not grow.
structure Fits (config : StackConfig) (s : Stack α) : Prop where
  maxSize_eq : s.maxSize = config.maxSize
  dynamic_eq : s.dynamic = config.dynamic
  len_le : s.data.length ≤ s.capacity
  capacity_le : s.capacity ≤ config.maxSize
  fixed : config.dynamic = false → s.capacity = config.initialSize

theorem new_fits (ordered : config.initialSize ≤ config.maxSize) : (Stack.new config : Stack α).Fits config :=
  ⟨rfl,rfl,Nat.zero_le _,ordered,fun _ => rfl⟩

theorem Fits.withData (fits : s.Fits config) {data : List α} (lower : data.length ≤ s.data.length) :
    Fits config {s with data := data} :=
  ⟨fits.maxSize_eq,fits.dynamic_eq,Nat.le_trans lower fits.len_le,fits.capacity_le,fits.fixed⟩

theorem Fits.limit_le (fits : s.Fits config) : s.capacity ≤ config.limit := by
  unfold StackConfig.limit
  split
  · exact fits.capacity_le
  · rename_i fixed
    exact Nat.le_of_eq (fits.fixed (Bool.eq_false_iff.mpr fixed))

-- What is asked for past the capacity and not granted is past the limit.
theorem Fits.past_limit (fits : s.Fits config) {n : Nat} (full : s.capacity < n)
    (denied : n > s.maxSize ∨ s.dynamic = false) : config.limit < n := by
  rw [fits.maxSize_eq,fits.dynamic_eq] at denied
  unfold StackConfig.limit
  split
  · rename_i growing
    rcases denied with above | fixed
    · exact above
    · rw [fixed] at growing
      cases growing
  · rename_i fixed
    rw [←fits.fixed (Bool.eq_false_iff.mpr fixed)]
    exact full

theorem pop_fits (fits : s.Fits config) {v : α} (popped : s.pop = .ok (v,t)) : t.Fits config := by
  unfold pop at popped
  split at popped
  · cases popped
    exact fits.withData (by simp only [List.length_dropLast]; omega)
  · cases popped

theorem set_fits (fits : s.Fits config) {index : Nat} {v : α} (stored : s.set index v = .ok t) :
    t.Fits config := by
  unfold set at stored
  split at stored
  · cases stored
    exact fits.withData (Nat.le_of_eq List.length_set)
  · cases stored

theorem copy_fits (fits : s.Fits config) {src dst : Nat} (copied : s.copy src dst = .ok t) : t.Fits config := by
  unfold copy at copied
  cases read : s.get src with
  | error abort => rw [read] at copied; cases copied
  | ok v =>
    rw [read] at copied
    exact set_fits fits copied

theorem selectMany_fits (fits : s.Fits config) {count : Nat} {condition : Bool}
    (selected : s.selectMany count condition = .ok t) : t.Fits config := by
  unfold selectMany at selected
  simp only [len] at selected
  split at selected
  · cases selected; exact fits
  · split at selected
    · cases selected
    · split at selected <;> cases selected
      · exact fits.withData (by simp only [List.length_take]; omega)
      · exact fits.withData (by simp only [List.length_append,List.length_take,List.length_drop]; omega)

theorem truncateKeep_fits (fits : s.Fits config) (n endKeep : Nat) : (s.truncateKeep n endKeep).Fits config := by
  unfold truncateKeep
  simp only [len]
  split
  · exact fits
  · exact fits.withData (by simp only [List.length_append,List.length_take,List.length_drop]; omega)

theorem truncateTo_fits (fits : s.Fits config) (n : Nat) : (s.truncateTo n).Fits config :=
  fits.withData (by simp only [List.length_take]; omega)

theorem truncateToOneTail_fits (fits : s.Fits config) {n : Nat} (kept : s.truncateToOneTail n = .ok t) :
    t.Fits config := by
  unfold truncateToOneTail pop at kept
  split at kept
  · rename_i v got
    cases kept
    have some_value : s.data ≠ [] := by
      intro nothing
      rw [nothing] at got
      cases got
    have positive := List.length_pos_iff.mpr some_value
    exact fits.withData (by
      simp only [List.length_append,List.length_take,List.length_dropLast,List.length_singleton]
      omega)
  · cases kept

section Growth
variable [Allocator]

-- Growing from a full stack reserves at most the maximum.
theorem Fits.grown (fits : s.Fits config) (target : Nat) (growing : s.dynamic = true)
    (low : s.data.length ≤ target) (high : target ≤ config.maxSize) (larger : s.capacity < target)
    (reserved : s.tryReserveExact (target - s.data.length) = some t) :
    t.Fits config ∧ t.data = s.data ∧ target ≤ t.capacity := by
  have below := fits.len_le
  unfold tryReserveExact at reserved
  simp only [len] at reserved
  rw [if_neg (by omega)] at reserved
  split at reserved
  · cases reserved
    have total : s.data.length + (target - s.data.length) = target := by omega
    refine ⟨⟨fits.maxSize_eq,fits.dynamic_eq,?_,?_,?_⟩,rfl,?_⟩
    · exact Nat.le_add_right _ _
    · simpa only [total] using high
    · intro fixed
      rw [←fits.dynamic_eq,growing] at fixed
      cases fixed
    · simp only [total]
      exact Nat.le_refl target
  · cases reserved

theorem ensureCapacityFor_fits (fits : s.Fits config) (ensured : s.ensureCapacityFor (s.len + 1) = some t) :
    t.Fits config ∧ t.data = s.data ∧ s.data.length + 1 ≤ t.capacity := by
  have below := fits.len_le
  unfold ensureCapacityFor at ensured
  simp only [len] at ensured
  split at ensured
  · split at ensured
    · cases ensured
    · rename_i full allowed
      have at_capacity : s.capacity = s.data.length := by omega
      rw [at_capacity,fits.maxSize_eq] at ensured
      rw [fits.maxSize_eq] at allowed
      obtain ⟨fits',same,room⟩ := fits.grown
        (min (max (s.data.length + 1) (max s.data.length 1 * 2)) config.maxSize)
        (by simpa using fun fixed => allowed (Or.inr fixed)) (by omega) (by omega) (by omega) ensured
      exact ⟨fits',same,by omega⟩
  · cases ensured
    exact ⟨fits,rfl,by omega⟩

theorem push_fits (fits : s.Fits config) (v : α) : (s.push v).2.Fits config := by
  unfold push
  cases ensured : s.ensureCapacityFor (s.len + 1) with
  | none => exact fits
  | some t =>
    obtain ⟨fits',same,room⟩ := ensureCapacityFor_fits fits ensured
    refine ⟨fits'.maxSize_eq,fits'.dynamic_eq,?_,fits'.capacity_le,fits'.fixed⟩
    simpa only [same,List.length_append,List.length_singleton] using room

theorem tryReserveExact_some [Generous] (additional : Nat) : ∃ t, s.tryReserveExact additional = some t := by
  unfold tryReserveExact
  rw [Generous.grants]
  split <;> exact ⟨_,rfl⟩

theorem push_needed [Generous] (fits : s.Fits config) {v : α} {trap : Trap} (trapped : (s.push v).1 = .error trap) :
    config.limit < s.len + 1 := by
  unfold push at trapped
  cases ensured : s.ensureCapacityFor (s.len + 1) with
  | some t => rw [ensured] at trapped; cases trapped
  | none =>
    unfold ensureCapacityFor at ensured
    split at ensured
    · split at ensured
      · exact fits.past_limit ‹_› ‹_›
      · obtain ⟨t,reserved⟩ := tryReserveExact_some (s := s)
          (min (max (s.len + 1) (max s.capacity 1 * 2)) s.maxSize - s.capacity)
        rw [reserved] at ensured
        cases ensured
    · cases ensured

-- The stack with room for its locals, or the stack as it was.
theorem Fits.enterLocals_cases (fits : s.Fits config) (default : α) {paramCount localCount : Nat}
    (present : paramCount ≤ s.data.length) :
    (∃ t : Stack α, t.Fits config ∧ t.data = s.data ∧ s.data.length - paramCount + localCount ≤ t.capacity ∧
      s.enterLocals default paramCount localCount = (.ok (s.data.length - paramCount),
        {t with data := t.data.take (s.data.length - paramCount + localCount) ++
          List.replicate (s.data.length - paramCount + localCount - t.data.length) default})) ∨
    (s.enterLocals default paramCount localCount = (.error .valueStackOverflow,s) ∧
      ∀ [Generous], config.limit < s.data.length - paramCount + localCount) := by
  have below := fits.len_le
  unfold enterLocals
  simp only [len,if_pos present]
  generalize asked : s.data.length - paramCount + localCount = n
  by_cases full : n > s.capacity
  · rw [if_pos full]
    by_cases denied : n > s.maxSize ∨ s.dynamic = false
    · rw [if_pos denied]
      exact .inr ⟨rfl,fits.past_limit full denied⟩
    · rw [if_neg denied]
      rw [fits.maxSize_eq] at denied ⊢
      cases reserved : s.tryReserveExact (min (max n (max s.capacity 1 * 2)) config.maxSize - s.data.length) with
      | some t =>
        obtain ⟨fits',same,room⟩ := fits.grown (min (max n (max s.capacity 1 * 2)) config.maxSize)
          (by simpa using fun fixed => denied (Or.inr fixed)) (by omega) (by omega) (by omega) reserved
        exact .inl ⟨t,fits',same,by omega,rfl⟩
      | none =>
        refine .inr ⟨rfl,?_⟩
        intro _
        obtain ⟨t,granted⟩ := tryReserveExact_some (s := s)
          (min (max n (max s.capacity 1 * 2)) config.maxSize - s.data.length)
        rw [granted] at reserved
        cases reserved
  · rw [if_neg full]
    exact .inl ⟨s,fits,rfl,by omega,rfl⟩

theorem Fits.enterLocals (fits : s.Fits config) (default : α) {paramCount : Nat} (localCount : Nat)
    (present : paramCount ≤ s.data.length) : (s.enterLocals default paramCount localCount).2.Fits config := by
  rcases fits.enterLocals_cases default present with ⟨t,fits',same,room,entered⟩ | ⟨entered,_⟩
  · rw [entered]
    refine ⟨fits'.maxSize_eq,fits'.dynamic_eq,?_,fits'.capacity_le,fits'.fixed⟩
    simp only [List.length_append,List.length_take,List.length_replicate]
    have size := fits'.len_le
    omega
  · rw [entered]
    exact fits

theorem Fits.enterLocals_needed [Generous] (fits : s.Fits config) {default : α} {paramCount localCount : Nat}
    (present : paramCount ≤ s.data.length) {trap : Trap}
    (trapped : (s.enterLocals default paramCount localCount).1 = .error trap) :
    config.limit < s.data.length - paramCount + localCount := by
  rcases fits.enterLocals_cases default present with ⟨t,_,_,_,entered⟩ | ⟨_,past⟩
  · rw [entered] at trapped
    cases trapped
  · exact past

end Growth

end Stack

namespace ValueStack
variable {config : Config} {stack : ValueStack}

def Fits (config : Config) (stack : ValueStack) : Prop := ∀ size, (stack.lane size).Fits (config.valueStack size)

theorem Fits.setLane (fits : stack.Fits config) {size : OperandSize} {lane : Stack (Value size)}
    (lane_fits : lane.Fits (config.valueStack size)) : (stack.setLane size lane).Fits config := by
  intro other
  by_cases same : other = size
  · subst same
    rw [setLane_same]
    exact lane_fits
  · rw [setLane_other stack lane same]
    exact fits other

variable [Allocator]

-- The lanes are entered in turn, each at the height it had before.
theorem Fits.enterLocals (fits : stack.Fits config) {params : ValueCounts} (locals : ValueCounts)
    (present : ∀ size, params size ≤ (stack.lane size).len) :
    (stack.enterLocals params locals).2.Fits config ∧
    ∀ [Generous] {trap : Trap}, (stack.enterLocals params locals).1 = .error trap →
      ∃ size, (config.valueStack size).limit < (stack.lane size).len - params size + locals size := by
  have entered (size : OperandSize) := (fits size).enterLocals (0 : Value size) (locals size) (present size)
  unfold ValueStack.enterLocals
  simp only [setLane_other stack _ (show OperandSize.s64 ≠ .s32 by decide),
    setLane_other _ _ (show OperandSize.s128 ≠ .s64 by decide),
    setLane_other stack _ (show OperandSize.s128 ≠ .s32 by decide)]
  have first := entered .s32
  have second := entered .s64
  have third := entered .s128
  cases low : (stack.lane .s32).enterLocals 0 (params .s32) (locals .s32) with
  | mk r32 lane32 =>
    rw [low] at first
    have fits32 := fits.setLane first
    cases r32 with
    | error trap =>
      exact ⟨fits32,fun _ => ⟨.s32,(fits .s32).enterLocals_needed (present .s32) (congrArg Prod.fst low)⟩⟩
    | ok base32 =>
      cases middle : (stack.lane .s64).enterLocals 0 (params .s64) (locals .s64) with
      | mk r64 lane64 =>
        rw [middle] at second
        have fits64 := fits32.setLane second
        cases r64 with
        | error trap =>
          exact ⟨fits64,fun _ => ⟨.s64,(fits .s64).enterLocals_needed (present .s64) (congrArg Prod.fst middle)⟩⟩
        | ok base64 =>
          cases high : (stack.lane .s128).enterLocals 0 (params .s128) (locals .s128) with
          | mk r128 lane128 =>
            rw [high] at third
            have fits128 := fits64.setLane third
            cases r128 with
            | error trap =>
              exact ⟨fits128,fun _ =>
                ⟨.s128,(fits .s128).enterLocals_needed (present .s128) (congrArg Prod.fst high)⟩⟩
            | ok base128 => exact ⟨fits128,fun trapped => by cases trapped⟩

end ValueStack

namespace CallStack
variable {config : StackConfig} {s t : CallStack}

-- A call stack reserved at a height that doubling can reach.
structure Fits (config : StackConfig) (s : CallStack) : Prop where
  maxSize_eq : s.maxSize = config.maxSize
  dynamic_eq : s.dynamic = config.dynamic
  len_le : s.stack.length ≤ s.capacity
  capacity_le : s.capacity ≤ config.maxSize
  fixed : config.dynamic = false → s.capacity = config.initialSize
  doubled : s.capacity = config.initialSize ∨ ∃ k, s.capacity = max config.initialSize 1 * 2 ^ k

theorem new_fits {config : Config} (ordered : config.callStack.initialSize ≤ config.callStack.maxSize) :
    (CallStack.new config).Fits config.callStack :=
  ⟨rfl,rfl,Nat.zero_le _,ordered,fun _ => rfl,.inl rfl⟩

theorem Fits.withFrames (fits : s.Fits config) {frames : List CallFrame}
    (lower : frames.length ≤ s.stack.length) : Fits config {s with stack := frames} :=
  ⟨fits.maxSize_eq,fits.dynamic_eq,Nat.le_trans lower fits.len_le,fits.capacity_le,fits.fixed,fits.doubled⟩

theorem Fits.truncateTo (fits : s.Fits config) (len : Nat) : (s.truncateTo len).Fits config :=
  fits.withFrames (by simp only [List.length_take]; omega)

theorem Fits.popFrame (fits : s.Fits config) (base : Nat) : (s.popFrame base).2.Fits config := by
  unfold CallStack.popFrame
  split
  · exact fits
  · exact fits.withFrames (by simp only [List.length_dropLast]; omega)

-- What a full stack asks for, and the room that a grant leaves it with.
def nextRequest (config : StackConfig) (c : Nat) : Nat :=
  min (max (c + 1) (max c 1 * 2)) config.maxSize - c

def nextCapacity (config : StackConfig) (c : Nat) : Nat :=
  max (min (max (c + 1) (max c 1 * 2)) config.maxSize) (c * 2)

theorem nextCapacity_doubles (some_room : 1 ≤ c) : nextCapacity config c = c * 2 := by
  unfold nextCapacity
  omega

theorem nextCapacity_fits (doubles : config.DoublesToMax) {c : Nat} (room : c + 1 ≤ config.maxSize)
    (doubled : c = config.initialSize ∨ ∃ k, c = max config.initialSize 1 * 2 ^ k) :
    nextCapacity config c ≤ config.maxSize ∧ ∃ k, nextCapacity config c = max config.initialSize 1 * 2 ^ k := by
  have unit : 0 < max config.initialSize 1 := by omega
  rcases Nat.eq_zero_or_pos c with rfl | positive
  · have empty : config.initialSize = 0 := by
      rcases doubled with same | ⟨k,same⟩
      · exact same.symm
      · have power := Nat.mul_pos unit (Nat.two_pow_pos k)
        omega
    obtain same | ⟨k,same⟩ := doubles
    · omega
    · rw [empty] at same ⊢
      cases k with
      | zero => exact ⟨by unfold nextCapacity; omega,0,by unfold nextCapacity; omega⟩
      | succ k =>
        have power := Nat.two_pow_pos k
        rw [Nat.pow_succ,show max 0 1 = 1 from rfl,Nat.one_mul] at same
        exact ⟨by unfold nextCapacity; omega,1,by unfold nextCapacity; omega⟩
  · have ⟨j,height⟩ : ∃ j, c = max config.initialSize 1 * 2 ^ j := by
      rcases doubled with same | reached
      · exact ⟨0,by rw [Nat.pow_zero]; omega⟩
      · exact reached
    rw [nextCapacity_doubles positive]
    refine ⟨?_,j + 1,by rw [height,Nat.pow_succ,Nat.mul_assoc]⟩
    obtain same | ⟨k,same⟩ := doubles
    · have least := Nat.le_mul_of_pos_right (max config.initialSize 1) (Nat.two_pow_pos j)
      omega
    · have below : max config.initialSize 1 * 2 ^ j < max config.initialSize 1 * 2 ^ k := by omega
      have exponents := (Nat.pow_lt_pow_iff_right (by decide)).mp (Nat.lt_of_mul_lt_mul_left below)
      have next := Nat.mul_le_mul_left (max config.initialSize 1)
        (Nat.pow_le_pow_right (show 0 < 2 by decide) exponents)
      rw [Nat.pow_succ,←Nat.mul_assoc] at next
      omega

variable [Allocator]

theorem push_within (cf : CallFrame) (room : s.stack.length < s.capacity) :
    s.push cf = .ok {s with stack := s.stack ++ [cf.incrInstrPtr]} := by
  unfold push ensureCapacityFor
  simp only [len]
  rw [if_pos (by omega)]
  rfl

theorem push_full (cf : CallFrame) (maxSize_eq : s.maxSize = config.maxSize) (growing : s.dynamic = true)
    (full : s.stack.length = s.capacity) (room : s.capacity + 1 ≤ config.maxSize) :
    s.push cf = if Allocator.tryReserveExact (nextRequest config s.capacity) then
        .ok {s with stack := s.stack ++ [cf.incrInstrPtr],capacity := nextCapacity config s.capacity}
      else .error .callStackOverflow := by
  unfold push ensureCapacityFor
  simp only [len,full,maxSize_eq,growing]
  have total : s.capacity + (min (max (s.capacity + 1) (max s.capacity 1 * 2)) config.maxSize - s.capacity) =
      min (max (s.capacity + 1) (max s.capacity 1 * 2)) config.maxSize := by omega
  rw [if_neg (by omega),if_neg (by simp; omega),if_neg (by omega),total]
  unfold nextRequest nextCapacity
  split <;> rfl

theorem Fits.push_cases (fits : s.Fits config) (doubles : config.dynamic = true → config.DoublesToMax)
    (cf : CallFrame) :
    (∃ t, s.push cf = .ok t ∧ t.Fits config) ∨
    ((∃ trap, s.push cf = .error trap) ∧ ∀ [Generous], config.limit < s.stack.length + 1) := by
  have below := fits.len_le
  by_cases room : s.stack.length < s.capacity
  · refine .inl ⟨_,push_within cf room,fits.maxSize_eq,fits.dynamic_eq,?_,fits.capacity_le,fits.fixed,fits.doubled⟩
    simp only [List.length_append,List.length_singleton]
    exact room
  · have full : s.stack.length = s.capacity := by omega
    by_cases denied : s.stack.length + 1 > s.maxSize ∨ s.dynamic = false
    · refine .inr ⟨⟨.callStackOverflow,?_⟩,?_⟩
      · unfold push ensureCapacityFor
        simp only [len]
        rw [if_neg (by omega),if_pos denied]
        rfl
      · intro _
        rw [fits.maxSize_eq,fits.dynamic_eq] at denied
        unfold StackConfig.limit
        split
        · rename_i growing
          rcases denied with above | stuck
          · exact above
          · rw [stuck] at growing
            cases growing
        · rename_i stuck
          rw [←fits.fixed (Bool.eq_false_iff.mpr stuck),full]
          exact Nat.lt_succ_self _
    · have growing : s.dynamic = true := by simpa using fun stuck => denied (Or.inr stuck)
      have maximum := fits.maxSize_eq
      have higher : s.capacity + 1 ≤ config.maxSize := by omega
      have pushed := push_full cf maximum growing full higher
      cases granted : Allocator.tryReserveExact (nextRequest config s.capacity) with
      | true =>
        obtain ⟨most,reached⟩ := nextCapacity_fits (doubles (fits.dynamic_eq ▸ growing)) higher fits.doubled
        rw [granted,if_pos rfl] at pushed
        refine .inl ⟨_,pushed,maximum,fits.dynamic_eq,?_,most,?_,.inr reached⟩
        · simp only [List.length_append,List.length_singleton,nextCapacity]
          omega
        · intro stuck
          rw [←fits.dynamic_eq,growing] at stuck
          cases stuck
      | false =>
        rw [granted] at pushed
        refine .inr ⟨⟨_,pushed⟩,?_⟩
        intro generous
        rw [generous.grants] at granted
        cases granted

end CallStack

namespace Stacks
variable {config : Config} {s t : Stacks} {op : StackOp} {r : Except Trap Unit}

def Fits (config : Config) (s : Stacks) : Prop := s.values.Fits config ∧ s.calls.Fits config.callStack

theorem new_fits (ordered : ∀ id, (config.stack id).initialSize ≤ (config.stack id).maxSize) :
    (Stacks.new config).Fits config :=
  ⟨fun size => Stack.new_fits (ordered (.lane size)),CallStack.new_fits (ordered .calls)⟩

theorem Fits.height_le (fits : s.Fits config) (id : StackId) : s.height id ≤ (config.stack id).maxSize := by
  cases id with
  | lane size => exact Nat.le_trans (fits.1 size).len_le (fits.1 size).capacity_le
  | calls => exact Nat.le_trans fits.2.len_le fits.2.capacity_le

theorem Fits.setLane (fits : s.Fits config) {size : OperandSize} {lane : Stack (Value size)}
    (lane_fits : lane.Fits (config.valueStack size)) : (s.setLane size lane).Fits config :=
  ⟨fits.1.setLane lane_fits,fits.2⟩

-- An operation on one lane that answers with the lane it left.
theorem Fits.lane (fits : s.Fits config) {size : OperandSize} {lane : Checked (Stack (Value size))}
    (lane_fits : ∀ {after}, lane = .ok after → after.Fits (config.valueStack size))
    (applied : (do let after ← lane; .ok (.ok (),s.setLane size after) : Checked (Except Trap Unit × Stacks)) =
      .ok (r,t)) : t.Fits config ∧ r = .ok () := by
  cases ran : lane with
  | error abort => rw [ran] at applied; cases applied
  | ok after =>
    rw [ran] at applied
    cases applied
    exact ⟨fits.setLane (lane_fits ran),rfl⟩

variable [Allocator]

theorem step_fits (doubles : config.callStack.dynamic = true → config.callStack.DoublesToMax)
    (fits : s.Fits config) (admissible : op.Admissible s) (applied : op.apply s = .ok (r,t)) :
    t.Fits config ∧ ∀ [Generous] {trap : Trap}, r = .error trap →
      ∃ id n, op.Requests s id n ∧ (config.stack id).limit < n := by
  have quiet (result : t.Fits config ∧ r = .ok ()) : t.Fits config ∧ ∀ [Generous] {trap : Trap},
      r = .error trap → ∃ id n, op.Requests s id n ∧ (config.stack id).limit < n :=
    ⟨result.1,fun trapped => by rw [result.2] at trapped; cases trapped⟩
  cases op with
  | push size v =>
    cases applied
    exact ⟨fits.setLane (Stack.push_fits (fits.1 size) v),
      fun trapped => ⟨.lane size,_,⟨rfl,rfl⟩,Stack.push_needed (fits.1 size) trapped⟩⟩
  | pop size =>
    refine quiet ?_
    simp only [StackOp.apply] at applied
    cases popped : (s.values.lane size).pop with
    | error abort => rw [popped] at applied; cases applied
    | ok result =>
      rw [popped] at applied
      cases applied
      exact ⟨fits.setLane (Stack.pop_fits (fits.1 size) popped),rfl⟩
  | set size index v => exact quiet (fits.lane (Stack.set_fits (fits.1 size)) applied)
  | copy size src dst => exact quiet (fits.lane (Stack.copy_fits (fits.1 size)) applied)
  | selectMany size count condition => exact quiet (fits.lane (Stack.selectMany_fits (fits.1 size)) applied)
  | truncateToOneTail size n => exact quiet (fits.lane (Stack.truncateToOneTail_fits (fits.1 size)) applied)
  | enterLocals params locals =>
    obtain ⟨entered,needed⟩ := fits.1.enterLocals locals admissible
    simp only [StackOp.apply] at applied
    cases ran : s.values.enterLocals params locals with
    | mk result values =>
      rw [ran] at applied entered needed
      cases result with
      | ok base =>
        cases applied
        exact quiet ⟨⟨entered,fits.2⟩,rfl⟩
      | error trap =>
        cases applied
        refine ⟨⟨entered,fits.2⟩,fun _ => ?_⟩
        obtain ⟨size,past⟩ := needed rfl
        exact ⟨.lane size,_,⟨size,rfl,rfl⟩,past⟩
  | truncateKeepCounts base keep =>
    cases applied
    exact quiet ⟨⟨fun size => Stack.truncateKeep_fits (fits.1 size) _ _,fits.2⟩,rfl⟩
  | truncateToBase base =>
    cases applied
    exact quiet ⟨⟨fun size => Stack.truncateTo_fits (fits.1 size) _,fits.2⟩,rfl⟩
  | pushFrame cf =>
    simp only [StackOp.apply] at applied
    rcases fits.2.push_cases doubles cf with ⟨calls,pushed,calls_fit⟩ | ⟨⟨trap,refused⟩,past⟩
    · rw [pushed] at applied
      cases applied
      exact quiet ⟨⟨fits.1,calls_fit⟩,rfl⟩
    · rw [refused] at applied
      cases applied
      exact ⟨fits,fun _ => ⟨.calls,_,⟨rfl,rfl⟩,past⟩⟩
  | popFrame base =>
    cases applied
    exact quiet ⟨⟨fits.1,fits.2.popFrame base⟩,rfl⟩
  | truncateFrames len =>
    cases applied
    exact quiet ⟨⟨fits.1,fits.2.truncateTo len⟩,rfl⟩
  | clear =>
    cases applied
    exact quiet ⟨⟨fun size => (fits.1 size).withData (Nat.zero_le _),fits.2.withFrames (Nat.zero_le _)⟩,rfl⟩

theorem reached_fits (ordered : ∀ id, (config.stack id).initialSize ≤ (config.stack id).maxSize)
    (doubles : config.callStack.dynamic = true → config.callStack.DoublesToMax)
    (reached : StacksReached config s) : s.Fits config := by
  induction reached with
  | start => exact new_fits ordered
  | step _ admissible applied ih => exact (step_fits doubles ih admissible applied).1

theorem pushed_reached (reached : StacksReached config s) (cf : CallFrame) {calls : CallStack}
    (pushed : s.calls.push cf = .ok calls) : StacksReached config {s with calls} := by
  have applied : (StackOp.pushFrame cf).apply s = .ok (.ok (),{s with calls}) := by
    simp only [StackOp.apply,pushed]
  exact .step reached (show (StackOp.pushFrame cf).Admissible s from trivial) applied

def idleFrame : CallFrame := .new 0 (fun _ => 0) (fun _ => 0)

-- Frames are pushed without a check up to the room reserved.
theorem fills (reached : StacksReached config s) {room : Nat}
    (left : s.calls.stack.length + room = s.calls.capacity) :
    ∃ t, StacksReached config t ∧ t.calls.stack.length = s.calls.capacity ∧
      t.calls.capacity = s.calls.capacity ∧ t.calls.maxSize = s.calls.maxSize ∧
      t.calls.dynamic = s.calls.dynamic := by
  induction room generalizing s with
  | zero => exact ⟨s,reached,by omega,rfl,rfl,rfl⟩
  | succ room ih =>
    have next := pushed_reached reached idleFrame (CallStack.push_within idleFrame (by omega))
    have closer : (s.calls.stack ++ [idleFrame.incrInstrPtr]).length + room = s.calls.capacity := by
      simp only [List.length_append,List.length_singleton]
      omega
    obtain ⟨t,result⟩ := ih next closer
    exact ⟨t,result⟩

-- Pushing frames on a host with memory to spare, from one doubling to the next.
section Climb
variable [Generous]

theorem grows (reached : StacksReached config s) (full : s.calls.stack.length = s.calls.capacity)
    (maxSize_eq : s.calls.maxSize = config.callStack.maxSize) (growing : s.calls.dynamic = true)
    (room : s.calls.capacity + 1 ≤ config.callStack.maxSize) :
    ∃ t, StacksReached config t ∧ t.calls.stack.length = t.calls.capacity ∧
      t.calls.capacity = CallStack.nextCapacity config.callStack s.calls.capacity ∧
      t.calls.maxSize = config.callStack.maxSize ∧ t.calls.dynamic = true := by
  have pushed := CallStack.push_full idleFrame maxSize_eq growing full room
  rw [Generous.grants,if_pos rfl] at pushed
  have next := pushed_reached reached idleFrame pushed
  have left : (s.calls.stack ++ [idleFrame.incrInstrPtr]).length +
      (CallStack.nextCapacity config.callStack s.calls.capacity - (s.calls.capacity + 1)) =
      CallStack.nextCapacity config.callStack s.calls.capacity := by
    simp only [List.length_append,List.length_singleton,full,CallStack.nextCapacity]
    omega
  obtain ⟨t,reached',full',capacity,maximum,dynamic⟩ := fills next left
  exact ⟨t,reached',full'.trans capacity.symm,capacity,maximum.trans maxSize_eq,dynamic.trans growing⟩

-- A maximum that no doubling meets is passed by the first that is not below it.
theorem climbs (missed : ¬config.callStack.DoublesToMax) {now : Stacks}
    (reached : StacksReached config now)
    (full : now.calls.stack.length = now.calls.capacity) (maxSize_eq : now.calls.maxSize = config.callStack.maxSize)
    (growing : now.calls.dynamic = true) {k : Nat}
    (height : now.calls.capacity = max config.callStack.initialSize 1 * 2 ^ k) :
    ∃ t, StacksReached config t ∧ config.callStack.maxSize < t.height .calls := by
  by_cases above : config.callStack.maxSize < now.calls.capacity
  · exact ⟨now,reached,Nat.lt_of_lt_of_eq above full.symm⟩
  · have different : now.calls.capacity ≠ config.callStack.maxSize :=
      fun same => missed (.inr ⟨k,same.symm.trans height⟩)
    have positive : 0 < max config.callStack.initialSize 1 * 2 ^ k :=
      Nat.mul_pos (by omega) (Nat.two_pow_pos k)
    obtain ⟨t,reached',full',capacity,maximum,dynamic⟩ := grows reached full maxSize_eq growing (by omega)
    rw [CallStack.nextCapacity_doubles (by omega)] at capacity
    have closer : config.callStack.maxSize - t.calls.capacity <
        config.callStack.maxSize - now.calls.capacity := by omega
    exact climbs missed reached' full' maximum dynamic (k := k + 1)
      (by rw [capacity,height,Nat.pow_succ,Nat.mul_assoc])
termination_by config.callStack.maxSize - now.calls.capacity
decreasing_by exact closer

theorem exceeds (missed : ¬config.callStack.DoublesToMax) (growing : config.callStack.dynamic = true) :
    ∃ t, StacksReached config t ∧ config.callStack.maxSize < t.height .calls := by
  have empty_stacks : StacksReached config (.new config) := .start
  rcases Nat.eq_zero_or_pos config.callStack.initialSize with empty | positive
  · have larger : config.callStack.maxSize ≠ config.callStack.initialSize := fun same => missed (.inl same)
    have single : config.callStack.maxSize ≠ max config.callStack.initialSize 1 * 2 ^ 0 :=
      fun same => missed (.inr ⟨0,same⟩)
    have capacity : (Stacks.new config).calls.capacity = 0 := empty
    obtain ⟨t,reached,full,grown,maximum,dynamic⟩ := grows empty_stacks (by rw [capacity]; rfl) rfl growing
      (by rw [capacity]; omega)
    refine climbs missed reached full maximum dynamic (k := 1) ?_
    rw [grown,capacity,empty]
    unfold CallStack.nextCapacity
    rw [empty] at single
    omega
  · obtain ⟨t,reached,full,capacity,maximum,dynamic⟩ := fills empty_stacks (Nat.zero_add _)
    refine climbs missed reached (full.trans capacity.symm) maximum (dynamic.trans growing) (k := 0) ?_
    have reserved : t.calls.capacity = config.callStack.initialSize := capacity
    rw [reserved,Nat.pow_zero]
    omega

end Climb

end Stacks

variable {config : Config}

-- Three frames reserved and four allowed: the fourth push doubles to six.
def fourFrames : Config where
  valueStack _ := ⟨8,8,false⟩
  callStack := ⟨3,4,true⟩
  fuelPolicy := .perInstruction
  memoryBackend := .vec
  trapOnOom := false

theorem fourFrames_ordered (id : StackId) : (fourFrames.stack id).initialSize ≤ (fourFrames.stack id).maxSize := by
  cases id with
  | lane size => exact Nat.le_refl 8
  | calls => decide

end TinyWasm
