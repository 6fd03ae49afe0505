import TinyWasm.Interpreter.BranchShaping

namespace TinyWasm

-- Up to `base` each lane is as it was.
def ValueStack.Keeps (base : StackBase) (s t : ValueStack) : Prop :=
  ∀ size, base size ≤ t.base size ∧ (t.lane size).data.take (base size) = (s.lane size).data.take (base size)

namespace Stack
variable {α : Type} {s t : Stack α} {n m : Nat}

theorem truncateKeep_lane (room : n + m ≤ s.len) :
    (s.truncateKeep n m).len = n + m ∧ (s.truncateKeep n m).data.take n = s.data.take n := by
  obtain ⟨dropped,data⟩ : ∃ dropped, s.data = s.data.take n ++ dropped ++ s.data.drop (s.len - m) := by
    refine ⟨(s.data.take (s.len - m)).drop n,?_⟩
    have lower : s.data.take n = (s.data.take (s.len - m)).take n := by
      rw [List.take_take,Nat.min_eq_left (by omega)]
    rw [lower,List.take_append_drop,List.take_append_drop]
  have parts := truncateKeep_parts data
  have low : (s.data.take n).length = n := by rw [List.length_take]; exact Nat.min_eq_left (by simp only [len] at room; omega)
  have high : (s.data.drop (s.len - m)).length = m := by rw [List.length_drop]; simp only [len] at room ⊢; omega
  rw [low,high] at parts
  constructor
  · rw [len,parts,List.length_append,low,high]
  · rw [parts,List.take_append_of_le_length (Nat.le_of_eq low.symm),List.take_take,Nat.min_self]

-- Room for the locals of a function is made over all but its parameters.
theorem enterLocals_kept [Allocator] {default : α} {params locals : Nat} {r : Except Trap Nat} (room : n + params ≤ s.len)
    (entered : s.enterLocals default params locals = (r,t)) : n ≤ t.len ∧ t.data.take n = s.data.take n := by
  have low : n ≤ s.data.length := Nat.le_trans (Nat.le_add_right _ _) room
  unfold enterLocals at entered
  rw [if_pos (Nat.le_trans (Nat.le_add_left _ _) room)] at entered
  dsimp only at entered
  split at entered
  · cases entered
    exact ⟨low,rfl⟩
  · rename_i grown ensured
    have same : grown.data = s.data := by
      split at ensured
      · split at ensured
        · cases ensured
        · exact tryReserveExact_data ensured
      · cases ensured; rfl
    cases entered
    dsimp only [len]
    rw [same]
    have within : n ≤ (s.data.take (s.data.length - params + locals)).length := by
      rw [List.length_take]
      simp only [len] at room
      omega
    refine ⟨by rw [List.length_append]; exact Nat.le_trans within (Nat.le_add_right _ _),?_⟩
    rw [List.take_append_of_le_length within,List.take_take,Nat.min_eq_left]
    simp only [len] at room
    omega

theorem enterLocals_lane [Allocator] {default : α} {params locals start : Nat} (height : s.len = n + params) (wide : params ≤ locals)
    (entered : s.enterLocals default params locals = (.ok start,t)) : start = n ∧ t.len = n + locals := by
  have low : (s.data.take n).length = n := by rw [List.length_take]; exact Nat.min_eq_left (by simp only [len] at height; omega)
  have high : (s.data.drop n).length = params := by rw [List.length_drop]; simp only [len] at height; omega
  rw [← high] at entered wide
  obtain ⟨base,data⟩ := enterLocals_entered (List.take_append_drop n s.data).symm wide entered
  refine ⟨base.trans low,?_⟩
  rw [len,data,List.length_append,List.length_append,List.length_replicate,low]
  omega

theorem push_kept [Allocator] {value : α} {r : Except Trap Unit} (pushed : s.push value = (r,t)) : s.data <+: t.data := by
  rcases push_cases s value with full | ⟨grown,added,data⟩
  · cases full.symm.trans pushed
    exact List.prefix_refl _
  · cases added.symm.trans pushed
    rw [data]
    exact List.prefix_append _ _

end Stack

namespace ValueStack
variable {base base' : StackBase} {s t u : ValueStack}

theorem Keeps.refl (low : ∀ size, base size ≤ s.base size) : s.Keeps base s := fun size => ⟨low size,rfl⟩

theorem Keeps.trans (first : Keeps base s t) (rest : Keeps base t u) : Keeps base s u :=
  fun size => ⟨(rest size).1,(rest size).2.trans (first size).2⟩

theorem Keeps.lower (keeps : Keeps base s t) (below : ∀ size, base' size ≤ base size) : Keeps base' s t := by
  intro size
  obtain ⟨low,same⟩ := keeps size
  have lower := congrArg (List.take (base' size)) same
  rw [List.take_take,List.take_take,Nat.min_eq_left (below size)] at lower
  exact ⟨Nat.le_trans (below size) low,lower⟩

-- Values pushed on top of all.
theorem Keeps.above (low : ∀ size, base size ≤ s.base size) (more : ∀ size, (s.lane size).data <+: (t.lane size).data) :
    s.Keeps base t := by
  intro size
  obtain ⟨added,data⟩ := more size
  have within : base size ≤ (s.lane size).data.length := low size
  constructor
  · rw [ValueStack.base,Stack.len,← data,List.length_append]
    exact Nat.le_trans within (Nat.le_add_right _ _)
  · rw [← data,List.take_append_of_le_length within]

theorem Keeps.ofLane {size : OperandSize} {lane : Stack (Value size)} (low : ∀ size, base size ≤ s.base size)
    (kept : base size ≤ lane.len ∧ lane.data.take (base size) = (s.lane size).data.take (base size)) :
    s.Keeps base (s.setLane size lane) := by
  intro other
  by_cases same : other = size
  · subst same
    rw [ValueStack.base,setLane_same]
    exact kept
  · rw [ValueStack.base,setLane_other _ _ same]
    exact ⟨low other,rfl⟩

theorem Keeps.data (keeps : s.Keeps base t) (size : OperandSize) (whole : base size = s.base size) (exact : t.base size = base size) :
    (t.lane size).data = (s.lane size).data := by
  have same := (keeps size).2
  rw [List.take_of_length_le (Nat.le_of_eq exact),whole] at same
  exact same.trans List.take_length

theorem truncateKeepCounts_lanes {keep : ValueCounts} (room : ∀ size, base size + keep size ≤ s.base size) :
    (∀ size, (s.truncateKeepCounts base keep).base size = base size + keep size) ∧
      s.Keeps base (s.truncateKeepCounts base keep) := by
  refine ⟨fun size => (Stack.truncateKeep_lane (room size)).1,fun size => ⟨?_,(Stack.truncateKeep_lane (room size)).2⟩⟩
  exact Nat.le_trans (Nat.le_add_right _ _) (Nat.le_of_eq (Stack.truncateKeep_lane (room size)).1.symm)

theorem truncateToBase_lanes (low : ∀ size, base size ≤ s.base size) :
    (∀ size, (s.truncateToBase base).base size = base size) ∧ s.Keeps base (s.truncateToBase base) := by
  have height (size : OperandSize) : (s.truncateToBase base).base size = base size := by
    change ((s.lane size).data.take (base size)).length = base size
    rw [List.length_take]
    exact Nat.min_eq_left (low size)
  refine ⟨height,fun size => ⟨Nat.le_of_eq (height size).symm,?_⟩⟩
  change ((s.lane size).data.take (base size)).take (base size) = _
  rw [List.take_take,Nat.min_self]

section Entry
variable [Allocator] {params locals : ValueCounts}

-- Also where a lane cannot grow.
theorem enterLocals_keeps {r : Except Trap StackBase} (room : ∀ size, base size + params size ≤ s.base size)
    (entered : s.enterLocals params locals = (r,t)) : s.Keeps base t := by
  have low (size : OperandSize) : base size ≤ s.base size := Nat.le_trans (Nat.le_add_right _ _) (room size)
  have lane {u : ValueStack} (size : OperandSize) (kept : s.Keeps base u) (same : u.lane size = s.lane size) {lane : Stack (Value size)}
      {answer : Except Trap Nat} (enters : (u.lane size).enterLocals 0 (params size) (locals size) = (answer,lane)) :
      s.Keeps base (u.setLane size lane) := by
    have room := room size
    rw [ValueStack.base,← same] at room
    exact kept.trans (.ofLane (fun size => (kept size).1) (Stack.enterLocals_kept room enters))
  unfold enterLocals at entered
  rcases first : (s.lane .s32).enterLocals 0 (params .s32) (locals .s32) with ⟨trap | base32,s32⟩
  · rw [first] at entered
    cases entered
    exact lane .s32 (.refl low) rfl first
  rw [first] at entered
  dsimp only at entered
  have kept32 := lane .s32 (.refl low) rfl first
  rcases second : ((s.setLane .s32 s32).lane .s64).enterLocals 0 (params .s64) (locals .s64) with ⟨trap | base64,s64⟩
  · rw [second] at entered
    cases entered
    exact lane .s64 kept32 (setLane_other _ _ (by decide)) second
  rw [second] at entered
  dsimp only at entered
  have kept64 := lane .s64 kept32 (setLane_other _ _ (by decide)) second
  rcases third : (((s.setLane .s32 s32).setLane .s64 s64).lane .s128).enterLocals 0 (params .s128) (locals .s128) with
    ⟨trap | base128,s128⟩
  all_goals
    rw [third] at entered
    cases entered
    refine lane .s128 kept64 ?_ third
    rw [setLane_other _ _ (by decide),setLane_other _ _ (by decide)]

theorem enterLocals_heights (height : ∀ size, s.base size = base size + params size) (wide : ∀ size, params size ≤ locals size)
    {start : StackBase} (entered : s.enterLocals params locals = (.ok start,t)) :
    start = base ∧ ∀ size, t.base size = base size + locals size := by
  have lane (size : OperandSize) := Stack.enterLocals_lane (height size) (wide size) (enterLocals_lanes entered size)
  exact ⟨funext fun size => (lane size).1,fun size => (lane size).2⟩

end Entry

-- A value that is popped leaves what lies below it.
theorem pop_lanes {size : OperandSize} {v : Value size} (popped : s.pop size = .ok (v,t)) (other : OperandSize) :
    t.base other + [size].count other = s.base other ∧ (t.lane other).data <+: (s.lane other).data := by
  unfold pop Stack.pop at popped
  rcases top : (s.lane size).data.getLast? with _ | last
  · rw [top] at popped
    cases popped
  have whole := List.dropLast_append_getLast? last top
  rw [top] at popped
  cases popped
  by_cases same : other = size
  · subst same
    rw [ValueStack.base,setLane_same,List.count_singleton_self]
    refine ⟨?_,List.dropLast_prefix _⟩
    have length := congrArg List.length whole
    rw [List.length_append] at length
    exact length
  · rw [ValueStack.base,setLane_other _ _ same]
    refine ⟨?_,List.prefix_refl _⟩
    rw [List.count_eq_zero_of_not_mem (by simpa using same),Nat.add_zero]
    rfl

theorem popWasmValue_lanes {type : WasmType} {v : WasmValue} (popped : s.popWasmValue type = .ok (v,t)) (size : OperandSize) :
    t.base size + [OperandSize.ofWasmType type].count size = s.base size ∧ (t.lane size).data <+: (s.lane size).data := by
  cases type <;> obtain ⟨⟨raw,rest⟩,taken,popped⟩ := Fallible.except_bind_ok popped <;> cases popped <;> exact pop_lanes taken size

theorem popTypes_lanes {types : List WasmType} {values : List WasmValue} (popped : s.popTypes types = .ok (values,t))
    (size : OperandSize) :
    t.base size + (types.map OperandSize.ofWasmType).count size = s.base size ∧ (t.lane size).data <+: (s.lane size).data := by
  induction types generalizing s values with
  | nil =>
    cases popped
    exact ⟨rfl,List.prefix_refl _⟩
  | cons type types ih =>
    obtain ⟨⟨v,middle⟩,first,popped⟩ := Fallible.except_bind_ok popped
    obtain ⟨⟨vs,rest⟩,others,popped⟩ := Fallible.except_bind_ok popped
    cases popped
    obtain ⟨height,lower⟩ := popWasmValue_lanes first size
    obtain ⟨height',lower'⟩ := ih others
    refine ⟨?_,lower'.trans lower⟩
    rw [List.map_cons,List.count_cons]
    rw [List.count_singleton] at height
    omega

-- What is left below the operands that are taken.
theorem Keeps.below (low : ∀ size, base size ≤ t.base size) (lower : ∀ size, (t.lane size).data <+: (s.lane size).data) :
    s.Keeps base t := by
  intro size
  obtain ⟨taken,data⟩ := lower size
  refine ⟨low size,?_⟩
  rw [← data,List.take_append_of_le_length (low size)]

section Extension
variable [Allocator] {args : List WasmValue}

theorem pushWasmValue_kept {v : WasmValue} {r : Except Trap Unit} (pushed : s.pushWasmValue v = (r,t)) (size : OperandSize) :
    (s.lane size).data <+: (t.lane size).data := by
  obtain ⟨raw,lane⟩ := v.onLane_own
  rw [pushWasmValue_own lane,push] at pushed
  rcases added : (s.lane (.ofWasmType v.type)).push raw with ⟨answer,grown⟩
  rw [added] at pushed
  cases pushed
  by_cases own : size = .ofWasmType v.type
  · subst own
    rw [setLane_same]
    exact Stack.push_kept added
  · rw [setLane_other _ _ own]

theorem extendFromWasmValues_kept {r : Except Trap Unit} (extended : s.extendFromWasmValues args = (r,t)) (size : OperandSize) :
    (s.lane size).data <+: (t.lane size).data := by
  induction args generalizing s with
  | nil =>
    cases extended
    exact List.prefix_refl _
  | cons v args ih =>
    rw [extendFromWasmValues] at extended
    rcases pushed : s.pushWasmValue v with ⟨trap | _,middle⟩
    · rw [pushed] at extended
      cases extended
      exact pushWasmValue_kept pushed size
    · rw [pushed] at extended
      exact (pushWasmValue_kept pushed size).trans (ih extended)

theorem extendFromWasmValues_heights (extended : s.extendFromWasmValues args = (.ok (),t)) (size : OperandSize) :
    t.base size = s.base size + (sizesOf args).count size := by
  rw [ValueStack.base,Stack.len,extendFromWasmValues_holds extended size,List.length_append,WasmValue.laneOf_length]
  rfl

end Extension

end ValueStack

end TinyWasm
