import TinyWasm.Interpreter.FunctionEntry
import TinyWasm.Interpreter.Runtime

namespace TinyWasm

namespace WasmValue

theorem onLane_own (v : WasmValue) : ∃ raw, v.onLane (.ofWasmType v.type) = some raw :=
  Option.isSome_iff_exists.mp ((v.onLane_isSome _).trans (beq_self_eq_true _))

theorem onLane_other {size : OperandSize} (v : WasmValue) (different : size ≠ .ofWasmType v.type) : v.onLane size = none := by
  have nothing := v.onLane_isSome size
  rw [beq_eq_false_iff_ne.mpr (Ne.symm different)] at nothing
  simpa using nothing

theorem laneOf_append (size : OperandSize) (first second : List WasmValue) :
    laneOf size (first ++ second) = laneOf size first ++ laneOf size second := List.filterMap_append

theorem laneOf_own {v : WasmValue} {raw : Value (.ofWasmType v.type)} (lane : v.onLane (.ofWasmType v.type) = some raw) :
    laneOf (.ofWasmType v.type) [v] = [raw] := by simp [laneOf,lane]

theorem laneOf_other {v : WasmValue} {size : OperandSize} (different : size ≠ .ofWasmType v.type) : laneOf size [v] = [] := by
  simp [laneOf,v.onLane_other different]

end WasmValue

namespace ValueStack
variable {stack stack' below : ValueStack} {args : List WasmValue} {v : WasmValue}

theorem HoldsAbove.same (held : stack.HoldsAbove below []) (size : OperandSize) :
    (stack.lane size).data = (below.lane size).data := (held size).trans (List.append_nil _)

theorem HoldsAbove.append {middle : ValueStack} {more : List WasmValue} (lower : middle.HoldsAbove below args)
    (upper : stack.HoldsAbove middle more) : stack.HoldsAbove below (args ++ more) := by
  intro size
  rw [upper size,lower size,WasmValue.laneOf_append,List.append_assoc]

-- A value is pushed on the lane of its type, as its own bits.
theorem pushWasmValue_own [Allocator] {raw : Value (.ofWasmType v.type)} (lane : v.onLane (.ofWasmType v.type) = some raw) :
    stack.pushWasmValue v = stack.push (.ofWasmType v.type) raw := by
  cases v <;> cases lane <;> rfl

-- The bits that a type is read off the lane of its size, and what is left.
theorem popWasmValue_own {raw : Value (.ofWasmType v.type)} (lane : v.onLane (.ofWasmType v.type) = some raw)
    {rest : ValueStack} (popped : stack.pop (.ofWasmType v.type) = .ok (raw,rest)) :
    stack.popWasmValue v.type = .ok (v,rest) := by
  cases v <;> cases lane <;> simp only [popWasmValue,WasmValue.type] <;> erw [popped] <;> rfl

theorem pushWasmValue_holds [Allocator] (pushed : stack.pushWasmValue v = (.ok (),stack')) : stack'.HoldsAbove stack [v] := by
  obtain ⟨raw,lane⟩ := v.onLane_own
  rw [pushWasmValue_own lane,push] at pushed
  rcases Stack.push_cases (stack.lane (.ofWasmType v.type)) raw with full | ⟨grown,added,data⟩
  · rw [full] at pushed; cases pushed
  rw [added] at pushed
  cases pushed
  intro size
  by_cases own : size = .ofWasmType v.type
  · subst own
    rw [setLane_same,data,WasmValue.laneOf_own lane]
  · rw [setLane_other _ _ own,WasmValue.laneOf_other own,List.append_nil]

theorem popWasmValue_last (held : stack.HoldsAbove below (args ++ [v])) :
    ∃ rest, stack.popWasmValue v.type = .ok (v,rest) ∧ rest.HoldsAbove below args := by
  obtain ⟨raw,lane⟩ := v.onLane_own
  have top : (stack.lane (.ofWasmType v.type)).data =
      ((below.lane (.ofWasmType v.type)).data ++ WasmValue.laneOf (.ofWasmType v.type) args) ++ [raw] := by
    rw [held,WasmValue.laneOf_append,WasmValue.laneOf_own lane,List.append_assoc]
  let lower : Stack (Value (.ofWasmType v.type)) := {stack.lane (.ofWasmType v.type) with
    data := (below.lane (.ofWasmType v.type)).data ++ WasmValue.laneOf (.ofWasmType v.type) args}
  have popped : stack.pop (.ofWasmType v.type) = .ok (raw,stack.setLane (.ofWasmType v.type) lower) := by
    rw [pop,Stack.pop,top,List.getLast?_concat,List.dropLast_concat]
    rfl
  refine ⟨_,popWasmValue_own lane popped,?_⟩
  intro size
  by_cases own : size = .ofWasmType v.type
  · subst own
    rw [setLane_same]
  · rw [setLane_other _ _ own,held size,WasmValue.laneOf_append,WasmValue.laneOf_other own,List.append_nil]

theorem extendFromWasmValues_holds [Allocator] (extended : stack.extendFromWasmValues args = (.ok (),stack')) :
    stack'.HoldsAbove stack args := by
  induction args generalizing stack with
  | nil =>
    cases extended
    exact fun size => (List.append_nil _).symm
  | cons v args ih =>
    rw [extendFromWasmValues] at extended
    rcases pushed : stack.pushWasmValue v with ⟨trap | _,middle⟩
    · rw [pushed] at extended; cases extended
    rw [pushed] at extended
    exact (pushWasmValue_holds pushed).append (ih extended)

-- From the top down, each type finds the last of the values that are left.
theorem popTypes_holds (held : stack.HoldsAbove below args) :
    ∃ rest, stack.popTypes (args.map WasmValue.type).reverse = .ok (args.reverse,rest) ∧ rest.HoldsAbove below [] := by
  induction args using List.reverseRecOn generalizing stack with
  | nil => exact ⟨stack,rfl,held⟩
  | append_singleton args v ih =>
    obtain ⟨middle,popped,below_held⟩ := popWasmValue_last held
    obtain ⟨rest,others,left⟩ := ih below_held
    refine ⟨rest,?_,left⟩
    rw [List.map_append,List.map_singleton,List.reverse_append,List.reverse_append]
    simp only [List.reverse_singleton,List.singleton_append,popTypes,popped,others,ok_bind]

end ValueStack

namespace Executor
variable [Allocator] [Host] (reentry : Reentry)

-- What a host function has returned goes on top of the stack it has left.
def takeHostResults (ex : Executor) : Except Error (List WasmValue) × Store → Checked (Except Trap Unit × Executor)
  | (.error error,store) => .ok (.error (.hostFunction error),{ex with store})
  | (.ok res,store) =>
    let (r,valueStack) := store.valueStack.extendFromWasmValues res
    match r with
    | .error trap => .ok (.error trap,{ex with store}.setStack valueStack)
    | .ok () => incrInstrPtr ({ex with store}.setStack valueStack)

theorem execCallHost_eq {ex : Executor} {ty : FuncType} {params : List WasmValue} {rest : ValueStack}
    (popped : ex.store.valueStack.popTypes ty.params.reverse = .ok (params.reverse,rest)) (id : Nat) :
    execCallHost reentry ty id ex =
      (HostFunction.call reentry (ex.setStack rest).store ty id ex.module.idx params >>= ex.takeHostResults) := by
  unfold execCallHost
  simp only [Exec.get_bind,popped,Exec.ofChecked_bind,List.reverse_reverse]
  cases called : HostFunction.call reentry (ex.setStack rest).store ty id ex.module.idx params with
  | error abort => rfl
  | ok result =>
    obtain ⟨r,store⟩ := result
    cases r with
    | error error => rfl
    | ok res =>
      simp only [Exec.ofChecked_bind,ok_bind,takeHostResults]
      rcases store.valueStack.extendFromWasmValues res with ⟨trap | _,valueStack⟩ <;> rfl

end Executor

-- What is pushed comes back as it was, where the results of a call are collected
-- and where the parameters of a host function are.
theorem marshalling_round_trips [Allocator] [Host] (reentry : Reentry) {stack pushed : ValueStack} {values : List WasmValue}
    (extended : stack.extendFromWasmValues values = (.ok (),pushed)) :
    ∃ rest : ValueStack, (∀ size, (rest.lane size).data = (stack.lane size).data) ∧
      pushed.popTypes (values.map WasmValue.type).reverse = .ok (values.reverse,rest) ∧
      (∀ params, collectCallResults pushed ⟨params,values.map WasmValue.type⟩ = .ok (values,rest)) ∧
      ∀ (ex : Executor) results id, ex.store.valueStack = pushed →
        Executor.execCallHost reentry ⟨values.map WasmValue.type,results⟩ id ex =
          (HostFunction.call reentry (ex.setStack rest).store ⟨values.map WasmValue.type,results⟩ id ex.module.idx values >>=
            ex.takeHostResults) := by
  obtain ⟨rest,popped,held⟩ := ValueStack.popTypes_holds (ValueStack.extendFromWasmValues_holds extended)
  refine ⟨rest,held.same,popped,fun params => ?_,fun ex results id given => ?_⟩
  · simp only [collectCallResults,popped,ok_bind,List.reverse_reverse]
  · subst given
    exact Executor.execCallHost_eq reentry popped id

-- All three lanes, a NaN with a payload and both kinds of references, over one
-- value on each lane.
namespace MarshallingRun

def below : ValueStack := ⟨fun _ => ⟨[3],8,8,false⟩⟩

def values : List WasmValue :=
  [.f32 0x7fa00001,.i64 (-1),.refFunc .null,.v128 (2 ^ 127 + 5),.i32 7,.refExtern ⟨9⟩,.f64 0xfff0000000000001]

end MarshallingRun

open MarshallingRun in
theorem marshalling_round_trips_mixed :
    let _ := Allocator.unlimited
    ∃ rest : ValueStack, (∀ size, (rest.lane size).data = [3]) ∧
      collectCallResults (below.extendFromWasmValues values).2 ⟨[],values.map WasmValue.type⟩ = .ok (values,rest) := by
  intro _
  let _ := Host.quiet
  let idle : Invocation := fun store _ _ => .ok (.ok [],store)
  have extended : below.extendFromWasmValues values = (.ok (),(below.extendFromWasmValues values).2) := by rfl
  obtain ⟨rest,kept,_,collected,_⟩ := marshalling_round_trips ⟨idle,idle⟩ extended
  exact ⟨rest,kept,collected []⟩

end TinyWasm
