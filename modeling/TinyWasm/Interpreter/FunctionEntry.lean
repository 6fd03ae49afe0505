import TinyWasm.Interpreter.Straight
import TinyWasm.Parser.Locals

namespace TinyWasm

namespace WasmValue

def defaultFor : WasmType → WasmValue
  | .i32 => .i32 0
  | .i64 => .i64 0
  | .f32 => .f32 0
  | .f64 => .f64 0
  | .v128 => .v128 0
  | .refFunc => .refFunc .null
  | .refExtern => .refExtern .null

-- The bits of a value on the lane of its size; other lanes hold nothing of it.
def onLane : (size : OperandSize) → WasmValue → Option (Value size)
  | .s32,i32 v | .s32,f32 v => some v
  | .s32,refExtern v | .s32,refFunc v => some v.raw
  | .s64,i64 v | .s64,f64 v => some v
  | .s128,v128 v => some v
  | _,_ => none

theorem onLane_isSome (size : OperandSize) (v : WasmValue) : (v.onLane size).isSome = (OperandSize.ofWasmType v.type == size) := by
  cases v <;> cases size <;> rfl

def laneOf (size : OperandSize) (args : List WasmValue) : List (Value size) := args.filterMap (onLane size)

theorem laneOf_length (size : OperandSize) (args : List WasmValue) :
    (laneOf size args).length = (args.map fun v => OperandSize.ofWasmType v.type).count size := by
  induction args with
  | nil => rfl
  | cons v args ih =>
    have some_iff := onLane_isSome size v
    rw [laneOf,List.filterMap_cons,List.map_cons,List.count_cons,←ih]
    cases lane : v.onLane size with
    | none => rw [lane] at some_iff; rw [if_neg (by simpa using some_iff.symm)]; rfl
    | some raw => rw [lane] at some_iff; rw [if_pos (by simpa using some_iff.symm)]; rfl

theorem laneOf_getElem? {size : OperandSize} {args : List WasmValue} {i : Nat} {v : WasmValue} {raw : Value size}
    (found : args[i]? = some v) (lane : v.onLane size = some raw) :
    (laneOf size args)[((args.take i).map fun v => OperandSize.ofWasmType v.type).count size]? = some raw := by
  obtain ⟨below,rfl⟩ := List.getElem?_eq_some_iff.mp found
  have split : args = args.take i ++ args[i] :: args.drop (i + 1) := by simp
  have whole : laneOf size args = laneOf size (args.take i) ++ raw :: laneOf size (args.drop (i + 1)) := by
    conv_lhs => rw [split]
    simp only [laneOf,List.filterMap_append,List.filterMap_cons,lane]
  rw [←laneOf_length,whole,List.getElem?_append_right (Nat.le_refl _),Nat.sub_self]
  rfl

-- Only the null reference is not all zeros.
theorem defaultFor_zero (ty : WasmType) :
    (defaultFor ty).onLane (.ofWasmType ty) = some 0 ↔ ty ≠ .refFunc ∧ ty ≠ .refExtern := by
  cases ty <;> decide

end WasmValue

def declaredTypes (locals : List (Nat × WasmType)) : List WasmType := localTypes [] locals

theorem localTypes_append (params : List WasmType) (locals : List (Nat × WasmType)) :
    localTypes params locals = params ++ declaredTypes locals := rfl

theorem typed_sizes {params : List WasmType} {args : List WasmValue} (typed : args.map WasmValue.type = params) :
    args.map (fun v => OperandSize.ofWasmType v.type) = params.map .ofWasmType := by
  rw [←typed,List.map_map]
  rfl

theorem count_take_lt {α : Type} [BEq α] [LawfulBEq α] {xs : List α} {j : Nat} {x : α} (found : xs[j]? = some x) :
    (xs.take j).count x < xs.count x := by
  obtain ⟨small,rfl⟩ := List.getElem?_eq_some_iff.mp found
  have split : xs = xs.take j ++ xs[j] :: xs.drop (j + 1) := by simp
  have total := congrArg (List.count xs[j]) split
  rw [List.count_append,List.count_cons_self] at total
  omega

section Entry
variable [Allocator] {stack stack' : ValueStack} {base : StackBase}

-- The arguments stay where they are and the locals behind them are filled up.
theorem Stack.enterLocals_entered {α : Type} {s t : Stack α} {below args : List α} {default : α} {locals start : Nat}
    (data : s.data = below ++ args) (wide : args.length ≤ locals)
    (entered : s.enterLocals default args.length locals = (.ok start,t)) :
    start = below.length ∧ t.data = below ++ args ++ List.replicate (locals - args.length) default := by
  have length : s.len = below.length + args.length := by rw [len,data,List.length_append]
  unfold enterLocals at entered
  rw [if_pos (by omega)] at entered
  dsimp only at entered
  split at entered
  · cases entered
  · rename_i grown ensured
    have same : grown.data = s.data := by
      split at ensured
      · split at ensured
        · cases ensured
        · exact tryReserveExact_data ensured
      · cases ensured; rfl
    cases entered
    refine ⟨by omega,?_⟩
    have whole : s.data.take (s.len - args.length + locals) = s.data := List.take_of_length_le (by simp only [len] at *; omega)
    have filled : s.len - args.length + locals - grown.len = locals - args.length := by simp only [len,same] at *; omega
    dsimp only
    rw [same,whole,filled,data]

theorem ValueStack.enterLocals_lanes {params locals : ValueCounts} (entered : stack.enterLocals params locals = (.ok base,stack'))
    (size : OperandSize) :
    (stack.lane size).enterLocals 0 (params size) (locals size) = (.ok (base size),stack'.lane size) := by
  unfold enterLocals at entered
  rcases first : (stack.lane .s32).enterLocals 0 (params .s32) (locals .s32) with ⟨trap | base32,s32⟩
  · rw [first] at entered; cases entered
  rw [first] at entered
  dsimp only at entered
  rw [setLane_other _ _ (by decide : OperandSize.s64 ≠ .s32)] at entered
  rcases second : (stack.lane .s64).enterLocals 0 (params .s64) (locals .s64) with ⟨trap | base64,s64⟩
  · rw [second] at entered; cases entered
  rw [second] at entered
  dsimp only at entered
  rw [setLane_other _ _ (by decide : OperandSize.s128 ≠ .s64),setLane_other _ _ (by decide : OperandSize.s128 ≠ .s32)] at entered
  rcases third : (stack.lane .s128).enterLocals 0 (params .s128) (locals .s128) with ⟨trap | base128,s128⟩
  · rw [third] at entered; cases entered
  rw [third] at entered
  cases entered
  cases size with
  | s32 => rw [first,setLane_other _ _ (by decide),setLane_other _ _ (by decide),setLane_same]; rfl
  | s64 => rw [second,setLane_other _ _ (by decide),setLane_same]; rfl
  | s128 => rw [third,setLane_same]; rfl

-- The arguments lie on top of what the caller has on its lanes.
def ValueStack.HoldsAbove (stack below : ValueStack) (args : List WasmValue) : Prop :=
  ∀ size, (stack.lane size).data = (below.lane size).data ++ WasmValue.laneOf size args

-- The value that the instruction which local.get is lowered to pushes.
def Yields (sizes : List OperandSize) (addrs : List LocalAddr) (cf : CallFrame) (m : Machine) (idx : Nat) (v : WasmValue) :
    Prop :=
  ∃ size addr raw, visitLocalGet sizes addrs idx = .ok (.localGet size addr) ∧ v.onLane size = some raw ∧
    Machine.localGet cf size addr m = .ok (.ok raw,m)

-- A function's frame right after its entry, whoever called it.
structure Enters (params : List WasmType) (locals : List (Nat × WasmType)) (args : List WasmValue) (below : ValueStack)
    (sizes : List OperandSize) (addrs : List LocalAddr) (cf : CallFrame) (m : Machine) : Prop where
  typed : args.map WasmValue.type = params
  entered : ∃ (counts : ValueCounts) (stack : ValueStack) (funcAddr : FuncAddr) (base : StackBase),
    convertLocals params locals = .ok (sizes,addrs,counts) ∧
    stack.HoldsAbove below args ∧
    stack.enterLocals (valueCounts (params.map .ofWasmType)) counts = (.ok base,m.valueStack) ∧
    cf = .new funcAddr base counts

variable {params : List WasmType} {locals : List (Nat × WasmType)} {args : List WasmValue} {below : ValueStack}
  {sizes : List OperandSize} {addrs : List LocalAddr} {cf : CallFrame} {m : Machine}

-- Every lane: the caller's values, the arguments, zeros.
theorem Enters.lane (enters : Enters params locals args below sizes addrs cf m) (size : OperandSize) :
    cf.localsBase size = (below.lane size).data.length ∧
    (m.valueStack.lane size).data = (below.lane size).data ++ WasmValue.laneOf size args ++
      List.replicate (((declaredTypes locals).map OperandSize.ofWasmType).count size) 0 := by
  obtain ⟨typed,counts,stack,funcAddr,base,converted,held,entered,rfl⟩ := enters
  have total := (convertLocals_spec converted).2
  have params_length : valueCounts (params.map .ofWasmType) size = (WasmValue.laneOf size args).length := by
    rw [WasmValue.laneOf_length,typed_sizes typed]
    rfl
  have locals_length : counts size = (WasmValue.laneOf size args).length +
      ((declaredTypes locals).map OperandSize.ofWasmType).count size := by
    rw [total,←params_length,localTypes_append,List.map_append]
    exact List.count_append
  have lane := ValueStack.enterLocals_lanes entered size
  rw [params_length] at lane
  obtain ⟨start,data⟩ := Stack.enterLocals_entered (held size) (by omega) lane
  refine ⟨start,?_⟩
  rw [data,locals_length,Nat.add_sub_cancel_left]

theorem Enters.visit (enters : Enters params locals args below sizes addrs cf m) {i : Nat} {ty : WasmType}
    (found : (params ++ declaredTypes locals)[i]? = some ty) :
    visitLocalGet sizes addrs i = .ok (.localGet (.ofWasmType ty)
      ((((params ++ declaredTypes locals).map OperandSize.ofWasmType).take i).count (.ofWasmType ty))) := by
  obtain ⟨_,_,_,_,_,converted,_⟩ := enters
  exact (convertLocals_spec converted).1 i ty found

theorem Enters.parameter (enters : Enters params locals args below sizes addrs cf m) {i : Nat} {v : WasmValue}
    (found : args[i]? = some v) : Yields sizes addrs cf m i v := by
  have typed := enters.typed
  obtain ⟨small,_⟩ := List.getElem?_eq_some_iff.mp found
  have parameter : (params ++ declaredTypes locals)[i]? = some v.type := by
    rw [←typed,List.getElem?_append_left (by rw [List.length_map]; exact small),List.getElem?_map,found]
    rfl
  have before : ((params ++ declaredTypes locals).map OperandSize.ofWasmType).take i =
      (args.take i).map fun v => OperandSize.ofWasmType v.type := by
    rw [List.map_append,List.take_append_of_le_length (by rw [List.length_map,←typed,List.length_map]; omega),
      ←typed_sizes typed,List.map_take]
  obtain ⟨raw,lane⟩ : ∃ raw, v.onLane (.ofWasmType v.type) = some raw :=
    Option.isSome_iff_exists.mp ((v.onLane_isSome _).trans (beq_self_eq_true _))
  obtain ⟨start,data⟩ := enters.lane (.ofWasmType v.type)
  refine ⟨_,_,raw,enters.visit parameter,lane,?_⟩
  have place := WasmValue.laneOf_getElem? found lane
  obtain ⟨inside,_⟩ := List.getElem?_eq_some_iff.mp place
  have got : (m.valueStack.lane (.ofWasmType v.type)).get (cf.localsBase (.ofWasmType v.type) +
      ((args.take i).map fun v => OperandSize.ofWasmType v.type).count (.ofWasmType v.type)) = .ok raw := by
    rw [Stack.get,start,data,List.append_assoc,List.getElem?_append_right (by omega),Nat.add_sub_cancel_left,
      List.getElem?_append_left inside,place]
  rw [before,Machine.localGet,got]
  rfl

-- Whatever the type of a declared local, zeros are found in its place.
theorem Enters.declared (enters : Enters params locals args below sizes addrs cf m) {j : Nat} {ty : WasmType}
    (found : (declaredTypes locals)[j]? = some ty) :
    ∃ addr, visitLocalGet sizes addrs (params.length + j) = .ok (.localGet (.ofWasmType ty) addr) ∧
      Machine.localGet cf (.ofWasmType ty) addr m = .ok (.ok 0,m) := by
  have typed := enters.typed
  have place : (params ++ declaredTypes locals)[params.length + j]? = some ty := by
    rw [List.getElem?_append_right (Nat.le_add_right _ _),Nat.add_sub_cancel_left,found]
  refine ⟨_,enters.visit place,?_⟩
  obtain ⟨start,data⟩ := enters.lane (.ofWasmType ty)
  have before : (((params ++ declaredTypes locals).map OperandSize.ofWasmType).take (params.length + j)).count (.ofWasmType ty) =
      (WasmValue.laneOf (.ofWasmType ty) args).length + (((declaredTypes locals).map OperandSize.ofWasmType).take j).count (.ofWasmType ty) := by
    rw [WasmValue.laneOf_length,typed_sizes typed,List.map_append,List.take_append,List.length_map,Nat.add_sub_cancel_left,
      List.count_append,List.take_of_length_le (by rw [List.length_map]; omega)]
  have below_total : (((declaredTypes locals).map OperandSize.ofWasmType).take j).count (.ofWasmType ty) <
      ((declaredTypes locals).map OperandSize.ofWasmType).count (.ofWasmType ty) :=
    count_take_lt (by rw [List.getElem?_map,found]; rfl)
  have got : (m.valueStack.lane (.ofWasmType ty)).get (cf.localsBase (.ofWasmType ty) +
      ((WasmValue.laneOf (.ofWasmType ty) args).length +
        (((declaredTypes locals).map OperandSize.ofWasmType).take j).count (.ofWasmType ty))) = .ok 0 := by
    rw [Stack.get,start,data,List.getElem?_append_right (by rw [List.length_append]; omega),List.getElem?_replicate,
      if_pos (by rw [List.length_append]; omega)]
  rw [before,Machine.localGet,got]
  rfl

theorem Enters.declared_iff (enters : Enters params locals args below sizes addrs cf m) {j : Nat} {ty : WasmType}
    (found : (declaredTypes locals)[j]? = some ty) :
    Yields sizes addrs cf m (params.length + j) (.defaultFor ty) ↔ ty ≠ .refFunc ∧ ty ≠ .refExtern := by
  obtain ⟨addr,visited,got⟩ := enters.declared found
  rw [←WasmValue.defaultFor_zero]
  refine ⟨?_,fun zero => ⟨_,addr,0,visited,zero,got⟩⟩
  rintro ⟨_,_,raw,visitedToo,lane,gotToo⟩
  cases visited.symm.trans visitedToo
  cases got.symm.trans gotToo
  exact lane

theorem Enters.kept (enters : Enters params locals args below sizes addrs cf m) (size : OperandSize) :
    cf.localsBase size = (below.lane size).len ∧
    (m.valueStack.lane size).data.take (below.lane size).len = (below.lane size).data := by
  obtain ⟨start,data⟩ := enters.lane size
  exact ⟨start,by rw [data,List.append_assoc]; exact List.take_left⟩

-- Every local is what it is specified to be just where no declared one is a
-- reference: the zeros that fill the lanes are the reference to address 0.
theorem function_entry_iff (enters : Enters params locals args below sizes addrs cf m) :
    ((∀ i v, args[i]? = some v → Yields sizes addrs cf m i v) ∧
      (∀ j ty, (declaredTypes locals)[j]? = some ty → Yields sizes addrs cf m (params.length + j) (.defaultFor ty)) ∧
      ∀ size, cf.localsBase size = (below.lane size).len ∧
        (m.valueStack.lane size).data.take (below.lane size).len = (below.lane size).data) ↔
      ∀ ty ∈ declaredTypes locals, ty ≠ .refFunc ∧ ty ≠ .refExtern := by
  constructor
  · rintro ⟨_,defaults,_⟩ ty declared
    obtain ⟨j,found⟩ := List.mem_iff_getElem?.mp declared
    exact (enters.declared_iff found).mp (defaults j ty found)
  · intro numbers
    refine ⟨fun _ _ => enters.parameter,fun j ty found => ?_,enters.kept⟩
    exact (enters.declared_iff found).mpr (numbers ty (List.mem_iff_getElem?.mpr ⟨j,found⟩))

end Entry

-- A function of one parameter on top of one value of its caller.
namespace EntryRun

def holding (size : OperandSize) (data : List (Value size)) : Stack (Value size) := ⟨data,8,8,false⟩

def below : ValueStack := ⟨fun size => holding size [3]⟩

def stack : ValueStack := below.setLane .s32 (holding .s32 [3,5])

def counts (locals : List (Nat × WasmType)) : ValueCounts :=
  match convertLocals [.i32] locals with
  | .ok (_,_,counts) => counts
  | .error _ => fun _ => 0

def frame (locals : List (Nat × WasmType)) : CallFrame := .new 0 (.of 1 1 1) (counts locals)

def entered [Allocator] (locals : List (Nat × WasmType)) : Machine :=
  ⟨(stack.enterLocals (valueCounts [.s32]) (counts locals)).2,.empty⟩

theorem held : stack.HoldsAbove below [.i32 5] := by
  intro size
  cases size <;> rfl

end EntryRun

open EntryRun in
theorem function_entry_iff_numbers :
    let _ := Allocator.unlimited
    let locals := [(1,.i64),(2,.f32)]
    Yields [.s32,.s64,.s32,.s32] [0,0,1,2] (frame locals) (entered locals) 0 (.i32 5) ∧
      Yields [.s32,.s64,.s32,.s32] [0,0,1,2] (frame locals) (entered locals) 3 (.f32 0) := by
  let _ := Allocator.unlimited
  intro _ locals
  have enters : Enters [.i32] locals [.i32 5] below [.s32,.s64,.s32,.s32] [0,0,1,2] (frame locals) (entered locals) :=
    ⟨rfl,_,stack,0,_,rfl,held,rfl,rfl⟩
  obtain ⟨parameters,defaults,_⟩ := (function_entry_iff enters).mpr (by decide)
  exact ⟨parameters 0 _ rfl,defaults 2 _ rfl⟩

open EntryRun in
-- The declared local refers to the function at address 0.
theorem function_local_not_null :
    let _ := Allocator.unlimited
    let locals := [(1,.refFunc)]
    Enters [.i32] locals [.i32 5] below [.s32,.s32] [0,1] (frame locals) (entered locals) ∧
    Yields [.s32,.s32] [0,1] (frame locals) (entered locals) 1 (.refFunc (.fromAddr (some 0))) ∧
    ¬Yields [.s32,.s32] [0,1] (frame locals) (entered locals) 1 (.defaultFor .refFunc) := by
  let _ := Allocator.unlimited
  intro _ locals
  have enters : Enters [.i32] locals [.i32 5] below [.s32,.s32] [0,1] (frame locals) (entered locals) :=
    ⟨rfl,_,stack,0,_,rfl,held,rfl,rfl⟩
  refine ⟨enters,⟨.s32,1,0,rfl,rfl,rfl⟩,fun null => ?_⟩
  exact absurd ((enters.declared_iff (j := 0) rfl).mp null).1 (by decide)

end TinyWasm
