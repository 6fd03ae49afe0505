import TinyWasm.Parser.LocalFusion

namespace TinyWasm

-- The stores of all bits of an operand.
def StoreOp.full : StoreOp → Option OperandSize
  | i32Store | f32Store => some .s32
  | i64Store | f64Store => some .s64
  | v128Store => some .s128
  | _ => none

section Arms
variable [Allocator] [Numerics] {ctx : Context} {K : Shape} {below : StackBase} {ts : List OperandSize} {size : OperandSize}
  {width : ScalarSize} {block : Block} {made : Rewrite} {op : StoreOp} {arg : MemoryArg} {addr : LocalAddr}

theorem full_exec (full : op.full = some size) :
    execStraight ctx (.store op arg) = execFullStore ctx size arg ∧ op.source = size := by
  cases op <;> cases full <;> exact ⟨rfl,rfl⟩

omit [Allocator] in
-- What follows an instruction that only pushes.
theorem typeWindow_push {i : Instruction} {later : List Instruction}
    (typed : (typeWindow K ctx.module (i :: later) ts).isSome) (taken : i.operands K ctx.module = []) :
    (typeWindow K ctx.module later (i.results K ctx.module ++ ts)).isSome := by
  obtain ⟨rest,shape,typed'⟩ := typeWindow_cons typed
  rw [taken] at shape
  rw [shape]
  exact typed'

omit [Allocator] [Numerics] in
theorem storeLocals_parts (matched : rewriteStoreLocals size arg block = some made) :
    ∃ addr value rest, block = .localGet size value :: .localGet .s32 addr :: rest ∧
      made = ⟨2,[.storeLocalLocal size arg addr value]⟩ := by
  unfold rewriteStoreLocals at matched
  split at matched
  case h_1 =>
    split at matched
    · rename_i same
      obtain ⟨rfl,_,_⟩ := same
      cases matched
      exact ⟨_,_,_,rfl,rfl⟩
    · cases matched
  case h_2 => cases matched

theorem storeLocals_preserves (full : op.full = some size) (matched : rewriteStoreLocals size arg block = some made) :
    Preserves ctx K (made.window block (.store op arg)) made.out := by
  obtain ⟨addr,value,rest,rfl,rfl⟩ := storeLocals_parts matched
  change Preserves ctx K [.localGet .s32 addr,.localGet size value,.store op arg] _
  intro below ts typed named
  obtain ⟨ran,source⟩ : execStraight ctx (.store op arg) = execFullStore ctx size arg ∧ _ := full_exec full
  obtain ⟨us,shown,_⟩ := typeWindow_cons (typeWindow_push (typeWindow_push typed rfl) rfl)
  have sized : K.memorySize ctx.module arg.memAddr = .s32 := (List.cons.inj (List.cons.inj shown).2).1.symm
  simp only [List.forall_mem_cons] at named
  refine (get_get_store sized (named.1 _ (.head _)) (named.2.1 _ (.head _))).congr ?_ (execWindow_one _)
  simp only [execWindow_cons,execWindow_nil,Exec.bind_unit,ran]
  rfl

-- The load of all bits of a number from the address in a local.
def ScalarSize.loadLocal : ScalarSize → MemoryArg → LocalAddr → Instruction
  | .s32,arg,addr => .loadLocal32 .load32 arg addr
  | .s64,arg,addr => .loadLocal64 arg addr

def ScalarSize.load : ScalarSize → LoadOp
  | .s32 => .i32Load
  | .s64 => .i64Load

omit [Allocator] [Numerics] in
theorem incMemory_parts (matched : rewriteIncMemory width arg block = some made) :
    ∃ size addr rest, block = .addConst width 1 :: width.loadLocal arg addr :: .localGet size addr :: rest ∧
      made = ⟨3,[.incMemoryLocal width arg addr]⟩ := by
  unfold rewriteIncMemory at matched
  split at matched
  case h_2 => cases matched
  case h_1 =>
    split at matched
    case isFalse => cases matched
    case isTrue same =>
      obtain ⟨rfl,rfl,_⟩ := same
      split at matched
      case h_3 => cases matched
      all_goals
        split at matched
        · rename_i same
          obtain ⟨rfl,rfl⟩ := same
          cases matched
          exact ⟨_,_,_,rfl,rfl⟩
        · cases matched

omit [Numerics] in
theorem load_pushes : execLoadLocal ctx width.load arg addr = pushValue width.size (do
    let (_,mem) ← ctx.memory arg.memAddr
    let at_ ← localMemoryAddr ctx mem width.access.bytes arg.offset addr
    let val ← loadAt mem width.access at_
    pure (val.setWidth _)) := by
  cases width with
  | s32 =>
    have whole (v : BitVec 32) : v.setWidth 32 = v := BitVec.setWidth_eq v
    refine congrArg (pushValue .s32) (congrArg (ctx.memory arg.memAddr >>= ·) (funext fun (_,mem) => ?_))
    refine congrArg (localMemoryAddr ctx mem 4 arg.offset addr >>= ·) (funext fun start => ?_)
    exact congrArg (loadAt mem .w32 start >>= ·) (funext fun v => congrArg pure (whole v).symm)
  | s64 =>
    have whole (v : BitVec 64) : v.setWidth 64 = v := BitVec.setWidth_eq v
    refine congrArg (pushValue .s64) (congrArg (ctx.memory arg.memAddr >>= ·) (funext fun (_,mem) => ?_))
    refine congrArg (localMemoryAddr ctx mem 8 arg.offset addr >>= ·) (funext fun start => ?_)
    exact congrArg (loadAt mem .w64 start >>= ·) (funext fun v => congrArg pure (whole v).symm)

theorem incMemory_preserves (full : op.full = some width.size) (matched : rewriteIncMemory width arg block = some made) :
    Preserves ctx K (made.window block (.store op arg)) made.out := by
  obtain ⟨size,addr,rest,rfl,rfl⟩ := incMemory_parts matched
  change Preserves ctx K [.localGet size addr,width.loadLocal arg addr,.addConst width 1,.store op arg] _
  intro below ts typed named
  obtain ⟨ran,source⟩ : execStraight ctx (.store op arg) = execFullStore ctx width.size arg ∧ _ := full_exec full
  have loads : execStraight ctx (width.loadLocal arg addr) = execLoadLocal ctx width.load arg addr := by cases width <;> rfl
  have loaded : (width.loadLocal arg addr).operands K ctx.module = [] ∧
      (width.loadLocal arg addr).results K ctx.module = [width.size] := by cases width <;> exact ⟨rfl,rfl⟩
  have typed₁ := typeWindow_push (typeWindow_push typed rfl) loaded.1
  rw [loaded.2] at typed₁
  obtain ⟨us,shown,typed₂⟩ := typeWindow_cons typed₁
  obtain ⟨vs,shown',_⟩ := typeWindow_cons typed₂
  obtain rfl : size :: ts = us := (List.cons.inj shown).2
  have sized : K.memorySize ctx.module arg.memAddr = size := (List.cons.inj (List.cons.inj shown').2).1.symm
  simp only [List.forall_mem_cons] at named
  refine (get_load_add_store load_pushes sized (named.1 _ (.head _))).congr ?_ (execWindow_one _)
  simp only [execWindow_cons,execWindow_nil,Exec.bind_unit,loads,ran]
  rfl

omit [Allocator] [Numerics] in
theorem fmaStore_parts (matched : rewriteFmaStore width arg block = some made) :
    ∃ rest, block = .float (.binary width .add) :: .float (.binary width .mul) :: rest ∧ made = ⟨2,[.fMaStore width arg]⟩ := by
  unfold rewriteFmaStore at matched
  split at matched
  case h_1 =>
    split at matched
    · rename_i same
      obtain ⟨rfl,rfl⟩ := same
      cases matched
      exact ⟨_,rfl,rfl⟩
    · cases matched
  case h_2 => cases matched

-- The window of a product, a sum and a store.
def fmaWindow (width : ScalarSize) (op : StoreOp) (arg : MemoryArg) : List Instruction :=
  [.float (.binary width .mul),.float (.binary width .add),.store op arg]

theorem fmaWindow_exec (full : op.full = some width.size) :
    execWindow ctx (fmaWindow width op arg) = execMulAddStore ctx width arg := by
  have product : execStraight ctx (.float (.binary width .mul)) = execBinary width.size (BinOp.fMul.eval width) :=
    exec_floatBinOp rfl
  have sum : execStraight ctx (.float (.binary width .add)) = execBinary width.size (BinOp.fAdd.eval width) :=
    exec_floatBinOp rfl
  simp only [fmaWindow,execWindow_cons,execWindow_nil,Exec.bind_unit,product,sum,(full_exec full).1]
  rfl

omit [Allocator] in
theorem fmaWindow_typed (typed : (typeWindow K ctx.module (fmaWindow width op arg) ts).isSome) :
    ∃ us, ts = width.size :: width.size :: width.size :: K.memorySize ctx.module arg.memAddr :: us := by
  obtain ⟨us,rfl,typed₁⟩ := typeWindow_cons typed
  obtain ⟨vs,shown,typed₂⟩ := typeWindow_cons typed₁
  obtain ⟨xs,shown',_⟩ := typeWindow_cons typed₂
  obtain rfl : us = width.size :: vs := (List.cons.inj shown).2
  obtain rfl : vs = K.memorySize ctx.module arg.memAddr :: xs := (List.cons.inj shown').2
  exact ⟨xs,rfl⟩

omit [Allocator] in
theorem typeWindow_next {i : Instruction} {later : List Instruction}
    (typed : (typeWindow K ctx.module later (i.results K ctx.module ++ ts)).isSome) :
    (typeWindow K ctx.module (i :: later) (i.operands K ctx.module ++ ts)).isSome := by
  have taken : i.retype K ctx.module (i.operands K ctx.module ++ ts) = some (i.results K ctx.module ++ ts) := by
    rw [Instruction.retype,if_pos (List.prefix_append _ _),List.drop_left]
  rw [typeWindow,taken]
  exact typed

omit [Allocator] in
theorem fmaWindow_types (full : op.full = some width.size) : (typeWindow K ctx.module (fmaWindow width op arg)
    [width.size,width.size,width.size,K.memorySize ctx.module arg.memAddr]).isSome := by
  have source : op.source = width.size := by cases op <;> cases width <;> cases full <;> rfl
  refine typeWindow_next (i := .float (.binary width .mul)) (typeWindow_next (i := .float (.binary width .add)) ?_)
  have last : (typeWindow K ctx.module [.store op arg] ([op.source,K.memorySize ctx.module arg.memAddr] ++ [])).isSome :=
    typeWindow_next rfl
  rw [source] at last
  exact last

theorem fmaStore_preserves (full : op.full = some width.size) (matched : rewriteFmaStore width arg block = some made)
    (sized : K.memorySize ctx.module arg.memAddr = .s32) : Preserves ctx K (made.window block (.store op arg)) made.out := by
  obtain ⟨rest,rfl,rfl⟩ := fmaStore_parts matched
  change Preserves ctx K (fmaWindow width op arg) _
  intro below ts typed _
  obtain ⟨us,rfl⟩ := fmaWindow_typed typed
  rw [sized]
  exact (mul_add_store_32 sized).congr (fmaWindow_exec full) (execWindow_one _)

theorem loadLocal_exec {op : LoadOp} {load : Instruction} (known : loadLocal arg addr op = some load) :
    execStraight ctx load = execLoadLocal ctx op arg addr := by
  cases op <;> cases known <;> rfl

theorem load_preserves {op : LoadOp} (matched : rewriteLoad op arg block = some made) :
    Preserves ctx K (made.window block (.load op arg)) made.out := by
  unfold rewriteLoad at matched
  intro below ts typed named
  split at matched
  case h_2 => cases matched
  case h_1 =>
    split at matched
    · obtain ⟨load,known,rfl⟩ := Option.map_eq_some_iff.mp matched
      have sized := get_load_sized typed
      have small := named _ (List.mem_cons_self ..) (_,_) (.head _)
      exact (get_load op sized small).congr (execWindow_two _ _) ((execWindow_one _).trans (loadLocal_exec known))
    · cases matched

theorem memoryFill_preserves {mem : MemAddr} (matched : rewriteMemoryFill mem block = some made) :
    Preserves ctx K (made.window block (.memoryFill mem)) made.out := by
  unfold rewriteMemoryFill at matched
  intro below ts typed _
  split at matched
  case h_2 => cases matched
  case h_1 =>
    cases matched
    obtain ⟨us,shown,_⟩ := typeWindow_cons (typeWindow_push (typeWindow_push typed rfl) rfl)
    obtain rfl := (List.cons.inj (List.cons.inj shown).2).2
    refine const_const_fill.congr ?_ (execWindow_one _)
    change execWindow ctx [_,_,_] = _
    simp only [execWindow_cons,execWindow_nil,Exec.bind_unit]
    rfl

end Arms

-- The arms that put one access to memory for a few instructions.
def fuseMemory (block : Block) : Instruction → Option Rewrite
  | .store op arg => rewriteStore arg block op
  | .load op arg => rewriteLoad op arg block
  | .memoryFill mem => rewriteMemoryFill mem block
  | .localSet size dst => rewriteLoadSet size dst block
  | .localTee size dst => rewriteLoadTee size dst block
  | _ => none

-- Where the fused multiply-add stores to a memory it finds the address for.
def KeepsAddress (ctx : Context) (block : Block) (i : Instruction) (m : Machine) : Prop :=
  ∀ width op arg rest, block = .float (.binary width .add) :: .float (.binary width .mul) :: rest → i = .store op arg →
    m.state.shape.memorySize ctx.module arg.memAddr = .s32

-- The same end, whatever of the stack the window is given for its operands.
def LeavesSame [Allocator] [Numerics] (ctx : Context) (window out : List Instruction) (m : Machine) : Prop :=
  ∀ operands below, Ready ctx window operands below m → SameEnd below (execWindow ctx window m) (execWindow ctx out m)

section Fusion
variable [Allocator] [Numerics] {ctx : Context} {K : Shape} {below : StackBase} {operands : List OperandSize}
  {block : Block} {made : Rewrite} {m : Machine} {i : Instruction}

omit [Allocator] [Numerics] in
-- The forms an increment and a store of two locals find are no product and sum.
theorem KeepsAddress.other {second : Instruction} {rest : List Instruction}
    (other : ∀ width, second ≠ .float (.binary width .add)) : KeepsAddress ctx (second :: rest) i m := by
  intro width op arg rest' shape
  exact absurd (List.cons.inj shape).1 (other width)

omit [Allocator] [Numerics] in
theorem memorySize_cases (K : Shape) (module : ModuleInstance) (memIdx : MemAddr) :
    K.memorySize module memIdx = .s32 ∨ K.memorySize module memIdx = .s64 := by
  unfold Shape.memorySize
  rcases module.memAddrs[memIdx]?.bind (K.memories[·]?) with _ | ⟨arch,_,_,_⟩
  · exact .inl rfl
  · cases arch with
    | i32 => exact .inl rfl
    | i64 => exact .inr rfl

omit [Allocator] in
theorem Ready.tight {window : List Instruction} {us : List OperandSize} (ready : Ready ctx window (operands ++ us) below m)
    (typed : (typeWindow m.state.shape ctx.module window operands).isSome) :
    Ready ctx window operands (fun size => below size + us.count size) m where
  typed := typed
  locals := ready.locals
  frame size := Nat.le_trans (ready.frame size) (Nat.le_add_right _ _)
  height size := by
    have height := ready.height size
    rw [List.count_append] at height
    omega
  within := ready.within

-- A fused multiply-add stores where the memory's addresses are of 32 bits.
theorem fmaStore_iff {width : ScalarSize} {op : StoreOp} {arg : MemoryArg} (full : op.full = some width.size)
    (matched : rewriteFmaStore width arg block = some made)
    (ready : Ready ctx (made.window block (.store op arg)) operands below m)
    (runs : ∀ abort, execWindow ctx (made.window block (.store op arg)) m ≠ .error abort)
    (fits : ¬Overflows (execWindow ctx (made.window block (.store op arg)) m)) :
    LeavesSame ctx (made.window block (.store op arg)) made.out m ↔ KeepsAddress ctx block (.store op arg) m := by
  constructor
  · intro same
    obtain ⟨rest,rfl,rfl⟩ := fmaStore_parts matched
    rintro _ _ _ _ shape ⟨⟩
    by_contra wide
    have sized := (memorySize_cases m.state.shape ctx.module arg.memAddr).resolve_left wide
    change Ready ctx (fmaWindow width op arg) operands below m at ready
    obtain ⟨us,rfl⟩ := fmaWindow_typed ready.typed
    have tight : Ready ctx (fmaWindow width op arg)
        [width.size,width.size,width.size,m.state.shape.memorySize ctx.module arg.memAddr]
        (fun size => below size + us.count size) m := ready.tight (fmaWindow_types full)
    have ended := sameEnd_settle.mpr (same _ _ tight)
    rw [←tight.settled,←tight.settled] at ended
    have stands := tight.stands
    rw [sized] at stands
    have fused : execWindow ctx [.fMaStore width arg] = execFmaStore ctx width arg := execWindow_one _
    have unfused := tight.settled (fmaWindow width op arg)
    rw [fmaWindow_exec full] at unfused
    refine mul_add_store_64 sized stands (fun abort stopped => ?_) ?_
    · rw [unfused] at stopped
      rcases ran : execMulAddStore ctx width arg m with abort' | end_
      · rw [←fmaWindow_exec full] at ran
        exact runs abort' ran
      · rw [ran] at stopped
        cases stopped
    · rw [←fmaWindow_exec full,←fused]
      exact ended
  · intro keeps operands below ready
    refine (fmaStore_preserves full matched ?_).windows ready fits
    obtain ⟨rest,rfl,_⟩ := fmaStore_parts matched
    exact keeps width op arg rest rfl rfl

theorem fullStore_iff (width : ScalarSize) {op : StoreOp} {arg : MemoryArg} (full : op.full = some width.size)
    (matched : (rewriteIncMemory width arg block).or ((rewriteFmaStore width arg block).or
      (rewriteStoreLocals width.size arg block)) = some made)
    (ready : Ready ctx (made.window block (.store op arg)) operands below m)
    (runs : ∀ abort, execWindow ctx (made.window block (.store op arg)) m ≠ .error abort)
    (fits : ¬Overflows (execWindow ctx (made.window block (.store op arg)) m)) :
    LeavesSame ctx (made.window block (.store op arg)) made.out m ↔ KeepsAddress ctx block (.store op arg) m := by
  rcases Option.or_eq_some_iff.mp matched with inc | ⟨_,matched⟩
  · refine iff_of_true (fun _ _ ready => (incMemory_preserves full inc).windows ready fits) ?_
    obtain ⟨_,_,_,rfl,_⟩ := incMemory_parts inc
    exact .other nofun
  · rcases Option.or_eq_some_iff.mp matched with fma | ⟨_,locals⟩
    · exact fmaStore_iff full fma ready runs fits
    · refine iff_of_true (fun _ _ ready => (storeLocals_preserves full locals).windows ready fits) ?_
      obtain ⟨_,_,_,rfl,_⟩ := storeLocals_parts locals
      exact .other nofun

-- A rewritten access to memory leaves what its window leaves but for the fused
-- multiply-add, which stores at 32-bit addresses alone.
theorem memory_fusion_iff (matched : fuseMemory block i = some made)
    (ready : Ready ctx (made.window block i) operands below m)
    (runs : ∀ abort, execWindow ctx (made.window block i) m ≠ .error abort)
    (fits : ¬Overflows (execWindow ctx (made.window block i) m)) :
    LeavesSame ctx (made.window block i) made.out m ↔ KeepsAddress ctx block i m := by
  have always (preserves : Preserves ctx m.state.shape (made.window block i) made.out) :
      LeavesSame ctx (made.window block i) made.out m := fun _ _ ready => preserves.windows ready fits
  cases i with
  | store op arg =>
    cases op with
    | i32Store | f32Store => exact fullStore_iff .s32 rfl matched ready runs fits
    | i64Store | f64Store => exact fullStore_iff .s64 rfl matched ready runs fits
    | v128Store =>
      refine iff_of_true (always (storeLocals_preserves rfl matched)) ?_
      obtain ⟨_,_,_,rfl,_⟩ := storeLocals_parts matched
      exact .other nofun
    | _ => cases matched
  | load op arg => exact iff_of_true (always (load_preserves matched)) nofun
  | memoryFill mem => exact iff_of_true (always (memoryFill_preserves matched)) nofun
  | localSet size dst => exact iff_of_true (always (loadSet_preserves matched)) nofun
  | localTee size dst => exact iff_of_true (always (loadTee_preserves matched)) nofun
  | _ => cases matched

end Fusion

-- A frame over a memory of eight bytes at either address width.
namespace MemoryRun

def machine (arch : MemoryArch) (narrow : List (Value .s32)) (wide : List (Value .s64)) : Machine :=
  ⟨⟨fun
    | .s32 => ⟨narrow,8,8,false⟩
    | .s64 => ⟨wide,8,8,false⟩
    | .s128 => ⟨[],8,8,false⟩⟩,
    {State.empty with memories := [⟨⟨arch,1,none,some 8⟩,.left (.vec ⟨[1,2,3,4,5,6,7,8]⟩),1⟩]}⟩

def context : Context where
  cf := .new 0 (fun _ => 0) (.of 1 0 0)
  func := ⟨[],⟨[],[]⟩,fun _ => 0,fun _ => 0,fun _ => 0,⟨[],[]⟩⟩
  module := ⟨0,[],[],[],[],[0],[],[],[]⟩
  config := ⟨fun _ => ⟨8,8,false⟩,⟨8,8,false⟩,.perInstruction,.vec,false⟩

def below : StackBase := .of 1 0 0

theorem apart [Allocator] [Numerics] {ctx : Context} {window out : List Instruction} {operands : List OperandSize}
    {below : StackBase} {m : Machine} {first second : List (Value .s32)} (ready : Ready ctx window operands below m)
    (ended : WindowRun.left (execWindow ctx window m) = some first)
    (ended' : WindowRun.left (execWindow ctx out m) = some second) (different : first ≠ second) :
    ¬LeavesSame ctx window out m := by
  intro same
  have ends := WindowRun.left_same (same operands below ready)
  rw [ended,ended'] at ends
  exact different (Option.some.inj ends)

end MemoryRun

open MemoryRun in
theorem memory_fusion_iff_load :
    let _ := Allocator.unlimited
    let _ := Numerics.zeros
    LeavesSame context [.localGet .s32 0,.load .i32Load8U ⟨2,0⟩] [.loadLocal32 .load8U32 ⟨2,0⟩ 0] (machine .i32 [3] []) := by
  let _ := Allocator.unlimited
  let _ := Numerics.zeros
  intro _ _
  have matched : fuseMemory [.localGet .s32 0] (.load .i32Load8U ⟨2,0⟩) = some ⟨1,[.loadLocal32 .load8U32 ⟨2,0⟩ 0]⟩ := rfl
  have ready : Ready context [.localGet .s32 0,.load .i32Load8U ⟨2,0⟩] [] below (machine .i32 [3] []) := by
    refine ⟨rfl,by decide,fun size => ?_,fun size => ?_,fun size => ?_⟩
    all_goals cases size <;> decide
  refine (memory_fusion_iff matched ready (fun abort stopped => ?_) ?_).mpr nofun
  · cases stopped
  · rintro ⟨m,exceeds⟩
    cases exceeds


open MemoryRun in
-- The address 0 lies on the 64-bit lane. The fused store takes the local 3 for
-- it and leaves the 0 on the stack.
theorem fma_store_takes_local :
    let _ := Allocator.unlimited
    let _ := Numerics.zeros
    let block : Block := [.float (.binary .s32 .add),.float (.binary .s32 .mul)]
    let window := fmaWindow .s32 .f32Store ⟨0,0⟩
    fuseMemory block (.store .f32Store ⟨0,0⟩) = some ⟨2,[.fMaStore .s32 ⟨0,0⟩]⟩ ∧
      Ready context window [.s32,.s32,.s32,.s64] below (machine .i64 [3,0,0,0] [0]) ∧
      WindowRun.left (execWindow context window (machine .i64 [3,0,0,0] [0])) = some [3] ∧
      WindowRun.left (execWindow context [.fMaStore .s32 ⟨0,0⟩] (machine .i64 [3,0,0,0] [0])) = some [] ∧
      ¬LeavesSame context window [.fMaStore .s32 ⟨0,0⟩] (machine .i64 [3,0,0,0] [0]) := by
  intro _ _ block window
  have typed : (typeWindow (machine .i64 [3,0,0,0] [0]).state.shape context.module window
    [.s32,.s32,.s32,(machine .i64 [3,0,0,0] [0]).state.shape.memorySize context.module 0]).isSome := fmaWindow_types rfl
  have ready : Ready context window [.s32,.s32,.s32,.s64] below (machine .i64 [3,0,0,0] [0]) := by
    refine ⟨typed,by decide,fun size => ?_,fun size => ?_,fun size => ?_⟩
    all_goals cases size <;> decide
  have first : WindowRun.left (execWindow context window (machine .i64 [3,0,0,0] [0])) = some [3] := by decide +kernel
  have second : WindowRun.left (execWindow context [.fMaStore .s32 ⟨0,0⟩] (machine .i64 [3,0,0,0] [0])) = some [] := by
    decide +kernel
  exact ⟨by rfl,ready,first,second,apart ready first second (by decide)⟩

end TinyWasm
