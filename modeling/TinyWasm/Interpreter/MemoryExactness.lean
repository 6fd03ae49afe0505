import TinyWasm.Interpreter.MemoryAccess

namespace TinyWasm
open ListRange LittleEndian FlatMemory LawfulMemory

-- The two ways a number grows to more bytes.
def signExtended (n : Nat) (bytes : List Byte) : List Byte :=
  bytes ++ List.replicate (n - bytes.length) (signByte bytes)

def zeroExtended (n : Nat) (bytes : List Byte) : List Byte := bytes ++ List.replicate (n - bytes.length) 0

def eachLane (n : Nat) (grow : List Byte → List Byte) (bytes : List Byte) : List Byte :=
  (List.range (bytes.length / n)).flatMap fun i => grow (slice bytes (n * i) n)

-- The little-endian bytes of the operand a load pushes, from the bytes at the
-- address: what the operator's name says, with nothing of the interpreter.
def LoadOp.extend (op : LoadOp) (bytes : List Byte) : List Byte :=
  match op with
  | i32Load | i64Load | f32Load | f64Load | v128Load => bytes
  | i32Load8S | i32Load16S => signExtended 4 bytes
  | i32Load8U | i32Load16U => zeroExtended 4 bytes
  | i64Load8S | i64Load16S | i64Load32S => signExtended 8 bytes
  | i64Load8U | i64Load16U | i64Load32U => zeroExtended 8 bytes
  | v128Load8x8S => eachLane 1 (signExtended 2) bytes
  | v128Load8x8U => eachLane 1 (zeroExtended 2) bytes
  | v128Load16x4S => eachLane 2 (signExtended 4) bytes
  | v128Load16x4U => eachLane 2 (zeroExtended 4) bytes
  | v128Load32x2S => eachLane 4 (signExtended 8) bytes
  | v128Load32x2U => eachLane 4 (zeroExtended 8) bytes
  | v128Load8Splat => (List.replicate 16 bytes).flatten
  | v128Load16Splat => (List.replicate 8 bytes).flatten
  | v128Load32Splat => (List.replicate 4 bytes).flatten
  | v128Load64Splat => (List.replicate 2 bytes).flatten
  | v128Load32Zero | v128Load64Zero => zeroExtended 16 bytes

section Casts
variable {n m : Nat} {bytes : List Byte}

theorem toBytes_signExtended (sized : bytes.length = n) (some_bytes : 0 < n) (wider : n ≤ m) :
    toBytes m ((ofBytes (8 * n) bytes).signExtend (8 * m)) = signExtended m bytes := by
  obtain ⟨k,rfl⟩ := Nat.exists_eq_add_of_le wider
  rw [toBytes_signExtend sized some_bytes,signExtended,sized,Nat.add_sub_cancel_left]

theorem toBytes_zeroExtended (sized : bytes.length = n) (wider : n ≤ m) :
    toBytes m ((ofBytes (8 * n) bytes).setWidth (8 * m)) = zeroExtended m bytes := by
  obtain ⟨k,rfl⟩ := Nat.exists_eq_add_of_le wider
  rw [toBytes_setWidth sized,zeroExtended,sized,Nat.add_sub_cancel_left]

theorem flatMap_length {α β : Type} {f : α → List β} {k : Nat} (each : ∀ x, (f x).length = k) (xs : List α) :
    (xs.flatMap f).length = xs.length * k := by
  induction xs with
  | nil => simp
  | cons x rest ih => rw [List.flatMap_cons,List.length_append,each,ih,List.length_cons,Nat.add_mul,Nat.one_mul,Nat.add_comm]

theorem toBytes_fromLanes {w : Nat} {lanes : List (BitVec w)} (full : lanes.length * n = 16) :
    toBytes 16 (LoadOp.fromLanes n lanes) = lanes.flatMap (toBytes n) :=
  toBytes_ofBytes ((flatMap_length (fun v => toBytes_length n v) lanes).trans full) (by decide)

theorem toBytes_splat {k : Nat} (sized : bytes.length = n) (full : 16 / n * n = 16) (count : 16 / n = k) :
    toBytes 16 (LoadOp.splat n (ofBytes _ bytes)) = (List.replicate k bytes).flatten := by
  rw [LoadOp.splat,toBytes_fromLanes (by rw [List.length_replicate]; exact full),count,List.flatMap_replicate,
    toBytes_ofBytes sized (Nat.le_refl _)]

theorem toBytes_extendLanes (sized : bytes.length = 8) (signed : Bool) (some_bytes : 0 < n)
    (full : 8 / n * (n + n) = 16) (whole : 8 / n * n = 8) : toBytes 16 (LoadOp.extendLanes n signed (ofBytes _ bytes)) =
      eachLane n (if signed then signExtended (n + n) else zeroExtended (n + n)) bytes := by
  rw [LoadOp.extendLanes,toBytes_ofBytes sized (Nat.le_refl _),toBytes_fromLanes (by
    rw [List.length_map,List.length_range]; exact full),List.flatMap_map,eachLane,sized]
  apply List.flatMap_congr
  intro i member
  have below := List.mem_range.mp member
  have next : (i + 1) * n ≤ 8 / n * n := Nat.mul_le_mul_right n below
  rw [Nat.add_mul,Nat.one_mul,Nat.mul_comm i] at next
  have part : (slice bytes (n * i) n).length = n := slice_length (by omega)
  cases signed with
  | true => exact toBytes_signExtended part some_bytes (by omega)
  | false => exact toBytes_zeroExtended part (by omega)

theorem toBytes_padded {k : Nat} {lanes : List (BitVec (8 * n))} (sized : bytes.length = n)
    (full : (lanes.length + 1) * n = 16) (zeros : lanes.flatMap (toBytes n) = List.replicate k 0) (rest : 16 - n = k) :
    toBytes 16 (LoadOp.fromLanes n (ofBytes _ bytes :: lanes)) = zeroExtended 16 bytes := by
  rw [toBytes_fromLanes (by rw [List.length_cons]; exact full),List.flatMap_cons,zeros,
    toBytes_ofBytes sized (Nat.le_refl _),zeroExtended,sized,rest]

theorem LoadOp.toBytes_cast (op : LoadOp) (sized : bytes.length = op.width.bytes) :
    toBytes op.target.bytes (op.cast (ofBytes _ bytes)) = op.extend bytes := by
  cases op with
  | i32Load | i64Load | f32Load | f64Load | v128Load => exact toBytes_ofBytes sized (Nat.le_refl _)
  | i32Load8S | i32Load16S | i64Load8S | i64Load16S | i64Load32S =>
    exact toBytes_signExtended sized (by decide) (by decide)
  | i32Load8U | i32Load16U | i64Load8U | i64Load16U | i64Load32U => exact toBytes_zeroExtended sized (by decide)
  | v128Load8x8S | v128Load16x4S | v128Load32x2S =>
    exact toBytes_extendLanes sized true (by decide) (by decide) (by decide)
  | v128Load8x8U | v128Load16x4U | v128Load32x2U =>
    exact toBytes_extendLanes sized false (by decide) (by decide) (by decide)
  | v128Load8Splat | v128Load16Splat | v128Load32Splat | v128Load64Splat =>
    exact toBytes_splat sized (by decide) (by decide)
  | v128Load32Zero | v128Load64Zero => exact toBytes_padded sized (by decide) (by decide) rfl

end Casts

inductive MemoryAccess where
  | load (op : LoadOp)
  | store (op : StoreOp)
  | loadLane (width : LaneWidth) (lane : Nat)
  | storeLane (width : LaneWidth) (lane : Nat)

namespace MemoryAccess

def width : MemoryAccess → AccessWidth
  | load op => op.width
  | store op => op.width
  | loadLane width _ | storeLane width _ => width.access

-- The operand above the address, if the operator has one.
@[reducible] def Operand : MemoryAccess → Type
  | load _ => Unit
  | store op => Value op.source
  | loadLane _ _ | storeLane _ _ => Value .s128

-- A validated lane immediate names a lane of the vector.
def LaneFits : MemoryAccess → Prop
  | load _ | store _ => True
  | loadLane width lane | storeLane width lane => (lane + 1) * width.access.bytes ≤ 16

def onTop (access : MemoryAccess) (operand : access.Operand) (m : Machine) : Machine :=
  match access with
  | load _ => m
  | store op => m.onTop op.source operand
  | loadLane _ _ | storeLane _ _ => m.onTop .s128 operand

variable [Allocator]

def exec (access : MemoryAccess) (ctx : Context) (arg : MemoryArg) : Step Unit :=
  match access with
  | load op => execMemLoad ctx op arg
  | store op => execMemStore ctx op arg
  | loadLane width lane => execMemLoadLane ctx width arg lane
  | storeLane width lane => execMemStoreLane ctx width arg lane

-- An access inside the memory: a load pushes the operand the bytes at the
-- address make, a store leaves the operand's bytes there and nothing else.
def Completes (access : MemoryAccess) (operand : access.Operand) (m : Machine) (addr : MemAddr)
    (mem : MemoryInstance) (start : Nat) (result : Checked (Except Trap Unit × Machine)) : Prop :=
  let loads (size : OperandSize) (read : List Byte) :=
    ∃ v : Value size, toBytes size.bytes v = read ∧ result = Machine.push size v m
  let stores (written : List Byte) :=
    ∃ inner, Valid inner ∧ bytes inner = splice (bytes mem.inner) start written ∧
      result = .ok (.ok (),{m with state := {m.state with memories := m.state.memories.set addr {mem with inner}}})
  match access with
  | load op => loads op.target (op.extend (slice (bytes mem.inner) start op.width.bytes))
  | store op => stores ((toBytes op.source.bytes operand).take op.width.bytes)
  | loadLane width lane => loads .s128 (splice (toBytes 16 operand) (lane * width.access.bytes)
      (slice (bytes mem.inner) start width.access.bytes))
  | storeLane width lane => stores (slice (toBytes 16 operand) (lane * width.access.bytes) width.access.bytes)

end MemoryAccess

-- The instruction's memory index names a memory of the store that the validator
-- let have this offset.
structure Names [Allocator] (ctx : Context) (m : Machine) (arg : MemoryArg) (addr : MemAddr) (mem : MemoryInstance) :
    Prop where
  resolves : ctx.module.memAddrs[arg.memAddr]? = some addr
  found : m.state.memories[addr]? = some mem
  backed : Valid mem.inner
  offset_fits : arg.offset < 2 ^ (OperandSize.ofArch mem.kind.arch).bits

def OutOfBounds (result : Checked (Except Trap Unit × Machine)) : Prop :=
  ∃ offset len max m', result = .ok (.error (.memoryOutOfBounds offset len max),m')

-- A trapping access may materialise a lazy memory, never change a byte of it.
def Untouched [Allocator] (m : Machine) (addr : MemAddr) (mem : MemoryInstance)
    (result : Checked (Except Trap Unit × Machine)) : Prop :=
  ∃ inner, Valid inner ∧ bytes inner = bytes mem.inner ∧
    ∀ r m', result = .ok (r,m') → m'.state = {m.state with memories := m.state.memories.set addr {mem with inner}}

theorem Machine.onTop_comm (m : Machine) {size other : OperandSize} (v : Value size) (w : Value other)
    (different : size ≠ other) : (m.onTop size v).onTop other w = (m.onTop other w).onTop size v := by
  simp only [onTop,ValueStack.setLane_other _ _ different.symm,ValueStack.setLane_other _ _ different]
  rw [ValueStack.setLane_comm _ _ _ different]

-- The address lies below the vector, on a lane of its own.
theorem Machine.onTop_s128 (m : Machine) (arch : MemoryArch) (base : Value (.ofArch arch)) (v : Value .s128) :
    (m.onTop _ base).onTop .s128 v = (m.onTop .s128 v).onTop _ base :=
  onTop_comm m base v (by cases arch <;> decide)

theorem StoreOp.width_le (op : StoreOp) : op.width.bytes ≤ op.source.bytes := by cases op <;> decide

section Accesses
variable [Allocator] {ctx : Context} {m : Machine} {arg : MemoryArg} {addr : MemAddr} {mem : MemoryInstance}

theorem Machine.push_inBounds (size : OperandSize) (v : Value size) (m : Machine) : ¬OutOfBounds (push size v m) := by
  rintro ⟨offset,len,max,m',trapped⟩
  have answer : (m.valueStack.push size v).1 = .error (.memoryOutOfBounds offset len max) :=
    congrArg Prod.fst (Except.ok.inj trapped)
  simp only [ValueStack.push,Stack.push] at answer
  split at answer <;> cases answer

theorem MemoryAccess.completes_inBounds (access : MemoryAccess) {operand : access.Operand} {start : Nat}
    {result : Checked (Except Trap Unit × Machine)} (done : access.Completes operand m addr mem start result) :
    ¬OutOfBounds result := by
  cases access with
  | load op | loadLane width lane =>
    obtain ⟨v,_,rfl⟩ := done
    exact Machine.push_inBounds _ v m
  | store op | storeLane width lane =>
    obtain ⟨inner,_,_,rfl⟩ := done
    rintro ⟨_,_,_,_,⟨⟩⟩

theorem Names.memory_run (names : Names ctx m arg addr mem) (m' : Machine) (same : m'.state = m.state) :
    ctx.memory arg.memAddr m' = .ok (.ok (addr,mem),m') := by
  simp only [Context.memory,State.at_some names.resolves,Exec.ofChecked_bind,Exec.get_bind,same,
    State.at_some names.found,Exec.pure_run]

theorem Names.memories_same (names : Names ctx m arg addr mem) :
    {m.state with memories := m.state.memories.set addr mem} = m.state := by
  obtain ⟨inside,rfl⟩ := List.getElem?_eq_some_iff.mp names.found
  rw [List.set_getElem_self]

theorem Names.untouched (names : Names ctx m arg addr mem) {r : Except Trap Unit} {m' : Machine}
    {result : Checked (Except Trap Unit × Machine)} (same : m'.state = m.state) (stopped : result = .ok (r,m')) :
    Untouched m addr mem result := by
  refine ⟨mem.inner,names.backed,rfl,?_⟩
  subst stopped
  rintro _ _ ⟨⟩
  exact same.trans names.memories_same.symm

theorem popMemoryAddr_i32 (narrow : mem.is64Bit = false) (base : Value .s32) (n : Nat) {offset : Nat}
    (fits : base.toNat + offset ≤ usizeMax) (m : Machine) :
    popMemoryAddr mem n offset (m.onTop .s32 base) = .ok (.ok (base.toNat + offset),m) := by
  rw [popMemoryAddr,narrow,←wrappingAdd_fits fits]
  exact Exec.bind_ok (Machine.pop_onTop m .s32 base)

theorem popMemoryAddr_i64 (wide : mem.is64Bit = true) (base : Value .s64) (n offset : Nat) (m : Machine) :
    popMemoryAddr mem n offset (m.onTop .s64 base) = .ok (if base.toNat + offset ≤ usizeMax
      then .ok (base.toNat + offset) else .error (memoryOob base.toNat n (LinearMemory.len mem.inner)),m) := by
  rw [popMemoryAddr,wide]
  refine (Exec.bind_ok (Machine.pop_onTop m .s64 base)).trans ?_
  rw [Exec.ofExcept_run,MemoryInstance.effectiveAddr64]
  by_cases fits : base.toNat + offset ≤ usizeMax
  · rw [checkedAdd_fits fits,if_pos fits]
  · rw [checkedAdd_wraps (Nat.lt_of_not_le fits),if_neg fits]

-- The address is the exact sum when that is an address at all; only a 64-bit
-- memory can name a larger one.
theorem popMemoryAddr_run (base : Value (.ofArch mem.kind.arch)) (n : Nat) {offset : Nat}
    (offset_fits : offset < 2 ^ (OperandSize.ofArch mem.kind.arch).bits) (m : Machine) :
    popMemoryAddr mem n offset (m.onTop _ base) = .ok (if base.toNat + offset ≤ usizeMax then .ok (base.toNat + offset)
      else .error (memoryOob base.toNat n (LinearMemory.len mem.inner)),m) := by
  have small := base.isLt
  obtain ⟨⟨arch,_,_,_⟩,inner,_⟩ := mem
  cases arch with
  | i32 =>
    change base.toNat < 2 ^ 32 at small
    change offset < 2 ^ 32 at offset_fits
    have fits : base.toNat + offset ≤ usizeMax := by simp only [usizeMax,usizeBits]; omega
    rw [if_pos fits]
    exact popMemoryAddr_i32 rfl base n fits m
  | i64 => exact popMemoryAddr_i64 rfl base n offset m

variable [Generous]

theorem loadAt_run (valid : Valid mem.inner) (width : AccessWidth) (start : Nat) (m : Machine) :
    loadAt mem width start m = .ok (if start + width.bytes ≤ (bytes mem.inner).length
      then .ok (ofBytes _ (slice (bytes mem.inner) start width.bytes))
      else .error (memoryOob start width.bytes (bytes mem.inner).length),m) := by
  simp only [loadAt,LawfulMemory.readFixed_law valid,Exec.ofChecked_bind,FlatArray.read]
  split <;> rfl

theorem storeAt_run (addr : MemAddr) (valid : Valid mem.inner) (width : AccessWidth) (v : BitVec (8 * width.bytes)) (start : Nat)
    (m : Machine) : ∃ inner, Valid inner ∧ bytes inner = (FlatArray.write (bytes mem.inner) start (toBytes width.bytes v)).2 ∧
      storeAt addr mem width v start m =
        .ok (orOob (FlatArray.write (bytes mem.inner) start (toBytes width.bytes v)).1 start width.bytes (bytes mem.inner),
          {m with state := {m.state with memories := m.state.memories.set addr {mem with inner}}}) := by
  obtain ⟨inner,written,valid',_,after⟩ :=
    LawfulMemory.writeFixed_law valid width start (toBytes_length width.bytes v)
  refine ⟨inner,valid',after,?_⟩
  simp only [storeAt,written,Exec.ofChecked_bind,Machine.setMemory]
  rfl

-- Popping the address and loading, as both load instructions do.
theorem Names.load_run (names : Names ctx m arg addr mem) (width : AccessWidth)
    (base : Value (.ofArch mem.kind.arch)) (m' : Machine) (same : m'.state = m.state) :
    let start := base.toNat + arg.offset
    let loading {α : Type} (next : BitVec (8 * width.bytes) → Step α) : Step α := do
      let (_,mem) ← ctx.memory arg.memAddr
      let a ← popMemoryAddr mem width.bytes arg.offset
      let val ← loadAt mem width a
      next val
    (start + width.bytes ≤ (bytes mem.inner).length → ∀ {α : Type} (next : BitVec (8 * width.bytes) → Step α),
      loading next (m'.onTop _ base) = next (ofBytes _ (slice (bytes mem.inner) start width.bytes)) m') ∧
    ((bytes mem.inner).length < start + width.bytes → ∀ {α : Type} (next : BitVec (8 * width.bytes) → Step α),
      ∃ offset len max, loading next (m'.onTop _ base) = .ok (.error (.memoryOutOfBounds offset len max),m')) := by
  intro start loading
  have named := names.memory_run (m'.onTop _ base) same
  have popped := popMemoryAddr_run base width.bytes names.offset_fits m'
  have fits := LawfulMemory.fits_law names.backed
  have loaded := loadAt_run names.backed width start m'
  refine ⟨fun inside α next => ?_,fun outside α next => ?_⟩
  · rw [if_pos (show base.toNat + arg.offset ≤ usizeMax by omega)] at popped
    rw [if_pos inside] at loaded
    exact (Exec.bind_ok named).trans ((Exec.bind_ok popped).trans (Exec.bind_ok loaded))
  · by_cases address : base.toNat + arg.offset ≤ usizeMax
    · rw [if_pos address] at popped
      rw [if_neg (Nat.not_le_of_lt outside)] at loaded
      exact ⟨_,_,_,(Exec.bind_ok named).trans ((Exec.bind_ok popped).trans (Exec.bind_trap loaded))⟩
    · rw [if_neg address] at popped
      exact ⟨_,_,_,(Exec.bind_ok named).trans (Exec.bind_trap popped)⟩

-- Popping the address and storing, as both store instructions do.
theorem Names.store_run (names : Names ctx m arg addr mem) (width : AccessWidth)
    (base : Value (.ofArch mem.kind.arch)) (v : BitVec (8 * width.bytes)) :
    let start := base.toNat + arg.offset
    let written (inner : MemoryStorage) : Machine :=
      {m with state := {m.state with memories := m.state.memories.set addr {mem with inner}}}
    let storing : Step Unit := do
      let (memAddr,mem) ← ctx.memory arg.memAddr
      let a ← popMemoryAddr mem width.bytes arg.offset
      storeAt memAddr mem width v a
    (start + width.bytes ≤ (bytes mem.inner).length → ∃ inner, Valid inner ∧
      bytes inner = splice (bytes mem.inner) start (toBytes width.bytes v) ∧
        storing (m.onTop _ base) = .ok (.ok (),written inner)) ∧
    ((bytes mem.inner).length < start + width.bytes → ∃ inner offset len max, Valid inner ∧
      bytes inner = bytes mem.inner ∧
        storing (m.onTop _ base) = .ok (.error (.memoryOutOfBounds offset len max),written inner)) := by
  intro start written storing
  have named := names.memory_run (m.onTop _ base) rfl
  have popped := popMemoryAddr_run base width.bytes names.offset_fits m
  have fits := LawfulMemory.fits_law names.backed
  obtain ⟨inner,valid,after,stored⟩ := storeAt_run addr names.backed width v start m
  rw [FlatArray.write,toBytes_length] at after stored
  refine ⟨fun inside => ?_,fun outside => ?_⟩
  · rw [if_pos (show base.toNat + arg.offset ≤ usizeMax by omega)] at popped
    rw [if_pos inside] at after stored
    exact ⟨inner,valid,after,(Exec.bind_ok named).trans ((Exec.bind_ok popped).trans stored)⟩
  · by_cases address : base.toNat + arg.offset ≤ usizeMax
    · rw [if_pos address] at popped
      rw [if_neg (Nat.not_le_of_lt outside)] at after stored
      exact ⟨inner,_,_,_,valid,after,(Exec.bind_ok named).trans ((Exec.bind_ok popped).trans stored)⟩
    · rw [if_neg address] at popped
      have kept : written mem.inner = m := congrArg (fun state => {m with state}) names.memories_same
      refine ⟨mem.inner,base.toNat,width.bytes,LinearMemory.len mem.inner,names.backed,rfl,?_⟩
      rw [kept]
      exact (Exec.bind_ok named).trans (Exec.bind_trap popped)

-- What one instruction does on either side of the bound.
structure MemoryAccess.Exact (access : MemoryAccess) (operand : access.Operand) (m : Machine) (addr : MemAddr)
    (mem : MemoryInstance) (start : Nat) (result : Checked (Except Trap Unit × Machine)) : Prop where
  inside : start + access.width.bytes ≤ (bytes mem.inner).length → access.Completes operand m addr mem start result
  outside : (bytes mem.inner).length < start + access.width.bytes →
    OutOfBounds result ∧ Untouched m addr mem result

theorem Names.load_exact (names : Names ctx m arg addr mem) (op : LoadOp) (base : Value (.ofArch mem.kind.arch)) :
    (MemoryAccess.load op).Exact () m addr mem (base.toNat + arg.offset) (execMemLoad ctx op arg (m.onTop _ base)) := by
  obtain ⟨reads,traps⟩ := names.load_run op.width base m rfl
  refine ⟨fun inside => ?_,fun outside => ?_⟩
  · exact ⟨_,op.toBytes_cast (slice_length inside),reads inside _⟩
  · obtain ⟨offset,len,max,trapped⟩ := traps outside fun val => Machine.push op.target (op.cast val)
    exact ⟨⟨offset,len,max,m,trapped⟩,names.untouched rfl trapped⟩

theorem Names.store_exact (names : Names ctx m arg addr mem) (op : StoreOp) (base : Value (.ofArch mem.kind.arch))
    (operand : Value op.source) : (MemoryAccess.store op).Exact operand m addr mem (base.toNat + arg.offset)
      (execMemStore ctx op arg ((m.onTop _ base).onTop _ operand)) := by
  have popped : execMemStore ctx op arg ((m.onTop _ base).onTop _ operand) = _ :=
    Exec.bind_ok (Machine.pop_onTop (m.onTop _ base) op.source operand)
  obtain ⟨stores,traps⟩ := names.store_run op.width base (op.cast operand)
  rw [popped]
  refine ⟨fun inside => ?_,fun outside => ?_⟩
  · obtain ⟨inner,valid,after,stored⟩ := stores inside
    refine ⟨inner,valid,?_,stored⟩
    rw [after,StoreOp.cast,toBytes_truncate op.width_le]
  · obtain ⟨inner,offset,len,max,valid,after,trapped⟩ := traps outside
    refine ⟨⟨offset,len,max,_,trapped⟩,inner,valid,after,?_⟩
    intro r m' stopped
    cases trapped.symm.trans stopped
    rfl

theorem Names.loadLane_exact (names : Names ctx m arg addr mem) (width : LaneWidth) {lane : Nat}
    (fits : (lane + 1) * width.access.bytes ≤ 16) (base : Value (.ofArch mem.kind.arch)) (operand : Value .s128) :
    (MemoryAccess.loadLane width lane).Exact operand m addr mem (base.toNat + arg.offset)
      (execMemLoadLane ctx width arg lane ((m.onTop _ base).onTop .s128 operand)) := by
  obtain ⟨reads,traps⟩ := names.load_run width.access base (m.onTop .s128 operand) rfl
  rw [Machine.onTop_s128]
  refine ⟨fun inside => ?_,fun outside => ?_⟩
  · have popped := Machine.pop_onTop m .s128 operand
    have read : (slice (bytes mem.inner) (base.toNat + arg.offset) width.access.bytes).length = width.access.bytes :=
      slice_length inside
    have room : lane * width.access.bytes + width.access.bytes ≤ 16 := by rwa [Nat.add_mul,Nat.one_mul] at fits
    refine ⟨ofBytes _ (splice (toBytes 16 operand) (lane * width.access.bytes)
      (slice (bytes mem.inner) (base.toNat + arg.offset) width.access.bytes)),?_,?_⟩
    · exact toBytes_ofBytes ((splice_length (by rw [toBytes_length,read]; exact room)).trans (toBytes_length 16 operand)) (by decide)
    · refine (reads inside _).trans ((Exec.bind_ok popped).trans ?_)
      rw [toBytes_ofBytes read (Nat.le_refl _),copyFromSlice_ok (by rw [toBytes_length,read]; exact room)]
      rfl
  · obtain ⟨offset,len,max,trapped⟩ := traps outside fun val => do
      let imm := toBytes 16 (← Machine.pop .s128)
      let imm ← .ofChecked (copyFromSlice imm (lane * width.access.bytes) (toBytes width.access.bytes val))
      Machine.push .s128 (ofBytes _ imm)
    exact ⟨⟨offset,len,max,_,trapped⟩,names.untouched (Machine.onTop_state m .s128 operand) trapped⟩

theorem Names.storeLane_exact (names : Names ctx m arg addr mem) (width : LaneWidth) {lane : Nat}
    (fits : (lane + 1) * width.access.bytes ≤ 16) (base : Value (.ofArch mem.kind.arch)) (operand : Value .s128) :
    (MemoryAccess.storeLane width lane).Exact operand m addr mem (base.toNat + arg.offset)
      (execMemStoreLane ctx width arg lane ((m.onTop _ base).onTop .s128 operand)) := by
  have room : lane * width.access.bytes + width.access.bytes ≤ 16 := by rwa [Nat.add_mul,Nat.one_mul] at fits
  have part : (slice (toBytes 16 operand) (lane * width.access.bytes) width.access.bytes).length = width.access.bytes :=
    slice_length (by rw [toBytes_length]; exact room)
  obtain ⟨stores,traps⟩ := names.store_run width.access base
    (ofBytes (8 * width.access.bytes) (slice (toBytes 16 operand) (lane * width.access.bytes) width.access.bytes))
  have popped : execMemStoreLane ctx width arg lane ((m.onTop _ base).onTop .s128 operand) = _ :=
    Exec.bind_ok (Machine.pop_onTop (m.onTop _ base) .s128 operand)
  rw [sliceAt_ok (by rw [toBytes_length]; exact room),Exec.ofChecked_bind] at popped
  rw [popped]
  refine ⟨fun inside => ?_,fun outside => ?_⟩
  · obtain ⟨inner,valid,after,stored⟩ := stores inside
    rw [toBytes_ofBytes part (Nat.le_refl _)] at after
    exact ⟨inner,valid,after,stored⟩
  · obtain ⟨inner,offset,len,max,valid,after,trapped⟩ := traps outside
    refine ⟨⟨offset,len,max,_,trapped⟩,inner,valid,after,?_⟩
    intro r m' stopped
    cases trapped.symm.trans stopped
    rfl

theorem Names.exact (names : Names ctx m arg addr mem) (access : MemoryAccess) (fits : access.LaneFits)
    (base : Value (.ofArch mem.kind.arch)) (operand : access.Operand) :
    access.Exact operand m addr mem (base.toNat + arg.offset)
      (access.exec ctx arg (access.onTop operand (m.onTop _ base))) := by
  cases access with
  | load op => exact names.load_exact op base
  | store op => exact names.store_exact op base operand
  | loadLane width lane => exact names.loadLane_exact width fits base operand
  | storeLane width lane => exact names.storeLane_exact width fits base operand

theorem memory_access_exact (names : Names ctx m arg addr mem) (access : MemoryAccess) (fits : access.LaneFits)
    (base : Value (.ofArch mem.kind.arch)) (operand : access.Operand) :
    let start := base.toNat + arg.offset
    let result := access.exec ctx arg (access.onTop operand (m.onTop _ base))
    (OutOfBounds result ↔ (bytes mem.inner).length < start + access.width.bytes) ∧
      (OutOfBounds result → Untouched m addr mem result) ∧
      (¬OutOfBounds result → access.Completes operand m addr mem start result) := by
  intro start result
  have exactly := names.exact access fits base operand
  have bound : OutOfBounds result ↔ (bytes mem.inner).length < start + access.width.bytes := by
    refine ⟨fun trapped => Nat.lt_of_not_le fun inside => ?_,fun outside => (exactly.outside outside).1⟩
    exact access.completes_inBounds (exactly.inside inside) trapped
  exact ⟨bound,fun trapped => (exactly.outside (bound.mp trapped)).2,
    fun inside => exactly.inside (Nat.le_of_not_lt fun outside => inside (bound.mpr outside))⟩

end Accesses

-- Eight bytes behind 64-bit addresses: a 16-bit load at 6 sign-extends the last
-- two, and no base beyond reaches the memory, also where the sum passes 2^64.
theorem memory_access_exact_at_end :
    letI := Allocator.unlimited
    let mem : MemoryInstance := ⟨⟨.i64,1,none,some 8⟩,.left (.vec ⟨[0,0,0,0,0,0,0xfe,0xff]⟩),1⟩
    let m : Machine := ⟨⟨fun _ => .new ⟨4,4,false⟩⟩,⟨[],[],[mem],[],[],[]⟩⟩
    let ctx : Context := ⟨.new 0 (fun _ => 0) (fun _ => 0),⟨[],⟨[],[]⟩,fun _ => 0,fun _ => 0,fun _ => 0,⟨[],[]⟩⟩,
      ⟨0,[],[],[],[],[0],[],[],[]⟩,⟨fun _ => ⟨4,4,false⟩,⟨4,4,false⟩,.perInstruction,.vec,false⟩⟩
    let load (base offset : Nat) := execMemLoad ctx .i32Load16S ⟨offset,0⟩ (m.onTop .s64 (BitVec.ofNat 64 base))
    load 6 0 = Machine.push .s32 (-2) m ∧ OutOfBounds (load 6 1) ∧ OutOfBounds (load (2 ^ 64 - 1) (2 ^ 64 - 1)) := by
  let _ := Allocator.unlimited
  have _ := Allocator.unlimited_generous
  intro mem m ctx load
  have names (offset : Nat) (fits : offset < 2 ^ 64) : Names ctx m ⟨offset,0⟩ 0 mem :=
    ⟨rfl,rfl,by simp [mem,FlatMemory.Valid,usizeMax,usizeBits],fits⟩
  refine ⟨?_,?_,?_⟩
  · have exactly := memory_access_exact (names 0 (by decide)) (.load .i32Load16S) trivial (BitVec.ofNat 64 6) ()
    obtain ⟨v,loaded,pushed⟩ := exactly.2.2 fun trapped => absurd (exactly.1.mp trapped) (by decide)
    have number : ofBytes 32 (LoadOp.i32Load16S.extend [0xfe,0xff]) = (-2 : BitVec 32) := by decide
    have value : v = -2 := by
      rw [←ofBytes_toBytes v (show (OperandSize.s32).bits ≤ 8 * 4 by decide)]
      exact (congrArg (ofBytes 32) loaded).trans number
    subst value
    exact pushed
  · exact (memory_access_exact (names 1 (by decide)) (.load .i32Load16S) trivial (BitVec.ofNat 64 6) ()).1.mpr (by decide)
  · exact (memory_access_exact (names (2 ^ 64 - 1) (by decide)) (.load .i32Load16S) trivial
      (BitVec.ofNat 64 (2 ^ 64 - 1)) ()).1.mpr (by decide)

end TinyWasm
