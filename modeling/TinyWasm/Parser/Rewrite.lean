import TinyWasm.Instruction

namespace TinyWasm

def intBinOp : Instruction → Option BinOp
  | .int (.binary _ op) => some <| match op with
    | .add => .iAdd
    | .sub => .iSub
    | .mul => .iMul
    | .and => .iAnd
    | .or => .iOr
    | .xor => .iXor
    | .shl => .iShl
    | .shrS => .iShrS
    | .shrU => .iShrU
    | .rotl => .iRotl
    | .rotr => .iRotr
  | _ => none

def floatBinOp : Instruction → Option BinOp
  | .float (.binary _ op) => some <| match op with
    | .add => .fAdd
    | .sub => .fSub
    | .mul => .fMul
    | .div => .fDiv
    | .min => .fMin
    | .max => .fMax
    | .copysign => .fCopysign
  | _ => none

def scalarBinOp (i : Instruction) : Option BinOp := (intBinOp i).or (floatBinOp i)

def binOp128 : Instruction → Option BinOp128
  | .vector .v128And => some .and
  | .vector .v128AndNot => some .andNot
  | .vector .v128Or => some .or
  | .vector .v128Xor => some .xor
  | .vector .i64x2Add => some .i64x2Add
  | .vector .i64x2Mul => some .i64x2Mul
  | _ => none

-- The operators whose constant may come first.
def BinOp.commutes : BinOp → Bool
  | .iAdd | .iMul | .iAnd | .iOr | .iXor | .fAdd | .fMul | .fMin | .fMax => true
  | _ => false

def BinOp128.commutes : BinOp128 → Bool
  | .andNot => false
  | _ => true

-- The instructions the macros are given for one lane.
inductive Form (Op Imm : Type) where
  | get (a : LocalAddr)
  | set (a : LocalAddr)
  | tee (a : LocalAddr)
  | drop
  | copy (src dst : LocalAddr)
  | localLocal (op : Op) (a b : LocalAddr)
  | localLocalSet (op : Op) (a b dst : LocalAddr)
  | localLocalTee (op : Op) (a b dst : LocalAddr)
  | localConst (op : Op) (a : LocalAddr) (c : Imm)
  | localConstSet (op : Op) (a : LocalAddr) (c : Imm) (dst : LocalAddr)
  | localConstTee (op : Op) (a : LocalAddr) (c : Imm) (dst : LocalAddr)
  | const (c : Imm)
  | setConst (dst : LocalAddr) (c : Imm)

-- `constSet` is the closure that makes an IncLocal of a sum with a constant,
-- `loadTee` the load forms of the source resolver, which the 64-bit lane lacks.
structure Lane where
  size : OperandSize
  Op : Type
  Imm : Type
  instr : Form Op Imm → Instruction
  form : Instruction → Option (Form Op Imm)
  op : Instruction → Option Op
  constSet : LocalAddr → LocalAddr → Op → Imm → Instruction
  loadTee : Instruction → Option (Instruction × LocalAddr)

@[reducible] def Lane.scalar (width : ScalarSize) : Lane where
  size := width.size
  Op := BinOp
  Imm := Value width.size
  instr
    | .get a => .localGet width.size a
    | .set a => .localSet width.size a
    | .tee a => .localTee width.size a
    | .drop => .drop width.size
    | .copy src dst => .localCopy width.size src dst
    | .localLocal op a b => .binOpLocalLocal width op a b
    | .localLocalSet op a b dst => .binOpLocalLocalSet width op a b dst
    | .localLocalTee op a b dst => .binOpLocalLocalTee width op a b dst
    | .localConst op a c => .binOpLocalConst width op a c
    | .localConstSet op a c dst => .binOpLocalConstSet width op a c dst
    | .localConstTee op a c dst => .binOpLocalConstTee width op a c dst
    | .const c => .const width c
    | .setConst dst c => .setLocalConst width dst c
  form
    | .localGet size a => if size = width.size then some (.get a) else none
    | .localSet size a => if size = width.size then some (.set a) else none
    | .localTee size a => if size = width.size then some (.tee a) else none
    | .drop size => if size = width.size then some .drop else none
    | .binOpLocalLocal w op a b => if w = width then some (.localLocal op a b) else none
    | .binOpLocalLocalTee w op a b dst => if w = width then some (.localLocalTee op a b dst) else none
    | .binOpLocalConst w op a c => if same : w = width then some (.localConst op a (same ▸ c)) else none
    | .binOpLocalConstTee w op a c dst => if same : w = width then some (.localConstTee op a (same ▸ c) dst) else none
    | .const w c => if same : w = width then some (.const (same ▸ c)) else none
    | _ => none
  op := scalarBinOp
  constSet dst src op c :=
    if dst = src then
      match op with
      | .iAdd => .incLocal width dst c
      | .iSub => .incLocal width dst (-c)
      | op => .binOpLocalConstSet width op src c dst
    else .binOpLocalConstSet width op src c dst
  loadTee i :=
    match width,i with
    | .s32,.loadLocalTee32 .load32 arg addr dst => some (.loadLocalSet32 .load32 arg addr dst,dst)
    | _,_ => none

@[reducible] def Lane.vector : Lane where
  size := .s128
  Op := BinOp128
  Imm := ConstIdx
  instr
    | .get a => .localGet .s128 a
    | .set a => .localSet .s128 a
    | .tee a => .localTee .s128 a
    | .drop => .drop .s128
    | .copy src dst => .localCopy .s128 src dst
    | .localLocal op a b => .binOpLocalLocal128 op a b
    | .localLocalSet op a b dst => .binOpLocalLocalSet128 op a b dst
    | .localLocalTee op a b dst => .binOpLocalLocalTee128 op a b dst
    | .localConst op a c => .binOpLocalConst128 op a c
    | .localConstSet op a c dst => .binOpLocalConstSet128 op a c dst
    | .localConstTee op a c dst => .binOpLocalConstTee128 op a c dst
    | .const c => .const128 c
    | .setConst dst c => .setLocalConst128 dst c
  form
    | .localGet .s128 a => some (.get a)
    | .localSet .s128 a => some (.set a)
    | .localTee .s128 a => some (.tee a)
    | .drop .s128 => some .drop
    | .binOpLocalLocal128 op a b => some (.localLocal op a b)
    | .binOpLocalLocalTee128 op a b dst => some (.localLocalTee op a b dst)
    | .binOpLocalConst128 op a c => some (.localConst op a c)
    | .binOpLocalConstTee128 op a c dst => some (.localConstTee op a c dst)
    | .const128 c => some (.const c)
    | _ => none
  op := binOp128
  constSet dst src op c := .binOpLocalConstSet128 op src c dst
  loadTee
    | .loadLocalTee128 arg addr dst => some (.loadLocalSet128 arg addr dst,dst)
    | _ => none

@[reducible] def Lane.of : OperandSize → Lane
  | .s32 => .scalar .s32
  | .s64 => .scalar .s64
  | .s128 => .vector

-- How many of the last instructions of the block give way, with the incoming
-- one, to which others.
structure Rewrite where
  consumed : Nat
  out : List Instruction

-- A block lists the instructions since the last boundary, the latest first.
abbrev Block := List Instruction

-- The u8 of the packed local forms.
def fitsU8 (a : LocalAddr) : Prop := a < 256

instance (a : LocalAddr) : Decidable (fitsU8 a) := inferInstanceAs (Decidable (a < 256))

namespace Lane

def resolveLocalSource (lane : Lane) (i : Instruction) : Option (Option Instruction × LocalAddr) :=
  match lane.form i with
  | some (.get a) => some (none,a)
  | some (.tee a) => some (some (lane.instr (.set a)),a)
  | some (.localLocalTee op a b dst) => some (some (lane.instr (.localLocalSet op a b dst)),dst)
  | some (.localConstTee op a c dst) => some (some (lane.instr (.localConstSet op a c dst)),dst)
  | _ => (lane.loadTee i).map fun (set,dst) => (some set,dst)

def foldLocalBinop (lane : Lane) (localLocal : lane.Op → LocalAddr → LocalAddr → Instruction)
    (localConst : LocalAddr → lane.Op → lane.Imm → Instruction) : Block → Option Rewrite
  | rawOp :: rhsSrc :: lhsSrc :: _ => do
    let (lhsInstr,lhs) ← lane.resolveLocalSource lhsSrc
    let op ← lane.op rawOp
    match lane.resolveLocalSource rhsSrc with
    | some (rhsInstr,rhs) =>
      if rhsInstr.isNone ∨ rhs ≠ lhs then
        some ⟨3,lhsInstr.toList ++ rhsInstr.toList ++ [localLocal op lhs rhs]⟩
      else none
    | none =>
      match lane.form rhsSrc with
      | some (.const c) => some ⟨3,lhsInstr.toList ++ [localConst lhs op c]⟩
      | _ => none
  | _ => none

def rewriteLocalSetDirect (lane : Lane) (dst : LocalAddr) : Block → Option Rewrite
  | last :: _ =>
    match lane.form last with
    | some (.get src) => if src ≠ dst then some ⟨1,[lane.instr (.copy src dst)]⟩ else some ⟨1,[]⟩
    | some (.const c) => some ⟨1,[lane.instr (.setConst dst c)]⟩
    | some (.localLocal op a b) => some ⟨1,[lane.instr (.localLocalSet op a b dst)]⟩
    | some (.localConst op src c) => some ⟨1,[lane.constSet dst src op c]⟩
    | _ => none
  | _ => none

def rewriteLocalTeeDirect (lane : Lane) (dst : LocalAddr) : Block → Option Rewrite
  | last :: _ =>
    match lane.form last with
    | some (.get src) => if src = dst then some ⟨1,[lane.instr (.get src)]⟩ else none
    | some (.localLocal op a b) => some ⟨1,[lane.instr (.localLocalTee op a b dst)]⟩
    | some (.localConst op src c) => some ⟨1,[lane.instr (.localConstTee op src c dst)]⟩
    | _ => none
  | _ => none

def rewriteDropTeeDirect (lane : Lane) : Block → Option Rewrite
  | last :: _ =>
    match lane.form last with
    | some (.tee a) => some ⟨1,[lane.instr (.set a)]⟩
    | some (.localLocalTee op a b dst) => some ⟨1,[lane.instr (.localLocalSet op a b dst)]⟩
    | some (.localConstTee op src c dst) => some ⟨1,[lane.instr (.localConstSet op src c dst)]⟩
    | _ => none
  | _ => none

def rewriteLocalGet (lane : Lane) (dst : LocalAddr) : Block → Option Rewrite
  | last :: _ =>
    match lane.form last with
    | some (.set src) => if src = dst then some ⟨1,[lane.instr (.tee src)]⟩ else none
    | _ => none
  | _ => none

-- The operands of an operator that are locals or constants.
def rewriteOperands (lane : Lane) (op : lane.Op) (commutes : Bool) : Block → Option Rewrite
  | second :: first :: _ =>
    match lane.form first,lane.form second with
    | some (.get a),some (.get b) => some ⟨2,[lane.instr (.localLocal op a b)]⟩
    | some (.get a),some (.const c) => some ⟨2,[lane.instr (.localConst op a c)]⟩
    | some (.const c),some (.get a) => if commutes then some ⟨2,[lane.instr (.localConst op a c)]⟩ else none
    | _,_ => none
  | _ => none

end Lane

def rewriteStackGlobal (width : ScalarSize) (op : BinOp) : Block → Option Rewrite
  | .globalGet global :: _ => some ⟨1,[.binOpStackGlobal width op global]⟩
  | _ => none

def rewriteAdd (width : ScalarSize) : Block → Option Rewrite
  | .const w c :: _ => if same : w = width then some ⟨1,[.addConst width (same ▸ c)]⟩ else none
  | .int (.binary w .add) :: _ => if w = width then some ⟨1,[.int (.add3 width)]⟩ else none
  | _ => none

-- A pair of shifts by one constant is taken for a sign extension.
def signExtension (width : ScalarSize) (shift : Nat) : Option IntOp :=
  match width,shift with
  | width,8 => some (.unary width .extend8S)
  | width,16 => some (.unary width .extend16S)
  | .s64,32 => some .i64Extend32S
  | _,_ => none

def rewriteShiftPair (width : ScalarSize) : Block → Option Rewrite
  | .const w₂ c₂ :: .binOpLocalConst w₁ .iShl src c₁ :: _ =>
    if w₁ = width ∧ w₂ = width ∧ c₁.toNat = c₂.toNat then
      (signExtension width c₂.toNat).map fun extend => ⟨2,[.localGet width.size src,.int extend]⟩
    else none
  | _ => none

def rewriteIntBinary (width : ScalarSize) (op : BinOp) (block : Block) : Option Rewrite :=
  ((Lane.scalar width).rewriteOperands op op.commutes block).or <|
  (rewriteStackGlobal width op block).or <|
  if op = .iAdd then rewriteAdd width block else if op = .iShrS then rewriteShiftPair width block else none

-- A number stored at the address in a local after it was read there and raised
-- by one, at either address width.
def rewriteIncMemory (width : ScalarSize) (arg : MemoryArg) : Block → Option Rewrite
  | .addConst w c :: load :: .localGet size addr :: _ =>
    if w = width ∧ c = 1 ∧ size ≠ .s128 then
      match width,load with
      | .s32,.loadLocal32 .load32 loadArg loadAddr =>
        if loadArg = arg ∧ addr = loadAddr then some ⟨3,[.incMemoryLocal .s32 arg loadAddr]⟩ else none
      | .s64,.loadLocal64 loadArg loadAddr =>
        if loadArg = arg ∧ addr = loadAddr then some ⟨3,[.incMemoryLocal .s64 arg loadAddr]⟩ else none
      | _,_ => none
    else none
  | _ => none

def rewriteFmaStore (width : ScalarSize) (arg : MemoryArg) : Block → Option Rewrite
  | .float (.binary w₂ .add) :: .float (.binary w₁ .mul) :: _ =>
    if w₁ = width ∧ w₂ = width then some ⟨2,[.fMaStore width arg]⟩ else none
  | _ => none

def rewriteStoreLocals (size : OperandSize) (arg : MemoryArg) : Block → Option Rewrite
  | .localGet valueSize valueLocal :: .localGet .s32 addrLocal :: _ =>
    if valueSize = size ∧ fitsU8 addrLocal ∧ fitsU8 valueLocal then
      some ⟨2,[.storeLocalLocal size arg addrLocal valueLocal]⟩
    else none
  | _ => none

def rewriteStore (arg : MemoryArg) (block : Block) : StoreOp → Option Rewrite
  | .i32Store | .f32Store =>
    (rewriteIncMemory .s32 arg block).or ((rewriteFmaStore .s32 arg block).or (rewriteStoreLocals .s32 arg block))
  | .i64Store | .f64Store =>
    (rewriteIncMemory .s64 arg block).or ((rewriteFmaStore .s64 arg block).or (rewriteStoreLocals .s64 arg block))
  | .v128Store => rewriteStoreLocals .s128 arg block
  | _ => none

def loadLocal (arg : MemoryArg) (addrLocal : LocalAddr) : LoadOp → Option Instruction
  | .i32Load | .f32Load => some (.loadLocal32 .load32 arg addrLocal)
  | .i64Load | .f64Load => some (.loadLocal64 arg addrLocal)
  | .i32Load8S => some (.loadLocal32 .load8S32 arg addrLocal)
  | .i32Load8U => some (.loadLocal32 .load8U32 arg addrLocal)
  | .i32Load16S => some (.loadLocal32 .load16S32 arg addrLocal)
  | .i32Load16U => some (.loadLocal32 .load16U32 arg addrLocal)
  | _ => none

def rewriteLoad (op : LoadOp) (arg : MemoryArg) : Block → Option Rewrite
  | .localGet size addrLocal :: _ =>
    if size ≠ .s128 ∧ fitsU8 addrLocal then (loadLocal arg addrLocal op).map fun load => ⟨1,[load]⟩ else none
  | _ => none

def rewriteMemoryFill (mem : MemAddr) : Block → Option Rewrite
  | .const .s32 size :: .const .s32 val :: _ => some ⟨2,[.memoryFillImm mem (.ofNat val.toNat) size]⟩
  | _ => none

def rewriteMulAcc (width : ScalarSize) (dst : LocalAddr) : Block → Option Rewrite
  | .int (.binary w₂ .add) :: .localGet size acc :: .int (.binary w₁ .mul) :: _ =>
    if w₁ = width ∧ w₂ = width ∧ size = width.size ∧ acc = dst then some ⟨3,[.mulAccLocal width dst]⟩ else none
  | .float (.binary w₂ .add) :: .localGet size acc :: .float (.binary w₁ .mul) :: _ =>
    if w₁ = width ∧ w₂ = width ∧ size = width.size ∧ acc = dst then some ⟨3,[.fMulAccLocal width dst]⟩ else none
  | _ => none

def rewriteLoadSet (size : OperandSize) (dst : LocalAddr) (block : Block) : Option Rewrite :=
  match size,block with
  | .s32,.loadLocal32 op arg addr :: _ => if fitsU8 dst then some ⟨1,[.loadLocalSet32 op arg addr dst]⟩ else none
  | .s32,.load .i32Load arg :: .localGet .s32 addr :: _ =>
    if fitsU8 addr ∧ fitsU8 dst then some ⟨2,[.loadLocalSet32 .load32 arg addr dst]⟩ else none
  | .s128,.load .v128Load arg :: .localGet .s32 addr :: _ =>
    if fitsU8 addr ∧ fitsU8 dst then some ⟨2,[.loadLocalSet128 arg addr dst]⟩ else none
  | _,_ => none

def rewriteLoadTee (size : OperandSize) (dst : LocalAddr) (block : Block) : Option Rewrite :=
  match size,block with
  | .s32,.loadLocal32 op arg addr :: _ => if fitsU8 dst then some ⟨1,[.loadLocalTee32 op arg addr dst]⟩ else none
  | .s32,.load .i32Load arg :: .localGet .s32 addr :: _ | .s32,.load .f32Load arg :: .localGet .s32 addr :: _ =>
    if fitsU8 addr ∧ fitsU8 dst then some ⟨2,[.loadLocalTee32 .load32 arg addr dst]⟩ else none
  | .s128,.load .v128Load arg :: .localGet .s32 addr :: _ =>
    if fitsU8 addr ∧ fitsU8 dst then some ⟨2,[.loadLocalTee128 arg addr dst]⟩ else none
  | _,_ => none

def rewriteConstTee (width : ScalarSize) (dst : LocalAddr) : Block → Option Rewrite
  | .int (.binary w₂ .and) :: .const w₁ c :: _ =>
    if same : w₁ = width ∧ w₂ = width then some ⟨2,[.andConstTee width (same.1 ▸ c) dst]⟩ else none
  | .int (.binary w₂ .sub) :: .const w₁ c :: _ =>
    if same : w₁ = width ∧ w₂ = width then some ⟨2,[.subConstTee width (same.1 ▸ c) dst]⟩ else none
  | _ => none

def OperandSize.scalar : OperandSize → Option ScalarSize
  | .s32 => some .s32
  | .s64 => some .s64
  | .s128 => none

def rewriteLocalSet (size : OperandSize) (dst : LocalAddr) (block : Block) : Option Rewrite :=
  let lane := Lane.of size
  (lane.foldLocalBinop (fun op lhs rhs => lane.instr (.localLocalSet op lhs rhs dst)) (lane.constSet dst) block).or <|
  (size.scalar.bind (rewriteMulAcc · dst block)).or <|
  (lane.rewriteLocalSetDirect dst block).or (rewriteLoadSet size dst block)

def rewriteLocalTee (size : OperandSize) (dst : LocalAddr) (block : Block) : Option Rewrite :=
  let lane := Lane.of size
  (lane.foldLocalBinop (fun op lhs rhs => lane.instr (.localLocalTee op lhs rhs dst))
    (fun lhs op c => lane.instr (.localConstTee op lhs c dst)) block).or <|
  (lane.rewriteLocalTeeDirect dst block).or <|
  (size.scalar.bind (rewriteConstTee · dst block)).or (rewriteLoadTee size dst block)

-- The arms that put other instructions for the incoming one and the last ones
-- of its block. The first that matches is taken.
def fuse (block : Block) : Instruction → Option Rewrite
  | .int (.binary width op) => (intBinOp (.int (.binary width op))).bind (rewriteIntBinary width · block)
  | .float (.binary width op) =>
    (floatBinOp (.float (.binary width op))).bind fun op => (Lane.scalar width).rewriteOperands op op.commutes block
  | .vector op => (binOp128 (.vector op)).bind fun op => Lane.vector.rewriteOperands op op.commutes block
  | .store op arg => rewriteStore arg block op
  | .load op arg => rewriteLoad op arg block
  | .memoryFill mem => rewriteMemoryFill mem block
  | .localGet size dst => (Lane.of size).rewriteLocalGet dst block
  | .localSet size dst => rewriteLocalSet size dst block
  | .localTee size dst => rewriteLocalTee size dst block
  | .drop size => (Lane.of size).rewriteDropTeeDirect block
  | _ => none

end TinyWasm
