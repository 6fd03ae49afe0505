import TinyWasm.Parser.Rewrite
import TinyWasm.Parser.Code

namespace TinyWasm

def cmpOp : Instruction → Option CmpOp
  | .int (.compare _ op) => some op
  | _ => none

def inverseCmpOp : CmpOp → CmpOp
  | .eq => .ne
  | .ne => .eq
  | .ltS => .geS
  | .ltU => .geU
  | .gtS => .leS
  | .gtU => .leU
  | .leS => .gtS
  | .leU => .gtU
  | .geS => .ltS
  | .geU => .ltU

namespace Instruction

-- The memory an instruction names, as the parser asks for it.
def memoryAddr : Instruction → Option MemAddr
  | .incMemoryLocal _ arg _ | .storeLocalLocal _ arg _ _ | .loadLocal32 _ arg _ | .loadLocal64 arg _
    | .loadLocalTee32 _ arg _ _ | .loadLocalSet32 _ arg _ _ | .loadLocalTee128 arg _ _ | .loadLocalSet128 arg _ _
    | .load _ arg | .store _ arg | .loadLane _ arg _ | .storeLane _ arg _ | .fMaStore _ arg => some arg.memAddr
  | .memorySize mem | .memoryGrow mem | .memoryFill mem | .memoryFillImm mem _ _ => some mem
  -- The first index of memory.init is the data segment's.
  | .memoryInit data _ => some data
  | .memoryCopy dstMem srcMem => some (if dstMem ≥ srcMem then dstMem else srcMem)
  | _ => none

def target : Instruction → Option Nat
  | .jump ip | .jumpIfZero _ ip | .jumpIfNonZero _ ip | .jumpCmpStackConst _ ip _ _ | .jumpIfLocalZero _ ip _
    | .jumpIfLocalNonZero _ ip _ | .jumpCmpLocalConst _ ip _ _ _ | .jumpCmpLocalLocal _ ip _ _ _
    | .branchTable ip _ _ => some ip
  | _ => none

def withTarget (ip : Nat) : Instruction → Instruction
  | .jump _ => .jump ip
  | .jumpIfZero width _ => .jumpIfZero width ip
  | .jumpIfNonZero width _ => .jumpIfNonZero width ip
  | .jumpCmpStackConst width _ imm op => .jumpCmpStackConst width ip imm op
  | .jumpIfLocalZero width _ index => .jumpIfLocalZero width ip index
  | .jumpIfLocalNonZero width _ index => .jumpIfLocalNonZero width ip index
  | .jumpCmpLocalConst width _ index imm op => .jumpCmpLocalConst width ip index imm op
  | .jumpCmpLocalLocal width _ left right op => .jumpCmpLocalLocal width ip left right op
  | .branchTable _ start len => .branchTable ip start len
  | i => i

def isUnconditionalTerminator : Instruction → Bool
  | .unreachable | .jump _ | .branchTable _ _ _ | .return_ | .returnVoid | .returnOne _ | .returnCall _
    | .returnCallSelf | .returnCallIndirect _ _ => true
  | _ => false

end Instruction

def followJumps (source : List Instruction) : Nat → Nat → Nat
  | 0,idx => idx
  | steps + 1,idx =>
    match source[idx]? with
    | some (.jump next) => followJumps source steps next
    | _ => idx

def resolveJumpTarget (source : List Instruction) (target : Nat) : Nat := followJumps source source.length target

def canonicalizeJumpLikeWithTarget (i : Instruction) (target fallthrough : Nat) : List Instruction :=
  match i with
  | .jump _ => if target = fallthrough then [] else [.jump target]
  | i => [i.withTarget target]

def canonicalizeJumpLike (source : List Instruction) (i : Instruction) (fallthrough : Nat) : List Instruction :=
  match i.target with
  | some target => canonicalizeJumpLikeWithTarget i (resolveJumpTarget source target) fallthrough
  | none => [i]

-- A jump back to the test at the head of a loop repeats the test instead.
def rewriteJump (source : List Instruction) (oldIdx ip : Nat) : List Instruction :=
  let target := resolveJumpTarget source ip
  let exit := oldIdx + 1
  let body := target + 1
  match source[target]? with
  | some (.jumpCmpLocalLocal width targetIp left right op) =>
    if resolveJumpTarget source targetIp = exit ∧ body > target then
      [.jumpCmpLocalLocal width body left right (inverseCmpOp op)]
    else canonicalizeJumpLikeWithTarget (.jump ip) target exit
  | _ => canonicalizeJumpLikeWithTarget (.jump ip) target exit

section Conditions

def jumpIf (zero : Bool) (width : ScalarSize) (target : Nat) : Instruction :=
  if zero then .jumpIfZero width target else .jumpIfNonZero width target

def jumpIfLocal (zero : Bool) (width : ScalarSize) (target : Nat) (index : LocalAddr) : Instruction :=
  if zero then .jumpIfLocalZero width target index else .jumpIfLocalNonZero width target index

-- i32::try_from of an i64.
def tryFromI64 (imm : Value .s64) : Option (Value .s32) :=
  let narrow : Value .s32 := imm.setWidth _
  if narrow.signExtend _ = imm then some narrow else none

def jumpCmpLocalConst (width : ScalarSize) (target : Nat) (index : LocalAddr) (imm : Value .s32) (op : CmpOp) : Instruction :=
  match op with
  | .eq => if imm = 0 then .jumpIfLocalZero width target index else .jumpCmpLocalConst width target index imm op
  | .ne => if imm = 0 then .jumpIfLocalNonZero width target index else .jumpCmpLocalConst width target index imm op
  | op => .jumpCmpLocalConst width target index imm op

def jumpCmpStackConst (width : ScalarSize) (target : Nat) (imm : Value width.size) (op : CmpOp) : Instruction :=
  match op with
  | .eq => if imm = 0 then .jumpIfZero width target else .jumpCmpStackConst width target imm op
  | .ne => if imm = 0 then .jumpIfNonZero width target else .jumpCmpStackConst width target imm op
  | op => .jumpCmpStackConst width target imm op

-- A conditional jump on zero inverts the comparison before it.
def rewriteJumpIf (zero : Bool) (target : Nat) : Block → Option Rewrite
  | .int (.eqz width) :: .localGet size index :: _ =>
    if size = width.size then some ⟨2,[jumpIfLocal (!zero) width target index]⟩
    else some ⟨1,[jumpIf (!zero) width target]⟩
  | .int (.eqz width) :: _ => some ⟨1,[jumpIf (!zero) width target]⟩
  | .localGet .s32 index :: _ => some ⟨1,[jumpIfLocal zero .s32 target index]⟩
  | cmp :: last :: block => do
    let op ← cmpOp cmp
    let op := if zero then inverseCmpOp op else op
    match last,block with
    | .const .s32 imm,.localGet .s32 index :: _ => some ⟨3,[jumpCmpLocalConst .s32 target index imm op]⟩
    | .const .s64 imm,.localGet .s64 index :: _ =>
      match tryFromI64 imm with
      | some imm => some ⟨3,[jumpCmpLocalConst .s64 target index imm op]⟩
      | none => some ⟨2,[jumpCmpStackConst .s64 target imm op]⟩
    | .localGet .s32 right,.localGet .s32 left :: _ => some ⟨3,[.jumpCmpLocalLocal .s32 target left right op]⟩
    | .localGet .s64 right,.localGet .s64 left :: _ => some ⟨3,[.jumpCmpLocalLocal .s64 target left right op]⟩
    | .const width imm,_ => some ⟨2,[jumpCmpStackConst width target imm op]⟩
    | _,_ => none
  | _ => none

def rewriteJumpIfWide (zero : Bool) (target : Nat) : Block → Option Rewrite
  | .localGet .s64 index :: _ => some ⟨1,[jumpIfLocal zero .s64 target index]⟩
  | _ => none

end Conditions

def returnInstr (functionResults : ValueCounts) : Option Instruction :=
  match functionResults .s32,functionResults .s64,functionResults .s128 with
  | 0,0,0 => some .returnVoid
  | 1,0,0 => some (.returnOne .s32)
  | 0,1,0 => some (.returnOne .s64)
  | 0,0,1 => some (.returnOne .s128)
  | _,_,_ => none

def rewriteInstr (source : List Instruction) (functionResults : ValueCounts) (selfFuncAddr : FuncAddr) (oldIdx : Nat)
    (block : Block) (i : Instruction) : Rewrite :=
  let resolved (ip : Nat) (rewrite : Nat → Block → Option Rewrite) : Rewrite :=
    let target := resolveJumpTarget source ip
    (rewrite target block).getD ⟨0,canonicalizeJumpLikeWithTarget i target (oldIdx + 1)⟩
  let canonical (i : Instruction) : Rewrite := ⟨0,canonicalizeJumpLike source i (oldIdx + 1)⟩
  match i with
  | .localCopy _ a b => ⟨0,if a = b then [] else [i]⟩
  | .call addr => ⟨0,[if addr = selfFuncAddr then .callSelf else i]⟩
  | .returnCall addr => ⟨0,[if addr = selfFuncAddr then .returnCallSelf else i]⟩
  | .return_ => ⟨0,[(returnInstr functionResults).getD i]⟩
  | .jump ip => ⟨0,rewriteJump source oldIdx ip⟩
  | .jumpIfZero .s32 ip => resolved ip (rewriteJumpIf true)
  | .jumpIfNonZero .s32 ip => resolved ip (rewriteJumpIf false)
  | .jumpIfZero .s64 ip => resolved ip (rewriteJumpIfWide true)
  | .jumpIfNonZero .s64 ip => resolved ip (rewriteJumpIfWide false)
  | .jumpCmpStackConst width targetIp imm op => canonical (jumpCmpStackConst width targetIp imm op)
  | .jumpCmpLocalConst width targetIp index imm op => canonical (jumpCmpLocalConst width targetIp index imm op)
  | .jumpCmpLocalLocal _ _ _ _ _ | .jumpIfLocalZero _ _ _ | .jumpIfLocalNonZero _ _ _ => canonical i
  | i => (fuse block i).getD ⟨0,[i]⟩

-- The list written so far, where its last block starts and where each source
-- instruction went.
structure CompactOutput where
  instructions : List Instruction
  blockStart : Nat
  oldToNew : List Nat
  afterTerminator : Bool

namespace CompactOutput

def empty : CompactOutput := ⟨[],0,[],false⟩

def block (out : CompactOutput) : Block := (out.instructions.drop out.blockStart).reverse

def enter (out : CompactOutput) (boundary : Bool) : CompactOutput :=
  if boundary || out.afterTerminator then {out with blockStart := out.instructions.length} else out

def append (out : CompactOutput) (rewrite : Rewrite) (i : Instruction) : CompactOutput :=
  {out with
    instructions := out.instructions.take (out.instructions.length - rewrite.consumed) ++ rewrite.out
    oldToNew := out.oldToNew ++ [out.instructions.length]
    afterTerminator := i.isUnconditionalTerminator}

end CompactOutput

def rewriteFrom (source : List Instruction) (boundaries : List Bool) (functionResults : ValueCounts)
    (selfFuncAddr : FuncAddr) : List Instruction → Nat → CompactOutput → CompactOutput
  | [],_,out => out
  | i :: rest,oldIdx,out =>
    let out := out.enter (boundaries.getD oldIdx false)
    let rewrite := rewriteInstr source functionResults selfFuncAddr oldIdx out.block i
    rewriteFrom source boundaries functionResults selfFuncAddr rest (oldIdx + 1) (out.append rewrite i)

def rewrite (source : List Instruction) (boundaries : List Bool) (functionResults : ValueCounts)
    (selfFuncAddr : FuncAddr) : List Instruction × List Nat :=
  let out := rewriteFrom source boundaries functionResults selfFuncAddr source 0 .empty
  (out.instructions,out.oldToNew ++ [out.instructions.length])

def targetOutOfBounds (target : Nat) : ParseError := .other s!"instruction target out of bounds: {target}"

def tableTargetOutOfBounds (target : Nat) : ParseError := .other s!"branch table target out of bounds: {target}"

-- The targets of one branch table. A range is two u32s.
def branchTargets (data : WasmFunctionData) (start count : Nat) : Except ParseError (List Nat) :=
  if start + count ≥ 2 ^ 32 then .error (.other "branch table range overflow")
  else if start + count > data.branchTableTargets.length then .error (.other "branch table range out of bounds")
  else .ok ((data.branchTableTargets.drop start).take count)

def markBoundary (error : Nat → ParseError) (boundaries : List Bool) (target : Nat) : Except ParseError (List Bool) :=
  if target < boundaries.length then .ok (boundaries.set target true) else .error (error target)

def markTargets (data : WasmFunctionData) (boundaries : List Bool) (i : Instruction) : Except ParseError (List Bool) := do
  let boundaries ← match i.target with
    | some target => markBoundary targetOutOfBounds boundaries target
    | none => .ok boundaries
  match i with
  | .branchTable _ start count => do
    (← branchTargets data start count).foldlM (markBoundary tableTargetOutOfBounds) boundaries
  | _ => .ok boundaries

def targetBoundaries (instructions : List Instruction) (data : WasmFunctionData) : Except ParseError (List Bool) :=
  instructions.foldlM (markTargets data) (List.replicate (instructions.length + 1) false)

-- A target in the rewritten list, which it must not leave.
def remapTarget (oldToNew : Option (List Nat)) (len : Nat) (outside : Nat → ParseError) (target : Nat) :
    Except ParseError Nat := do
  let target ← match oldToNew with
    | none => .ok target
    | some oldToNew =>
      match oldToNew[target]? with
      | some target => .ok target
      | none => .error (targetOutOfBounds target)
  if target ≥ len then .error (outside target) else .ok target

def finalizeInstr (oldToNew : Option (List Nat)) (len : Nat) (data : WasmFunctionData) (i : Instruction) :
    Except ParseError Instruction := do
  let i ← match i.target with
    | some target => do .ok (i.withTarget (← remapTarget oldToNew len targetOutOfBounds target))
    | none => .ok i
  match i with
  | .branchTable _ start count => do
    let _ ← branchTargets data start count
    .ok i
  | i => .ok i

def usesLocalMemory (importedMemoryCount : Nat) (i : Instruction) : Bool :=
  i.memoryAddr.any fun mem => mem ≥ importedMemoryCount

def finalize (instructions : List Instruction) (data : WasmFunctionData) (oldToNew : Option (List Nat))
    (importedMemoryCount : Nat) : Except ParseError (List Instruction × WasmFunctionData × Bool) := do
  let len := instructions.length
  let branchTableTargets ← data.branchTableTargets.mapM (remapTarget oldToNew len tableTargetOutOfBounds)
  let data := {data with branchTableTargets}
  let instructions ← instructions.mapM (finalizeInstr oldToNew len data)
  .ok (instructions,data,instructions.any (usesLocalMemory importedMemoryCount))

-- What it returns, with the function data as it leaves it.
def optimizeInstructions (instructions : List Instruction) (data : WasmFunctionData) (options : ParserOptions)
    (functionResults : ValueCounts) (selfFuncAddr : FuncAddr) (importedMemoryCount : Nat) :
    Except ParseError (List Instruction × WasmFunctionData × Bool) :=
  if options.optimizeRewrite then do
    let boundaries ← targetBoundaries instructions data
    let (instructions,oldToNew) := rewrite instructions boundaries functionResults selfFuncAddr
    finalize instructions data (some oldToNew) importedMemoryCount
  else finalize instructions data none importedMemoryCount

end TinyWasm
