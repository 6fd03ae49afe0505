import TinyWasm.Parser.Locals

namespace TinyWasm

inductive BlockKind where
  | function | block | loop | if_
  deriving DecidableEq, Repr

structure ControlFrame where
  kind : BlockKind
  hasElse : Bool
  startIp : Nat
  branchJumps : List Nat
  height : Nat
  base : ValueCounts
  params : List OperandSize
  results : List OperandSize
  unreachable : Bool
  entryUnreachable : Bool
  endReachable : Bool

-- What a branch to the frame takes along: a loop is entered anew.
def ControlFrame.labelTypes (frame : ControlFrame) : List OperandSize :=
  if frame.kind = .loop then frame.params else frame.results

structure Signature where
  params : List OperandSize
  results : List OperandSize

structure FunctionBuilder.ModuleMetadata where
  signatures : List Signature
  functions : List TypeAddr
  globals : List OperandSize
  memories : List OperandSize
  tables : List OperandSize

namespace FunctionBuilder.ModuleMetadata

def signature (metadata : FunctionBuilder.ModuleMetadata) (idx : TypeAddr) : Except ParseError Signature :=
  match metadata.signatures[idx]? with
  | some signature => .ok signature
  | none => .error (.other s!"type index out of bounds: {idx}")

def functionSignature (metadata : FunctionBuilder.ModuleMetadata) (idx : FuncAddr) : Except ParseError Signature :=
  match metadata.functions[idx]? with
  | some type => metadata.signature type
  | none => .error (.other s!"function index out of bounds: {idx}")

def indexedSize (sizes : List OperandSize) (entity : String) (idx : Nat) : Except ParseError OperandSize :=
  match sizes[idx]? with
  | some size => .ok size
  | none => .error (.other s!"{entity} index out of bounds: {idx}")

def globalSize (metadata : FunctionBuilder.ModuleMetadata) (idx : GlobalAddr) : Except ParseError OperandSize :=
  indexedSize metadata.globals "global" idx

def memorySize (metadata : FunctionBuilder.ModuleMetadata) (idx : MemAddr) : Except ParseError OperandSize :=
  indexedSize metadata.memories "memory" idx

def tableSize (metadata : FunctionBuilder.ModuleMetadata) (idx : TableAddr) : Except ParseError OperandSize :=
  indexedSize metadata.tables "table" idx

end FunctionBuilder.ModuleMetadata

-- The innermost control frame is the head of its list, the top of the operands
-- the end of theirs.
structure FunctionBuilder where
  instructions : List Instruction
  data : WasmFunctionData
  controlStack : List ControlFrame
  operandStack : List OperandSize
  laneCounts : ValueCounts
  metadata : FunctionBuilder.ModuleMetadata
  localTypes : List OperandSize
  localAddrMap : List LocalAddr

inductive BlockType where
  | empty
  | type (size : OperandSize)
  | funcType (idx : TypeAddr)

def LaneCounts.same (a b : LaneCounts) : Bool := a .s32 == b .s32 && a .s64 == b .s64 && a .s128 == b .s128

-- Where the builder does not check its u16 counts they wrap.
def LaneCounts.wrap (counts : LaneCounts) : LaneCounts := fun size => counts size % 2 ^ 16

namespace FunctionBuilder

def new (metadata : FunctionBuilder.ModuleMetadata) (signature : Signature) (localTypes : List OperandSize)
    (localAddrMap : List LocalAddr) : FunctionBuilder where
  instructions := []
  data := ⟨[],[]⟩
  controlStack := [⟨.function,false,0,[],0,fun _ => 0,[],signature.results,false,false,false⟩]
  operandStack := []
  laneCounts _ := 0
  metadata
  localTypes
  localAddrMap

def isUnreachable (b : FunctionBuilder) : Bool :=
  match b.controlStack with
  | [] => true
  | frame :: _ => frame.unreachable

def frameHeight (b : FunctionBuilder) : Nat :=
  match b.controlStack with
  | [] => 0
  | frame :: _ => frame.height

-- The frame that get_ctx_idx finds.
def labelFrame (b : FunctionBuilder) (depth : Nat) : Except ParseError ControlFrame :=
  match b.controlStack[depth]? with
  | some frame => .ok frame
  | none => .error (.other s!"branch depth out of bounds: {depth}")

def push (b : FunctionBuilder) (i : Instruction) : FunctionBuilder := {b with instructions := b.instructions ++ [i]}

def pushSizes (b : FunctionBuilder) : List OperandSize → Except ParseError FunctionBuilder
  | [] => .ok b
  | size :: sizes =>
    if b.laneCounts size + 1 < 2 ^ 16 then
      pushSizes {b with
        laneCounts := Function.update b.laneCounts size (b.laneCounts size + 1)
        operandStack := b.operandStack ++ [size]} sizes
    else .error (.other "logical operand lane count is too large")

-- Below the base of an unreachable frame there is an operand of any size.
def popExpect (b : FunctionBuilder) (expected : OperandSize) : Except ParseError FunctionBuilder :=
  if b.operandStack.length = b.frameHeight ∧ b.isUnreachable = true then .ok b
  else
    match b.operandStack.getLast? with
    | none => .error (.other "logical operand stack underflow")
    | some actual =>
      if actual ≠ expected then .error (.other "logical operand width mismatch")
      else .ok {b with
        operandStack := b.operandStack.dropLast
        laneCounts := Function.update b.laneCounts actual ((b.laneCounts actual + (2 ^ 16 - 1)) % 2 ^ 16)}

def popAll (b : FunctionBuilder) (sizes : List OperandSize) : Except ParseError FunctionBuilder :=
  sizes.reverse.foldlM popExpect b

def applyEffect (b : FunctionBuilder) (inputs outputs : List OperandSize) : Except ParseError FunctionBuilder := do
  let b ← b.popAll inputs
  b.pushSizes outputs

def emit (b : FunctionBuilder) (inputs outputs : List OperandSize) (i : Instruction) : Except ParseError FunctionBuilder := do
  let b ← b.applyEffect inputs outputs
  .ok (b.push i)

def resetStack (b : FunctionBuilder) (height : Nat) (base : ValueCounts) : FunctionBuilder :=
  {b with operandStack := b.operandStack.take height,laneCounts := base}

def markUnreachable (b : FunctionBuilder) : FunctionBuilder :=
  match b.controlStack with
  | [] => b
  | frame :: outer =>
    resetStack {b with controlStack := {frame with unreachable := true} :: outer} frame.height frame.base

def blockSignature (b : FunctionBuilder) : BlockType → Except ParseError Signature
  | .empty => .ok ⟨[],[]⟩
  | .type size => .ok ⟨[],[size]⟩
  | .funcType idx => b.metadata.signature idx

def pushControl (b : FunctionBuilder) (kind : BlockKind) (ty : BlockType) (initialJump : Option Nat) :
    Except ParseError FunctionBuilder := do
  let signature ← b.blockSignature ty
  let popped ← b.popAll signature.params
  let pushed ← popped.pushSizes signature.params
  let frame : ControlFrame :=
    { kind
      hasElse := false
      startIp := pushed.instructions.length
      branchJumps := initialJump.toList
      height := popped.operandStack.length
      base := popped.laneCounts
      params := signature.params
      results := signature.results
      unreachable := pushed.isUnreachable
      entryUnreachable := pushed.isUnreachable
      endReachable := false }
  .ok {pushed with controlStack := frame :: pushed.controlStack}

def emitDropkeep (b : FunctionBuilder) (base keep : ValueCounts) : FunctionBuilder :=
  if b.laneCounts.same (LaneCounts.wrap fun size => base size + keep size) then b else b.push (.dropKeep ⟨base,keep⟩)

def patchTarget (target : Nat) : Instruction → Instruction
  | .jump _ => .jump target
  | .jumpIfZero .s32 _ => .jumpIfZero .s32 target
  | .jumpIfNonZero .s32 _ => .jumpIfNonZero .s32 target
  | i => i

def patchJump (b : FunctionBuilder) (jumpIp target : Nat) : FunctionBuilder :=
  {b with instructions := b.instructions.modify jumpIp (patchTarget target)}

def emitDropkeepToLabel (b : FunctionBuilder) (depth : Nat) : Except ParseError FunctionBuilder :=
  if b.isUnreachable then .ok b
  else do
    let frame ← b.labelFrame depth
    .ok (b.emitDropkeep frame.base (LaneCounts.wrap (valueCounts frame.labelTypes)))

-- A jump out of a block is patched at its end.
def ownJump (jumpIp : Nat) (frame : ControlFrame) : ControlFrame :=
  {frame with branchJumps := frame.branchJumps ++ [jumpIp],endReachable := true}

def emitBranchJumpOrReturn (b : FunctionBuilder) (depth : Nat) : Except ParseError FunctionBuilder := do
  let frame ← b.labelFrame depth
  match frame.kind with
  | .function => .ok (b.push .return_)
  | .loop => .ok (b.push (.jump frame.startIp))
  | .block | .if_ =>
    let jumpIp := b.instructions.length
    .ok ({b with controlStack := b.controlStack.modify depth (ownJump jumpIp)}.push (.jump 0))

-- The first jump of an if is the conditional one; an else has patched it.
def patchEndJumps (b : FunctionBuilder) (frame : ControlFrame) (endIp : Nat) : FunctionBuilder :=
  match frame.kind,frame.branchJumps with
  | .loop,jumps => jumps.foldl (fun b jump => b.patchJump jump frame.startIp) b
  | .if_,condJump :: jumps =>
    jumps.foldl (fun b jump => b.patchJump jump endIp) (if frame.hasElse then b else b.patchJump condJump endIp)
  | _,jumps => jumps.foldl (fun b jump => b.patchJump jump endIp) b

def visitBlock (b : FunctionBuilder) (ty : BlockType) : Except ParseError FunctionBuilder := b.pushControl .block ty none

def visitLoop (b : FunctionBuilder) (ty : BlockType) : Except ParseError FunctionBuilder := b.pushControl .loop ty none

def visitIf (b : FunctionBuilder) (ty : BlockType) : Except ParseError FunctionBuilder := do
  let b ← b.popExpect .s32
  (b.push (.jumpIfZero .s32 0)).pushControl .if_ ty (some b.instructions.length)

-- The frame of an if at its else.
def enterElse (jumpIp : Nat) (frame : ControlFrame) : ControlFrame :=
  {frame with
    endReachable := frame.endReachable || !frame.unreachable,hasElse := true
    branchJumps := frame.branchJumps ++ [jumpIp]}

def visitElse (b : FunctionBuilder) : Except ParseError FunctionBuilder :=
  match b.controlStack with
  | [] => .error (.other "else without matching if")
  | frame :: outer =>
    if frame.kind ≠ .if_ then .error (.other "else without matching if")
    else do
      let condJumpIp := frame.branchJumps.headD 0
      let jumpIp := b.instructions.length
      let entered := enterElse jumpIp frame
      let b := (b.push (.jump 0)).patchJump condJumpIp (jumpIp + 1)
      let b ← (resetStack {b with controlStack := entered :: outer} frame.height frame.base).pushSizes frame.params
      .ok {b with controlStack := {entered with unreachable := frame.entryUnreachable} :: outer}

def setUnreachable (unreachable : Bool) : List ControlFrame → List ControlFrame
  | [] => []
  | parent :: outer => {parent with unreachable} :: outer

def endsReachable (frame : ControlFrame) : Bool :=
  !frame.entryUnreachable && (!frame.unreachable || frame.endReachable || (frame.kind == .if_ && !frame.hasElse))

def visitEnd (b : FunctionBuilder) : Except ParseError FunctionBuilder :=
  match b.controlStack with
  | [] => .error (.other "end without control frame")
  | frame :: outer =>
    if frame.kind = .function then .ok ({b with controlStack := outer}.push .return_)
    else do
      let reachable := endsReachable frame
      let b ← (resetStack {b with controlStack := outer} frame.height frame.base).pushSizes frame.results
      let b := {b with controlStack := setUnreachable (!reachable) b.controlStack}
      .ok (b.patchEndJumps frame b.instructions.length)

def visitBr (b : FunctionBuilder) (depth : Nat) : Except ParseError FunctionBuilder := do
  let b ← b.emitDropkeepToLabel depth
  let b ← b.emitBranchJumpOrReturn depth
  .ok b.markUnreachable

-- With nothing to shape, the jump of the test is the branch itself.
def visitBrIf (b : FunctionBuilder) (depth : Nat) : Except ParseError FunctionBuilder := do
  let b ← b.popExpect .s32
  let condJumpIp := b.instructions.length
  let tested := b.push (.jumpIfZero .s32 0)
  let shaped ← tested.emitDropkeepToLabel depth
  let shapedBranch : Except ParseError FunctionBuilder := do
    let branched ← shaped.emitBranchJumpOrReturn depth
    .ok (branched.patchJump condJumpIp branched.instructions.length)
  if shaped.instructions.length = tested.instructions.length then
    match shaped.controlStack[depth]? with
    | some frame =>
      if frame.kind ≠ .function then
        .ok {shaped with
          instructions := shaped.instructions.set condJumpIp (.jumpIfNonZero .s32 0)
          controlStack := shaped.controlStack.modify depth (ownJump condJumpIp)}
      else shapedBranch
    | none => shapedBranch
  else shapedBranch

structure PadInfo where
  depth : Nat
  padStart : Nat
  jumpOrRetIp : Nat
  isReturn : Bool

-- One pad for each depth among the targets.
def addPads (b : FunctionBuilder) : List Nat → List PadInfo → Except ParseError (FunctionBuilder × List PadInfo)
  | [],pads => .ok (b,pads)
  | depth :: depths,pads =>
    if pads.any (·.depth == depth) then b.addPads depths pads
    else if b.isUnreachable then
      (b.push .return_).addPads depths (pads ++ [⟨depth,b.instructions.length,b.instructions.length,true⟩])
    else do
      let frame ← b.labelFrame depth
      let shaped := b.emitDropkeep frame.base (LaneCounts.wrap (valueCounts frame.labelTypes))
      (shaped.push (.jump 0)).addPads depths
        (pads ++ [⟨depth,b.instructions.length,shaped.instructions.length,false⟩])

def padFor (pads : List PadInfo) (missing : String) (depth : Nat) : Except ParseError PadInfo :=
  match pads.find? (·.depth == depth) with
  | some pad => .ok pad
  | none => .error (.other missing)

def patchPads (b : FunctionBuilder) : List PadInfo → Except ParseError FunctionBuilder
  | [] => .ok b
  | pad :: pads =>
    if pad.isReturn then b.patchPads pads
    else do
      let frame ← b.labelFrame pad.depth
      match frame.kind with
      | .function => patchPads {b with instructions := b.instructions.set pad.jumpOrRetIp .return_} pads
      | .loop => (b.patchJump pad.jumpOrRetIp frame.startIp).patchPads pads
      | .block | .if_ =>
        patchPads {b with controlStack := b.controlStack.modify pad.depth (ownJump pad.jumpOrRetIp)} pads

def setDefault (defaultIp : Nat) : Instruction → Instruction
  | .branchTable _ start len => .branchTable defaultIp start len
  | i => i

def visitBrTable (b : FunctionBuilder) (targetDepths : List Nat) (defaultDepth : Nat) : Except ParseError FunctionBuilder := do
  let b ← b.popExpect .s32
  let headerIp := b.instructions.length
  let branchTableStart := b.data.branchTableTargets.length
  let header := b.push (.branchTable 0 branchTableStart targetDepths.length)
  let (b,pads) ← header.addPads (targetDepths ++ [defaultDepth]) []
  let found ← targetDepths.mapM (padFor pads "missing branch table target")
  let defaultPad ← padFor pads "missing default branch table target" defaultDepth
  let b := {b with
    data := {b.data with branchTableTargets := b.data.branchTableTargets ++ found.map PadInfo.padStart}
    instructions := b.instructions.modify headerIp (setDefault defaultPad.padStart)}
  let b ← b.patchPads pads
  .ok b.markUnreachable

theorem visitBrTable_parts {b b' : FunctionBuilder} {targetDepths : List Nat} {defaultDepth : Nat}
    (ran : b.visitBrTable targetDepths defaultDepth = .ok b') :
    ∃ popped filled pads found defaultPad patched, b.popExpect .s32 = .ok popped ∧
      (popped.push (.branchTable 0 popped.data.branchTableTargets.length targetDepths.length)).addPads
        (targetDepths ++ [defaultDepth]) [] = .ok (filled,pads) ∧
      targetDepths.mapM (padFor pads "missing branch table target") = .ok found ∧
      padFor pads "missing default branch table target" defaultDepth = .ok defaultPad ∧
      patchPads {filled with
        data := {filled.data with branchTableTargets := filled.data.branchTableTargets ++ found.map PadInfo.padStart}
        instructions := filled.instructions.modify popped.instructions.length (setDefault defaultPad.padStart)} pads =
          .ok patched ∧ b' = patched.markUnreachable := by
  unfold visitBrTable at ran
  cases tested : b.popExpect .s32 with
  | error error => rw [tested] at ran; cases ran
  | ok popped =>
    simp only [tested,bind,Except.bind] at ran
    split at ran
    · cases ran
    · rename_i added
      split at ran
      · cases ran
      · rename_i looked
        split at ran
        · cases ran
        · rename_i default
          split at ran
          · cases ran
          · rename_i patching
            cases ran
            exact ⟨popped,_,_,_,_,_,rfl,added,looked,default,patching,rfl⟩

-- unreachable and return.
def terminating (b : FunctionBuilder) (i : Instruction) : Except ParseError FunctionBuilder := b.markUnreachable.emit [] [] i

def visitCall (b : FunctionBuilder) (functionIndex : FuncAddr) : Except ParseError FunctionBuilder := do
  let signature ← b.metadata.functionSignature functionIndex
  b.emit signature.params signature.results (.call functionIndex)

def visitCallIndirect (b : FunctionBuilder) (typeIndex : TypeAddr) (tableIndex : TableAddr) : Except ParseError FunctionBuilder := do
  let signature ← b.metadata.signature typeIndex
  let index ← b.metadata.tableSize tableIndex
  b.emit (signature.params ++ [index]) signature.results (.callIndirect typeIndex tableIndex)

def visitReturnCall (b : FunctionBuilder) (functionIndex : FuncAddr) : Except ParseError FunctionBuilder := do
  let signature ← b.metadata.functionSignature functionIndex
  let b ← b.applyEffect signature.params []
  .ok (b.markUnreachable.push (.returnCall functionIndex))

def visitReturnCallIndirect (b : FunctionBuilder) (typeIndex : TypeAddr) (tableIndex : TableAddr) :
    Except ParseError FunctionBuilder := do
  let signature ← b.metadata.signature typeIndex
  let index ← b.metadata.tableSize tableIndex
  let b ← b.applyEffect (signature.params ++ [index]) []
  .ok (b.markUnreachable.push (.returnCallIndirect typeIndex tableIndex))

def visitGlobalSet (b : FunctionBuilder) (globalIndex : GlobalAddr) : Except ParseError FunctionBuilder := do
  let size ← b.metadata.globalSize globalIndex
  b.emit [size] [] (.globalSet size globalIndex)

def visitDrop (b : FunctionBuilder) : Except ParseError FunctionBuilder :=
  let size := b.operandStack.getLast?.getD .s32
  b.emit [size] [] (.drop size)

def visitSelect (b : FunctionBuilder) : Except ParseError FunctionBuilder :=
  let size := b.operandStack.reverse[1]?.getD .s32
  b.emit [size,size,.s32] [size] (.select size)

def builderLocal (b : FunctionBuilder) (idx : Nat) : Except ParseError (OperandSize × LocalAddr) :=
  TinyWasm.builderLocal b.localTypes b.localAddrMap idx

def visitLocalGet (b : FunctionBuilder) (idx : Nat) : Except ParseError FunctionBuilder := do
  let (size,localIdx) ← b.builderLocal idx
  b.emit [] [size] (.localGet size localIdx)

def visitLocalSet (b : FunctionBuilder) (idx : Nat) : Except ParseError FunctionBuilder := do
  let (size,localIdx) ← b.builderLocal idx
  b.emit [size] [] (.localSet size localIdx)

-- The source of a local.get of the size that was emitted last.
def foldableGet (b : FunctionBuilder) (size : OperandSize) : Option LocalAddr :=
  match b.instructions.getLast? with
  | some (.localGet other src) => if other = size then some src else none
  | _ => none

def visitLocalTee (b : FunctionBuilder) (idx : Nat) : Except ParseError FunctionBuilder := do
  let (size,localIdx) ← b.builderLocal idx
  let b ← b.applyEffect [size] [size]
  match b.foldableGet size with
  | some src =>
    .ok {b with instructions := b.instructions.dropLast ++ [.localCopy size src localIdx,.localGet size localIdx]}
  | none => .ok (b.push (.localTee size localIdx))

def visitV128Const (b : FunctionBuilder) (value : Value .s128) : Except ParseError FunctionBuilder := do
  let b ← b.emit [] [.s128] (.const128 b.data.v128Constants.length)
  .ok {b with data := {b.data with v128Constants := b.data.v128Constants ++ [value]}}

def visitI8x16Shuffle (b : FunctionBuilder) (lanes : Value .s128) : Except ParseError FunctionBuilder := do
  let b ← b.emit [.s128,.s128] [.s128] (.i8x16Shuffle b.data.v128Constants.length)
  .ok {b with data := {b.data with v128Constants := b.data.v128Constants ++ [lanes]}}

end FunctionBuilder

-- Control goes on behind it.
def Instruction.continues : Instruction → Bool
  | .unreachable | .jump _ | .jumpIfZero _ _ | .jumpIfNonZero _ _ | .jumpIfLocalZero _ _ _ | .jumpIfLocalNonZero _ _ _
    | .jumpCmpStackConst _ _ _ _ | .jumpCmpLocalConst _ _ _ _ _ | .jumpCmpLocalLocal _ _ _ _ _ | .branchTable _ _ _
    | .return_ | .returnVoid | .returnOne _ | .call _ | .callSelf | .callIndirect _ _ | .returnCall _ | .returnCallSelf
    | .returnCallIndirect _ _ => false
  | _ => true

-- A `row` is one of the table of operators that do what their operands and their
-- one instruction say, an `effect` one without an instruction.
inductive Operator where
  | row (inputs outputs : List OperandSize) (i : Instruction) (continues : i.continues = true)
  | effect (inputs outputs : List OperandSize)
  | v128Const (value : Value .s128)
  | i8x16Shuffle (lanes : Value .s128)
  | unreachable
  | return_
  | call (functionIndex : FuncAddr)
  | callIndirect (typeIndex : TypeAddr) (tableIndex : TableAddr)
  | returnCall (functionIndex : FuncAddr)
  | returnCallIndirect (typeIndex : TypeAddr) (tableIndex : TableAddr)
  | globalSet (globalIndex : GlobalAddr)
  | drop
  | select
  | localGet (idx : Nat)
  | localSet (idx : Nat)
  | localTee (idx : Nat)
  | block (ty : BlockType)
  | loop (ty : BlockType)
  | if_ (ty : BlockType)
  | else_
  | end_
  | br (depth : Nat)
  | brIf (depth : Nat)
  | brTable (targetDepths : List Nat) (defaultDepth : Nat)

namespace FunctionBuilder

def visit (b : FunctionBuilder) : Operator → Except ParseError FunctionBuilder
  | .row inputs outputs i _ => b.emit inputs outputs i
  | .effect inputs outputs => b.applyEffect inputs outputs
  | .v128Const value => b.visitV128Const value
  | .i8x16Shuffle lanes => b.visitI8x16Shuffle lanes
  | .unreachable => b.terminating .unreachable
  | .return_ => b.terminating .return_
  | .call functionIndex => b.visitCall functionIndex
  | .callIndirect typeIndex tableIndex => b.visitCallIndirect typeIndex tableIndex
  | .returnCall functionIndex => b.visitReturnCall functionIndex
  | .returnCallIndirect typeIndex tableIndex => b.visitReturnCallIndirect typeIndex tableIndex
  | .globalSet globalIndex => b.visitGlobalSet globalIndex
  | .drop => b.visitDrop
  | .select => b.visitSelect
  | .localGet idx => b.visitLocalGet idx
  | .localSet idx => b.visitLocalSet idx
  | .localTee idx => b.visitLocalTee idx
  | .block ty => b.visitBlock ty
  | .loop ty => b.visitLoop ty
  | .if_ ty => b.visitIf ty
  | .else_ => b.visitElse
  | .end_ => b.visitEnd
  | .br depth => b.visitBr depth
  | .brIf depth => b.visitBrIf depth
  | .brTable targetDepths defaultDepth => b.visitBrTable targetDepths defaultDepth

end FunctionBuilder

end TinyWasm
