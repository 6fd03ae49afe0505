import TinyWasm.Parser.DeadVisits

namespace TinyWasm

-- What an instruction takes from the lanes when it runs through, and what it
-- leaves there.
structure Effects where
  takes : Instruction → ValueCounts
  gives : Instruction → ValueCounts

def Instruction.tailCalls : Instruction → Bool
  | .returnCall _ | .returnCallSelf | .returnCallIndirect _ _ => true
  | _ => false

namespace Effects

-- How high the lanes are behind an instruction. Shaping counts from the bottom.
def after (E : Effects) (c : ValueCounts) : Instruction → ValueCounts
  | .dropKeep shape => fun size => shape.base size + shape.keep size
  | i => fun size => c size - E.takes i size + E.gives i size

-- The operands are there, and what a tail call gives is what is to be returned.
def Room (E : Effects) (c : ValueCounts) : Instruction → Prop
  | .dropKeep shape => ∀ size, shape.base size + shape.keep size ≤ c size
  | i => (∀ size, E.takes i size ≤ c size) ∧ (i.tailCalls = true → E.gives i = E.takes .return_)

-- The lanes that an instruction asks for are those of its operands, and the lanes
-- behind it those of its results.
structure Has (E : Effects) (i : Instruction) (ins outs : List OperandSize) : Prop where
  room (c : ValueCounts) : E.Room c i ↔ ∀ size, ins.count size ≤ c size
  after (c : ValueCounts) : E.after c i = fun size => c size - ins.count size + outs.count size

-- The effects that the visits of the builder have in mind.
structure Describes (E : Effects) (metadata : FunctionBuilder.ModuleMetadata) (results : List OperandSize) : Prop where
  jump (t : Nat) : E.Has (.jump t) [] []
  jumpIfZero (t : Nat) : E.Has (.jumpIfZero .s32 t) [.s32] []
  jumpIfNonZero (t : Nat) : E.Has (.jumpIfNonZero .s32 t) [.s32] []
  branchTable (default first len : Nat) : E.Has (.branchTable default first len) [.s32] []
  unreachable : E.Has .unreachable [] []
  return_ : E.Has .return_ results []
  call {func : FuncAddr} {signature : Signature} : metadata.functionSignature func = .ok signature →
    E.Has (.call func) signature.params signature.results
  callIndirect {type : TypeAddr} {table : TableAddr} {signature : Signature} {index : OperandSize} :
    metadata.signature type = .ok signature → metadata.tableSize table = .ok index →
      E.Has (.callIndirect type table) (signature.params ++ [index]) signature.results
  returnCall {func : FuncAddr} {signature : Signature} : metadata.functionSignature func = .ok signature →
    signature.results = results → E.Has (.returnCall func) signature.params results
  returnCallIndirect {type : TypeAddr} {table : TableAddr} {signature : Signature} {index : OperandSize} :
    metadata.signature type = .ok signature → signature.results = results → metadata.tableSize table = .ok index →
      E.Has (.returnCallIndirect type table) (signature.params ++ [index]) results
  const128 (c : ConstIdx) : E.Has (.const128 c) [] [.s128]
  i8x16Shuffle (c : ConstIdx) : E.Has (.i8x16Shuffle c) [.s128,.s128] [.s128]
  globalSet {global : GlobalAddr} {size : OperandSize} : metadata.globalSize global = .ok size →
    E.Has (.globalSet size global) [size] []
  drop (size : OperandSize) : E.Has (.drop size) [size] []
  select (size : OperandSize) : E.Has (.select size) [size,size,.s32] [size]
  localGet (size : OperandSize) (index : LocalAddr) : E.Has (.localGet size index) [] [size]
  localSet (size : OperandSize) (index : LocalAddr) : E.Has (.localSet size index) [size] []
  localTee (size : OperandSize) (index : LocalAddr) : E.Has (.localTee size index) [size] [size]
  localCopy (size : OperandSize) (src dst : LocalAddr) : E.Has (.localCopy size src dst) [] []

theorem Has.idle {E : Effects} {i : Instruction} (has : E.Has i [] []) (c : ValueCounts) : E.Room c i ∧ E.after c i = c :=
  ⟨(has.room c).mpr fun size => Nat.zero_le (c size),(has.after c).trans (funext fun _ => by simp)⟩

end Effects

-- The lanes are so high above the locals wherever control arrives; at the end of
-- the code it may arrive from what stands before.
def LevelAt (levels : List (Option ValueCounts)) (top : Option ValueCounts) (ip : Nat) (c : ValueCounts) : Prop :=
  levels[ip]? = some (some c) ∨ ip = levels.length ∧ top = some c

-- The operands are there, and wherever the instruction passes control, the lanes
-- are as high as its effect leaves them.
structure Instruction.Fits (E : Effects) (table : List Nat) (levels : List (Option ValueCounts)) (top : Option ValueCounts)
    (ip : Nat) (c : ValueCounts) (i : Instruction) : Prop where
  room : E.Room c i
  flows : i.Flows table (fun t => LevelAt levels top t (E.after c i)) ip

-- Dead instructions have no level. Nothing is known yet of what is in a hole.
structure LevelCode (E : Effects) (code : List Instruction) (table : List Nat) (levels : List (Option ValueCounts))
    (top : Option ValueCounts) (hole : Nat → Prop) : Prop where
  length : levels.length = code.length
  start : LevelAt levels top 0 fun _ => 0
  fits (ip : Nat) (i : Instruction) (c : ValueCounts) : levels[ip]? = some (some c) → code[ip]? = some i → ¬hole ip →
    i.Fits E table levels top ip c

namespace LevelAt
variable {levels : List (Option ValueCounts)} {top top' : Option ValueCounts} {ip : Nat} {c : ValueCounts}

theorem raise (raised : ∀ c, top = some c → top' = some c) (known : LevelAt levels top ip c) : LevelAt levels top' ip c := by
  rcases known with inside | ⟨last,falls⟩
  · exact .inl inside
  · exact .inr ⟨last,raised c falls⟩

theorem push (known : LevelAt levels top ip c) : LevelAt (levels ++ [top]) top' ip c := by
  rcases known with inside | ⟨rfl,rfl⟩
  · refine .inl ?_
    rw [List.getElem?_append_left (List.getElem?_eq_some_iff.mp inside).1]
    exact inside
  · exact .inl List.getElem?_concat_length

theorem inside (known : LevelAt levels none ip c) : levels[ip]? = some (some c) := by
  rcases known with inside | ⟨_,falls⟩
  · exact inside
  · cases falls

end LevelAt

namespace Instruction.Fits
variable {E : Effects} {table : List Nat} {levels levels' : List (Option ValueCounts)} {top top' : Option ValueCounts} {ip : Nat}
  {c : ValueCounts} {i : Instruction}

theorem mono (fits : i.Fits E table levels top ip c) (more : ∀ t c, LevelAt levels top t c → LevelAt levels' top' t c) :
    i.Fits E table levels' top' ip c := ⟨fits.room,fits.flows.mono fun t known => more t _ known⟩

theorem append (fits : i.Fits E table levels top ip c) (more : List Nat) : i.Fits E (table ++ more) levels top ip c :=
  ⟨fits.room,fits.flows.append more⟩

theorem straight (room : E.Room c i) (next : LevelAt levels top (ip + 1) (E.after c i)) (none : i.target = none) :
    i.Fits E table levels top ip c := ⟨room,.straight next none⟩

theorem ends (room : E.Room c i) (terminates : i.isUnconditionalTerminator = true) (none : i.target = none) :
    i.Fits E table levels top ip c := ⟨room,.ends terminates none⟩

end Instruction.Fits

namespace LevelCode
variable {E : Effects} {code code' : List Instruction} {table : List Nat} {levels : List (Option ValueCounts)}
  {top top' : Option ValueCounts} {hole hole' : Nat → Prop}

theorem raise (level : LevelCode E code table levels top hole) (raised : ∀ c, top = some c → top' = some c) :
    LevelCode E code table levels top' hole :=
  ⟨level.length,level.start.raise raised,fun ip i c lives there filled =>
    (level.fits ip i c lives there filled).mono fun _ _ known => known.raise raised⟩

theorem open_ (level : LevelCode E code table levels top hole) (more : ∀ k, hole k → hole' k) :
    LevelCode E code table levels top hole' :=
  ⟨level.length,level.start,fun ip i c lives there filled => level.fits ip i c lives there fun hollow => filled (more ip hollow)⟩

theorem push {i : Instruction} (level : LevelCode E code table levels top hole)
    (fits : ∀ c, top = some c → ¬hole code.length → i.Fits E table (levels ++ [top]) top' code.length c) :
    LevelCode E (code ++ [i]) table (levels ++ [top]) top' hole := by
  refine ⟨by rw [List.length_append,List.length_append,level.length]; rfl,level.start.push,fun ip i' c lives there filled => ?_⟩
  rcases Nat.lt_trichotomy ip code.length with before | rfl | after
  · rw [List.getElem?_append_left before] at there
    rw [List.getElem?_append_left (by rw [level.length]; exact before)] at lives
    exact (level.fits ip i' c lives there filled).mono fun _ _ known => known.push
  · rw [List.getElem?_concat_length] at there
    rw [←level.length,List.getElem?_concat_length] at lives
    cases there
    exact fits c (Option.some.inj lives) filled
  · rw [List.getElem?_eq_none (by rw [List.length_append]; exact after)] at there
    cases there

-- One instruction is made anew.
theorem alter (level : LevelCode E code table levels top hole) (j : Nat) (same : code'.length = code.length)
    (others : ∀ k, k ≠ j → code'[k]? = code[k]?) (holes : ∀ k, k ≠ j → hole k → hole' k)
    (fits : ∀ i c, levels[j]? = some (some c) → code'[j]? = some i → ¬hole' j → i.Fits E table levels top j c) :
    LevelCode E code' table levels top hole' := by
  refine ⟨level.length.trans same.symm,level.start,fun ip i c lives there filled => ?_⟩
  by_cases own : ip = j
  · subst own
    exact fits i c lives there filled
  · rw [others ip own] at there
    exact level.fits ip i c lives there fun hollow => filled (holes ip own hollow)

theorem extend (level : LevelCode E code table levels top hole) (more : List Nat) :
    LevelCode E code (table ++ more) levels top hole :=
  ⟨level.length,level.start,fun ip i c lives there filled => (level.fits ip i c lives there filled).append more⟩

end LevelCode

-- The lanes with values of these sizes on top of what lies below the frame.
def ControlFrame.holding (frame : ControlFrame) (sizes : List OperandSize) : ValueCounts := fun size =>
  frame.base size + valueCounts sizes size

-- The jumps of a frame that its end is to patch; an else has patched the test.
def ControlFrame.openJumps (frame : ControlFrame) : List Nat :=
  if frame.kind = .if_ ∧ frame.hasElse = true then frame.branchJumps.tail else frame.branchJumps

def FunctionBuilder.Opens (b : FunctionBuilder) (j : Nat) : Prop := ∃ frame ∈ b.controlStack, j ∈ frame.openJumps

def Instruction.patchable : Instruction → Bool
  | .jump _ | .jumpIfZero .s32 _ | .jumpIfNonZero .s32 _ => true
  | _ => false

-- A jump that can be patched leaves the lanes as they are wanted where it goes;
-- otherwise it ends the function.
structure Instruction.Awaits (E : Effects) (levels : List (Option ValueCounts)) (top : Option ValueCounts) (j : Nat)
    (c wanted : ValueCounts) (i : Instruction) : Prop where
  room : E.Room c i
  after : i.patchable = true → E.after c i = wanted
  next : i.isUnconditionalTerminator = false → LevelAt levels top (j + 1) wanted
  ends : i.patchable = false → i.isUnconditionalTerminator = true ∧ i.target = none

-- The place of a jump to a label; where it is live, the label can be reached.
def Arrives (E : Effects) (code : List Instruction) (levels : List (Option ValueCounts)) (top : Option ValueCounts) (j : Nat)
    (live : Prop) (wanted : ValueCounts) : Prop :=
  ∃ i, code[j]? = some i ∧ i.continues = false ∧ ∀ c, levels[j]? = some (some c) → live ∧ i.Awaits E levels top j c wanted

structure LevelFrame (E : Effects) (results : List OperandSize) (code : List Instruction) (levels : List (Option ValueCounts))
    (top : Option ValueCounts) (frame : ControlFrame) : Prop where
  begins : frame.kind = .loop → frame.entryUnreachable = false → LevelAt levels top frame.startIp (frame.holding frame.params)
  test : frame.kind = .if_ → ∃ condJump jumps, frame.branchJumps = condJump :: jumps ∧ (frame.hasElse = false →
    Arrives E code levels top condJump (frame.entryUnreachable = false) (frame.holding frame.params))
  own : ∀ j ∈ frame.ownJumps,
    Arrives E code levels top j (frame.entryUnreachable = false ∧ frame.endReachable = true) (frame.holding frame.labelTypes)
  whole : frame.kind = .function → frame.results = results ∧ (frame.base = fun _ => 0) ∧ frame.branchJumps = []

section Persistence
variable {E : Effects} {results : List OperandSize} {code code' : List Instruction} {levels levels' : List (Option ValueCounts)}
  {top top' : Option ValueCounts} {j : Nat} {live live' : Prop} {c wanted : ValueCounts} {i : Instruction}

theorem Instruction.Awaits.mono (awaits : i.Awaits E levels top j c wanted)
    (more : ∀ ip c, LevelAt levels top ip c → LevelAt levels' top' ip c) : i.Awaits E levels' top' j c wanted :=
  ⟨awaits.room,awaits.after,fun falls => more _ _ (awaits.next falls),awaits.ends⟩

theorem Arrives.lt (arrives : Arrives E code levels top j live wanted) : j < code.length := by
  obtain ⟨i,there,_⟩ := arrives
  exact (List.getElem?_eq_some_iff.mp there).1

theorem Arrives.mono (arrives : Arrives E code levels top j live wanted) (more : live → live') :
    Arrives E code levels top j live' wanted := by
  obtain ⟨i,there,jumps,goes⟩ := arrives
  exact ⟨i,there,jumps,fun c lives => ⟨more (goes c lives).1,(goes c lives).2⟩⟩

theorem Arrives.wants {wanted' : ValueCounts} (arrives : Arrives E code levels top j live wanted)
    (same : live → wanted = wanted') : Arrives E code levels top j live wanted' := by
  obtain ⟨i,there,jumps,goes⟩ := arrives
  refine ⟨i,there,jumps,fun c lives => ?_⟩
  obtain ⟨alive,awaits⟩ := goes c lives
  exact ⟨alive,same alive ▸ awaits⟩

theorem Arrives.raise (arrives : Arrives E code levels top j live wanted) (raised : ∀ c, top = some c → top' = some c) :
    Arrives E code levels top' j live wanted := by
  obtain ⟨i,there,jumps,goes⟩ := arrives
  exact ⟨i,there,jumps,fun c lives => ⟨(goes c lives).1,(goes c lives).2.mono fun _ _ known => known.raise raised⟩⟩

theorem Arrives.push (arrives : Arrives E code levels top j live wanted) (length : levels.length = code.length)
    (new : Instruction) : Arrives E (code ++ [new]) (levels ++ [top]) top' j live wanted := by
  have inside := arrives.lt
  obtain ⟨i,there,jumps,goes⟩ := arrives
  refine ⟨i,by rw [List.getElem?_append_left inside]; exact there,jumps,fun c lives => ?_⟩
  rw [List.getElem?_append_left (by rw [length]; exact inside)] at lives
  exact ⟨(goes c lives).1,(goes c lives).2.mono fun _ _ known => known.push⟩

-- What takes the place of one instruction awaits what that did.
theorem Arrives.alter {k : Nat} (arrives : Arrives E code levels top j live wanted) (others : ∀ p, p ≠ k → code'[p]? = code[p]?)
    (own : ∀ i, code[k]? = some i → i.continues = false → ∃ i', code'[k]? = some i' ∧ i'.continues = false ∧
      ∀ c wanted, levels[k]? = some (some c) → i.Awaits E levels top k c wanted → i'.Awaits E levels top k c wanted) :
    Arrives E code' levels top j live wanted := by
  obtain ⟨i,there,jumps,goes⟩ := arrives
  by_cases same : j = k
  · subst same
    obtain ⟨i',there',jumps',keeps⟩ := own i there jumps
    exact ⟨i',there',jumps',fun c lives => ⟨(goes c lives).1,keeps c wanted lives (goes c lives).2⟩⟩
  · exact ⟨i,(others j same).trans there,jumps,goes⟩

theorem LevelFrame.persists {frame : ControlFrame} (level : LevelFrame E results code levels top frame)
    (enters : ∀ ip c, LevelAt levels top ip c → LevelAt levels' top' ip c)
    (arrives : ∀ j live wanted, Arrives E code levels top j live wanted → Arrives E code' levels' top' j live wanted) :
    LevelFrame E results code' levels' top' frame := by
  refine ⟨fun loops entered => enters _ _ (level.begins loops entered),fun kind => ?_,
    fun j listed => arrives _ _ _ (level.own j listed),level.whole⟩
  obtain ⟨condJump,jumps,all,goes⟩ := level.test kind
  exact ⟨condJump,jumps,all,fun lacks => arrives _ _ _ (goes lacks)⟩

end Persistence

end TinyWasm
