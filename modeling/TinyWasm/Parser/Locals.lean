import TinyWasm.Parser.Code

namespace TinyWasm

-- The types of the parameters, then those of the declared locals.
def localTypes (params : List WasmType) (locals : List (Nat × WasmType)) : List WasmType :=
  params ++ locals.flatMap fun (count,ty) => List.replicate count ty

def tooManyLocals : OperandSize → String
  | .s32 => "too many 32-bit locals"
  | .s64 => "too many 64-bit locals"
  | .s128 => "too many 128-bit locals"

-- Maps a local's address to the index on its lane. The counts are u16s.
def localAddrMap (counts : ValueCounts) : List OperandSize → Except ParseError (List LocalAddr × ValueCounts)
  | [] => .ok ([],counts)
  | size :: sizes =>
    if counts size + 1 < 2 ^ 16 then do
      let (addrs,counts') ← localAddrMap (Function.update counts size (counts size + 1)) sizes
      .ok (counts size :: addrs,counts')
    else .error (.other (tooManyLocals size))

-- The locals part of convert_module_code.
def convertLocals (params : List WasmType) (locals : List (Nat × WasmType)) :
    Except ParseError (List OperandSize × List LocalAddr × ValueCounts) := do
  let sizes := (localTypes params locals).map OperandSize.ofWasmType
  let (addrs,counts) ← localAddrMap (fun _ => 0) sizes
  .ok (sizes,addrs,counts)

-- FunctionBuilder::local, and the instruction that visit_local_get emits.
def builderLocal (sizes : List OperandSize) (addrs : List LocalAddr) (idx : Nat) :
    Except ParseError (OperandSize × LocalAddr) :=
  match sizes[idx]?,addrs[idx]? with
  | none,_ => .error (.other s!"local index out of bounds: {idx}")
  | some _,none => .error (.other s!"local address missing: {idx}")
  | some size,some addr => .ok (size,addr)

def visitLocalGet (sizes : List OperandSize) (addrs : List LocalAddr) (idx : Nat) : Except ParseError Instruction := do
  let (size,addr) ← builderLocal sizes addrs idx
  .ok (.localGet size addr)

-- A local's index on its lane counts the locals of its size before it.
theorem localAddrMap_spec {counts counts' : ValueCounts} {sizes : List OperandSize} {addrs : List LocalAddr}
    (mapped : localAddrMap counts sizes = .ok (addrs,counts')) :
    (∀ i size, sizes[i]? = some size → addrs[i]? = some (counts size + (sizes.take i).count size)) ∧
      ∀ size, counts' size = counts size + sizes.count size := by
  induction sizes generalizing counts addrs with
  | nil => cases mapped; exact ⟨nofun,fun _ => rfl⟩
  | cons first sizes ih =>
    unfold localAddrMap at mapped
    split at mapped
    · rcases rest : localAddrMap (Function.update counts first (counts first + 1)) sizes with error | ⟨addrs',last⟩
      · rw [rest] at mapped; cases mapped
      · rw [rest] at mapped
        cases mapped
        obtain ⟨places,total⟩ := ih rest
        have step (size : OperandSize) (sizes : List OperandSize) :
            Function.update counts first (counts first + 1) size + sizes.count size = counts size + (first :: sizes).count size := by
          by_cases same : size = first
          · rw [same,Function.update_self,List.count_cons_self]
            omega
          · rw [Function.update_of_ne same,List.count_cons_of_ne (Ne.symm same)]
        refine ⟨fun i size found => ?_,fun size => (total size).trans (step size sizes)⟩
        cases i with
        | zero => cases found; simp
        | succ i =>
          rw [List.getElem?_cons_succ] at found ⊢
          rw [places i size found,List.take_succ_cons,step size]
    · cases mapped

theorem convertLocals_spec {params : List WasmType} {locals : List (Nat × WasmType)} {sizes : List OperandSize}
    {addrs : List LocalAddr} {counts : ValueCounts} (converted : convertLocals params locals = .ok (sizes,addrs,counts)) :
    (∀ i ty, (localTypes params locals)[i]? = some ty →
      visitLocalGet sizes addrs i = .ok (.localGet (.ofWasmType ty)
        ((((localTypes params locals).map OperandSize.ofWasmType).take i).count (.ofWasmType ty)))) ∧
      counts = valueCounts ((localTypes params locals).map .ofWasmType) := by
  unfold convertLocals at converted
  dsimp only at converted
  rcases mapped : localAddrMap (fun _ => 0) ((localTypes params locals).map OperandSize.ofWasmType) with error | ⟨addrs',counts'⟩
  · rw [mapped] at converted; cases converted
  · rw [mapped] at converted
    cases converted
    obtain ⟨places,total⟩ := localAddrMap_spec mapped
    refine ⟨fun i ty found => ?_,funext fun size => (total size).trans (Nat.zero_add _)⟩
    have sized : ((localTypes params locals).map OperandSize.ofWasmType)[i]? = some (.ofWasmType ty) := by
      rw [List.getElem?_map,found]
      rfl
    rw [visitLocalGet,builderLocal,sized,places i _ sized,Nat.zero_add]
    rfl

end TinyWasm
