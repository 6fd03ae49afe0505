import TinyWasm.Store.HostGlobal
import TinyWasm.Store.Allocation
import TinyWasm.Interpreter.StraightEffects

namespace TinyWasm

-- The variant that a global of the type must hold to be read.
def TinyWasmValue.Fits (v : TinyWasmValue) (ty : WasmType) : Prop := (v.attachType ty).isSome

theorem WasmValue.toTinyWasm_fits (value : WasmValue) : value.toTinyWasm.Fits value.type := by
  cases value <;> rfl

-- Validation of a constant expression over the types of the globals it may read.
-- The stack's top is the head of the list.
def ConstInstruction.typeStep (globals : List WasmType) (stack : List WasmType) :
    ConstInstruction → Option (List WasmType)
  | .i32Const _ => some (.i32 :: stack)
  | .i64Const _ => some (.i64 :: stack)
  | .f32Const _ => some (.f32 :: stack)
  | .f64Const _ => some (.f64 :: stack)
  | .v128Const _ => some (.v128 :: stack)
  | .globalGet idx => globals[idx]?.map (· :: stack)
  | .refFunc _ => some (.refFunc :: stack)
  | .refExtern _ => some (.refExtern :: stack)
  | .i32Add | .i32Sub | .i32Mul =>
    match stack with
    | .i32 :: .i32 :: rest => some (.i32 :: rest)
    | _ => none
  | .i64Add | .i64Sub | .i64Mul =>
    match stack with
    | .i64 :: .i64 :: rest => some (.i64 :: rest)
    | _ => none

def ConstTyped (globals : List WasmType) (instrs : List ConstInstruction) (ty : WasmType) : Prop :=
  instrs.foldlM (ConstInstruction.typeStep globals) [] = some [ty]

namespace ConstNames
variable {names : ConstNames} {globals : List WasmType}

-- What an initialiser reads from the globals it was validated for.
def Reads (names : ConstNames) (globals : List WasmType) : Prop :=
  ∀ (idx : Nat) (ty : WasmType) (v : TinyWasmValue), globals[idx]? = some ty → names.resolveGlobal idx = .ok v → v.Fits ty

theorem i32Op_fits {op : Value .s32 → Value .s32 → Value .s32} {a b : TinyWasmValue} {rest stack' : List TinyWasmValue}
    (top : a.Fits .i32) (second : b.Fits .i32) (ran : i32Op (a :: b :: rest) op = .ok stack') :
    ∃ v, stack' = .value32 v :: rest := by
  cases a with
  | value32 rhs =>
    cases b with
    | value32 lhs => cases ran; exact ⟨_,rfl⟩
    | value64 _ | value128 _ | valueRef _ => cases second
  | value64 _ | value128 _ | valueRef _ => cases top

theorem i64Op_fits {op : Value .s64 → Value .s64 → Value .s64} {a b : TinyWasmValue} {rest stack' : List TinyWasmValue}
    (top : a.Fits .i64) (second : b.Fits .i64) (ran : i64Op (a :: b :: rest) op = .ok stack') :
    ∃ v, stack' = .value64 v :: rest := by
  cases a with
  | value64 rhs =>
    cases b with
    | value64 lhs => cases ran; exact ⟨_,rfl⟩
    | value32 _ | value128 _ | valueRef _ => cases second
  | value32 _ | value128 _ | valueRef _ => cases top

theorem step_fits (reads : names.Reads globals) {stack stack' : List TinyWasmValue} {types types' : List WasmType}
    {instr : ConstInstruction} (fits : List.Forall₂ TinyWasmValue.Fits stack types)
    (typed : instr.typeStep globals types = some types') (ran : names.step stack instr = .ok stack') :
    List.Forall₂ TinyWasmValue.Fits stack' types' := by
  cases instr with
  | i32Const v | f32Const v | i64Const v | f64Const v | v128Const v =>
    cases typed
    cases ran
    exact .cons rfl fits
  | globalGet idx =>
    obtain ⟨ty,declared,rfl⟩ := Option.map_eq_some_iff.mp typed
    simp only [step] at ran
    cases resolved : names.resolveGlobal idx with
    | error error => rw [resolved] at ran; cases ran
    | ok v =>
      rw [resolved] at ran
      cases ran
      exact .cons (reads idx ty v declared resolved) fits
  | refFunc func =>
    cases typed
    cases func with
    | none => cases ran; exact .cons rfl fits
    | some idx =>
      simp only [step] at ran
      cases resolved : names.resolveFunc idx with
      | error error => rw [resolved] at ran; cases ran
      | ok addr => rw [resolved] at ran; cases ran; exact .cons rfl fits
  | refExtern externAddr =>
    cases typed
    cases externAddr with
    | none => cases ran; exact .cons rfl fits
    | some addr => cases ran
  | i32Add | i32Sub | i32Mul =>
    simp only [ConstInstruction.typeStep] at typed
    split at typed
    · cases typed
      cases fits with
      | cons top fits =>
        cases fits with
        | cons second fits =>
          obtain ⟨v,rfl⟩ := i32Op_fits top second ran
          exact .cons rfl fits
    · cases typed
  | i64Add | i64Sub | i64Mul =>
    simp only [ConstInstruction.typeStep] at typed
    split at typed
    · cases typed
      cases fits with
      | cons top fits =>
        cases fits with
        | cons second fits =>
          obtain ⟨v,rfl⟩ := i64Op_fits top second ran
          exact .cons rfl fits
    · cases typed

theorem steps_fit (reads : names.Reads globals) {instrs : List ConstInstruction} {stack stack' : List TinyWasmValue}
    {types types' : List WasmType} (fits : List.Forall₂ TinyWasmValue.Fits stack types)
    (typed : instrs.foldlM (ConstInstruction.typeStep globals) types = some types')
    (ran : instrs.foldlM names.step stack = .ok stack') : List.Forall₂ TinyWasmValue.Fits stack' types' := by
  induction instrs generalizing stack types with
  | nil => cases typed; cases ran; exact fits
  | cons instr rest ih =>
    rw [List.foldlM_cons] at typed ran
    cases checked : instr.typeStep globals types with
    | none => rw [checked] at typed; cases typed
    | some next =>
      cases stepped : names.step stack instr with
      | error error => rw [stepped] at ran; cases ran
      | ok following =>
        rw [checked] at typed
        rw [stepped] at ran
        exact ih (step_fits reads fits checked stepped) typed ran

theorem evalSingle_step {instr : ConstInstruction} {v : TinyWasmValue} (ran : names.evalSingle instr = .ok v) :
    names.step [] instr = .ok [v] := by
  cases instr with
  | i32Const _ | f32Const _ | i64Const _ | f64Const _ | v128Const _ => cases ran; rfl
  | globalGet idx =>
    have resolved : names.resolveGlobal idx = .ok v := ran
    simp only [step,resolved]
    rfl
  | refFunc func =>
    cases func with
    | none => cases ran; rfl
    | some idx =>
      have evaluated : (names.resolveFunc idx >>= fun addr => .ok (.valueRef (.fromAddr (some addr)))) = .ok v := ran
      simp only [step]
      cases resolved : names.resolveFunc idx with
      | error error => rw [resolved] at evaluated; cases evaluated
      | ok addr => rw [resolved] at evaluated; cases evaluated; rfl
  | refExtern externAddr =>
    cases externAddr with
    | none => cases ran; rfl
    | some addr => cases ran
  | i32Add | i32Sub | i32Mul | i64Add | i64Sub | i64Mul => cases ran

-- A value comes out of a stack that holds it alone.
theorem reduced_single {run : Except Error (List TinyWasmValue)} {v : TinyWasmValue} (ended : (do
    match ← run with
    | [] => .error (.other "empty const expression")
    | [value] => .ok value
    | _ => .error (.other "const expression did not reduce to single value") : Except Error TinyWasmValue) = .ok v) :
    run = .ok [v] := by
  rcases run with _ | _ | ⟨value,_ | _⟩
  · cases ended
  · cases ended
  · cases ended; rfl
  · cases ended

theorem evalConst_fits (reads : names.Reads globals) {instrs : List ConstInstruction} {ty : WasmType}
    {v : TinyWasmValue} (typed : ConstTyped globals instrs ty) (ran : names.evalConst instrs = .ok v) : v.Fits ty := by
  have folded : instrs.foldlM names.step [] = .ok [v] := by
    rcases instrs with _ | ⟨instr,_ | ⟨second,rest⟩⟩
    · exact reduced_single ran
    · have stepped := evalSingle_step ran
      rw [List.foldlM_cons,stepped]
      rfl
    · exact reduced_single ran
  have fits := steps_fit reads .nil typed folded
  cases fits with
  | cons fits _ => exact fits

end ConstNames

def Module.importedGlobals (m : Module) : List GlobalType := m.imports.filterMap (·.kind.global?)

def Module.globalTypes (m : Module) : List GlobalType := m.importedGlobals ++ m.globals.map (·.ty)

def WasmType.scalar : WasmType → Option ScalarSize
  | .i32 | .f32 => some .s32
  | .i64 | .f64 => some .s64
  | .v128 | .refFunc | .refExtern => none

-- Validated code sets only mutable globals, in the lane of their type, and the
-- fused operand is a number.
def Instruction.GlobalValid (types : List GlobalType) : Instruction → Prop
  | .globalGet global => ∃ ty, types[global]? = some ty
  | .globalSet size global => ∃ ty, types[global]? = some ty ∧ ty.isMutable = true ∧ size = .ofWasmType ty.ty
  | .binOpStackGlobal width _ global => ∃ ty, types[global]? = some ty ∧ ty.ty.scalar = some width
  | _ => True

-- An initialiser reads the imported globals and those declared before its own.
structure Module.GlobalsValid (m : Module) : Prop where
  inits : ∀ (k : Nat) (declared : Global), m.globals[k]? = some declared →
    ConstTyped ((m.globalTypes.map (·.ty)).take (m.importedGlobals.length + k)) declared.init declared.ty.ty
  bodies : ∀ func ∈ m.funcs, ∀ i ∈ func.instructions, i.GlobalValid m.globalTypes

-- A store's globals hold what their types say.
def State.GlobalsFit (s : State) : Prop := ∀ g ∈ s.globals, g.value.Fits g.ty.ty

-- From one store to a later one no global changes its type, and no immutable one
-- its value.
def State.GlobalsKept (s s' : State) : Prop :=
  ∀ (addr : Nat) (g : GlobalInstance), s.globals[addr]? = some g →
    ∃ g', s'.globals[addr]? = some g' ∧ g'.ty = g.ty ∧ (g.ty.isMutable = false → g' = g)

namespace State.GlobalsKept
variable {s s₁ s₂ s₃ : State}

theorem refl (s : State) : s.GlobalsKept s := fun _ g found => ⟨g,found,rfl,fun _ => rfl⟩

theorem trans (first : s₁.GlobalsKept s₂) (rest : s₂.GlobalsKept s₃) : s₁.GlobalsKept s₃ := by
  intro addr g found
  obtain ⟨g₂,found₂,type₂,fixed₂⟩ := first addr g found
  obtain ⟨g₃,found₃,type₃,fixed₃⟩ := rest addr g₂ found₂
  refine ⟨g₃,found₃,type₃.trans type₂,fun fixed => ?_⟩
  rw [fixed₃ (by rw [type₂]; exact fixed),fixed₂ fixed]

theorem of_eq (same : s₂.globals = s₁.globals) : s₁.GlobalsKept s₂ :=
  fun _ g found => ⟨g,by rw [same]; exact found,rfl,fun _ => rfl⟩

theorem of_append {more : List GlobalInstance} (grown : s₂.globals = s₁.globals ++ more) : s₁.GlobalsKept s₂ :=
  fun _ g found => ⟨g,by rw [grown]; exact List.getElem?_append_left (List.getElem?_eq_some_iff.mp found).1 ▸ found,
    rfl,fun _ => rfl⟩

end State.GlobalsKept

theorem DeclaresGlobals.at {s : State} {addrs : List GlobalAddr} {types : List GlobalType} {idx : Nat} {ty : GlobalType}
    (declares : DeclaresGlobals s addrs types) (declared : types[idx]? = some ty) :
    ∃ addr g, addrs[idx]? = some addr ∧ s.globals[addr]? = some g ∧ g.ty = ty := by
  induction declares generalizing idx with
  | nil => cases declared
  | cons head rest ih =>
    cases idx with
    | zero =>
      obtain ⟨g,found,same⟩ := Option.map_eq_some_iff.mp head
      cases declared
      exact ⟨_,g,rfl,found,same⟩
    | succ idx => exact ih declared

theorem DeclaresGlobals.kept {s s' : State} {addrs : List GlobalAddr} {types : List GlobalType}
    (declares : DeclaresGlobals s addrs types) (kept : s.GlobalsKept s') : DeclaresGlobals s' addrs types := by
  refine List.Forall₂.imp (fun addr ty there => ?_) declares
  obtain ⟨g,found,rfl⟩ := Option.map_eq_some_iff.mp there
  obtain ⟨g',found',type,_⟩ := kept addr g found
  rw [found']
  exact congrArg some type

theorem ConstNames.resolveGlobal_ok {names : ConstNames} {idx : GlobalAddr} {v : TinyWasmValue}
    (resolved : names.resolveGlobal idx = .ok v) :
    ∃ addr g, names.globalAddrs[idx]? = some addr ∧ names.globals[addr]? = some g ∧ g.value = v := by
  unfold resolveGlobal at resolved
  split at resolved
  · cases resolved
  · rename_i addr named
    split at resolved
    · cases resolved
    · rename_i g found
      exact ⟨addr,g,named,found,Except.ok.inj resolved⟩

section Made
variable {s : State} {m : Module} {linked : List GlobalAddr} {funcAddrs : List FuncAddr} {made : List GlobalInstance}

theorem appended_declared (s : State) (made : List GlobalInstance) :
    DeclaresGlobals {s with globals := s.globals ++ made} (List.range' s.globals.length made.length) (made.map (·.ty)) := by
  induction made generalizing s with
  | nil => exact .nil
  | cons g rest ih =>
    have later := ih {s with globals := s.globals ++ [g]}
    simp only [List.append_assoc,List.length_append,List.length_singleton] at later
    refine .cons ?_ later
    simp

-- The addresses of the new globals follow those of the store.
theorem new_declared (types : made.map (·.ty) = m.globals.map (·.ty)) (declares : DeclaresGlobals s linked m.importedGlobals) :
    DeclaresGlobals {s with globals := s.globals ++ made} (linked ++ List.range' s.globals.length m.globals.length)
      m.globalTypes := by
  refine List.rel_append (declares.kept (.of_append rfl)) ?_
  have length := congrArg List.length types
  rw [List.length_map,List.length_map] at length
  rw [←types,←length]
  exact appended_declared s made

theorem made_fit (valid : m.GlobalsValid) (fit : s.GlobalsFit) (declares : DeclaresGlobals s linked m.importedGlobals)
    (each : GlobalsMade s (linked ++ List.range' s.globals.length m.globals.length) funcAddrs m.globals made) (k : Nat)
    (g : GlobalInstance) (new : made[k]? = some g) : g.value.Fits g.ty.ty := by
  induction k using Nat.strongRecOn generalizing g with
  | _ k earlier =>
    obtain ⟨declared,listed,type,evaluated⟩ := each k g new
    rw [type]
    refine ConstNames.evalConst_fits (fun idx ty v typed resolved => ?_) (valid.inits k declared listed) evaluated
    obtain ⟨addr,old,named,found,rfl⟩ := ConstNames.resolveGlobal_ok resolved
    have length : linked.length = m.importedGlobals.length := declares.length_eq
    have fits : old.value.Fits old.ty.ty := by
      rcases List.mem_append.mp (List.mem_of_getElem? found) with before | new
      · exact fit old before
      · obtain ⟨j,within,rfl⟩ := List.getElem_of_mem new
        rw [List.length_take] at within
        refine earlier j (Nat.lt_of_lt_of_le within (Nat.min_le_left _ _)) _ ?_
        rw [List.getElem_take]
        exact List.getElem?_eq_getElem _
    rw [List.getElem?_take] at typed
    split at typed
    · rename_i below
      rw [List.getElem?_map,Option.map_eq_some_iff] at typed
      obtain ⟨gty,typed,rfl⟩ := typed
      have same : old.ty = gty := by
        by_cases imported : idx < linked.length
        · rw [Module.globalTypes,List.getElem?_append_left (length ▸ imported)] at typed
          obtain ⟨addr',g,named',there,rfl⟩ := declares.at typed
          rw [List.getElem?_append_left imported,named'] at named
          cases named
          rw [List.getElem?_append_left (List.getElem?_eq_some_iff.mp there).1,there] at found
          exact congrArg GlobalInstance.ty (Option.some.inj found).symm
        · have after := Nat.le_of_not_lt imported
          rw [Module.globalTypes,List.getElem?_append_right (length ▸ after),←length,List.getElem?_map] at typed
          obtain ⟨declared',listed',rfl⟩ := Option.map_eq_some_iff.mp typed
          rw [List.getElem?_append_right after] at named
          rw [List.getElem?_range' (List.getElem?_eq_some_iff.mp listed').1,Nat.one_mul] at named
          cases named
          rw [List.getElem?_append_right (Nat.le_add_right _ _),Nat.add_sub_cancel_left,List.getElem?_take] at found
          split at found
          · obtain ⟨again,listed,same,_⟩ := each _ old found
            rw [listed'] at listed
            cases listed
            exact same
          · cases found
      rw [←same]
      exact fits
    · cases typed

theorem GlobalsMade.types {globalAddrs : List GlobalAddr}
    (each : GlobalsMade s globalAddrs funcAddrs m.globals made) (all : made.length = m.globals.length) :
    made.map (·.ty) = m.globals.map (·.ty) := by
  refine List.ext_getElem (by rw [List.length_map,List.length_map,all]) fun k within _ => ?_
  rw [List.length_map] at within
  obtain ⟨declared,listed,same,_⟩ := each k made[k] (List.getElem?_eq_getElem within)
  obtain ⟨_,rfl⟩ := List.getElem?_eq_some_iff.mp listed
  rw [List.getElem_map,List.getElem_map,same]

end Made

end TinyWasm
