import TinyWasm.Fallible
import TinyWasm.Interpreter.Host
import TinyWasm.Store.World

namespace TinyWasm

-- A use of an item changes nothing of the store but its items.
theorem HostOp.run_items [Allocator] {op : HostOp} {store store' : Store} {r : Except Error Unit}
    (ran : op.run store = .ok (r,store')) : ∃ state, store' = {store with state} := by
  rcases HostOp.run_cases ran with ⟨ty,value,rfl⟩ | ⟨global,value,rfl⟩ | ⟨state,_,rfl⟩
  · change HostOp.writes (.ok (HostGlobal.new store ty value)) = _ at ran
    obtain ⟨_,made⟩ := HostOp.writes_ran ran
    obtain rfl := congrArg Prod.snd (Except.ok.inj made)
    unfold HostGlobal.new
    split
    · exact ⟨store.state,rfl⟩
    · exact ⟨_,rfl⟩
  · obtain ⟨_,ran⟩ := HostOp.writes_ran ran
    obtain ⟨_,written,ran⟩ := Fallible.except_bind_ok ran
    split at ran
    · cases ran; exact ⟨store.state,rfl⟩
    · split at ran
      · cases ran; exact ⟨store.state,rfl⟩
      · split at ran
        · cases ran; exact ⟨store.state,rfl⟩
        · cases ran; exact ⟨_,rfl⟩
  · exact ⟨state,rfl⟩

-- What holds between the stores before and after whatever a host function does
-- with its store: the uses of its items, instantiation, and the calls back.
structure Reentry.Respects [Allocator] (reentry : Reentry) (R : Store → Store → Prop) : Prop where
  host {op : HostOp} {store store' : Store} {r : Except Error Unit} : op.run store = .ok (r,store') → R store store'
  instantiated {m : Module} {imports : Imports} {store store' : Store} {r : Except Error Instance} :
    store.Instantiated m imports r store' → R store store'
  charged (store : Store) (fuel : Nat) : R store {store with executionFuel := fuel}
  call {store store' : Store} {func : Function} {params : List WasmValue} {r : Except Error (List WasmValue)} :
    reentry.call store func params = .ok (r,store') → R store store'
  callUntyped {store store' : Store} {func : Function} {args : List WasmValue} {r : Except Error (List WasmValue)} :
    reentry.callUntyped store func args = .ok (r,store') → R store store'

namespace Reentry.Respects
variable [Allocator] {reentry : Reentry} {R : Store → Store → Prop} [IsPreorder Store R] {store store' : Store}

theorem start (respects : reentry.Respects R) {inst : Instance} {r : Except Error (Option Unit)}
    (ran : inst.start reentry.call store = .ok (r,store')) : R store store' := by
  unfold Instance.start at ran
  rcases found : inst.startFunc store with abort | error | _ | func
  · rw [found] at ran; cases ran
  · rw [found] at ran; cases ran; exact refl_of R _
  · rw [found] at ran; cases ran; exact refl_of R _
  · rw [found] at ran
    simp only [ok_bind] at ran
    rcases called : reentry.call store func [] with abort | ⟨result,after⟩
    · rw [called] at ran; cases ran
    · rw [called] at ran
      cases ran
      exact respects.call called

theorem instantiate (respects : reentry.Respects R) {m : Module} {imports : Imports} {r : Except Error Instance}
    (ran : store.instantiate reentry.call m imports = .ok (r,store')) : R store store' := by
  unfold Store.instantiate at ran
  rcases made : store.instantiateNoStart m imports with abort | ⟨error | inst,after⟩
  · rw [made] at ran; cases ran
  · rw [made] at ran
    cases ran
    exact respects.instantiated (Store.instantiateNoStart_cases made)
  · rw [made] at ran
    simp only [ok_bind] at ran
    have first := respects.instantiated (Store.instantiateNoStart_cases made)
    rcases started : inst.start reentry.call after with abort | ⟨result,last⟩
    · rw [started] at ran; cases ran
    · rw [started] at ran
      cases ran
      exact trans_of R first (respects.start started)

theorem hostProgram (respects : reentry.Respects R) {program : HostProgram} {r : Except Error (List WasmValue)}
    (ran : program.run reentry store = .ok (r,store')) : R store store' := by
  induction program generalizing store with
  | done result => cases ran; exact refl_of R _
  | read next ih => exact ih _ ran
  | access op next ih =>
    unfold HostProgram.run at ran
    rcases used : op.run store with abort | ⟨result,after⟩
    · rw [used] at ran; cases ran
    · rw [used] at ran; exact trans_of R (respects.host used) (ih _ ran)
  | instantiate m imports next ih =>
    unfold HostProgram.run at ran
    rcases made : store.instantiate reentry.call m imports with abort | ⟨result,after⟩
    · rw [made] at ran; cases ran
    · rw [made] at ran; exact trans_of R (respects.instantiate made) (ih _ ran)
  | call func params next ih =>
    unfold HostProgram.run at ran
    rcases called : reentry.call store func params with abort | ⟨result,after⟩
    · rw [called] at ran; cases ran
    · rw [called] at ran; exact trans_of R (respects.call called) (ih _ ran)
  | callUntyped func args next ih =>
    unfold HostProgram.run at ran
    rcases called : reentry.callUntyped store func args with abort | ⟨result,after⟩
    · rw [called] at ran; cases ran
    · rw [called] at ran; exact trans_of R (respects.callUntyped called) (ih _ ran)
  | chargeFuel fuel next ih => exact trans_of R (respects.charged store (store.executionFuel - fuel)) (ih ran)
  | remainingFuel next ih => exact ih _ ran

theorem hostFunction [Host] (respects : reentry.Respects R) {ty : FuncType} {id : Nat} {moduleAddr : ModuleInstanceAddr}
    {args : List WasmValue} {r : Except Error (List WasmValue)}
    (ran : HostFunction.call reentry store ty id moduleAddr args = .ok (r,store')) : R store store' := by
  unfold HostFunction.call at ran
  rcases called : (Host.call id moduleAddr args).run reentry store with abort | ⟨error | result,after⟩
  · rw [called] at ran; cases ran
  · rw [called] at ran
    cases ran
    exact respects.hostProgram called
  · rw [called] at ran
    simp only [ok_bind] at ran
    split at ran <;> cases ran <;> exact respects.hostProgram called

end Reentry.Respects

end TinyWasm
