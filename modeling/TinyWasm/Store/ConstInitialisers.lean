import TinyWasm.Store.ConstEvaluation
import TinyWasm.Parser.ParsedModule

namespace TinyWasm

-- The initialisers of globals, each validated for those before it and converted.
inductive InitsValid (functions : List TypeAddr) (types : Nat) :
    List WasmType → List Global → List (List ConstOperator) → Prop where
  | nil {readable} : InitsValid functions types readable [] []
  | cons {readable declared globals ops inits} (valid : ConstValid ⟨readable,functions,types⟩ ops declared.ty.ty)
    (converted : processConstOperators (ops.map .ok) = .ok declared.init)
    (rest : InitsValid functions types (readable ++ [declared.ty.ty]) globals inits) :
    InitsValid functions types readable (declared :: globals) (ops :: inits)

-- The values of all globals, each read from those before it.
def globalValues (funcs : List FuncAddr) : List WasmValue → List (List ConstOperator) → Option (List WasmValue)
  | globals,[] => some globals
  | globals,ops :: inits => do
    let value ← ConstOperator.value globals funcs ops
    globalValues funcs (globals ++ [value]) inits

def State.addGlobals (s : State) (declared : List Global) (values : List WasmValue) : State :=
  {s with globals := s.globals ++ List.zipWith (fun g v => ⟨v.toTinyWasm,g.ty⟩) declared values}

theorem State.addGlobals_cons (s : State) (g : Global) (declared : List Global) (v : WasmValue) (values : List WasmValue) :
    s.addGlobals (g :: declared) (v :: values) =
      State.addGlobals {s with globals := s.globals ++ [⟨v.toTinyWasm,g.ty⟩]} declared values := by
  simp only [State.addGlobals,List.zipWith_cons_cons,List.append_assoc,List.singleton_append]

theorem State.addGlobals_nil (s : State) : s.addGlobals [] [] = s := by
  rw [addGlobals,List.zipWith_nil_left,List.append_nil]

-- A module's addresses name globals that hold the values.
def State.GlobalsHold (s : State) (globalAddrs : List GlobalAddr) (values : List WasmValue) : Prop :=
  ∀ (idx : Nat) (v : WasmValue), values[idx]? = some v →
    ∃ addr g, globalAddrs[idx]? = some addr ∧ s.globals[addr]? = some g ∧ g.value = v.toTinyWasm

namespace State.GlobalsHold
variable {s : State} {globalAddrs : List GlobalAddr} {values : List WasmValue}

theorem names (hold : s.GlobalsHold globalAddrs values) (funcAddrs : List FuncAddr) :
    (s.constNames globalAddrs funcAddrs).Holds values := by
  intro idx v there
  obtain ⟨addr,g,named,found,same⟩ := hold idx v there
  simp only [State.constNames,ConstNames.resolveGlobal,named,found,same]

-- The next global is made at the next address.
theorem push (hold : s.GlobalsHold globalAddrs values) (next : globalAddrs[values.length]? = some s.globals.length)
    (v : WasmValue) (ty : GlobalType) :
    State.GlobalsHold {s with globals := s.globals ++ [⟨v.toTinyWasm,ty⟩]} globalAddrs (values ++ [v]) := by
  intro idx other there
  by_cases before : idx < values.length
  · rw [List.getElem?_append_left before] at there
    obtain ⟨addr,g,named,found,same⟩ := hold idx other there
    exact ⟨addr,g,named,List.getElem?_append_left (List.getElem?_eq_some_iff.mp found).1 ▸ found,same⟩
  · rw [List.getElem?_append_right (Nat.le_of_not_lt before)] at there
    obtain ⟨within,rfl⟩ := List.getElem?_eq_some_iff.mp there
    have last : idx = values.length := by
      rw [List.length_singleton] at within
      omega
    subst last
    refine ⟨s.globals.length,⟨v.toTinyWasm,ty⟩,next,?_,?_⟩
    · simp
    · simp

end State.GlobalsHold

namespace InitsValid
variable {functions : List TypeAddr} {types : Nat} {readable : List WasmType} {globals : List Global}
  {inits : List (List ConstOperator)}

-- Validated and lowered, each initialiser is typed over the globals before it.
theorem typed (valid : InitsValid functions types readable globals inits) (k : Nat) (declared : Global)
    (listed : globals[k]? = some declared) :
    ConstTyped (readable ++ (globals.map (·.ty.ty)).take k) declared.init declared.ty.ty := by
  induction valid generalizing k with
  | nil => cases listed
  | @cons readable first globals ops inits valid converted _ ih =>
    cases k with
    | zero =>
      cases listed
      rw [List.take_zero,List.append_nil]
      rcases valid.converts with ⟨_,body,instrs,rfl,mapped,same⟩ | ⟨_,failed⟩
      · rw [converted] at same
        cases same
        exact valid.lowered_typed mapped
      · rw [converted] at failed
        cases failed
    | succ k =>
      have later := ih k listed
      rw [List.append_assoc] at later
      exact later

-- The globals are made one by one, with the values their initialisers mean.
theorem pushed (valid : InitsValid functions types readable globals inits) {s : State} {values : List WasmValue}
    {globalAddrs : List GlobalAddr} {funcAddrs : List FuncAddr} (same : readable = values.map (·.type))
    (functionsKnown : functions.length ≤ funcAddrs.length) (hold : s.GlobalsHold globalAddrs values)
    (next : ∀ j < globals.length, globalAddrs[values.length + j]? = some (s.globals.length + j)) :
    ∃ made, globalValues funcAddrs values inits = some (values ++ made) ∧ made.map (·.type) = globals.map (·.ty.ty) ∧
      (∀ (k : Nat) (ops : List ConstOperator) (declared : Global), inits[k]? = some ops → globals[k]? = some declared →
        ∃ v, made[k]? = some v ∧
          ConstEvaluated ((s.addGlobals (globals.take k) (made.take k)).constNames globalAddrs funcAddrs)
            (values ++ made.take k) ops declared.init declared.ty.ty v) ∧
      s.pushGlobals globalAddrs funcAddrs globals = (.ok (),s.addGlobals globals made) ∧
      (s.addGlobals globals made).GlobalsHold globalAddrs (values ++ made) := by
  induction valid generalizing s values with
  | nil =>
    refine ⟨[],?_,rfl,nofun,?_,?_⟩
    · rw [List.append_nil]
      rfl
    · rw [s.addGlobals_nil]
      rfl
    · rw [s.addGlobals_nil,List.append_nil]
      exact hold
  | @cons readable declared globals ops inits valid converted _ ih =>
    have runs : ConstContext.Evaluates ⟨readable,functions,types⟩ (s.constNames globalAddrs funcAddrs) values :=
      ⟨hold.names funcAddrs,same,functionsKnown⟩
    obtain ⟨v,evaluated⟩ := valid.evaluates runs converted
    have first := next 0 (Nat.succ_pos _)
    have readable_next : readable ++ [declared.ty.ty] = (values ++ [v]).map (·.type) := by
      rw [same,List.map_append,←evaluated.type]
      rfl
    obtain ⟨made,means,typed,each,ran,held⟩ := ih readable_next (hold.push first v declared.ty) (fun j within => by
      have there := next (j + 1) (Nat.succ_lt_succ within)
      simp only [List.length_append,List.length_singleton]
      rw [Nat.add_assoc,Nat.add_comm 1 j,Nat.add_assoc,Nat.add_comm 1 j]
      exact there)
    rw [←State.addGlobals_cons] at ran held
    refine ⟨v :: made,?_,?_,?_,?_,?_⟩
    · have value : ConstOperator.value values funcAddrs ops = some v := evaluated.means
      rw [globalValues,value]
      refine means.trans ?_
      rw [List.append_assoc]
      rfl
    · rw [List.map_cons,typed,evaluated.type,List.map_cons]
    · intro k ops' declared' source listed
      cases k with
      | zero =>
        cases source
        cases listed
        refine ⟨v,rfl,?_⟩
        rw [List.take_zero,List.take_zero,s.addGlobals_nil,List.append_nil]
        exact evaluated
      | succ k =>
        obtain ⟨v',there,later⟩ := each k ops' declared' source listed
        rw [←State.addGlobals_cons,List.append_assoc] at later
        exact ⟨v',there,later⟩
    · rw [State.pushGlobals,evaluated.evaluated]
      exact ran
    · rw [List.append_assoc] at held
      exact held

end InitsValid

-- What the linked globals hold when the module's own are made.
theorem linked_values {s : State} {linked : List GlobalAddr} {types : List GlobalType} (fit : s.GlobalsFit)
    (declares : DeclaresGlobals s linked types) : ∃ imported : List WasmValue,
      imported.map (·.type) = types.map (·.ty) ∧
      List.Forall₂ (fun addr v => ∃ g, s.globals[addr]? = some g ∧ g.value.attachType g.ty.ty = some v) linked imported := by
  induction declares with
  | nil => exact ⟨[],rfl,.nil⟩
  | cons head _ ih =>
    obtain ⟨imported,typed,held⟩ := ih
    obtain ⟨g,found,rfl⟩ := Option.map_eq_some_iff.mp head
    obtain ⟨v,attached⟩ := Option.isSome_iff_exists.mp (fit g (List.mem_of_getElem? found))
    refine ⟨v :: imported,?_,.cons ⟨g,found,attached⟩ held⟩
    rw [List.map_cons,List.map_cons,typed,TinyWasmValue.attachType_type attached]

theorem TinyWasmValue.attachType_back {v : TinyWasmValue} {ty : WasmType} {value : WasmValue}
    (attached : v.attachType ty = some value) : v = value.toTinyWasm := by
  cases v with
  | value32 _ | value64 _ | value128 _ => cases ty <;> cases attached <;> rfl
  | valueRef v =>
    cases ty with
    | refFunc | refExtern =>
      cases attached
      simp only [WasmValue.toTinyWasm,ValueRef.fromAddr_addr]
    | i32 | i64 | f32 | f64 | v128 => cases attached

theorem linked_hold {s : State} {linked : List GlobalAddr} {imported : List WasmValue} (more : List GlobalAddr)
    (held : List.Forall₂ (fun addr v => ∃ g, s.globals[addr]? = some g ∧ g.value.attachType g.ty.ty = some v) linked imported) :
    s.GlobalsHold (linked ++ more) imported := by
  induction held with
  | nil => exact nofun
  | @cons addr v _ _ head _ ih =>
    intro idx other there
    cases idx with
    | zero =>
      cases there
      obtain ⟨g,found,attached⟩ := head
      exact ⟨addr,g,rfl,found,TinyWasmValue.attachType_back attached⟩
    | succ idx => exact ih idx other there

namespace Imports
variable {store : Store} {m : Module} {out out' : ResolvedImports}

theorem linkImport_funcs {import_ : Import} {val : ExternVal} {handle : Option Function}
    (linked : linkImport store m import_ val handle out = .ok (.ok out')) :
    out'.funcs.length = out.funcs.length + (ModuleReader.importedTypeIdx import_).toList.length := by
  unfold linkImport at linked
  unfold ModuleReader.importedTypeIdx
  split at linked
  · cases linked
  rename_i kinds
  split at linked
  · rename_i kind
    obtain ⟨_,_,_,rfl⟩ := checked_link linked
    rw [kind]
    rfl
  · rename_i kind
    obtain ⟨_,_,_,rfl⟩ := checked_link linked
    rw [kind]
    rfl
  · rename_i kind
    obtain ⟨_,_,_,rfl⟩ := checked_link linked
    rw [kind]
    rfl
  · rename_i kind
    rw [kind]
    split at linked
    · cases linked
    · rename_i importFuncType _
      cases handle with
      | some func =>
        dsimp only at linked
        cases owned : Except.mapError Error.trap (func.item.validateStore store) with
        | error error => rw [owned] at linked; cases linked
        | ok _ =>
          cases same : compareTypes import_ func.ty importFuncType with
          | error error => rw [owned,same] at linked; cases linked
          | ok _ =>
            rw [owned,same] at linked
            cases linked
            simp
      | none =>
        obtain ⟨_,_,_,rfl⟩ := checked_link linked
        simp
  · cases linked

theorem linkAll_funcs {imports : Imports} {rest : List Import} (linked : linkAll imports store m rest out = .ok (.ok out')) :
    out'.funcs.length = out.funcs.length + (rest.filterMap ModuleReader.importedTypeIdx).length := by
  induction rest generalizing out with
  | nil => cases linked; rfl
  | cons import_ rest ih =>
    unfold linkAll at linked
    cases resolved : imports.resolve store import_ with
    | error error => rw [resolved] at linked; cases linked
    | ok target =>
      obtain ⟨val,handle⟩ := target
      rw [resolved] at linked
      dsimp only at linked
      cases one : linkImport store m import_ val handle out with
      | error abort => rw [one] at linked; cases linked
      | ok result =>
        cases result with
        | error error => rw [one] at linked; cases linked
        | ok next =>
          rw [one] at linked
          rw [ih linked,linkImport_funcs one,List.filterMap_cons]
          cases ModuleReader.importedTypeIdx import_ with
          | none => simp
          | some type => simp [Nat.add_assoc,Nat.add_comm 1]

end Imports

def Module.constContext (m : Module) : ConstContext := ⟨m.globalTypes.map (·.ty),m.funcTypeIdxs,m.funcTypes.length⟩

-- The initialisers a module was made from.
def Module.InitsFrom (m : Module) (inits : List (List ConstOperator)) : Prop :=
  InitsValid m.funcTypeIdxs m.funcTypes.length (m.importedGlobals.map (·.ty)) m.globals inits

theorem Module.InitsFrom.typed {m : Module} {inits : List (List ConstOperator)} (valid : m.InitsFrom inits) (k : Nat)
    (declared : Global) (listed : m.globals[k]? = some declared) :
    ConstTyped ((m.globalTypes.map (·.ty)).take (m.importedGlobals.length + k)) declared.init declared.ty.ty := by
  have typed := InitsValid.typed valid k declared listed
  have before : (m.globalTypes.map (·.ty)).take (m.importedGlobals.length + k) =
      m.importedGlobals.map (·.ty) ++ (m.globals.map (·.ty.ty)).take k := by
    rw [globalTypes,List.map_append,←List.length_map (·.ty),List.take_length_add_append,List.map_map]
    rfl
  rw [before]
  exact typed

-- What the constant expressions of a module come to, from the state in which its
-- globals are made.
structure Module.ConstsEvaluate (m : Module) (inits : List (List ConstOperator)) (s : State) (linked : List GlobalAddr)
    (funcAddrs : List FuncAddr) (imported made : List WasmValue) : Prop where
  held : List.Forall₂ (fun addr v => ∃ g, s.globals[addr]? = some g ∧ g.value.attachType g.ty.ty = some v) linked imported
  means : globalValues funcAddrs imported inits = some (imported ++ made)
  types : made.map (·.type) = m.globals.map (·.ty.ty)
  each (k : Nat) (ops : List ConstOperator) (declared : Global) : inits[k]? = some ops → m.globals[k]? = some declared →
    ∃ v, made[k]? = some v ∧
      ConstEvaluated ((s.addGlobals (m.globals.take k) (made.take k)).constNames
        (linked ++ List.range' s.globals.length m.globals.length) funcAddrs) (imported ++ made.take k) ops declared.init
        declared.ty.ty v
  ran : s.initGlobals m.globals linked funcAddrs =
    (.ok (linked ++ List.range' s.globals.length m.globals.length),s.addGlobals m.globals made)
  segments (ops : List ConstOperator) (ty : WasmType) : ConstValid m.constContext ops ty →
    (ops.all ConstOperator.lowered = true ∧ ∃ instrs v,
      ConstEvaluated ((s.addGlobals m.globals made).constNames
        (linked ++ List.range' s.globals.length m.globals.length) funcAddrs) (imported ++ made) ops instrs ty v) ∨
    (ops.all ConstOperator.lowered = false ∧
      processConstOperators (ops.map .ok) = .error (.unsupportedOperator "Unsupported heap type"))

theorem Module.consts_evaluate {m : Module} {inits : List (List ConstOperator)} {s : State} {linked : List GlobalAddr}
    {funcAddrs : List FuncAddr} (valid : m.InitsFrom inits) (fit : s.GlobalsFit)
    (declares : DeclaresGlobals s linked m.importedGlobals) (functions : m.funcTypeIdxs.length ≤ funcAddrs.length) :
    ∃ imported made, m.ConstsEvaluate inits s linked funcAddrs imported made := by
  obtain ⟨imported,typed,held⟩ := linked_values fit declares
  have length : imported.length = linked.length := held.length_eq.symm
  have next (j : Nat) (within : j < m.globals.length) :
      (linked ++ List.range' s.globals.length m.globals.length)[imported.length + j]? = some (s.globals.length + j) := by
    rw [length,List.getElem?_append_right (Nat.le_add_right _ _),Nat.add_sub_cancel_left,List.getElem?_range' within,Nat.one_mul]
  obtain ⟨made,means,types,each,ran,there⟩ :=
    InitsValid.pushed valid typed.symm functions (linked_hold _ held) next
  refine ⟨imported,made,held,means,types,each,?_,fun ops ty valid => ?_⟩
  · unfold State.initGlobals
    dsimp only
    rw [ran]
    rfl
  · have runs : m.constContext.Evaluates ((s.addGlobals m.globals made).constNames
        (linked ++ List.range' s.globals.length m.globals.length) funcAddrs) (imported ++ made) := by
      refine ⟨there.names funcAddrs,?_,functions⟩
      rw [constContext,globalTypes,List.map_append,List.map_append,typed,types,List.map_map]
      rfl
    rcases valid.converts with ⟨known,_,instrs,_,_,converted⟩ | ⟨unknown,failed⟩
    · obtain ⟨v,evaluated⟩ := valid.evaluates runs converted
      exact .inl ⟨known,instrs,v,evaluated⟩
    · exact .inr ⟨unknown,failed⟩

-- Where an instantiation comes to the globals of its module: the imports are
-- linked, its functions, tables and memories are made.
structure World.ReachesGlobals [Allocator] (w : World) (m : Module) (imports : Imports) (linked : ResolvedImports) (s : State) :
    Prop where
  links : imports.link w.store m = .ok (.ok linked)
  made : ∃ tables memories s₁,
    (w.store.state.initFuncs m.funcs w.store.moduleInstances.length).2.initTables m.tableTypes = (.ok tables,s₁) ∧
    s₁.initLocalMemories w.store.config.memoryBackend m = .ok (.ok memories,s)

theorem World.ReachesGlobals.globals [Allocator] {w : World} {m : Module} {imports : Imports} {linked : ResolvedImports}
    {s : State} (reaches : w.ReachesGlobals m imports linked s) : s.globals = w.store.state.globals := by
  obtain ⟨tables,memories,s₁,tablesMade,memoriesMade⟩ := reaches.made
  obtain ⟨_,rfl,_,_⟩ := State.initTables_added tablesMade
  obtain ⟨_,rfl,_,_⟩ := State.initLocalMemories_added memoriesMade
  rfl

theorem const_expressions_evaluate [Allocator] [Numerics] {id : Nat} {config : Config} {w : World}
    (run : WorldRun Module.GlobalsValid (.new id config) w) {m : Module} {inits : List (List ConstOperator)}
    (linedUp : m.LinedUp) (valid : m.InitsFrom inits) {imports : Imports} {linked : ResolvedImports} {s : State}
    (reaches : w.ReachesGlobals m imports linked s) : ∃ imported made, m.ConstsEvaluate inits s linked.globals
      (linked.funcs ++ List.range' w.store.state.funcs.length m.funcs.length) imported made := by
  obtain ⟨sound,_⟩ := global_run_sound (.new id config) run
  have same := reaches.globals
  refine Module.consts_evaluate valid ?_ ?_ ?_
  · unfold State.GlobalsFit
    rw [same]
    exact sound.fit
  · exact (linked_declared reaches.links).kept (.of_eq same)
  · obtain ⟨types,idxs,typed⟩ := linedUp.signatures
    have functions := Imports.linkAll_funcs reaches.links
    rw [List.length_nil,Nat.zero_add] at functions
    refine Nat.le_of_eq ?_
    rw [idxs,List.length_append,List.length_append,functions,List.length_range',typed.length_eq]

-- A difference that wraps, of a global of the module, and a function of it.
namespace ConstRuns

def inits : List (List ConstOperator) :=
  [[.i32Const 7,.endOp],[.globalGet 0,.i32Const 10,.i32Sub,.endOp],[.refFunc 0,.endOp]]

def module : Module :=
  {GlobalRuns.module with
    globals :=
      [⟨⟨false,.i32⟩,[.i32Const 7]⟩,⟨⟨false,.i32⟩,[.globalGet 0,.i32Const 10,.i32Sub]⟩,
        ⟨⟨false,.refFunc⟩,[.refFunc (some 0)]⟩]}

theorem initsFrom : module.InitsFrom inits := by
  refine .cons ⟨[.i32Const 7],.i32,rfl,rfl,rfl⟩ rfl (.cons ?_ rfl (.cons ?_ rfl .nil))
  · exact ⟨[.globalGet 0,.i32Const 10,.i32Sub],.i32,rfl,rfl,rfl⟩
  · exact ⟨[.refFunc 0],.ref false (.concrete 0),rfl,rfl,rfl⟩

theorem linedUp : module.LinedUp := ⟨⟨[0],rfl,.cons rfl .nil⟩,nofun⟩

example : globalValues [4] [] inits = some [.i32 7,.i32 0xfffffffd,.refFunc (.fromAddr (some 4))] := by decide

end ConstRuns

open ConstRuns in
theorem const_expressions_evaluate_wrapped :
    let _ := Allocator.unlimited
    let _ := Numerics.zeros
    ∃ imported made, module.ConstsEvaluate inits
      ((State.empty.initFuncs module.funcs 0).2) [] [0] imported made := by
  let _ := Allocator.unlimited
  let _ := Numerics.zeros
  have start : WorldRun Module.GlobalsValid (.new 0 GlobalRuns.config) (.new 0 GlobalRuns.config) := .refl
  have reaches : (World.new 0 GlobalRuns.config).ReachesGlobals module .empty ⟨[],[],[],[]⟩
    ((State.empty.initFuncs module.funcs 0).2) := ⟨rfl,[],[],_,rfl,rfl⟩
  exact const_expressions_evaluate start linedUp initsFrom reaches

-- A null of a function type of the module is a valid constant that is refused.
theorem const_conversion_fails :
    ¬∀ (ctx : ConstContext) (ops : List ConstOperator) (ty : WasmType), ConstValid ctx ops ty →
      ∃ instrs, processConstOperators (ops.map .ok) = .ok instrs := by
  intro succeeds
  obtain ⟨instrs,converted⟩ := succeeds ⟨[],[],1⟩ [.refNull (.concrete 0),.endOp] .refFunc
    ⟨[.refNull (.concrete 0)],.ref true (.concrete 0),rfl,rfl,rfl⟩
  cases converted

end TinyWasm
