import TinyWasm.Parser.Resolved
import TinyWasm.Store.Descriptors

namespace TinyWasm
open Loop

-- What holds of the answer, if there is one.
abbrev ParseYields {α : Type} (Q : α → Prop) : Parse α → Prop := Holds (fun _ => True) Q

-- A module's functions stand in the order of their types, behind the imported
-- ones, and an exported memory is one that is made.
structure Module.LinedUp (m : Module) : Prop where
  signatures : ∃ types, m.funcTypeIdxs = m.imports.filterMap ModuleReader.importedTypeIdx ++ types ∧
    List.Forall₂ (fun type func => m.funcTypes[type]? = some func.ty) types m.funcs
  memories : ∀ export_ ∈ m.exports, export_.kind = .memory → m.importedCount .memory ≤ export_.index →
    m.allocatedMemories = m.memoryTypes

namespace ModuleReader
variable {F V R W : Type}

-- Every function so far has its results, and every imported memory is counted.
structure Counted (r : ModuleReader F V R) : Prop where
  results : r.codeResults.length = r.codeTypeAddrs.length
  memories : r.importedMemoryCount = r.imports.countP isMemory

theorem section_yields {α : Type} (checked : Parse Unit) {validated : Parse (Option W)} {read : Parse α}
    {keep : α → ModuleReader F V R} {C : Prop} (checks : ParseYields (fun _ => C) checked)
    (keeps : C → ∀ a, (keep a).Counted) :
    ParseYields (fun result => result.2.Counted)
      (do checked; let w ← validated; let a ← read; .ok (w,keep a) : Parse (Option W × ModuleReader F V R)) :=
  checks.bind fun _ first => (Holds.any validated).bind fun _ _ => (Holds.any read).bind fun a _ => keeps first a

theorem checkSection_yields (name : String) (duplicate : Bool) :
    ParseYields (fun _ => duplicate = false) (checkSection name duplicate) := by
  cases duplicate
  · exact rfl
  · exact trivial

theorem processPayload_counted {r : ModuleReader F V R} (counted : r.Counted) (v : Validation W F) (validator : Option W)
    (payload : Payload) : ParseYields (fun result => result.2.Counted) (r.processPayload v validator payload) := by
  have validates := Holds.any (validate v validator payload)
  obtain ⟨results,memories⟩ := counted
  cases payload with
  | version num encoding range =>
    refine validates.bind fun _ _ => ?_
    cases encoding with
    | module => exact ⟨results,memories⟩
    | component => trivial
  | startSection func range =>
    exact (checkSection_yields _ _).bind fun _ _ => validates.bind fun _ _ => ⟨results,memories⟩
  | elementSection reader =>
    exact validates.bind fun _ _ => (Holds.any (items reader)).bind fun _ _ => ⟨results,memories⟩
  | functionSection reader =>
    refine section_yields _ (checkSection_yields _ _) fun _ types => ⟨?_,memories⟩
    simp
  | importSection reader =>
    refine section_yields _ (checkSection_yields _ _) fun first imports => ⟨results,?_⟩
    have none : r.imports = [] := by simpa using first
    simp [memories,none]
  | typeSection reader | globalSection reader | tableSection reader | memorySection reader | dataSection reader
  | exportSection reader => exact section_yields _ (checkSection_yields _ _) fun _ _ => ⟨results,memories⟩
  | dataCountSection count range =>
    simp only [processPayload]
    split
    · exact validates.bind fun _ _ => ⟨results,memories⟩
    · trivial
  | end_ offset =>
    simp only [processPayload]
    split
    · trivial
    · exact validates.bind fun _ _ => ⟨results,memories⟩
  | customSection name => exact ⟨results,memories⟩
  | codeSectionStart count range size => trivial
  | codeSectionEntry function => trivial
  | unknownSection => trivial
  | unsupported name => trivial

theorem beginCodeSection_counted {r : ModuleReader F V R} (counted : r.Counted) (v : Validation W F)
    (validator : Option W) (options : ParserOptions) (available : Option Nat) (count : Nat) (range : Nat × Nat)
    (size : Nat) :
    ParseYields (fun result => result.2.2.Counted)
      (r.beginCodeSection v validator options available count range size) := by
  obtain ⟨results,memories⟩ := counted
  unfold beginCodeSection
  split
  · trivial
  · refine (Holds.any _).bind fun _ _ => ?_
    dsimp only
    split <;> exact ⟨results,memories⟩

theorem processInline_counted {r : ModuleReader F V R} (counted : r.Counted)
    (lowering : ModuleMetadata → Lowering F V R) (v : Validation W F) (validator : Option W) (options : ParserOptions)
    (function : FunctionBody) :
    ParseYields (fun result => result.2.Counted)
      (r.processInlineCodeSectionEntry lowering v validator options function) := by
  obtain ⟨results,memories⟩ := counted
  unfold processInlineCodeSectionEntry
  refine (Holds.any _).bind fun entry _ => ?_
  dsimp only
  split
  · trivial
  · refine (Holds.any _).bind fun _ _ => ?_
    split
    · trivial
    · exact (Holds.any _).bind fun _ _ => ⟨results,memories⟩

theorem queueFunction_counted {r : ModuleReader F V R} (counted : r.Counted) (body : FunctionBodyInput)
    (func : Option F) : ParseYields Counted (r.queueFunction body func) := by
  obtain ⟨results,memories⟩ := counted
  unfold queueFunction
  dsimp only
  split
  · split
    · trivial
    · exact ⟨results,memories⟩
  · trivial

theorem processBorrowed_counted {r : ModuleReader F V R} (counted : r.Counted)
    (lowering : ModuleMetadata → Lowering F V R) (v : Validation W F) (validator : Option W) (options : ParserOptions)
    (function : FunctionBody) :
    ParseYields (fun result => result.2.Counted)
      (r.processBorrowedCodeSectionEntry lowering v validator options function) := by
  unfold processBorrowedCodeSectionEntry
  split
  · exact (Holds.any _).bind fun _ _ => (queueFunction_counted counted _ _).bind fun _ kept => kept
  · exact processInline_counted counted lowering v validator options function

theorem processPendingFunctions_counted {r : ModuleReader F V R} (counted : r.Counted)
    (lowering : ModuleMetadata → Lowering F V R) (threads : Threads F V R) (options : ParserOptions) :
    ParseYields Counted (r.processPendingFunctions lowering threads options) := by
  obtain ⟨results,memories⟩ := counted
  unfold processPendingFunctions
  split
  · exact ⟨results,memories⟩
  · exact ⟨results,memories⟩
  · exact (Holds.any _).bind fun _ _ => ⟨results,memories⟩

theorem moduleFunctions_types (funcTypes : List FuncType) (codes : List FunctionCode) (tyIdxs : List TypeAddr)
    (results : List ValueCounts) (coded : tyIdxs.length = codes.length) (counted : results.length = tyIdxs.length) :
    ParseYields (List.Forall₂ (fun type func => funcTypes[type]? = some func.ty) tyIdxs)
      (moduleFunctions funcTypes codes tyIdxs results) := by
  fun_induction moduleFunctions funcTypes codes tyIdxs results with
  | case1 => trivial
  | case2 code codes tyIdx tyIdxs counts rest ty found ih =>
    refine (ih (by simpa using coded) (by simpa using counted)).bind fun funcs typed => ?_
    exact List.Forall₂.cons found typed
  | case3 codes tyIdxs results other =>
    cases tyIdxs with
    | nil => exact List.Forall₂.nil
    | cons tyIdx tyIdxs =>
      cases codes with
      | nil => cases coded
      | cons code codes =>
        cases results with
        | nil => cases counted
        | cons counts rest => exact (other _ _ _ _ _ _ rfl rfl rfl).elim

theorem importedMemories {r : ModuleReader F V R} {m : Module} (same : m.imports = r.imports) (counted : r.Counted) :
    m.importedCount .memory = r.importedMemoryCount := by
  rw [counted.memories,List.countP_eq_length_filter,Module.importedCount,Module.importsOf,same]
  refine congrArg List.length (List.filter_congr fun import_ _ => ?_)
  unfold isMemory
  cases import_.kind <;> rfl

theorem intoModule_linedUp {r : ModuleReader F V R} (counted : r.Counted) (options : ParserOptions) :
    ParseYields Module.LinedUp (r.intoModule options) := by
  unfold intoModule
  split
  · trivial
  split
  · trivial
  rename_i coded
  refine (moduleFunctions_types r.funcTypes r.code r.codeTypeAddrs r.codeResults (Decidable.of_not_not coded)
    counted.results).bind fun funcs typed => ?_
  refine ⟨⟨r.codeTypeAddrs,rfl,typed⟩,fun export_ listed kind behind => ?_⟩
  rw [importedMemories rfl counted] at behind
  have exported : (r.exports.any fun export_ => export_.kind == .memory && export_.index ≥ r.importedMemoryCount) = true :=
    List.any_eq_true.mpr ⟨export_,listed,by simp [kind,behind]⟩
  unfold Module.allocatedMemories
  by_cases empty : r.memoryTypes = []
  · simp only [empty]
    cases r.localMemoryAllocation options <;> rfl
  have there : r.localMemoryAllocation options ≠ .skip := by
    simp only [localMemoryAllocation,exported,List.isEmpty_iff,empty]
    split
    · intro same; cases same
    split
    · simp_all
    split
    · intro same; cases same
    · simp
  cases policy : r.localMemoryAllocation options with
  | skip => exact absurd policy there
  | lazy | eager => rfl

end ModuleReader

namespace Parser
variable {S W F V R : Type} {g : Parser S W F V R}

theorem borrowedPayload_counted {r : ModuleReader F V R} (counted : r.Counted) (threads : Threads F V R)
    (validator : Option W) (payload : Payload) :
    ParseYields (fun result => result.2.Counted) (g.borrowedPayload threads validator r payload) := by
  unfold borrowedPayload
  split
  · exact (ModuleReader.beginCodeSection_counted counted _ _ _ _ _ _ _).bind fun _ kept => kept
  · exact ModuleReader.processBorrowed_counted counted _ _ _ _ _
  · exact ModuleReader.processPayload_counted counted _ _ _

theorem bytesStep_counted (threads : Threads F V R) {s : BytesState S W F V R} (counted : s.reader.Counted) :
    ParseYields (Sum.elim (fun s => s.reader.Counted) ModuleReader.Counted) (g.bytesStep threads s) := by
  unfold bytesStep
  split
  · trivial
  · trivial
  · refine (borrowedPayload_counted counted threads s.validator _).bind fun result kept => ?_
    dsimp only
    split <;> exact kept

-- So is every module the parser returns.
theorem parsed_linedUp {threads : Threads F V R} {fuel : Nat} {wasm : List Byte} {m : Module}
    (parsed : g.parseModuleBytes threads fuel wasm = .ok m) : m.LinedUp := by
  have initial : (ModuleReader.default : ModuleReader F V R).Counted := ⟨rfl,rfl⟩
  have yields : ParseYields Module.LinedUp (g.parseModuleBytes threads fuel wasm) := by
    refine (run_holds (fun _ => bytesStep_counted threads) trivial fuel initial).bind fun reader kept => ?_
    split
    · exact (ModuleReader.processPendingFunctions_counted kept _ _ _).bind fun _ kept =>
        ModuleReader.intoModule_linedUp kept _
    · trivial
  rw [parsed] at yields
  exact yields

end Parser

end TinyWasm
