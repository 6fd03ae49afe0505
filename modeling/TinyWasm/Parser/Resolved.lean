import TinyWasm.Parser.StreamContract

namespace TinyWasm
open Loop

def Stop.Reported : Stop → Prop
  | .failed _ => True
  | .aborted _ => False

abbrev Reports {α : Type} (Q : α → Prop) : Parse α → Prop := Holds Stop.Reported Q

theorem Parse.of_reports {α : Type} (x : Except ParseError α) : Reports (fun _ => True) (Parse.of x) := by
  cases x <;> trivial

namespace ModuleReader
variable {F V R W : Type}

-- Every function so far has a type of the module, and its results with it.
structure Resolved (r : ModuleReader F V R) : Prop where
  results : r.codeResults.length = r.codeTypeAddrs.length
  types : ∀ ty ∈ r.codeTypeAddrs, ty < r.funcTypes.length

theorem checkSection_reports (name : String) (duplicate : Bool) :
    Reports (fun _ => duplicate = false) (checkSection name duplicate) := by
  cases duplicate
  · exact rfl
  · exact trivial

theorem validate_reports (v : Validation W F) (validator : Option W) (payload : Payload) :
    Reports (fun _ => True) (validate v validator payload) := by
  cases validator with
  | none => trivial
  | some w => exact (Parse.of_reports _).bind fun _ _ => trivial

theorem items_reports {α : Type} (reader : Section α) : Reports (fun _ => True) (items reader) := Parse.of_reports _

theorem functionTypes_reports (funcTypes : List FuncType) (read : List (Except ParseError TypeAddr)) :
    Reports (fun types => ∀ p ∈ types, p.1 < funcTypes.length) (functionTypes funcTypes read) := by
  induction read with
  | nil => exact nofun
  | cons item rest ih =>
    refine (Parse.of_reports item).bind fun tyIdx _ => ?_
    cases found : funcTypes[tyIdx]? with
    | none => trivial
    | some ty =>
      refine ih.bind fun others resolved => ?_
      intro p listed
      cases listed with
      | head => exact (List.getElem?_eq_some_iff.mp found).1
      | tail _ later => exact resolved p later

theorem section_reports {α : Type} (checked : Parse Unit) {validated : Parse (Option W)} {read : Parse α}
    {keep : α → ModuleReader F V R} {C : Prop} {P : α → Prop} (checks : Reports (fun _ => C) checked)
    (validates : Reports (fun _ => True) validated) (reads : Reports P read)
    (keeps : C → ∀ a, P a → (keep a).Resolved) :
    Reports (fun result => result.2.Resolved)
      (do checked; let w ← validated; let a ← read; .ok (w,keep a) : Parse (Option W × ModuleReader F V R)) :=
  checks.bind fun _ first => validates.bind fun _ _ => reads.bind fun a holds => keeps first a holds

theorem processPayload_reports {r : ModuleReader F V R} (resolved : r.Resolved) (v : Validation W F) (validator : Option W)
    {payload : Payload} (plain : Parser.isCode payload = false) :
    Reports (fun result => result.2.Resolved) (r.processPayload v validator payload) := by
  have validates := validate_reports v validator payload
  cases payload with
  | version num encoding range =>
    refine validates.bind fun _ _ => ?_
    cases encoding with
    | module => exact ⟨resolved.results,resolved.types⟩
    | component => trivial
  | startSection func range =>
    exact (checkSection_reports _ _).bind fun _ _ => validates.bind fun _ _ => ⟨resolved.results,resolved.types⟩
  | typeSection reader =>
    refine section_reports _ (checkSection_reports _ _) validates (items_reports reader) fun first types _ =>
      ⟨resolved.results,fun ty listed => ?_⟩
    have none : r.funcTypes = [] := by simpa using first
    have within := resolved.types ty listed
    rw [none] at within
    cases within
  | functionSection reader =>
    refine section_reports _ (checkSection_reports _ _) validates (functionTypes_reports r.funcTypes reader.items)
      fun _ types within => ⟨by simp only [List.length_map],fun ty listed => ?_⟩
    obtain ⟨p,member,rfl⟩ := List.mem_map.mp listed
    exact within p member
  | elementSection reader =>
    exact validates.bind fun _ _ => (items_reports reader).bind fun _ _ => ⟨resolved.results,resolved.types⟩
  | globalSection reader | tableSection reader | memorySection reader | dataSection reader | importSection reader
  | exportSection reader =>
    exact section_reports _ (checkSection_reports _ _) validates (items_reports reader) fun _ _ _ =>
      ⟨resolved.results,resolved.types⟩
  | dataCountSection count range =>
    simp only [processPayload]
    split
    · exact validates.bind fun _ _ => resolved
    · trivial
  | end_ offset =>
    simp only [processPayload]
    split
    · trivial
    · exact validates.bind fun _ _ => ⟨resolved.results,resolved.types⟩
  | customSection name => exact resolved
  | codeSectionStart count range size => cases plain
  | codeSectionEntry function => cases plain
  | unknownSection => trivial
  | unsupported name => trivial

theorem beginCodeSection_reports {r : ModuleReader F V R} (resolved : r.Resolved) (v : Validation W F)
    (validator : Option W) (options : ParserOptions) (available : Option Nat) (count : Nat) (range : Nat × Nat)
    (size : Nat) :
    Reports (fun result => result.2.2.Resolved)
      (r.beginCodeSection v validator options available count range size) := by
  unfold beginCodeSection
  split
  · trivial
  · refine (validate_reports v validator _).bind fun _ _ => ?_
    dsimp only
    split <;> exact ⟨resolved.results,resolved.types⟩

theorem validateEntry_reports (v : Validation W F) (validator : Option W) (function : FunctionBody) :
    Reports (fun _ => True) (validateEntry v validator function) := by
  cases validator with
  | none => trivial
  | some w => exact (Parse.of_reports _).bind fun _ _ => trivial

theorem processInline_reports {r : ModuleReader F V R} (resolved : r.Resolved)
    (lowering : ModuleMetadata → Lowering F V R) (v : Validation W F) (validator : Option W) (options : ParserOptions)
    (function : FunctionBody) :
    Reports (fun result => result.2.Resolved)
      (r.processInlineCodeSectionEntry lowering v validator options function) := by
  unfold processInlineCodeSectionEntry
  refine (validateEntry_reports v validator function).bind fun entry _ => ?_
  cases typed : r.codeTypeAddrs[r.code.length]? with
  | none => trivial
  | some tyIdx =>
    refine (Parse.of_reports _).bind fun _ _ => ?_
    have within := (List.getElem?_eq_some_iff.mp typed).1
    rw [← resolved.results] at within
    rw [List.getElem?_eq_getElem within]
    exact (Parse.of_reports _).bind fun _ _ => ⟨resolved.results,resolved.types⟩

theorem queueFunction_reports {r : ModuleReader F V R} (resolved : r.Resolved) (body : FunctionBodyInput)
    (func : Option F) : Reports Resolved (r.queueFunction body func) := by
  unfold queueFunction
  dsimp only
  split
  · split
    · trivial
    · exact ⟨resolved.results,resolved.types⟩
  · trivial

theorem processBorrowed_reports {r : ModuleReader F V R} (resolved : r.Resolved)
    (lowering : ModuleMetadata → Lowering F V R) (v : Validation W F) (validator : Option W) (options : ParserOptions)
    (function : FunctionBody) :
    Reports (fun result => result.2.Resolved)
      (r.processBorrowedCodeSectionEntry lowering v validator options function) := by
  unfold processBorrowedCodeSectionEntry
  split
  · exact (validateEntry_reports v validator function).bind fun _ _ =>
      (queueFunction_reports resolved _ _).bind fun _ kept => kept
  · exact processInline_reports resolved lowering v validator options function

theorem processPendingFunctions_reports {r : ModuleReader F V R} (resolved : r.Resolved)
    (lowering : ModuleMetadata → Lowering F V R) (threads : Threads F V R) (options : ParserOptions) :
    Reports Resolved (r.processPendingFunctions lowering threads options) := by
  unfold processPendingFunctions
  split
  · exact ⟨resolved.results,resolved.types⟩
  · exact ⟨resolved.results,resolved.types⟩
  · exact (Parse.of_reports _).bind fun _ _ => ⟨resolved.results,resolved.types⟩

theorem moduleFunctions_reports {funcTypes : List FuncType} (codes : List FunctionCode) {tyIdxs : List TypeAddr}
    (results : List ValueCounts) (types : ∀ ty ∈ tyIdxs, ty < funcTypes.length) :
    Reports (fun _ => True) (moduleFunctions funcTypes codes tyIdxs results) := by
  fun_induction moduleFunctions funcTypes codes tyIdxs results with
  | case1 code codes tyIdx tyIdxs counts rest missing =>
    exact absurd (types tyIdx List.mem_cons_self) (Nat.not_lt.mpr (List.getElem?_eq_none_iff.mp missing))
  | case2 code codes tyIdx tyIdxs counts rest ty found ih =>
    exact (ih fun ty listed => types ty (List.mem_cons_of_mem _ listed)).bind fun _ _ => trivial
  | case3 => trivial

theorem intoModule_reports {r : ModuleReader F V R} (resolved : r.Resolved) (options : ParserOptions) :
    Reports (fun _ => True) (r.intoModule options) := by
  unfold intoModule
  split
  · trivial
  · split
    · trivial
    · exact (moduleFunctions_reports r.code r.codeResults resolved.types).bind fun _ _ => trivial

end ModuleReader

namespace Parser
variable {S W F V R : Type} {g : Parser S W F V R} {Outside : S → Prop} {InCode : S → Nat → Nat → Nat → Prop}

theorem borrowedPayload_reports {r : ModuleReader F V R} (resolved : r.Resolved) (threads : Threads F V R)
    (validator : Option W) (payload : Payload) :
    Reports (fun result => result.2.Resolved) (g.borrowedPayload threads validator r payload) := by
  cases code : isCode payload with
  | false =>
    rw [borrowedPayload_other code]
    exact ModuleReader.processPayload_reports resolved _ _ code
  | true =>
    cases payload with
    | codeSectionStart count range size =>
      exact (ModuleReader.beginCodeSection_reports resolved _ _ _ _ _ _ _).bind fun _ kept => kept
    | codeSectionEntry function => exact ModuleReader.processBorrowed_reports resolved _ _ _ _ _
    | _ => cases code

theorem bytesStep_reports (contract : ParserContract g.wasmparser Outside InCode) (threads : Threads F V R)
    {s : BytesState S W F V R} (resolved : s.reader.Resolved) :
    Reports (Sum.elim (fun s => s.reader.Resolved) ModuleReader.Resolved) (g.bytesStep threads s) := by
  unfold bytesStep
  split
  · trivial
  · rename_i hint asked
    exact absurd asked contract.told
  · refine (borrowedPayload_reports resolved threads s.validator _).bind fun result kept => ?_
    dsimp only
    split <;> exact kept

theorem finish_reports {r : ModuleReader F V R} (resolved : r.Resolved) (threads : Threads F V R) :
    Reports (fun _ => True) (g.finish threads r) :=
  (ModuleReader.processPendingFunctions_reports resolved _ _ _).bind fun _ kept =>
    ModuleReader.intoModule_reports kept _

end Parser

end TinyWasm
