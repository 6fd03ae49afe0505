import TinyWasm.Module
import TinyWasm.Parser.Parallel

namespace TinyWasm
open ListRange

-- How a parse stops short: with an error it reports, or by a failed assertion
-- or a loop that is never left.
inductive Stop where
  | failed (error : ParseError)
  | aborted (abort : Abort)
  deriving DecidableEq, Repr

abbrev Parse (α : Type) := Except Stop α

def Parse.of {α : Type} : Except ParseError α → Parse α
  | .ok a => .ok a
  | .error error => .error (.failed error)

def Parse.fail {α : Type} (error : ParseError) : Parse α := .error (.failed error)

-- The items of a section, read and converted one by one, and where it lies.
structure Section (α : Type) where
  items : List (Except ParseError α)
  range : Nat × Nat

inductive Payload where
  | version (num : Nat) (encoding : Encoding) (range : Nat × Nat)
  | startSection (func : FuncAddr) (range : Nat × Nat)
  | typeSection (reader : Section FuncType)
  | globalSection (reader : Section Global)
  | tableSection (reader : Section TableType)
  | memorySection (reader : Section MemoryType)
  | elementSection (reader : Section Element)
  | dataSection (reader : Section Data)
  | dataCountSection (count : Nat) (range : Nat × Nat)
  | functionSection (reader : Section TypeAddr)
  | importSection (reader : Section Import)
  | exportSection (reader : Section Export)
  | codeSectionStart (count : Nat) (range : Nat × Nat) (size : Nat)
  | codeSectionEntry (function : FunctionBody)
  | customSection (name : String)
  | unknownSection
  | unsupported (name : String)
  | end_ (offset : Nat)

-- The validator, which is told of every payload and sees every body.
structure Validation (W F : Type) where
  payload : W → Payload → Except ParseError W
  codeSectionEntry : W → FunctionBody → Except ParseError (F × W)

structure ModuleMetadata where
  funcTypes : List FuncType
  codeTypeAddrs : List TypeAddr
  imports : List Import
  globals : List Global
  memoryTypes : List MemoryType
  tableTypes : List TableType

structure ModuleReader (F V R : Type) where
  funcValidatorAllocations : Option V
  operatorsReaderAllocations : Option R
  translationMetadata : Option ModuleMetadata
  hasCodeSection : Bool
  version : Option Nat
  startFunc : Option FuncAddr
  funcTypes : List FuncType
  codeTypeAddrs : List TypeAddr
  codeResults : List ValueCounts
  exports : List Export
  code : List FunctionCode
  globals : List Global
  tableTypes : List TableType
  memoryTypes : List MemoryType
  imports : List Import
  data : List Data
  elements : List Element
  endReached : Bool
  importedFuncCount : Nat
  importedMemoryCount : Nat
  pendingFunctions : Option (List (PendingFunction F))

-- The threads of one host: what process_pending answers on it.
structure Threads (F V R : Type) where
  available : Option Nat
  process : Parallel.Context F V R → List (PendingFunction F) → Except ParseError (List FunctionCode)
  runs (ctx : Parallel.Context F V R) (pending : List (PendingFunction F)) :
    Parallel.ProcessPending ctx available pending (process ctx pending)

namespace ModuleReader
variable {F V R W : Type}

def default : ModuleReader F V R :=
  ⟨none,none,none,false,none,none,[],[],[],[],[],[],[],[],[],[],[],false,0,0,none⟩

-- Computed when the first body is translated and kept from then on.
def metadata (r : ModuleReader F V R) : ModuleMetadata :=
  r.translationMetadata.getD ⟨r.funcTypes,r.codeTypeAddrs,r.imports,r.globals,r.memoryTypes,r.tableTypes⟩

def checkSection (section_ : String) (duplicate : Bool) : Parse Unit :=
  if duplicate then .fail (.duplicateSection (section_ ++ " section")) else .ok ()

def validate (v : Validation W F) (validator : Option W) (payload : Payload) : Parse (Option W) :=
  match validator with
  | none => .ok none
  | some w => do .ok (some (← Parse.of (v.payload w payload)))

def items {α : Type} (reader : Section α) : Parse (List α) := Parse.of (reader.items.mapM id)

-- Every index with its type's results, up to the first that does not resolve.
def functionTypes (funcTypes : List FuncType) : List (Except ParseError TypeAddr) → Parse (List (TypeAddr × ValueCounts))
  | [] => .ok []
  | item :: rest => do
    let tyIdx ← Parse.of item
    match funcTypes[tyIdx]? with
    | none => .fail (.other s!"function type index out of bounds: {tyIdx}")
    | some ty => do
      let others ← functionTypes funcTypes rest
      .ok ((tyIdx,valueCounts (ty.results.map .ofWasmType)) :: others)

def isFunction (import_ : Import) : Bool :=
  match import_.kind with
  | .function _ => true
  | _ => false

def isMemory (import_ : Import) : Bool :=
  match import_.kind with
  | .memory _ => true
  | _ => false

def processPayload (v : Validation W F) (validator : Option W) (r : ModuleReader F V R) (payload : Payload) :
    Parse (Option W × ModuleReader F V R) :=
  match payload with
  | .version num encoding _ => do
    let validator ← validate v validator payload
    match encoding with
    | .component => .fail (.invalidEncoding encoding)
    | .module => .ok (validator,{r with version := some num})
  | .startSection func _ => do
    checkSection "start" r.startFunc.isSome
    let validator ← validate v validator payload
    .ok (validator,{r with startFunc := some func})
  | .typeSection reader => do
    checkSection "type" !r.funcTypes.isEmpty
    let validator ← validate v validator payload
    let funcTypes ← items reader
    .ok (validator,{r with funcTypes})
  | .globalSection reader => do
    checkSection "global" !r.globals.isEmpty
    let validator ← validate v validator payload
    let globals ← items reader
    .ok (validator,{r with globals})
  | .tableSection reader => do
    checkSection "table" !r.tableTypes.isEmpty
    let validator ← validate v validator payload
    let tableTypes ← items reader
    .ok (validator,{r with tableTypes})
  | .memorySection reader => do
    checkSection "memory" !r.memoryTypes.isEmpty
    let validator ← validate v validator payload
    let memoryTypes ← items reader
    .ok (validator,{r with memoryTypes})
  | .elementSection reader => do
    let validator ← validate v validator payload
    let elements ← items reader
    .ok (validator,{r with elements})
  | .dataSection reader => do
    checkSection "data" !r.data.isEmpty
    let validator ← validate v validator payload
    let data ← items reader
    .ok (validator,{r with data})
  | .dataCountSection _ _ =>
    if r.data.isEmpty then do
      let validator ← validate v validator payload
      .ok (validator,r)
    else .fail (.unsupportedSection "Data count section after data section")
  | .functionSection reader => do
    checkSection "function" !r.codeTypeAddrs.isEmpty
    let validator ← validate v validator payload
    let types ← functionTypes r.funcTypes reader.items
    .ok (validator,{r with codeTypeAddrs := types.map (·.1),codeResults := types.map (·.2)})
  | .importSection reader => do
    checkSection "import" !r.imports.isEmpty
    let validator ← validate v validator payload
    let imports ← items reader
    .ok (validator,{r with
      imports,importedFuncCount := r.importedFuncCount + imports.countP isFunction,
      importedMemoryCount := r.importedMemoryCount + imports.countP isMemory})
  | .exportSection reader => do
    checkSection "export" !r.exports.isEmpty
    let validator ← validate v validator payload
    let exports ← items reader
    .ok (validator,{r with exports})
  | .end_ _ =>
    if r.endReached then .fail (.duplicateSection "End section")
    else do
      let validator ← validate v validator payload
      .ok (validator,{r with endReached := true})
  | .customSection _ => .ok (validator,r)
  | .codeSectionStart _ _ _ | .codeSectionEntry _ => .error (.aborted .panic)
  | .unknownSection => .fail (.unsupportedSection "Unknown section")
  | .unsupported name => .fail (.unsupportedSection (s!"Unsupported section: {name}"))

-- Answers whether the section is deferred to the threads.
def beginCodeSection (v : Validation W F) (validator : Option W) (options : ParserOptions) (available : Option Nat)
    (r : ModuleReader F V R) (count : Nat) (range : Nat × Nat) (size : Nat) :
    Parse (Bool × Option W × ModuleReader F V R) :=
  if r.hasCodeSection then .fail (.duplicateSection "Code section")
  else do
    let validator ← validate v validator (.codeSectionStart count range size)
    let r := {r with hasCodeSection := true}
    if Parallel.shouldUseParallel options available count size then
      .ok (true,validator,{r with pendingFunctions := some []})
    else .ok (false,validator,r)

def noSignature : ParseError := .other "code entry has no function signature"

def validateEntry (v : Validation W F) (validator : Option W) (function : FunctionBody) : Parse (Option F × Option W) :=
  match validator with
  | none => .ok (none,none)
  | some w => do
    let (func,w) ← Parse.of (v.codeSectionEntry w function)
    .ok (some func,some w)

def processInlineCodeSectionEntry (lowering : ModuleMetadata → Lowering F V R) (v : Validation W F)
    (validator : Option W) (options : ParserOptions) (r : ModuleReader F V R) (function : FunctionBody) :
    Parse (Option W × ModuleReader F V R) := do
  let l := lowering r.metadata
  let (func,validator) ← validateEntry v validator function
  match r.codeTypeAddrs[r.code.length]? with
  | none => .fail noSignature
  | some tyIdx => do
    let (code,validatorAllocs,readerAllocs) ← Parse.of (l.convertModuleCode function
      (func.map (·,r.funcValidatorAllocations.getD l.defaultValidatorAllocs))
      (r.operatorsReaderAllocations.getD l.defaultReaderAllocs) tyIdx)
    match r.codeResults[r.code.length]? with
    | none => .error (.aborted .panic)
    | some results => do
      let code ← Parse.of (l.optimizeFunctionCode code options results
        ((r.importedFuncCount + r.code.length) % 2 ^ 32) r.importedMemoryCount)
      .ok (validator,{r with
        translationMetadata := some r.metadata,code := r.code ++ [code],
        funcValidatorAllocations := validatorAllocs,operatorsReaderAllocations := some readerAllocs})

def queueFunction (r : ModuleReader F V R) (body : FunctionBodyInput) (funcToValidate : Option F) :
    Parse (ModuleReader F V R) :=
  let ordinal := r.code.length + (r.pendingFunctions.getD []).length
  match r.codeResults[ordinal]?,r.codeTypeAddrs[ordinal]? with
  | some results,some tyIdx =>
    match r.pendingFunctions with
    | none => .fail (.other "function queued without pending storage")
    | some pending =>
      .ok {r with pendingFunctions := some (pending ++ [⟨ordinal,results,funcToValidate,tyIdx,body⟩])}
  | _,_ => .fail noSignature

def processBorrowedCodeSectionEntry (lowering : ModuleMetadata → Lowering F V R) (v : Validation W F)
    (validator : Option W) (options : ParserOptions) (r : ModuleReader F V R) (function : FunctionBody) :
    Parse (Option W × ModuleReader F V R) :=
  if r.pendingFunctions.isSome then do
    let (func,validator) ← validateEntry v validator function
    .ok (validator,← queueFunction r (.borrowed function) func)
  else processInlineCodeSectionEntry lowering v validator options r function

-- The bodies of a section read ahead of the parser. `readReader` answers with
-- the next sized body and the bytes it took, of those from an offset on.
def queueOwnedCodeSection (readReader : List Byte → Nat → Except ParseError (FunctionBody × Nat))
    (v : Validation W F) (sectionBytes : List Byte) (bodyOffset : Nat) :
    Nat → Nat → Option W → ModuleReader F V R → Parse (Option W × ModuleReader F V R)
  | 0,position,validator,r =>
    if position < sectionBytes.length then
      .fail (.parseError "trailing bytes at end of section" (bodyOffset + position))
    else .ok (validator,r)
  | count + 1,position,validator,r => do
    let (function,consumed) ← Parse.of (readReader (sectionBytes.drop position) (bodyOffset + position))
    let (func,validator) ← validateEntry v validator function
    let r ← queueFunction r (.owned sectionBytes (function.offset - bodyOffset) function.bytes.length function.offset) func
    queueOwnedCodeSection readReader v sectionBytes bodyOffset count (position + consumed) validator r

def processPendingFunctions (lowering : ModuleMetadata → Lowering F V R) (threads : Threads F V R)
    (options : ParserOptions) (r : ModuleReader F V R) : Parse (ModuleReader F V R) :=
  match r.pendingFunctions with
  | none | some [] => .ok {r with pendingFunctions := none}
  | some pending => do
    let code ← Parse.of (threads.process ⟨lowering r.metadata,options,r.importedFuncCount,r.importedMemoryCount⟩ pending)
    .ok {r with
      pendingFunctions := none,translationMetadata := some r.metadata,code := r.code ++ code}

def localMemoryAllocation (options : ParserOptions) (r : ModuleReader F V R) : LocalMemoryAllocation :=
  let exported := r.exports.any fun export_ => export_.kind == .memory && export_.index ≥ r.importedMemoryCount
  let activeData := r.data.any fun data =>
    match data.kind with
    | .active mem _ => mem ≥ r.importedMemoryCount
    | .passive => false
  if ((r.code.zip r.codeTypeAddrs).zip r.codeResults).any (·.1.1.usesLocalMemory) then .eager
  else if r.memoryTypes.isEmpty then .skip
  else if !options.optimizeLocalMemoryAllocation || activeData then .eager
  else if exported then .lazy
  else .skip

def moduleFunctions (funcTypes : List FuncType) : List FunctionCode → List TypeAddr → List ValueCounts → Parse (List WasmFunction)
  | code :: codes,tyIdx :: tyIdxs,results :: rest =>
    match funcTypes[tyIdx]? with
    | none => .error (.aborted .panic)
    | some ty => do
      let funcs ← moduleFunctions funcTypes codes tyIdxs rest
      .ok (⟨code.instructions,code.data,code.locals,valueCounts (ty.params.map .ofWasmType),results,ty⟩ :: funcs)
  | _,_,_ => .ok []

def importedTypeIdx (import_ : Import) : Option TypeAddr :=
  match import_.kind with
  | .function type => some type
  | _ => none

def intoModule (options : ParserOptions) (r : ModuleReader F V R) : Parse Module :=
  if r.endReached = false then .fail .endNotReached
  else if r.codeTypeAddrs.length ≠ r.code.length then .fail (.other "Code and code type address count mismatch")
  else do
    let funcs ← moduleFunctions r.funcTypes r.code r.codeTypeAddrs r.codeResults
    .ok {
      startFunc := r.startFunc,funcs,funcTypes := r.funcTypes
      funcTypeIdxs := r.imports.filterMap importedTypeIdx ++ r.codeTypeAddrs
      exports := r.exports,globals := r.globals,tableTypes := r.tableTypes,memoryTypes := r.memoryTypes
      imports := r.imports,data := r.data,elements := r.elements
      localMemoryAllocation := r.localMemoryAllocation options}

end ModuleReader

end TinyWasm
