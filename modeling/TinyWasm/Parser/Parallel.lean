import TinyWasm.Parser.Code

namespace TinyWasm
open ListRange

inductive FunctionBodyInput where
  | borrowed (func : FunctionBody)
  | owned (sectionBytes : List Byte) (start length : Nat) (bodyOffset : Nat)

structure PendingFunction (F : Type) where
  ordinal : Nat
  results : ValueCounts
  funcToValidate : Option F
  tyIdx : TypeAddr
  body : FunctionBodyInput

namespace Parallel

def minFunctions : Nat := 8
def minCodeSectionBytes : Nat := 16 * 1024
def minFunctionBodyBytes : Nat := 16
def minFunctionsPerWorker : Nat := 4
def maxWorkers : Nat := 12

def bodyLen : FunctionBodyInput → Nat
  | .borrowed func => func.bytes.length
  | .owned _ _ length _ => length

def divCeil (a b : Nat) : Nat := (a + b - 1) / b

-- `available` is what the host says it can run at once, if it says anything.
def workerCount (options : ParserOptions) (available : Option Nat) (numFunctions : Nat) : Nat :=
  let requested := max (options.parserThreads.getD (available.getD 1)) 1
  max (min (min requested maxWorkers) (divCeil numFunctions minFunctionsPerWorker)) 1

def shouldUseParallel (options : ParserOptions) (available : Option Nat) (numFunctions codeSectionBytes : Nat) : Bool :=
  numFunctions ≥ minFunctions && codeSectionBytes ≥ minCodeSectionBytes &&
    codeSectionBytes / numFunctions ≥ minFunctionBodyBytes && workerCount options available numFunctions > 1

-- What every job of a module shares.
structure Context (F V R : Type) where
  lowering : Lowering F V R
  options : ParserOptions
  importedFuncCount : Nat
  importedMemoryCount : Nat

variable {F V R : Type}

def functionBody : FunctionBodyInput → FunctionBody
  | .borrowed func => func
  | .owned sectionBytes start length bodyOffset => ⟨slice sectionBytes start length,bodyOffset⟩

def processFunctionJob (ctx : Context F V R) (job : PendingFunction F) (validatorAllocs : Option V)
    (readerAllocs : R) : Except ParseError (FunctionCode × Option V × R) := do
  let validator := job.funcToValidate.map (·,validatorAllocs.getD ctx.lowering.defaultValidatorAllocs)
  let (code,validatorAllocs,readerAllocs) ←
    ctx.lowering.convertModuleCode (functionBody job.body) validator readerAllocs job.tyIdx
  let code ← ctx.lowering.optimizeFunctionCode code ctx.options job.results
    ((ctx.importedFuncCount + job.ordinal) % 2 ^ 32) ctx.importedMemoryCount
  .ok (code,validatorAllocs,readerAllocs)

def processJobs (ctx : Context F V R) (validatorAllocs : Option V) (readerAllocs : R) (codes : List FunctionCode) :
    List (PendingFunction F) → Except ParseError (List FunctionCode)
  | [] => .ok codes
  | job :: jobs => do
    let (code,validatorAllocs,readerAllocs) ← processFunctionJob ctx job validatorAllocs readerAllocs
    processJobs ctx validatorAllocs readerAllocs (codes ++ [code]) jobs

def processChunk (ctx : Context F V R) (jobs : List (PendingFunction F)) : Except ParseError (List FunctionCode) :=
  processJobs ctx none ctx.lowering.defaultReaderAllocs [] jobs

-- The jobs a chunk takes after its first, and the jobs left over.
def fillChunk (chunkBytes : Nat) : Nat → List (PendingFunction F) → List (PendingFunction F) × List (PendingFunction F)
  | _,[] => ([],[])
  | bytes,job :: jobs =>
    if bytes < chunkBytes then
      let (chunk,left) := fillChunk chunkBytes (bytes + bodyLen job.body) jobs
      (job :: chunk,left)
    else ([],job :: jobs)

def chunkBytes (pending : List (PendingFunction F)) (numWorkers : Nat) : Nat :=
  divCeil (pending.map fun job => bodyLen job.body).sum numWorkers

-- One spawned thread: the jobs it has taken up, those it has not, and its
-- result once it has one.
structure Worker (F V R : Type) where
  taken : List (PendingFunction F)
  left : List (PendingFunction F)
  validatorAllocs : Option V
  readerAllocs : R
  codes : List FunctionCode
  result : Option (Except ParseError (List FunctionCode))

def Worker.spawn (ctx : Context F V R) (chunk : List (PendingFunction F)) : Worker F V R :=
  ⟨[],chunk,none,ctx.lowering.defaultReaderAllocs,[],none⟩

-- One turn of a worker's loop.
def Worker.work (ctx : Context F V R) (w : Worker F V R) : Worker F V R :=
  match w.left with
  | [] => {w with result := some (.ok w.codes)}
  | job :: jobs =>
    match processFunctionJob ctx job w.validatorAllocs w.readerAllocs with
    | .error error => {w with taken := w.taken ++ [job],left := jobs,result := some (.error error)}
    | .ok (code,validatorAllocs,readerAllocs) =>
      {w with
        taken := w.taken ++ [job],left := jobs,validatorAllocs,readerAllocs,codes := w.codes ++ [code]}

-- Where the spawning thread is: cutting chunks, joining its handles in order,
-- leaving the scope with a result, or back with its caller.
inductive Main (F : Type) where
  | spawning (jobs : List (PendingFunction F))
  | joining (next : Nat) (codes : List FunctionCode)
  | leaving (result : Except ParseError (List FunctionCode))
  | returned (result : Except ParseError (List FunctionCode))

structure Pool (F V R : Type) where
  main : Main F
  workers : List (Worker F V R)

-- Workers and spawner move in any order. The scope ends when all have finished.
inductive Step (ctx : Context F V R) (chunkBytes : Nat) : Pool F V R → Pool F V R → Prop where
  | spawn {first : PendingFunction F} {jobs : List (PendingFunction F)} {workers : List (Worker F V R)} :
      Step ctx chunkBytes ⟨.spawning (first :: jobs),workers⟩
        ⟨.spawning (fillChunk chunkBytes (bodyLen first.body) jobs).2,
          workers ++ [.spawn ctx (first :: (fillChunk chunkBytes (bodyLen first.body) jobs).1)]⟩
  | spawned {workers : List (Worker F V R)} : Step ctx chunkBytes ⟨.spawning [],workers⟩ ⟨.joining 0 [],workers⟩
  | work {main : Main F} {before after : List (Worker F V R)} {w : Worker F V R} (unfinished : w.result = none) :
      Step ctx chunkBytes ⟨main,before ++ w :: after⟩ ⟨main,before ++ w.work ctx :: after⟩
  | join {next : Nat} {codes chunk : List FunctionCode} {workers : List (Worker F V R)} {w : Worker F V R}
      (handle : workers[next]? = some w) (finished : w.result = some (.ok chunk)) :
      Step ctx chunkBytes ⟨.joining next codes,workers⟩ ⟨.joining (next + 1) (codes ++ chunk),workers⟩
  | fail {next : Nat} {codes : List FunctionCode} {error : ParseError} {workers : List (Worker F V R)}
      {w : Worker F V R} (handle : workers[next]? = some w) (finished : w.result = some (.error error)) :
      Step ctx chunkBytes ⟨.joining next codes,workers⟩ ⟨.leaving (.error error),workers⟩
  | joined {codes : List FunctionCode} {workers : List (Worker F V R)} :
      Step ctx chunkBytes ⟨.joining workers.length codes,workers⟩ ⟨.leaving (.ok codes),workers⟩
  | leave {result : Except ParseError (List FunctionCode)} {workers : List (Worker F V R)}
      (finished : ∀ w ∈ workers, w.result ≠ none) :
      Step ctx chunkBytes ⟨.leaving result,workers⟩ ⟨.returned result,workers⟩

inductive Reached (ctx : Context F V R) (chunkBytes : Nat) (pending : List (PendingFunction F)) : Pool F V R → Prop where
  | start : Reached ctx chunkBytes pending ⟨.spawning pending,[]⟩
  | step {p q : Pool F V R} (prior : Reached ctx chunkBytes pending p) (step : Step ctx chunkBytes p q) :
      Reached ctx chunkBytes pending q

-- The outcomes of process_pending over every order in which its threads move.
inductive ProcessPending (ctx : Context F V R) (available : Option Nat) (pending : List (PendingFunction F)) :
    Except ParseError (List FunctionCode) → Prop where
  | serial (single : workerCount ctx.options available pending.length = 1) :
      ProcessPending ctx available pending (processChunk ctx pending)
  | parallel {p : Pool F V R} {result : Except ParseError (List FunctionCode)}
      (several : workerCount ctx.options available pending.length ≠ 1)
      (reached : Reached ctx (chunkBytes pending (workerCount ctx.options available pending.length)) pending p)
      (returned : p.main = .returned result) : ProcessPending ctx available pending result

end Parallel

end TinyWasm
