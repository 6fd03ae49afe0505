import TinyWasm.Parser.Stream
import TinyWasm.Parser.ParallelSerial

namespace TinyWasm
open ListRange

-- What wasmparser promises. `Outside` is a state between sections, and
-- `InCode s count size offset` one inside a code section with so many bodies
-- and bytes to come.
structure ParserContract {S : Type} (p : IncrementalParser S) (Outside : S → Prop)
    (InCode : S → Nat → Nat → Nat → Prop) : Prop where
  begins : Outside p.new
  -- A payload or an error is decided by the bytes read so far.
  parsed_extends {s t : S} {b : List Byte} {n : Nat} {x : Payload} (parsed : p.parse s b false = .ok (.parsed n x t))
    (more : List Byte) (eof : Bool) : p.parse s (b ++ more) eof = .ok (.parsed n x t)
  failed_extends {s : S} {b : List Byte} {e : ParseError} (failed : p.parse s b false = .error e)
    (more : List Byte) (eof : Bool) : ∃ e', p.parse s (b ++ more) eof = .error e'
  consumed_le {s t : S} {b : List Byte} {eof : Bool} {n : Nat} {x : Payload}
    (parsed : p.parse s b eof = .ok (.parsed n x t)) : n ≤ b.length
  advances {s t : S} {b : List Byte} {eof : Bool} {n : Nat} {x : Payload}
    (parsed : p.parse s b eof = .ok (.parsed n x t)) (inner : Parser.isEnd x = false) : 0 < n
  -- It asks for at least one byte, and for none once told that there are none.
  hint_pos {s : S} {b : List Byte} {eof : Bool} {hint : Nat} (asked : p.parse s b eof = .ok (.needMoreData hint)) : 0 < hint
  told {s : S} {b : List Byte} {hint : Nat} : p.parse s b true ≠ .ok (.needMoreData hint)
  end_empty {s t : S} {b : List Byte} {eof : Bool} {n : Nat} {x : Payload}
    (parsed : p.parse s b eof = .ok (.parsed n x t)) (last : Parser.isEnd x = true) : eof = true ∧ b = []
  truncated {s : S} {b : List Byte} {hint : Nat} (asked : p.parse s b false = .ok (.needMoreData hint)) :
    (∃ e, p.parse s b true = .error e) ∨ ∃ n x t, p.parse s b true = .ok (.parsed n x t) ∧ Parser.isEnd x = true
  -- A code section is announced, then gives its bodies as the sized reader does.
  section_starts {s t : S} {b : List Byte} {eof : Bool} {n count size : Nat} {range : Nat × Nat} (outside : Outside s)
    (parsed : p.parse s b eof = .ok (.parsed n (.codeSectionStart count range size) t)) :
    InCode t count size (range.2 - size)
  no_entry {s t : S} {b : List Byte} {eof : Bool} {n : Nat} {function : FunctionBody} (outside : Outside s) :
    p.parse s b eof ≠ .ok (.parsed n (.codeSectionEntry function) t)
  stays_outside {s t : S} {b : List Byte} {eof : Bool} {n : Nat} {x : Payload} (outside : Outside s)
    (parsed : p.parse s b eof = .ok (.parsed n x t)) (other : ∀ count range size, x ≠ .codeSectionStart count range size) :
    Outside t
  entry_parsed {s t : S} {b : List Byte} {eof : Bool} {n count size offset : Nat} {x : Payload}
    (inside : InCode s (count + 1) size offset) (parsed : p.parse s b eof = .ok (.parsed n x t)) :
    n ≤ size ∧ InCode t count (size - n) (offset + n) ∧ p.skipSection t = p.skipSection s ∧
      ∃ function, x = .codeSectionEntry function
  entry_read {s : S} {b : List Byte} {n count size offset : Nat} {function : FunctionBody}
    (inside : InCode s (count + 1) size offset) (whole : size ≤ b.length)
    (read : p.readReader (b.take size) offset = .ok (function,n)) :
    ∃ t, p.parse s b true = .ok (.parsed n (.codeSectionEntry function) t)
  entry_failed {s : S} {b : List Byte} {count size offset : Nat} {e : ParseError}
    (inside : InCode s (count + 1) size offset) (whole : size ≤ b.length)
    (failed : p.readReader (b.take size) offset = .error e) : ∃ e', p.parse s b true = .error e'
  body_placed {bytes : List Byte} {offset n : Nat} {function : FunctionBody}
    (read : p.readReader bytes offset = .ok (function,n)) :
    n ≤ bytes.length ∧ function.bytes.length ≤ n ∧ function.offset + function.bytes.length = offset + n ∧
      function.bytes = slice bytes (n - function.bytes.length) function.bytes.length
  trailing {s : S} {size offset : Nat} (inside : InCode s 0 size offset) (left : 0 < size) (b : List Byte) (eof : Bool) :
    ∃ e, p.parse s b eof = .error e
  section_ends {s : S} {offset : Nat} (inside : InCode s 0 0 offset) :
    p.parse s = p.parse (p.skipSection s) ∧ Outside (p.skipSection s)

def Parser.isCode : Payload → Bool
  | .codeSectionStart _ _ _ | .codeSectionEntry _ => true
  | _ => false

-- A job with its body cut out of whatever holds it.
def PendingFunction.plain {F : Type} (job : PendingFunction F) : PendingFunction F :=
  {job with body := .borrowed (Parallel.functionBody job.body)}

namespace Parallel
variable {F V R : Type} {ctx : Context F V R}

theorem lowered_plain (job : PendingFunction F) : lowered ctx job.plain = lowered ctx job := rfl

theorem threads_process (irrelevant : ctx.lowering.AllocsIrrelevant) (threads : Threads F V R)
    (pending : List (PendingFunction F)) :
    threads.process ctx pending = (pending.map .plain).mapM (lowered ctx) := by
  have plain : (pending.map .plain).mapM (lowered ctx) = pending.mapM (lowered ctx) := by
    rw [List.mapM_map]
    rfl
  rw [plain]
  have outcome := threads.runs ctx pending
  generalize threads.process ctx pending = answer at outcome
  cases outcome with
  | serial => exact processChunk_eq irrelevant pending
  | parallel several reached returned =>
    have result := (reached_sound irrelevant reached).main
    rw [returned] at result
    exact result

end Parallel

namespace ModuleReader
variable {F V R W : Type}

def plain (r : ModuleReader F V R) : ModuleReader F V R :=
  {r with pendingFunctions := r.pendingFunctions.map (·.map .plain)}

def plainPair {α : Type} (result : α × ModuleReader F V R) : α × ModuleReader F V R := (result.1,result.2.plain)

theorem plain_pending (r : ModuleReader F V R) : r.plain.pendingFunctions.isSome = r.pendingFunctions.isSome := by
  cases h : r.pendingFunctions <;> simp [plain,h]

-- A section is checked, validated and read, and then kept in the reader.
theorem section_plain {α : Type} (checked : Parse Unit) (validated : Parse (Option W)) (read : Parse α)
    {keep keep' : α → ModuleReader F V R} (same : ∀ a, keep' a = (keep a).plain) :
    (do checked; let w ← validated; let a ← read; .ok (w,keep' a) : Parse (Option W × ModuleReader F V R)) =
      (do checked; let w ← validated; let a ← read; .ok (w,keep a) : Parse (Option W × ModuleReader F V R)).map
        plainPair := by
  cases checked with
  | error stop => rfl
  | ok _ =>
    cases validated with
    | error stop => rfl
    | ok w =>
      cases read with
      | error stop => rfl
      | ok a => exact congrArg (fun r => Except.ok (w,r)) (same a)

theorem validated_plain (validated : Parse (Option W)) {kept kept' : ModuleReader F V R} (same : kept' = kept.plain) :
    (do let w ← validated; .ok (w,kept') : Parse (Option W × ModuleReader F V R)) =
      (do let w ← validated; .ok (w,kept) : Parse (Option W × ModuleReader F V R)).map plainPair := by
  cases validated with
  | error stop => rfl
  | ok w => exact congrArg (fun r => Except.ok (w,r)) same

theorem processPayload_plain (v : Validation W F) (validator : Option W) (r : ModuleReader F V R) (payload : Payload) :
    r.plain.processPayload v validator payload = (r.processPayload v validator payload).map plainPair := by
  cases payload with
  | version num encoding range =>
    simp only [processPayload]
    cases validate v validator (.version num encoding range) with
    | error stop => rfl
    | ok w => cases encoding <;> rfl
  | startSection func range =>
    simp only [processPayload]
    change (do checkSection "start" r.startFunc.isSome; _ : Parse (Option W × ModuleReader F V R)) = _
    cases checkSection "start" r.startFunc.isSome with
    | error stop => rfl
    | ok _ => exact validated_plain _ rfl
  | typeSection reader => exact section_plain _ _ (items reader) fun _ => rfl
  | globalSection reader => exact section_plain _ _ (items reader) fun _ => rfl
  | tableSection reader => exact section_plain _ _ (items reader) fun _ => rfl
  | memorySection reader => exact section_plain _ _ (items reader) fun _ => rfl
  | elementSection reader => exact section_plain (.ok ()) _ (items reader) fun _ => rfl
  | dataSection reader => exact section_plain _ _ (items reader) fun _ => rfl
  | functionSection reader => exact section_plain _ _ (functionTypes r.funcTypes reader.items) fun _ => rfl
  | importSection reader => exact section_plain _ _ (items reader) fun _ => rfl
  | exportSection reader => exact section_plain _ _ (items reader) fun _ => rfl
  | dataCountSection count range =>
    simp only [processPayload]
    change (if r.data.isEmpty then _ else _) = _
    split
    · exact validated_plain _ rfl
    · rfl
  | end_ offset =>
    simp only [processPayload]
    change (if r.endReached then _ else _) = _
    split
    · rfl
    · exact validated_plain _ rfl
  | customSection name => rfl
  | codeSectionStart count range size => rfl
  | codeSectionEntry function => rfl
  | unknownSection => rfl
  | unsupported name => rfl

-- No payload but the end touches what the loop looks at.
structure Continues (r r' : ModuleReader F V R) : Prop where
  endReached : r'.endReached = r.endReached
  codeSection : r'.hasCodeSection = r.hasCodeSection
  pending : r'.pendingFunctions = r.pendingFunctions

theorem section_continues {α : Type} (checked : Parse Unit) (validated : Parse (Option W)) (read : Parse α)
    {r r' : ModuleReader F V R} {keep : α → ModuleReader F V R} {w : Option W}
    (ran : (do checked; let w ← validated; let a ← read; .ok (w,keep a) : Parse (Option W × ModuleReader F V R)) =
      .ok (w,r')) (keeps : ∀ a, Continues r (keep a)) : Continues r r' := by
  cases checked with
  | error stop => cases ran
  | ok _ =>
    cases validated with
    | error stop => cases ran
    | ok _ =>
      cases read with
      | error stop => cases ran
      | ok a => cases ran; exact keeps a

theorem validated_continues {validated : Parse (Option W)} {r r' kept : ModuleReader F V R} {w : Option W}
    (ran : (do let w ← validated; .ok (w,kept) : Parse (Option W × ModuleReader F V R)) = .ok (w,r'))
    (keeps : Continues r kept) : Continues r r' := by
  cases validated with
  | error stop => cases ran
  | ok _ => cases ran; exact keeps

theorem processPayload_continues {v : Validation W F} {validator w : Option W} {r r' : ModuleReader F V R}
    {payload : Payload} (inner : Parser.isEnd payload = false)
    (ran : r.processPayload v validator payload = .ok (w,r')) : Continues r r' := by
  cases payload with
  | version num encoding range =>
    simp only [processPayload] at ran
    cases told : validate v validator (.version num encoding range) with
    | error stop => rw [told] at ran; cases ran
    | ok w' =>
      rw [told] at ran
      cases encoding with
      | module => cases ran; exact ⟨rfl,rfl,rfl⟩
      | component => cases ran
  | startSection func range =>
    simp only [processPayload] at ran
    cases checked : checkSection "start" r.startFunc.isSome with
    | error stop => rw [checked] at ran; cases ran
    | ok _ => rw [checked] at ran; exact validated_continues ran ⟨rfl,rfl,rfl⟩
  | typeSection reader => exact section_continues _ _ (items reader) ran fun _ => ⟨rfl,rfl,rfl⟩
  | globalSection reader => exact section_continues _ _ (items reader) ran fun _ => ⟨rfl,rfl,rfl⟩
  | tableSection reader => exact section_continues _ _ (items reader) ran fun _ => ⟨rfl,rfl,rfl⟩
  | memorySection reader => exact section_continues _ _ (items reader) ran fun _ => ⟨rfl,rfl,rfl⟩
  | elementSection reader => exact section_continues (.ok ()) _ (items reader) ran fun _ => ⟨rfl,rfl,rfl⟩
  | dataSection reader => exact section_continues _ _ (items reader) ran fun _ => ⟨rfl,rfl,rfl⟩
  | functionSection reader => exact section_continues _ _ (functionTypes r.funcTypes reader.items) ran fun _ => ⟨rfl,rfl,rfl⟩
  | importSection reader => exact section_continues _ _ (items reader) ran fun _ => ⟨rfl,rfl,rfl⟩
  | exportSection reader => exact section_continues _ _ (items reader) ran fun _ => ⟨rfl,rfl,rfl⟩
  | dataCountSection count range =>
    simp only [processPayload] at ran
    split at ran
    · exact validated_continues ran ⟨rfl,rfl,rfl⟩
    · cases ran
  | customSection name => cases ran; exact ⟨rfl,rfl,rfl⟩
  | end_ offset => cases inner
  | codeSectionStart count range size => cases ran
  | codeSectionEntry function => cases ran
  | unknownSection => cases ran
  | unsupported name => cases ran

theorem processPayload_ends {v : Validation W F} {validator w : Option W} {r r' : ModuleReader F V R} {payload : Payload}
    (last : Parser.isEnd payload = true) (ran : r.processPayload v validator payload = .ok (w,r')) :
    r'.endReached = true := by
  cases payload with
  | end_ offset =>
    simp only [processPayload] at ran
    split at ran
    · cases ran
    · cases told : validate v validator (.end_ offset) with
      | error stop => rw [told] at ran; cases ran
      | ok _ => rw [told] at ran; cases ran; rfl
  | _ => cases last

theorem beginCodeSection_plain (v : Validation W F) (validator : Option W) (options : ParserOptions)
    (available : Option Nat) (r : ModuleReader F V R) (count : Nat) (range : Nat × Nat) (size : Nat) :
    r.plain.beginCodeSection v validator options available count range size =
      (r.beginCodeSection v validator options available count range size).map fun result =>
        (result.1,plainPair result.2) := by
  unfold beginCodeSection
  change (if r.hasCodeSection then _ else _) = _
  split
  · rfl
  · cases validate v validator (.codeSectionStart count range size) with
    | error stop => rfl
    | ok w =>
      simp only [bind,Except.bind]
      split <;> rfl

theorem beginCodeSection_continues {v : Validation W F} {validator w : Option W} {options : ParserOptions}
    {available : Option Nat} {r r' : ModuleReader F V R} {count size : Nat} {range : Nat × Nat} {defer : Bool}
    (ran : r.beginCodeSection v validator options available count range size = .ok (defer,w,r')) :
    r.hasCodeSection = false ∧ r'.hasCodeSection = true ∧ r'.endReached = r.endReached ∧
      (if defer then r'.pendingFunctions = some [] else r'.pendingFunctions = r.pendingFunctions) := by
  unfold beginCodeSection at ran
  split at ran
  · cases ran
  · rename_i first
    cases told : validate v validator (.codeSectionStart count range size) with
    | error stop => rw [told] at ran; cases ran
    | ok w' =>
      rw [told] at ran
      simp only [bind,Except.bind] at ran
      split at ran <;> cases ran <;> exact ⟨Bool.eq_false_iff.mpr first,rfl,rfl,rfl⟩

theorem beginCodeSection_both {r r' : ModuleReader F V R} (alike : r.plain = r'.plain) (v : Validation W F)
    (validator : Option W) (options : ParserOptions) (available : Option Nat) (count : Nat) (range : Nat × Nat) (size : Nat) :
    (∃ stop, r.beginCodeSection v validator options available count range size = .error stop ∧
      r'.beginCodeSection v validator options available count range size = .error stop) ∨
    ∃ defer w q q', r.beginCodeSection v validator options available count range size = .ok (defer,w,q) ∧
      r'.beginCodeSection v validator options available count range size = .ok (defer,w,q') ∧ q.plain = q'.plain := by
  have plains := beginCodeSection_plain v validator options available r count range size
  rw [alike,beginCodeSection_plain] at plains
  cases begun : r.beginCodeSection v validator options available count range size with
  | error stop =>
    cases begun' : r'.beginCodeSection v validator options available count range size with
    | error stop' => rw [begun,begun'] at plains; cases plains; exact .inl ⟨stop,rfl,rfl⟩
    | ok _ => rw [begun,begun'] at plains; cases plains
  | ok result =>
    cases begun' : r'.beginCodeSection v validator options available count range size with
    | error stop => rw [begun,begun'] at plains; cases plains
    | ok result' =>
      obtain ⟨defer,w,q⟩ := result
      obtain ⟨defer',w',q'⟩ := result'
      rw [begun,begun'] at plains
      obtain ⟨rfl,pair⟩ := Prod.mk.inj (Except.ok.inj plains)
      obtain ⟨rfl,same⟩ := Prod.mk.inj pair
      exact .inr ⟨defer',w',q,q',rfl,rfl,same.symm⟩

theorem processInline_plain (lowering : ModuleMetadata → Lowering F V R) (v : Validation W F) (validator : Option W)
    (options : ParserOptions) (r : ModuleReader F V R) (function : FunctionBody) :
    r.plain.processInlineCodeSectionEntry lowering v validator options function =
      (r.processInlineCodeSectionEntry lowering v validator options function).map plainPair := by
  cases r
  dsimp only [processInlineCodeSectionEntry,plain,metadata]
  cases validateEntry v validator function with
  | error stop => rfl
  | ok entry =>
    dsimp only [bind,Except.bind]
    split
    · rfl
    · split
      · rfl
      · split
        · rfl
        · split <;> rfl

theorem processInline_continues {lowering : ModuleMetadata → Lowering F V R} {v : Validation W F}
    {validator w : Option W} {options : ParserOptions} {r r' : ModuleReader F V R} {function : FunctionBody}
    (ran : r.processInlineCodeSectionEntry lowering v validator options function = .ok (w,r')) : Continues r r' := by
  cases r
  dsimp only [processInlineCodeSectionEntry,metadata] at ran
  cases entry : validateEntry v validator function with
  | error stop => rw [entry] at ran; cases ran
  | ok entry' =>
    rw [entry] at ran
    dsimp only [bind,Except.bind] at ran
    split at ran
    · cases ran
    · split at ran
      · cases ran
      · split at ran
        · cases ran
        · split at ran
          · cases ran
          · cases ran; exact ⟨rfl,rfl,rfl⟩

theorem queueFunction_plain (r : ModuleReader F V R) (body : FunctionBodyInput) (func : Option F) :
    r.plain.queueFunction (.borrowed (Parallel.functionBody body)) func = (r.queueFunction body func).map plain := by
  cases r with
  | mk _ _ _ _ _ _ _ codeTypeAddrs codeResults _ code _ _ _ _ _ _ _ _ _ pendingFunctions =>
    cases pendingFunctions with
    | none =>
      dsimp only [queueFunction,plain,Option.map,Option.getD]
      split <;> rfl
    | some pending =>
      dsimp only [queueFunction,plain,Option.map,Option.getD]
      rw [List.length_map]
      split
      · simp only [Except.map,plain,Option.map,List.map_append,List.map_cons,List.map_nil]
        rfl
      · rfl

theorem queueFunction_ok {r r' : ModuleReader F V R} {body : FunctionBodyInput} {func : Option F}
    (queued : r.queueFunction body func = .ok r') :
    r'.pendingFunctions.isSome = true ∧ r'.endReached = r.endReached ∧ r'.hasCodeSection = r.hasCodeSection := by
  unfold queueFunction at queued
  dsimp only at queued
  split at queued
  · split at queued
    · cases queued
    · cases queued; exact ⟨rfl,rfl,rfl⟩
  · cases queued

theorem queueFunction_error {r : ModuleReader F V R} {body : FunctionBodyInput} {func : Option F} {stop : Stop}
    (refused : r.queueFunction body func = .error stop) : ∃ error, stop = .failed error := by
  unfold queueFunction at refused
  dsimp only at refused
  split at refused
  · split at refused
    · cases refused; exact ⟨_,rfl⟩
    · cases refused
  · cases refused; exact ⟨_,rfl⟩

theorem queueFunction_both {r r' : ModuleReader F V R} (alike : r.plain = r'.plain) (body body' : FunctionBodyInput)
    (same : Parallel.functionBody body = Parallel.functionBody body') (func : Option F) :
    (∃ error error', r.queueFunction body func = .error (.failed error) ∧
      r'.queueFunction body' func = .error (.failed error')) ∨
    ∃ q q', r.queueFunction body func = .ok q ∧ r'.queueFunction body' func = .ok q' ∧ q.plain = q'.plain := by
  have plains : (r.queueFunction body func).map plain = (r'.queueFunction body' func).map plain := by
    rw [← queueFunction_plain,← queueFunction_plain,alike,same]
  cases queued : r.queueFunction body func with
  | error stop =>
    obtain ⟨error,rfl⟩ := queueFunction_error queued
    cases queued' : r'.queueFunction body' func with
    | error stop =>
      obtain ⟨error',rfl⟩ := queueFunction_error queued'
      exact .inl ⟨error,error',rfl,rfl⟩
    | ok q' => rw [queued,queued'] at plains; cases plains
  | ok q =>
    cases queued' : r'.queueFunction body' func with
    | error stop => rw [queued,queued'] at plains; cases plains
    | ok q' =>
      rw [queued,queued'] at plains
      exact .inr ⟨q,q',rfl,rfl,Except.ok.inj plains⟩

theorem validateEntry_error {v : Validation W F} {validator : Option W} {function : FunctionBody} {stop : Stop}
    (refused : validateEntry v validator function = .error stop) : ∃ error, stop = .failed error := by
  cases validator with
  | none => cases refused
  | some w =>
    simp only [validateEntry] at refused
    cases checked : v.codeSectionEntry w function with
    | error error => rw [checked] at refused; cases refused; exact ⟨error,rfl⟩
    | ok result => rw [checked] at refused; cases refused

-- The threads see the bodies only, so where those lie is forgotten at the end.
theorem processPendingFunctions_plain {lowering : ModuleMetadata → Lowering F V R}
    (irrelevant : ∀ m, (lowering m).AllocsIrrelevant) (threads : Threads F V R) (options : ParserOptions)
    (r : ModuleReader F V R) :
    r.processPendingFunctions lowering threads options =
      match r.plain.pendingFunctions with
      | none | some [] => .ok {r.plain with pendingFunctions := none}
      | some pending => (do
        let code ← Parse.of (pending.mapM
          (Parallel.lowered ⟨lowering r.plain.metadata,options,r.plain.importedFuncCount,r.plain.importedMemoryCount⟩))
        .ok {r.plain with
          pendingFunctions := none,translationMetadata := some r.plain.metadata,code := r.plain.code ++ code}) := by
  cases r with
  | mk _ _ _ _ _ _ _ _ _ _ _ _ _ _ _ _ _ _ _ _ pendingFunctions =>
    cases pendingFunctions with
    | none => rfl
    | some pending =>
      cases pending with
      | nil => rfl
      | cons job jobs =>
        simp only [processPendingFunctions]
        rw [Parallel.threads_process (irrelevant _)]
        rfl

end ModuleReader

namespace Parser
variable {S W F V R : Type} {g : Parser S W F V R} {threads : Threads F V R}

theorem borrowedPayload_other {validator : Option W} {r : ModuleReader F V R} {payload : Payload}
    (plain : isCode payload = false) :
    g.borrowedPayload threads validator r payload = r.processPayload g.validation validator payload := by
  cases payload with
  | codeSectionStart _ _ _ => cases plain
  | codeSectionEntry _ => cases plain
  | _ => rfl

theorem streamPayload_other {validator : Option W} {r : ModuleReader F V R} {payload : Payload}
    (plain : isCode payload = false) :
    g.streamPayload threads validator r payload = (do
      let (validator,reader) ← r.processPayload g.validation validator payload
      .ok (none,validator,reader)) := by
  cases payload with
  | codeSectionStart _ _ _ => cases plain
  | codeSectionEntry _ => cases plain
  | _ => rfl

theorem finish_congr (irrelevant : ∀ m, (g.lowering m).AllocsIrrelevant) (threads threads' : Threads F V R)
    {r r' : ModuleReader F V R} (alike : r.plain = r'.plain) : g.finish threads r = g.finish threads' r' := by
  unfold finish
  rw [ModuleReader.processPendingFunctions_plain irrelevant,ModuleReader.processPendingFunctions_plain irrelevant,alike]

end Parser

end TinyWasm
