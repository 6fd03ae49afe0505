import TinyWasm.Parser.StreamSection

namespace TinyWasm
open ListRange

namespace Parser
variable {S W F V R : Type} {g : Parser S W F V R} {Outside : S → Prop} {InCode : S → Nat → Nat → Nat → Prop}
variable {threads threads' : Threads F V R} {b : BytesState S W F V R} {t : StreamState S W F V R}

-- Where a parser that is not deferring stands.
def Place (Outside : S → Prop) (InCode : S → Nat → Nat → Nat → Prop) (s : S) (r : ModuleReader F V R) : Prop :=
  Outside s ∨ (r.pendingFunctions = none ∧ ∃ count size offset, InCode s count size offset)

-- What comes after each payload, and which payloads there are.
inductive Followed (Outside : S → Prop) (InCode : S → Nat → Nat → Nat → Prop) (r : ModuleReader F V R) :
    Payload → S → Prop where
  | start {count size : Nat} {range : Nat × Nat} {next : S} (inside : InCode next count size (range.2 - size)) :
      Followed Outside InCode r (.codeSectionStart count range size) next
  | entry {function : FunctionBody} {next : S} {count size offset : Nat} (inline : r.pendingFunctions = none)
      (inside : InCode next count size offset) : Followed Outside InCode r (.codeSectionEntry function) next
  | other {payload : Payload} {next : S} (plain : isCode payload = false) (outside : Outside next) :
      Followed Outside InCode r payload next

theorem outside_followed (contract : ParserContract g.wasmparser Outside InCode) {s next : S} {r : ModuleReader F V R}
    {bytes : List Byte} {eof : Bool} {n : Nat} {payload : Payload} (outside : Outside s)
    (parsed : g.wasmparser.parse s bytes eof = .ok (.parsed n payload next)) :
    Followed Outside InCode r payload next := by
  cases code : isCode payload with
  | false =>
    refine .other code (contract.stays_outside outside parsed fun count range size same => ?_)
    rw [same] at code
    cases code
  | true =>
    cases payload with
    | codeSectionStart count range size => exact .start (contract.section_starts outside parsed)
    | codeSectionEntry function => exact absurd parsed (contract.no_entry outside)
    | _ => cases code

theorem place_followed (contract : ParserContract g.wasmparser Outside InCode) {s next : S} {r : ModuleReader F V R}
    {bytes : List Byte} {eof : Bool} {n : Nat} {payload : Payload} (place : Place Outside InCode s r)
    (parsed : g.wasmparser.parse s bytes eof = .ok (.parsed n payload next)) :
    Followed Outside InCode r payload next := by
  rcases place with outside | ⟨inline,count,size,offset,inside⟩
  · exact outside_followed contract outside parsed
  · cases count with
    | succ count =>
      obtain ⟨_,inside',_,function,rfl⟩ := contract.entry_parsed inside parsed
      exact .entry inline inside'
    | zero =>
      cases size with
      | succ size =>
        obtain ⟨error,failed⟩ := contract.trailing inside (Nat.succ_pos size) bytes eof
        rw [failed] at parsed
        cases parsed
      | zero =>
        obtain ⟨same,outside⟩ := contract.section_ends inside
        exact outside_followed contract outside (same ▸ parsed)

-- The two parsers between payloads: the stream's holds a part of the data in
-- its buffer, and both have read the same module so far.
structure Aligned (g : Parser S W F V R) (Outside : S → Prop) (InCode : S → Nat → Nat → Nat → Prop)
    (b : BytesState S W F V R) (t : StreamState S W F V R) : Prop where
  parser : g.wasmparser.parse b.parser = g.wasmparser.parse t.parser
  place : Place Outside InCode t.parser t.reader
  data : b.data = t.buffer.drop t.bufferOffset ++ t.stream.unread
  placed : t.bufferOffset ≤ t.buffer.length
  validator : b.validator = t.validator
  reader : b.reader.plain = t.reader.plain
  running : t.reader.endReached = false
  fresh : t.reader.hasCodeSection = false → t.reader.pendingFunctions = none
  closed : t.eof = true → t.stream.unread = [] ∧
    ∀ n payload next, g.wasmparser.parse t.parser (t.buffer.drop t.bufferOffset) true = .ok (.parsed n payload next) →
      isEnd payload = true

-- Both fail, or they answer the same.
def Alike (whole streamed : Parse Module) : Prop :=
  whole = streamed ∨ ∃ error error', whole = .error (.failed error) ∧ streamed = .error (.failed error')

def answer (g : Parser S W F V R) (threads : Threads F V R) (whole : Parse (ModuleReader F V R)) : Parse Module := do
  let reader ← whole
  if reader.endReached then g.finish threads reader else .fail .endNotReached

-- What the stream parser's step comes to, seen from the other parser.
inductive Moves (g : Parser S W F V R) (threads threads' : Threads F V R) (Outside : S → Prop)
    (InCode : S → Nat → Nat → Nat → Prop) (b : BytesState S W F V R) (t : StreamState S W F V R) : Prop where
  | reads {t' : StreamState S W F V R} (went : g.streamStep threads' t = .ok (.inl t')) (aligned : Aligned g Outside InCode b t')
      (more : t'.stream.unread.length < t.stream.unread.length ∨
        t'.stream.unread.length = t.stream.unread.length ∧ t.eof = false ∧ t'.eof = true)
  | goes {b' : BytesState S W F V R} {t' : StreamState S W F V R} (leads : Loop.Leads (g.bytesStep threads) b b')
      (went : g.streamStep threads' t = .ok (.inl t')) (aligned : Aligned g Outside InCode b' t')
      (less : b'.data.length < b.data.length)
  | ends {whole : Parse (ModuleReader F V R)} {streamed : Parse Module} (whole_ends : Loop.Ends (g.bytesStep threads) b whole)
      (stream_ends : Loop.Ends (g.streamStep threads') t streamed) (alike : Alike (g.answer threads whole) streamed)

theorem Aligned.parsed_whole (contract : ParserContract g.wasmparser Outside InCode) (aligned : Aligned g Outside InCode b t)
    {n : Nat} {payload : Payload} {next : S}
    (parsed : g.wasmparser.parse t.parser (t.buffer.drop t.bufferOffset) t.eof = .ok (.parsed n payload next)) :
    g.wasmparser.parse b.parser b.data true = .ok (.parsed n payload next) := by
  rw [aligned.parser,aligned.data]
  cases eof : t.eof with
  | true =>
    rw [(aligned.closed eof).1,List.append_nil,← eof]
    exact parsed
  | false =>
    rw [eof] at parsed
    exact contract.parsed_extends parsed t.stream.unread true

theorem Aligned.failed_whole (contract : ParserContract g.wasmparser Outside InCode) (aligned : Aligned g Outside InCode b t)
    {error : ParseError} (failed : g.wasmparser.parse t.parser (t.buffer.drop t.bufferOffset) t.eof = .error error) :
    ∃ error', g.wasmparser.parse b.parser b.data true = .error error' := by
  rw [aligned.parser,aligned.data]
  cases eof : t.eof with
  | true =>
    rw [(aligned.closed eof).1,List.append_nil,← eof]
    exact ⟨error,failed⟩
  | false =>
    rw [eof] at failed
    exact contract.failed_extends failed t.stream.unread true

theorem Moves.both_fail {error : ParseError} (whole : Rejects g threads b)
    (streamed : g.streamStep threads' t = .error (.failed error)) :
    Moves g threads threads' Outside InCode b t := by
  obtain ⟨error',whole⟩ := whole
  exact .ends whole (.stop streamed) (.inr ⟨error',error,rfl,rfl⟩)

-- Reading on leaves the data as it is.
theorem Aligned.reads (contract : ParserContract g.wasmparser Outside InCode) (aligned : Aligned g Outside InCode b t)
    {hint : Nat} (asked : g.wasmparser.parse t.parser (t.buffer.drop t.bufferOffset) t.eof = .ok (.needMoreData hint)) :
    Moves g threads threads' Outside InCode b t := by
  have open_ : t.eof = false := by
    cases eof : t.eof with
    | false => rfl
    | true => exact absurd (eof ▸ asked) contract.told
  rw [open_] at asked
  have step : g.streamStep threads' t = .ok (.inl {t with
      buffer := t.buffer.drop t.bufferOffset ++ (t.stream.read hint).1,bufferOffset := 0
      eof := (t.stream.read hint).1.length == 0,stream := (t.stream.read hint).2}) := by
    unfold streamStep
    rw [open_,asked]
    rfl
  have whole : b.data = t.buffer.drop t.bufferOffset ++ (t.stream.read hint).1 ++ (t.stream.read hint).2.unread := by
    rw [aligned.data,List.append_assoc,Stream.read_whole]
  have counted := Stream.read_length t.stream hint
  refine .reads step ⟨aligned.parser,aligned.place,whole,Nat.zero_le _,aligned.validator,aligned.reader,aligned.running,
    aligned.fresh,fun ended => ?_⟩ ?_
  · have none_read := eq_of_beq ended
    have nothing := Stream.read_empty (contract.hint_pos asked) none_read
    rw [nothing] at counted
    refine ⟨List.eq_nil_of_length_eq_zero (Nat.eq_zero_of_add_eq_zero_left counted),fun n payload next parsed => ?_⟩
    rw [List.eq_nil_of_length_eq_zero none_read,List.append_nil,List.drop_zero] at parsed
    rcases contract.truncated asked with ⟨error,failed⟩ | ⟨_,_,_,parsed',last⟩
    · rw [failed] at parsed
      cases parsed
    · rw [parsed'] at parsed
      cases parsed
      exact last
  · dsimp only
    cases none_read : (t.stream.read hint).1.length with
    | zero => exact .inr ⟨by omega,open_,rfl⟩
    | succ count => exact .inl (by omega)

theorem plain_both {α : Type} {x y : Parse (α × ModuleReader F V R)}
    (same : x.map ModuleReader.plainPair = y.map ModuleReader.plainPair) :
    (∃ stop, x = .error stop ∧ y = .error stop) ∨
    ∃ a q q', x = .ok (a,q) ∧ y = .ok (a,q') ∧ q.plain = q'.plain := by
  cases x with
  | error stop =>
    cases y with
    | error stop' => cases same; exact .inl ⟨stop,rfl,rfl⟩
    | ok result => cases same
  | ok result =>
    cases y with
    | error stop => cases same
    | ok result' =>
      obtain ⟨a,q⟩ := result
      obtain ⟨a',q'⟩ := result'
      obtain ⟨rfl,plains⟩ := Prod.mk.inj (Except.ok.inj same)
      exact .inr ⟨a,q,q',rfl,rfl,plains⟩

section Steps
variable {n : Nat} {payload : Payload} {next : S} {w : Option W} {r : ModuleReader F V R}

theorem streamStep_refused {stop : Stop}
    (parsed : g.wasmparser.parse t.parser (t.buffer.drop t.bufferOffset) t.eof = .ok (.parsed n payload next))
    (refused : g.streamPayload threads t.validator t.reader payload = .error stop) :
    g.streamStep threads t = .error stop := by
  unfold streamStep
  rw [parsed]
  dsimp only
  rw [refused]
  rfl

theorem streamStep_goes
    (parsed : g.wasmparser.parse t.parser (t.buffer.drop t.bufferOffset) t.eof = .ok (.parsed n payload next))
    (took : g.streamPayload threads t.validator t.reader payload = .ok (none,w,r)) (running : r.endReached = false)
    (open_ : t.eof = false) :
    g.streamStep threads t = .ok (.inl ⟨next,t.buffer,t.bufferOffset + n,false,w,r,t.stream⟩) := by
  unfold streamStep
  rw [parsed]
  dsimp only
  rw [took]
  simp only [bind,Except.bind,running,open_,Bool.false_eq_true,if_false,Bool.or_self]

theorem streamStep_ends
    (parsed : g.wasmparser.parse t.parser (t.buffer.drop t.bufferOffset) t.eof = .ok (.parsed n payload next))
    (took : g.streamPayload threads t.validator t.reader payload = .ok (none,w,r)) (ended : r.endReached = true)
    (closed : t.eof = true) (used : t.bufferOffset + n = t.buffer.length) :
    g.streamStep threads t = (g.finish threads r).map .inr := by
  unfold streamStep
  rw [parsed]
  dsimp only
  rw [took]
  simp only [bind,Except.bind,ended,closed,used,ne_eq,not_true,if_true,if_false,Bool.or_self]
  cases g.finish threads r <;> rfl

theorem streamStep_defers {count bodyOffset size : Nat}
    (parsed : g.wasmparser.parse t.parser (t.buffer.drop t.bufferOffset) t.eof = .ok (.parsed n payload next))
    (took : g.streamPayload threads t.validator t.reader payload = .ok (some (count,bodyOffset,size),w,r)) :
    g.streamStep threads t = (do
      let (buffer,stream) ← fillSection bodyOffset size (t.bufferOffset + n) t.buffer t.stream
      let (validator,reader) ← r.queueOwnedCodeSection g.wasmparser.readReader g.validation
        (slice buffer (t.bufferOffset + n) size) bodyOffset count 0 w
      .ok (.inl ⟨g.wasmparser.skipSection next,buffer,t.bufferOffset + n + size,t.eof,validator,reader,stream⟩)) := by
  unfold streamStep
  rw [parsed]
  dsimp only
  rw [took]
  rfl

theorem Aligned.open_ (aligned : Aligned g Outside InCode b t)
    (parsed : g.wasmparser.parse t.parser (t.buffer.drop t.bufferOffset) t.eof = .ok (.parsed n payload next))
    (inner : isEnd payload = false) : t.eof = false := by
  cases eof : t.eof with
  | false => rfl
  | true =>
    have last := (aligned.closed eof).2 n payload next (eof ▸ parsed)
    rw [inner] at last
    cases last

variable (contract : ParserContract g.wasmparser Outside InCode) (aligned : Aligned g Outside InCode b t)
include contract aligned

theorem Aligned.consumed
    (parsed : g.wasmparser.parse t.parser (t.buffer.drop t.bufferOffset) t.eof = .ok (.parsed n payload next)) :
    t.bufferOffset + n ≤ t.buffer.length ∧
      b.data.drop n = t.buffer.drop (t.bufferOffset + n) ++ t.stream.unread := by
  have taken := contract.consumed_le parsed
  rw [aligned.data,List.drop_append_of_le_length taken,List.drop_drop]
  rw [List.length_drop] at taken
  have := aligned.placed
  exact ⟨by omega,rfl⟩

theorem Aligned.less
    (parsed : g.wasmparser.parse t.parser (t.buffer.drop t.bufferOffset) t.eof = .ok (.parsed n payload next))
    (inner : isEnd payload = false) : (b.data.drop n).length < b.data.length := by
  have whole := aligned.parsed_whole contract parsed
  have taken := contract.consumed_le whole
  have some_ := contract.advances whole inner
  rw [List.length_drop]
  omega

theorem Aligned.goes {q : ModuleReader F V R}
    (parsed : g.wasmparser.parse t.parser (t.buffer.drop t.bufferOffset) t.eof = .ok (.parsed n payload next))
    (inner : isEnd payload = false) (whole : g.borrowedPayload threads b.validator b.reader payload = .ok (w,q))
    (took : g.streamPayload threads' t.validator t.reader payload = .ok (none,w,r)) (alike : q.plain = r.plain)
    (running : r.endReached = false) (fresh : r.hasCodeSection = false → r.pendingFunctions = none)
    (place : Place Outside InCode next r) : Moves g threads threads' Outside InCode b t := by
  obtain ⟨placed,data⟩ := aligned.consumed contract parsed
  have step : g.bytesStep threads b = .ok (.inl ⟨next,b.data.drop n,w,q⟩) := by
    rw [bytesStep_parsed (aligned.parsed_whole contract parsed),whole]
    simp only [bind,Except.bind,inner,Bool.false_eq_true,if_false]
  exact .goes (.step step (.refl _ _)) (streamStep_goes parsed took running (aligned.open_ parsed inner))
    ⟨rfl,place,data,placed,rfl,alike,running,fresh,nofun⟩ (aligned.less contract parsed inner)

theorem Aligned.refused {stop : Stop}
    (parsed : g.wasmparser.parse t.parser (t.buffer.drop t.bufferOffset) t.eof = .ok (.parsed n payload next))
    (whole : g.borrowedPayload threads b.validator b.reader payload = .error stop)
    (refused : g.streamPayload threads' t.validator t.reader payload = .error stop) :
    Moves g threads threads' Outside InCode b t := by
  have step : g.bytesStep threads b = .error stop := by
    rw [bytesStep_parsed (aligned.parsed_whole contract parsed),whole]
    rfl
  exact .ends (.stop step) (.stop (streamStep_refused parsed refused)) (.inl rfl)

theorem Aligned.ends (irrelevant : ∀ m, (g.lowering m).AllocsIrrelevant) {q : ModuleReader F V R}
    (parsed : g.wasmparser.parse t.parser (t.buffer.drop t.bufferOffset) t.eof = .ok (.parsed n payload next))
    (last : isEnd payload = true) (whole : g.borrowedPayload threads b.validator b.reader payload = .ok (w,q))
    (took : g.streamPayload threads' t.validator t.reader payload = .ok (none,w,r)) (alike : q.plain = r.plain)
    (ended : r.endReached = true) : Moves g threads threads' Outside InCode b t := by
  obtain ⟨closed,nothing⟩ := contract.end_empty parsed last
  have taken := contract.consumed_le parsed
  have short : t.buffer.length ≤ t.bufferOffset := List.drop_eq_nil_iff.mp nothing
  have used : t.bufferOffset + n = t.buffer.length := by
    have := aligned.placed
    rw [nothing,List.length_nil] at taken
    omega
  have step : g.bytesStep threads b = .ok (.inr q) := by
    rw [bytesStep_parsed (aligned.parsed_whole contract parsed),whole]
    simp only [bind,Except.bind,last,if_true]
  have finishes := streamStep_ends parsed took ended closed used
  have reached : q.endReached = true := (congrArg ModuleReader.endReached alike).trans ended
  have answers : g.answer threads (.ok q) = g.finish threads' r := by
    rw [← finish_congr irrelevant threads threads' alike]
    simp only [answer,bind,Except.bind,reached,if_true]
  have stream_ends : Loop.Ends (g.streamStep threads') t (g.finish threads' r) := by
    cases done : g.finish threads' r with
    | error stop => rw [done] at finishes; exact .stop finishes
    | ok m => rw [done] at finishes; exact .leave finishes
  exact .ends (.leave step) stream_ends (.inl answers)

theorem Aligned.other (irrelevant : ∀ m, (g.lowering m).AllocsIrrelevant)
    (parsed : g.wasmparser.parse t.parser (t.buffer.drop t.bufferOffset) t.eof = .ok (.parsed n payload next))
    (plain : isCode payload = false) (outside : Outside next) : Moves g threads threads' Outside InCode b t := by
  have whole : g.borrowedPayload threads b.validator b.reader payload =
      b.reader.processPayload g.validation t.validator payload := by
    rw [borrowedPayload_other plain,aligned.validator]
  have streamed : g.streamPayload threads' t.validator t.reader payload = _ := streamPayload_other plain
  have both : (b.reader.processPayload g.validation t.validator payload).map ModuleReader.plainPair =
      (t.reader.processPayload g.validation t.validator payload).map ModuleReader.plainPair := by
    rw [← ModuleReader.processPayload_plain,← ModuleReader.processPayload_plain,aligned.reader]
  rcases plain_both both with ⟨stop,refused,refused'⟩ | ⟨w,q,q',took,took',alike⟩
  · rw [refused] at whole
    rw [refused'] at streamed
    exact aligned.refused contract parsed whole streamed
  · rw [took] at whole
    rw [took'] at streamed
    cases last : isEnd payload with
    | true =>
      exact aligned.ends contract irrelevant parsed last whole streamed alike
        (ModuleReader.processPayload_ends last took')
    | false =>
      obtain ⟨running,coded,pending⟩ := ModuleReader.processPayload_continues last took'
      refine aligned.goes contract parsed last whole streamed alike (running.trans aligned.running) ?_ (.inl outside)
      rw [coded,pending]
      exact aligned.fresh

theorem Aligned.entry {function : FunctionBody} {count size offset : Nat}
    (parsed : g.wasmparser.parse t.parser (t.buffer.drop t.bufferOffset) t.eof =
      .ok (.parsed n (.codeSectionEntry function) next))
    (inline : t.reader.pendingFunctions = none) (inside : InCode next count size offset) :
    Moves g threads threads' Outside InCode b t := by
  have inline' : b.reader.pendingFunctions.isSome = false := by
    rw [← ModuleReader.plain_pending,aligned.reader,ModuleReader.plain_pending,inline]
    rfl
  have whole : g.borrowedPayload threads b.validator b.reader (.codeSectionEntry function) =
      b.reader.processInlineCodeSectionEntry g.lowering g.validation t.validator g.options function := by
    rw [← aligned.validator]
    simp only [borrowedPayload,ModuleReader.processBorrowedCodeSectionEntry,inline',Bool.false_eq_true,if_false]
  have both : (b.reader.processInlineCodeSectionEntry g.lowering g.validation t.validator g.options function).map
      ModuleReader.plainPair =
      (t.reader.processInlineCodeSectionEntry g.lowering g.validation t.validator g.options function).map
        ModuleReader.plainPair := by
    rw [← ModuleReader.processInline_plain,← ModuleReader.processInline_plain,aligned.reader]
  have streamed : g.streamPayload threads' t.validator t.reader (.codeSectionEntry function) = (do
      let (validator,reader) ←
        t.reader.processInlineCodeSectionEntry g.lowering g.validation t.validator g.options function
      .ok (none,validator,reader)) := rfl
  rcases plain_both both with ⟨stop,refused,refused'⟩ | ⟨w,q,q',took,took',alike⟩
  · rw [refused] at whole
    rw [refused'] at streamed
    exact aligned.refused contract parsed whole streamed
  · rw [took] at whole
    rw [took'] at streamed
    obtain ⟨running,coded,pending⟩ := ModuleReader.processInline_continues took'
    refine aligned.goes contract parsed rfl whole streamed alike (running.trans aligned.running) ?_
      (.inr ⟨pending.trans inline,count,size,offset,inside⟩)
    rw [coded,pending]
    exact aligned.fresh

-- The section is collected, split and skipped in one step of the stream parser.
theorem Aligned.defers {count size : Nat} {range : Nat × Nat} {q : ModuleReader F V R}
    (parsed : g.wasmparser.parse t.parser (t.buffer.drop t.bufferOffset) t.eof =
      .ok (.parsed n (.codeSectionStart count range size) next))
    (inside : InCode next count size (range.2 - size))
    (whole : g.borrowedPayload threads b.validator b.reader (.codeSectionStart count range size) = .ok (w,q))
    (took : g.streamPayload threads' t.validator t.reader (.codeSectionStart count range size) =
      .ok (some (count,range.2 - size,size),w,r))
    (alike : q.plain = r.plain) (pending : r.pendingFunctions = some []) (coded : r.hasCodeSection = true)
    (running : r.endReached = false) : Moves g threads threads' Outside InCode b t := by
  obtain ⟨placed,data⟩ := aligned.consumed contract parsed
  have step : g.bytesStep threads b = .ok (.inl ⟨next,b.data.drop n,w,q⟩) := by
    rw [bytesStep_parsed (aligned.parsed_whole contract parsed),whole]
    rfl
  have deferred : q.pendingFunctions.isSome = true := by
    rw [← ModuleReader.plain_pending,alike,ModuleReader.plain_pending,pending]
    rfl
  have defers := streamStep_defers parsed took
  rcases fillSection_exact (range.2 - size) size (t.bufferOffset + n) t.buffer t.stream placed with
    ⟨error,ended,short⟩ | ⟨buffer,stream,filled,enough,same⟩
  · rw [← data] at short
    rw [ended] at defers
    obtain ⟨error',rest⟩ := truncated_section (s := ⟨next,b.data.drop n,w,q⟩) contract inside short deferred
    exact .both_fail ⟨error',.again step rest⟩ defers
  · rw [filled] at defers
    rw [← same] at data
    have held : size ≤ (buffer.drop (t.bufferOffset + n)).length := by
      rw [List.length_drop]
      omega
    have covered : size ≤ (b.data.drop n).length := by
      rw [data,List.length_append]
      exact Nat.le_trans held (Nat.le_add_right _ _)
    have cut : slice buffer (t.bufferOffset + n) size = (b.data.drop n).take size := by
      rw [data,List.take_append_of_le_length held,slice]
    have queues := deferred_section contract threads ⟨next,b.data.drop n,w,q⟩ (slice buffer (t.bufferOffset + n) size)
      (range.2 - size) 0 inside covered
      ((Nat.zero_add size).trans (slice_length enough).symm) cut deferred alike
    dsimp only [bind,Except.bind] at queues defers
    split at queues
    · rename_i stop refused
      obtain ⟨⟨error,rfl⟩,error',rest⟩ := queues
      rw [refused] at defers
      exact .both_fail ⟨error',.again step rest⟩ defers
    · rename_i validator reader done
      obtain ⟨last,q',offset,leads,alike',inside',skips,ended,code⟩ := queues
      rw [done] at defers
      obtain ⟨same_parse,outside⟩ := contract.section_ends inside'
      rw [skips] at same_parse outside
      have left : (b.data.drop n).drop size = buffer.drop (t.bufferOffset + n + size) ++ stream.unread := by
        rw [data,List.drop_append_of_le_length held,List.drop_drop]
      have less := aligned.less contract parsed rfl
      refine .goes (.step step leads) defers ⟨same_parse,.inl outside,left,enough,rfl,alike',ended.trans running,
        fun without => ?_,fun eof => ?_⟩ ?_
      · rw [code.trans coded] at without
        cases without
      · rw [aligned.open_ parsed rfl] at eof
        cases eof
      · dsimp only
        rw [List.length_drop]
        exact Nat.lt_of_le_of_lt (Nat.sub_le _ _) less

theorem Aligned.start (host : threads'.available = threads.available) {count size : Nat} {range : Nat × Nat}
    (parsed : g.wasmparser.parse t.parser (t.buffer.drop t.bufferOffset) t.eof =
      .ok (.parsed n (.codeSectionStart count range size) next))
    (inside : InCode next count size (range.2 - size)) : Moves g threads threads' Outside InCode b t := by
  have whole : g.borrowedPayload threads b.validator b.reader (.codeSectionStart count range size) =
      (b.reader.beginCodeSection g.validation t.validator g.options threads'.available count range size >>=
        fun begun => .ok begun.2) := by
    rw [← aligned.validator,host]
    rfl
  have streamed : g.streamPayload threads' t.validator t.reader (.codeSectionStart count range size) =
      (t.reader.beginCodeSection g.validation t.validator g.options threads'.available count range size >>=
        fun begun => .ok (if begun.1 then some (count,range.2 - size,size) else none,begun.2)) := rfl
  rcases ModuleReader.beginCodeSection_both aligned.reader g.validation t.validator g.options threads'.available count
    range size with ⟨stop,refused,refused'⟩ | ⟨defer,w,q,q',begun,begun',alike⟩
  · rw [refused] at whole
    rw [refused'] at streamed
    exact aligned.refused contract parsed whole streamed
  · rw [begun] at whole
    rw [begun'] at streamed
    obtain ⟨first,coded,running,pending⟩ := ModuleReader.beginCodeSection_continues begun'
    have stays : q'.hasCodeSection = false → q'.pendingFunctions = none := fun without => by
      rw [coded] at without
      cases without
    cases defer with
    | false =>
      exact aligned.goes contract parsed rfl whole streamed alike (running.trans aligned.running) stays
        (.inr ⟨pending.trans (aligned.fresh first),count,size,_,inside⟩)
    | true => exact aligned.defers contract parsed inside whole streamed alike pending coded (running.trans aligned.running)

end Steps

end Parser

end TinyWasm
