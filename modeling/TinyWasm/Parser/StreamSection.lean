import TinyWasm.Parser.StreamContract

namespace TinyWasm
open ListRange

theorem Stream.read_whole (stream : Stream) (space : Nat) :
    (stream.read space).1 ++ (stream.read space).2.unread = stream.unread :=
  List.take_append_drop _ _

theorem Stream.read_length (stream : Stream) (space : Nat) :
    (stream.read space).1.length + (stream.read space).2.unread.length = stream.unread.length := by
  rw [← List.length_append,read_whole]

theorem Stream.read_empty {stream : Stream} {space : Nat} (asked : 0 < space)
    (ended : (stream.read space).1.length = 0) : stream.unread = [] := by
  simp only [read,List.length_take] at ended
  exact List.eq_nil_of_length_eq_zero (by omega)

namespace Parser
variable {S W F V R : Type}

-- The bytes of a deferred section are collected unless the reader runs out.
theorem fillSection_exact (bodyOffset size offset : Nat) (buffer : List Byte) (stream : Stream)
    (placed : offset ≤ buffer.length) :
    (∃ error, fillSection bodyOffset size offset buffer stream = .error (.failed error) ∧
      (buffer.drop offset ++ stream.unread).length < size) ∨
    ∃ buffer' stream', fillSection bodyOffset size offset buffer stream = .ok (buffer',stream') ∧
      offset + size ≤ buffer'.length ∧ buffer'.drop offset ++ stream'.unread = buffer.drop offset ++ stream.unread := by
  fun_induction fillSection bodyOffset size offset buffer stream with
  | case1 buffer stream short remaining ended =>
    refine .inl ⟨_,rfl,?_⟩
    rw [Stream.read_empty (Nat.sub_pos_of_lt short) ended,List.append_nil,List.length_drop]
    exact short
  | case2 buffer stream short remaining more ih =>
    have grown : (buffer ++ (stream.read remaining).1).drop offset ++ (stream.read remaining).2.unread =
        buffer.drop offset ++ stream.unread := by
      rw [List.drop_append_of_le_length placed,List.append_assoc,Stream.read_whole]
    rw [grown] at ih
    exact ih (Nat.le_trans placed (List.length_append ▸ Nat.le_add_right _ _))
  | case3 buffer stream enough =>
    exact .inr ⟨buffer,stream,rfl,by omega,rfl⟩

variable {g : Parser S W F V R} {threads : Threads F V R} {s : BytesState S W F V R}

def Rejects (g : Parser S W F V R) (threads : Threads F V R) (s : BytesState S W F V R) : Prop :=
  ∃ error, Loop.Ends (g.bytesStep threads) s (.error (.failed error))

theorem bytesStep_failed {error : ParseError} (failed : g.wasmparser.parse s.parser s.data true = .error error) :
    Rejects g threads s := by
  refine ⟨error,.stop ?_⟩
  unfold bytesStep
  rw [failed]
  rfl

theorem bytesStep_parsed {n : Nat} {payload : Payload} {next : S}
    (parsed : g.wasmparser.parse s.parser s.data true = .ok (.parsed n payload next)) :
    g.bytesStep threads s = (do
      let (validator,reader) ← g.borrowedPayload threads s.validator s.reader payload
      if isEnd payload then .ok (.inr reader) else .ok (.inl ⟨next,s.data.drop n,validator,reader⟩)) := by
  unfold bytesStep
  rw [parsed]

-- A body of a deferred section is validated and queued.
theorem bytesStep_queued {n : Nat} {function : FunctionBody} {next : S}
    (deferred : s.reader.pendingFunctions.isSome = true)
    (parsed : g.wasmparser.parse s.parser s.data true = .ok (.parsed n (.codeSectionEntry function) next)) :
    g.bytesStep threads s = (do
      let (func,validator) ← ModuleReader.validateEntry g.validation s.validator function
      let reader ← s.reader.queueFunction (.borrowed function) func
      .ok (.inl ⟨next,s.data.drop n,validator,reader⟩)) := by
  rw [bytesStep_parsed parsed]
  simp only [borrowedPayload,ModuleReader.processBorrowedCodeSectionEntry,if_pos deferred,isEnd]
  cases ModuleReader.validateEntry g.validation s.validator function with
  | error stop => rfl
  | ok entry =>
    dsimp only [bind,Except.bind]
    cases s.reader.queueFunction (.borrowed function) entry.1 <;> rfl

variable {Outside : S → Prop} {InCode : S → Nat → Nat → Nat → Prop}

-- Bodies never make up for a section that is longer than the data.
theorem truncated_section (contract : ParserContract g.wasmparser Outside InCode) {count size offset : Nat}
    (inside : InCode s.parser count size offset) (short : s.data.length < size)
    (deferred : s.reader.pendingFunctions.isSome = true) : Rejects g threads s := by
  induction count generalizing s size offset with
  | zero =>
    obtain ⟨error,failed⟩ := contract.trailing inside (Nat.zero_lt_of_lt short) s.data true
    exact bytesStep_failed failed
  | succ count ih =>
    cases chunk : g.wasmparser.parse s.parser s.data true with
    | error error => exact bytesStep_failed chunk
    | ok answer =>
      cases answer with
      | needMoreData hint => exact absurd chunk contract.told
      | parsed n payload next =>
        obtain ⟨_,inside',_,function,rfl⟩ := contract.entry_parsed inside chunk
        have step : g.bytesStep threads s = _ := bytesStep_queued deferred chunk
        cases entry : ModuleReader.validateEntry g.validation s.validator function with
        | error stop =>
          obtain ⟨error,rfl⟩ := ModuleReader.validateEntry_error entry
          rw [entry] at step
          exact ⟨error,.stop step⟩
        | ok validated =>
          rw [entry] at step
          dsimp only [bind,Except.bind] at step
          cases queued : s.reader.queueFunction (.borrowed function) validated.1 with
          | error stop =>
            obtain ⟨error,rfl⟩ := ModuleReader.queueFunction_error queued
            rw [queued] at step
            exact ⟨error,.stop step⟩
          | ok reader =>
            rw [queued] at step
            have taken := contract.consumed_le chunk
            have left : (s.data.drop n).length < size - n := by
              rw [List.length_drop]
              exact Nat.sub_lt_sub_right taken short
            obtain ⟨error,ends⟩ := ih (s := ⟨next,s.data.drop n,validated.2,reader⟩) inside' left
              (ModuleReader.queueFunction_ok queued).1
            exact ⟨error,.again step ends⟩

theorem owned_body {p : IncrementalParser S} (contract : ParserContract p Outside InCode) {section_ : List Byte}
    {bodyOffset position n : Nat} {function : FunctionBody}
    (read : p.readReader (section_.drop position) (bodyOffset + position) = .ok (function,n)) :
    Parallel.functionBody (.owned section_ (function.offset - bodyOffset) function.bytes.length function.offset) =
      function := by
  obtain ⟨_,fits,ends,cut⟩ := contract.body_placed read
  have start : function.offset - bodyOffset = position + (n - function.bytes.length) := by omega
  have moved : slice section_ (position + (n - function.bytes.length)) function.bytes.length =
      slice (section_.drop position) (n - function.bytes.length) function.bytes.length := by
    rw [slice,slice,List.drop_drop]
  simp only [Parallel.functionBody]
  rw [start,moved,← cut]

-- What is queued ahead of the parser is what its own payloads would queue.
theorem deferred_section (contract : ParserContract g.wasmparser Outside InCode) (threads : Threads F V R)
    (s : BytesState S W F V R) (section_ : List Byte) (bodyOffset position : Nat) {count size : Nat}
    {reader : ModuleReader F V R}
    (inside : InCode s.parser count size (bodyOffset + position)) (whole : size ≤ s.data.length)
    (placed : position + size = section_.length) (rest : section_.drop position = s.data.take size)
    (deferred : s.reader.pendingFunctions.isSome = true) (alike : s.reader.plain = reader.plain) :
    match reader.queueOwnedCodeSection g.wasmparser.readReader g.validation section_ bodyOffset count position
      s.validator with
    | .error stop => (∃ error, stop = .failed error) ∧ Rejects g threads s
    | .ok (validator,reader') => ∃ last r offset,
        Loop.Leads (g.bytesStep threads) s ⟨last,s.data.drop size,validator,r⟩ ∧ r.plain = reader'.plain ∧
        InCode last 0 0 offset ∧ g.wasmparser.skipSection last = g.wasmparser.skipSection s.parser ∧
        reader'.endReached = reader.endReached ∧ reader'.hasCodeSection = reader.hasCodeSection := by
  induction count generalizing s size position reader with
  | zero =>
    unfold ModuleReader.queueOwnedCodeSection
    by_cases left : position < section_.length
    · rw [if_pos left]
      obtain ⟨error,failed⟩ := contract.trailing inside (by omega) s.data true
      exact ⟨⟨_,rfl⟩,bytesStep_failed failed⟩
    · rw [if_neg left]
      obtain rfl : size = 0 := by omega
      exact ⟨s.parser,s.reader,_,.refl _ _,alike,inside,rfl,rfl,rfl⟩
  | succ count ih =>
    unfold ModuleReader.queueOwnedCodeSection
    rw [rest]
    cases read : g.wasmparser.readReader (s.data.take size) (bodyOffset + position) with
    | error error =>
      obtain ⟨error',failed⟩ := contract.entry_failed inside whole read
      exact ⟨⟨error,rfl⟩,bytesStep_failed failed⟩
    | ok result =>
      obtain ⟨function,n⟩ := result
      obtain ⟨next,parsed⟩ := contract.entry_read inside whole read
      obtain ⟨within,inside',skips,_⟩ := contract.entry_parsed inside parsed
      have step : g.bytesStep threads s = _ := bytesStep_queued deferred parsed
      dsimp only [Parse.of,bind,Except.bind] at step ⊢
      cases entry : ModuleReader.validateEntry g.validation s.validator function with
      | error stop =>
        obtain ⟨error,rfl⟩ := ModuleReader.validateEntry_error entry
        rw [entry] at step
        exact ⟨⟨error,rfl⟩,error,.stop step⟩
      | ok validated =>
        obtain ⟨func,validator⟩ := validated
        rw [entry] at step
        dsimp only at step ⊢
        have body := owned_body contract (rest ▸ read)
        rcases ModuleReader.queueFunction_both alike (.borrowed function) _ body.symm func with
          ⟨error,error',refused,refused'⟩ | ⟨r,reader',queued,queued',alike'⟩
        · rw [refused] at step
          rw [refused']
          exact ⟨⟨error',rfl⟩,error,.stop step⟩
        · rw [queued] at step
          rw [queued']
          obtain ⟨_,ended,coded⟩ := ModuleReader.queueFunction_ok queued'
          have left : size - n ≤ (s.data.drop n).length := by
            rw [List.length_drop]
            exact Nat.sub_le_sub_right whole n
          have cut : section_.drop (position + n) = (s.data.drop n).take (size - n) := by
            rw [← List.drop_drop,rest,List.drop_take]
          have later := ih ⟨next,s.data.drop n,validator,r⟩ (position + n) (Nat.add_assoc _ _ _ ▸ inside') left (by omega) cut
            (ModuleReader.queueFunction_ok queued).1 alike'
          dsimp only at later ⊢
          split at later
          · obtain ⟨failed,error,ends⟩ := later
            exact ⟨failed,error,.again step ends⟩
          · obtain ⟨last,r',offset,leads,alike'',inside'',skips',ended',coded'⟩ := later
            rw [List.drop_drop,Nat.add_sub_of_le within] at leads
            exact ⟨last,r',offset,.step step leads,alike'',inside'',skips'.trans skips,ended'.trans ended,
              coded'.trans coded⟩

end Parser

end TinyWasm
