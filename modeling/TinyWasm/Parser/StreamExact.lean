import TinyWasm.Parser.StreamWhole
import TinyWasm.Parser.Resolved

namespace TinyWasm
namespace Parser
variable {S W F V R : Type} {g : Parser S W F V R} {Outside : S → Prop} {InCode : S → Nat → Nat → Nat → Prop}
variable {threads threads' : Threads F V R} {b : BytesState S W F V R} {t : StreamState S W F V R}

theorem Aligned.moves (contract : ParserContract g.wasmparser Outside InCode)
    (irrelevant : ∀ m, (g.lowering m).AllocsIrrelevant) (host : threads'.available = threads.available)
    (aligned : Aligned g Outside InCode b t) : Moves g threads threads' Outside InCode b t := by
  cases chunk : g.wasmparser.parse t.parser (t.buffer.drop t.bufferOffset) t.eof with
  | error error =>
    obtain ⟨error',failed⟩ := aligned.failed_whole contract chunk
    have stops : g.streamStep threads' t = .error (.failed error) := by
      unfold streamStep
      rw [chunk]
      rfl
    exact .both_fail (bytesStep_failed failed) stops
  | ok answer =>
    cases answer with
    | needMoreData hint => exact aligned.reads contract chunk
    | parsed n payload next =>
      cases place_followed contract aligned.place chunk with
      | start inside => exact aligned.start contract host chunk inside
      | entry inline inside => exact aligned.entry contract chunk inline inside
      | other plain outside => exact aligned.other contract irrelevant chunk plain outside

-- Each step of the stream parser takes data away, or bytes from the reader, or
-- is the one that learns that there are no more.
theorem Aligned.both_end (contract : ParserContract g.wasmparser Outside InCode)
    (irrelevant : ∀ m, (g.lowering m).AllocsIrrelevant) (host : threads'.available = threads.available)
    {b : BytesState S W F V R} {t : StreamState S W F V R} (aligned : Aligned g Outside InCode b t) :
    ∃ whole streamed, Loop.Ends (g.bytesStep threads) b whole ∧ Loop.Ends (g.streamStep threads') t streamed ∧
      Alike (g.answer threads whole) streamed := by
  cases aligned.moves contract irrelevant host with
  | @reads t' went aligned' more =>
    obtain ⟨whole,streamed,whole_ends,stream_ends,alike⟩ := both_end contract irrelevant host aligned'
    exact ⟨whole,streamed,whole_ends,.again went stream_ends,alike⟩
  | @goes b' t' leads went aligned' less =>
    obtain ⟨whole,streamed,whole_ends,stream_ends,alike⟩ := both_end contract irrelevant host aligned'
    exact ⟨whole,streamed,leads _ whole_ends,.again went stream_ends,alike⟩
  | ends whole_ends stream_ends alike => exact ⟨_,_,whole_ends,stream_ends,alike⟩
termination_by (b.data.length,t.stream.unread.length,if t.eof then 0 else 1)
decreasing_by
  · apply Prod.Lex.right
    rcases more with fewer | ⟨same,open_,closed⟩
    · exact Prod.Lex.left _ _ fewer
    · rw [same,open_,closed]
      exact Prod.Lex.right _ Nat.zero_lt_one
  · exact Prod.Lex.left _ _ less

theorem aligned_initial (contract : ParserContract g.wasmparser Outside InCode) (wasm : List Byte) (sizes : Nat → Nat) :
    Aligned g Outside InCode ⟨g.wasmparser.new,wasm,g.validator,.default⟩
      ⟨g.wasmparser.new,[],0,false,g.validator,.default,⟨wasm,sizes,0⟩⟩ where
  parser := rfl
  place := .inl contract.begins
  data := rfl
  placed := Nat.le_refl 0
  validator := rfl
  reader := rfl
  running := rfl
  fresh _ := rfl
  closed := nofun

theorem answer_reports (contract : ParserContract g.wasmparser Outside InCode) {wasm : List Byte}
    {whole : Parse (ModuleReader F V R)}
    (ends : Loop.Ends (g.bytesStep threads) ⟨g.wasmparser.new,wasm,g.validator,.default⟩ whole) :
    Reports (fun _ => True) (g.answer threads whole) := by
  have initial : (ModuleReader.default : ModuleReader F V R).Resolved := ⟨rfl,nofun⟩
  refine (ends.holds (fun _ resolved => bytesStep_reports contract threads resolved) initial).bind fun reader kept => ?_
  split
  · exact finish_reports kept threads
  · trivial

-- The same module, or two errors.
inductive Agree : Parse Module → Parse Module → Prop where
  | parsed (m : Module) : Agree (.ok m) (.ok m)
  | rejected (error error' : ParseError) : Agree (.error (.failed error)) (.error (.failed error'))

theorem Alike.agree {whole streamed : Parse Module} (alike : Alike whole streamed)
    (reports : Reports (fun _ => True) whole) : Agree whole streamed := by
  rcases alike with rfl | ⟨error,error',rfl,rfl⟩
  · cases whole with
    | ok m => exact .parsed m
    | error stop =>
      cases stop with
      | failed error => exact .rejected error error
      | aborted _ => cases reports
  · exact .rejected error error'

end Parser

-- Threads that share no allocations.
def Threads.unshared {F : Type} (available : Option Nat) : Threads F Unit Unit where
  available := available
  process := Parallel.processChunk
  runs ctx pending := by
    have irrelevant : ctx.lowering.AllocsIrrelevant := ⟨fun _ _ _ _ _ _ _ => rfl⟩
    by_cases single : Parallel.workerCount ctx.options available pending.length = 1
    · exact .serial single
    · have initial : Parallel.Reached ctx
          (Parallel.chunkBytes pending (Parallel.workerCount ctx.options available pending.length)) pending
          ⟨.spawning pending,[]⟩ := .start
      obtain ⟨p,result,reached,returned⟩ := Parallel.returns irrelevant initial
      have same := (Parallel.reached_sound irrelevant reached).main
      rw [returned] at same
      rw [Parallel.processChunk_eq irrelevant,← show result = _ from same]
      exact .parallel single reached returned

-- A module of a header and nothing else, as wasmparser sees it.
def magic : List Byte := [0,0x61,0x73,0x6d,1,0,0,0]

def headerOnly : IncrementalParser Bool where
  new := false
  parse headed bytes eof :=
    if headed then
      if bytes = [] then
        if eof then .ok (.parsed 0 (.end_ 8) true) else .ok (.needMoreData 1)
      else .error (.unsupportedSection "section")
    else if bytes.length < 8 then
      if eof then .error (.parseError "unexpected end-of-file" 0) else .ok (.needMoreData (8 - bytes.length))
    else if bytes.take 8 = magic then .ok (.parsed 8 (.version 1 .module (0,8)) true)
    else .error (.parseError "magic header not detected" 0)
  skipSection headed := headed
  readReader _ offset := .error (.parseError "unexpected end-of-file" offset)

theorem headerOnly_parsed {s t : Bool} {bytes : List Byte} {eof : Bool} {n : Nat} {payload : Payload}
    (parsed : headerOnly.parse s bytes eof = .ok (.parsed n payload t)) :
    (s = true ∧ bytes = [] ∧ eof = true ∧ n = 0 ∧ payload = .end_ 8 ∧ t = true) ∨
    (s = false ∧ 8 ≤ bytes.length ∧ bytes.take 8 = magic ∧ n = 8 ∧ payload = .version 1 .module (0,8) ∧ t = true) := by
  simp only [headerOnly] at parsed
  split at parsed
  · split at parsed
    · split at parsed
      · cases parsed; exact .inl ⟨‹_›,‹_›,‹_›,rfl,rfl,rfl⟩
      · cases parsed
    · cases parsed
  · rename_i unread
    split at parsed
    · split at parsed <;> cases parsed
    · rename_i long
      split at parsed
      · cases parsed; exact .inr ⟨Bool.eq_false_iff.mpr unread,Nat.le_of_not_lt long,‹_›,rfl,rfl,rfl⟩
      · cases parsed

theorem headerOnly_asked {s : Bool} {bytes : List Byte} {eof : Bool} {hint : Nat}
    (asked : headerOnly.parse s bytes eof = .ok (.needMoreData hint)) :
    eof = false ∧ 0 < hint ∧ ((s = true ∧ bytes = []) ∨ (s = false ∧ bytes.length < 8)) := by
  simp only [headerOnly] at asked
  split at asked
  · split at asked
    · split at asked
      · cases asked
      · cases asked; exact ⟨Bool.eq_false_iff.mpr ‹_›,Nat.one_pos,.inl ⟨‹_›,‹_›⟩⟩
    · cases asked
  · rename_i unread
    split at asked
    · rename_i short
      split at asked
      · cases asked
      · cases asked; exact ⟨Bool.eq_false_iff.mpr ‹_›,Nat.sub_pos_of_lt short,.inr ⟨Bool.eq_false_iff.mpr unread,short⟩⟩
    · split at asked <;> cases asked

theorem headerOnly_contract : ParserContract headerOnly (fun _ => True) (fun _ _ _ _ => False) where
  begins := trivial
  parsed_extends parsed more eof := by
    rcases headerOnly_parsed parsed with ⟨_,_,ended,_⟩ | ⟨rfl,long,header,rfl,rfl,rfl⟩
    · cases ended
    · have longer : ¬(_ ++ more).length < 8 := Nat.not_lt.mpr (List.length_append ▸ Nat.le_add_right_of_le long)
      simp only [headerOnly,Bool.false_eq_true,if_false,longer,List.take_append_of_le_length long,header,if_true]
  failed_extends {s bytes error} failed more eof := by
    cases s with
    | true =>
      cases bytes with
      | nil => cases failed
      | cons byte bytes => exact ⟨_,rfl⟩
    | false =>
      simp only [headerOnly,Bool.false_eq_true,if_false] at failed ⊢
      split at failed
      · cases failed
      · rename_i long
        have longer : ¬(bytes ++ more).length < 8 := fun short =>
          long (Nat.lt_of_le_of_lt (List.length_append ▸ Nat.le_add_right _ _) short)
        rw [if_neg longer,List.take_append_of_le_length (Nat.le_of_not_lt long)]
        split at failed
        · cases failed
        · exact ⟨_,if_neg ‹_›⟩
  consumed_le parsed := by
    rcases headerOnly_parsed parsed with ⟨_,_,_,rfl,_⟩ | ⟨_,long,_,rfl,_⟩
    · exact Nat.zero_le _
    · exact long
  advances parsed inner := by
    rcases headerOnly_parsed parsed with ⟨_,_,_,_,rfl,_⟩ | ⟨_,_,_,rfl,_⟩
    · cases inner
    · exact Nat.succ_pos 7
  hint_pos asked := (headerOnly_asked asked).2.1
  told asked := nomatch (headerOnly_asked asked).1
  end_empty parsed last := by
    rcases headerOnly_parsed parsed with ⟨_,empty,ended,_⟩ | ⟨_,_,_,_,rfl,_⟩
    · exact ⟨ended,empty⟩
    · cases last
  truncated asked := by
    rcases (headerOnly_asked asked).2.2 with ⟨rfl,rfl⟩ | ⟨rfl,short⟩
    · exact .inr ⟨_,_,_,rfl,rfl⟩
    · refine .inl ⟨.parseError "unexpected end-of-file" 0,?_⟩
      simp only [headerOnly,Bool.false_eq_true,if_false,short,if_true]
  section_starts _ parsed := by
    rcases headerOnly_parsed parsed with ⟨_,_,_,_,other,_⟩ | ⟨_,_,_,_,other,_⟩ <;> cases other
  no_entry _ parsed := by
    rcases headerOnly_parsed parsed with ⟨_,_,_,_,other,_⟩ | ⟨_,_,_,_,other,_⟩ <;> cases other
  stays_outside _ _ _ := trivial
  entry_parsed inside := inside.elim
  entry_read inside := inside.elim
  entry_failed inside := inside.elim
  body_placed read := nomatch read
  trailing inside := inside.elim
  section_ends inside := inside.elim

def headerParser : Parser Bool Unit Unit Unit Unit where
  options := ⟨false,true,true,none⟩
  wasmparser := headerOnly
  validation := ⟨fun _ _ => .ok (),fun _ _ => .ok ((),())⟩
  createValidator := ()
  lowering _ := ⟨(),(),fun _ _ _ _ => .error .invalidType,fun code _ _ _ _ => .ok code⟩

end TinyWasm
