import TinyWasm.Loop
import TinyWasm.Parser.ModuleReader

namespace TinyWasm
open ListRange

-- What the incremental parser answers: how many bytes it would like, or a
-- payload, the bytes it took and its next state.
inductive Chunk (S : Type) where
  | needMoreData (hint : Nat)
  | parsed (consumed : Nat) (payload : Payload) (next : S)

-- wasmparser, of which the source calls these. `readReader` reads one sized
-- body off the bytes of a code section.
structure IncrementalParser (S : Type) where
  new : S
  parse : S → List Byte → Bool → Except ParseError (Chunk S)
  skipSection : S → S
  readReader : List Byte → Nat → Except ParseError (FunctionBody × Nat)

structure Parser (S W F V R : Type) where
  options : ParserOptions
  wasmparser : IncrementalParser S
  validation : Validation W F
  createValidator : W
  lowering : ModuleMetadata → Lowering F V R

-- The bytes a reader has yet to give, and how many it gives on each call where
-- there is a choice: at least one of those asked for, until none are left.
structure Stream where
  unread : List Byte
  sizes : Nat → Nat
  calls : Nat

def Stream.read (stream : Stream) (space : Nat) : List Byte × Stream :=
  let count := min (max (stream.sizes stream.calls) 1) (min space stream.unread.length)
  (stream.unread.take count,{stream with unread := stream.unread.drop count,calls := stream.calls + 1})

namespace Parser
variable {S W F V R : Type}

def validator (g : Parser S W F V R) : Option W := if g.options.validation then some g.createValidator else none

def isEnd : Payload → Bool
  | .end_ _ => true
  | _ => false

structure BytesState (S W F V R : Type) where
  parser : S
  data : List Byte
  validator : Option W
  reader : ModuleReader F V R

def borrowedPayload (g : Parser S W F V R) (threads : Threads F V R) (validator : Option W) (reader : ModuleReader F V R) :
    Payload → Parse (Option W × ModuleReader F V R)
  | .codeSectionStart count range size => do
    let (_,validator,reader) ←
      reader.beginCodeSection g.validation validator g.options threads.available count range size
    .ok (validator,reader)
  | .codeSectionEntry function =>
    reader.processBorrowedCodeSectionEntry g.lowering g.validation validator g.options function
  | payload => reader.processPayload g.validation validator payload

-- One payload of parse_all, which leaves the loop after the module's end.
def bytesStep (g : Parser S W F V R) (threads : Threads F V R) (s : BytesState S W F V R) :
    Parse (BytesState S W F V R ⊕ ModuleReader F V R) :=
  match g.wasmparser.parse s.parser s.data true with
  | .error error => .fail error
  | .ok (.needMoreData _) => .error (.aborted .panic)
  | .ok (.parsed consumed payload parser) => do
    let (validator,reader) ← g.borrowedPayload threads s.validator s.reader payload
    if isEnd payload then .ok (.inr reader)
    else .ok (.inl ⟨parser,s.data.drop consumed,validator,reader⟩)

def finish (g : Parser S W F V R) (threads : Threads F V R) (reader : ModuleReader F V R) : Parse Module := do
  let reader ← reader.processPendingFunctions g.lowering threads g.options
  reader.intoModule g.options

def parseModuleBytes (g : Parser S W F V R) (threads : Threads F V R) (fuel : Nat) (wasm : List Byte) : Parse Module := do
  let reader ← Loop.run (g.bytesStep threads) (.aborted .diverges) fuel ⟨g.wasmparser.new,wasm,g.validator,.default⟩
  if reader.endReached then g.finish threads reader else .fail .endNotReached

def readMore (stream : Stream) (buffer : List Byte) (hint : Nat) : Nat × List Byte × Stream :=
  let (bytes,stream) := stream.read hint
  (bytes.length,buffer ++ bytes,stream)

structure StreamState (S W F V R : Type) where
  parser : S
  buffer : List Byte
  bufferOffset : Nat
  eof : Bool
  validator : Option W
  reader : ModuleReader F V R
  stream : Stream

-- The rest of a deferred section is read into the buffer, behind what is there.
def fillSection (bodyOffset sectionSize bufferOffset : Nat) (buffer : List Byte) (stream : Stream) :
    Parse (List Byte × Stream) :=
  if buffer.length - bufferOffset < sectionSize then
    let remaining := sectionSize - (buffer.length - bufferOffset)
    if _ended : (stream.read remaining).1.length = 0 then
      .fail (.parseError "unexpected end-of-file" (bodyOffset + buffer.length - bufferOffset))
    else fillSection bodyOffset sectionSize bufferOffset (buffer ++ (stream.read remaining).1) (stream.read remaining).2
  else .ok (buffer,stream)
termination_by stream.unread.length
decreasing_by
  simp only [Stream.read,List.length_take,List.length_drop] at *
  omega

-- The code section that is left to the threads, if this payload starts one.
def streamPayload (g : Parser S W F V R) (threads : Threads F V R) (validator : Option W) (reader : ModuleReader F V R) :
    Payload → Parse (Option (Nat × Nat × Nat) × Option W × ModuleReader F V R)
  | .codeSectionStart count range size => do
    let (defer,validator,reader) ←
      reader.beginCodeSection g.validation validator g.options threads.available count range size
    .ok (if defer then some (count,range.2 - size,size) else none,validator,reader)
  | .codeSectionEntry function => do
    let (validator,reader) ← reader.processInlineCodeSectionEntry g.lowering g.validation validator g.options function
    .ok (none,validator,reader)
  | payload => do
    let (validator,reader) ← reader.processPayload g.validation validator payload
    .ok (none,validator,reader)

def trailingBytes : ParseError := .other "trailing bytes after end of module"

def streamStep (g : Parser S W F V R) (threads : Threads F V R) (s : StreamState S W F V R) :
    Parse (StreamState S W F V R ⊕ Module) :=
  match g.wasmparser.parse s.parser (s.buffer.drop s.bufferOffset) s.eof with
  | .error error => .fail error
  | .ok (.needMoreData hint) =>
    let (readBytes,buffer,stream) := readMore s.stream (s.buffer.drop s.bufferOffset) hint
    .ok (.inl {s with buffer,bufferOffset := 0,eof := readBytes == 0,stream})
  | .ok (.parsed consumed payload parser) => do
    let (deferred,validator,reader) ← g.streamPayload threads s.validator s.reader payload
    let bufferOffset := s.bufferOffset + consumed
    match deferred with
    | some (count,bodyOffset,sectionSize) => do
      let (buffer,stream) ← fillSection bodyOffset sectionSize bufferOffset s.buffer s.stream
      let (validator,reader) ← reader.queueOwnedCodeSection g.wasmparser.readReader g.validation
        (slice buffer bufferOffset sectionSize) bodyOffset count 0 validator
      .ok (.inl ⟨g.wasmparser.skipSection parser,buffer,bufferOffset + sectionSize,s.eof,validator,reader,stream⟩)
    | none => do
      let (eof,stream) ←
        if reader.endReached then
          if bufferOffset ≠ s.buffer.length then Parse.fail trailingBytes
          else if s.eof then .ok (true,s.stream)
          else
            let (readBytes,_,stream) := readMore s.stream s.buffer 1
            if readBytes == 0 then .ok (true,stream) else Parse.fail trailingBytes
        else .ok (s.eof,s.stream)
      if reader.endReached || eof then do
        let m ← g.finish threads reader
        .ok (.inr m)
      else .ok (.inl ⟨parser,s.buffer,bufferOffset,eof,validator,reader,stream⟩)

def parseModuleStream (g : Parser S W F V R) (threads : Threads F V R) (fuel : Nat) (stream : Stream) : Parse Module :=
  Loop.run (g.streamStep threads) (.aborted .diverges) fuel ⟨g.wasmparser.new,[],0,false,g.validator,.default,stream⟩

end Parser

end TinyWasm
