import TinyWasm.Store.HostItems
import TinyWasm.Utf16

namespace TinyWasm
open FlatMemory ListRange

namespace HostMemory

-- The loop of read_js_string: each pair of bytes is a unit, and each unit is to be
-- a character.
def pushUnits : List Byte → String → Except Error String
  | low :: high :: rest,string =>
    match Utf16.fromU32 (LittleEndian.ofBytes 16 [low,high]).toNat with
    | some c => pushUnits rest (string.push c)
    | none => .error (.other "Invalid UTF-16 string")
  | _,string => .ok string

def readJsString [Allocator] (memory : HostMemory) (store : Store) (offset len : Nat) : Checked (Except Error String) :=
  memory.readAs (fun bytes => pushUnits bytes "") store offset len

theorem pushUnits_eq (bytes : List Byte) (string : String) :
    pushUnits bytes string = match (Utf16.ofBytes bytes).mapM (fun unit => Utf16.fromU32 unit.toNat) with
      | some s => .ok (.ofList (string.toList ++ s))
      | none => .error (.other "Invalid UTF-16 string") := by
  fun_induction pushUnits bytes string with
  | case1 low high rest string c found ih =>
    rw [ih,Utf16.ofBytes,List.mapM_cons,found]
    generalize (Utf16.ofBytes rest).mapM (fun unit => Utf16.fromU32 unit.toNat) = later
    cases later with
    | none => rfl
    | some s =>
      change Except.ok (String.ofList ((string.push c).toList ++ s)) = .ok (String.ofList (string.toList ++ c :: s))
      rw [String.toList_push,List.append_assoc]
      rfl
  | case2 low high rest string refused =>
    rw [Utf16.ofBytes,List.mapM_cons,refused]
    rfl
  | case3 bytes string short =>
    have none : Utf16.ofBytes bytes = [] := by
      unfold Utf16.ofBytes
      split
      · exact (short _ _ _ rfl).elim
      · rfl
    rw [none]
    simp

-- The bytes of a range of the memory that the handle refers to.
def Holds [Allocator] (memory : HostMemory) (store : Store) (offset : Nat) (data : List Byte) : Prop :=
  memory.item.storeId = store.id ∧ ∃ mem, store.state.memories[memory.item.addr]? = some mem ∧ Valid mem.inner ∧
    FlatArray.read (bytes mem.inner) offset data.length = some data

-- Whatever the host's allocator grants, reading is that of the flat array.
theorem readVec_bytes [Allocator] {m : MemoryStorage} (valid : Valid m) (addr n : Nat) :
    LinearMemory.readVec m addr n = .ok (FlatArray.read (bytes m) addr n) := by
  let _ := Allocator.unlimited
  have _ := Allocator.unlimited_generous
  have lawful : LawfulMemory MemoryStorage := inferInstance
  exact @LawfulMemory.readVec_law MemoryStorage _ lawful m valid addr n

theorem Holds.readVec [Allocator] {memory : HostMemory} {store : Store} {offset : Nat} {data : List Byte}
    (held : memory.Holds store offset data) : memory.readVec store offset data.length = .ok (.ok data) := by
  obtain ⟨own,mem,there,valid,read⟩ := held
  have accepted : memory.item.validateStore store = .ok () := by
    unfold StoreItem.validateStore
    rw [if_neg (not_not.mpr own)]
  have found : State.at store.state.memories memory.item.addr = .ok mem := State.at_some_iff.mpr there
  unfold HostMemory.readVec inspect StoreItem.checked
  rw [accepted]
  simp only [found,ok_bind,readVec_bytes valid,read]

theorem Holds.readJsString [Allocator] {memory : HostMemory} {store : Store} {offset : Nat} {data : List Byte}
    (held : memory.Holds store offset data) :
    memory.readJsString store offset data.length = .ok (pushUnits data "") := by
  unfold HostMemory.readJsString readAs
  rw [held.readVec]
  rfl

-- Only characters of the basic multilingual plane are read back, and what is not
-- the encoding of a string is an error.
theorem js_strings_read_iff [Allocator] (memory : HostMemory) (store : Store) (offset : Nat) :
    (∀ s : String, memory.Holds store offset (Utf16.toBytes (Utf16.encode s.toList)) →
      (memory.readJsString store offset (Utf16.toBytes (Utf16.encode s.toList)).length = .ok (.ok s) ↔
        ∀ c ∈ s.toList, c.toNat < 0x10000)) ∧
    ∀ data : List Byte, memory.Holds store offset data → data.length % 2 = 0 → ¬Utf16.WellFormed (Utf16.ofBytes data) →
      ∃ error, memory.readJsString store offset data.length = .ok (.error error) := by
  constructor
  · intro s held
    rw [held.readJsString,pushUnits_eq,Utf16.ofBytes_toBytes,←Utf16.fromU32_encode]
    generalize (Utf16.encode s.toList).mapM (fun unit => Utf16.fromU32 unit.toNat) = found
    cases found with
    | none => exact iff_of_false nofun nofun
    | some chars =>
      have text : String.toList "" ++ chars = chars := rfl
      dsimp only
      rw [text]
      constructor
      · intro same
        have same : String.ofList chars = s := Except.ok.inj (Except.ok.inj same)
        rw [←same,String.toList_ofList]
      · intro same
        rw [Option.some.inj same,String.ofList_toList]
  · intro data held _ malformed
    rw [held.readJsString,pushUnits_eq]
    cases found : (Utf16.ofBytes data).mapM (fun unit => Utf16.fromU32 unit.toNat) with
    | none => exact ⟨_,rfl⟩
    | some chars => exact absurd ⟨chars,Utf16.encode_fromU32 found⟩ malformed

end HostMemory

-- One memory that holds a text.
namespace JsStringRun

def config : Config := ⟨fun _ => ⟨8,8,false⟩,⟨8,8,false⟩,.perInstruction,.vec,false⟩

def memory : HostMemory := ⟨0,0⟩

def store (data : List Byte) : Store :=
  {Store.new 0 config with state := {State.empty with memories := [⟨⟨.i32,0,none,none⟩,.left (.vec ⟨data⟩),0⟩]}}

theorem held [Allocator] {data : List Byte} (small : data.length ≤ usizeMax) : memory.Holds (store data) 0 data := by
  refine ⟨rfl,_,rfl,small,?_⟩
  change FlatArray.read data 0 data.length = some data
  rw [FlatArray.read,if_pos (by omega)]
  simp [slice]

end JsStringRun

open JsStringRun in
-- Reading a letter of the plane, and a lone surrogate.
theorem js_strings_read_iff_letter :
    let _ := Allocator.unlimited
    memory.readJsString (store [0xe9,0]) 0 2 = .ok (.ok "é") ∧
      ∃ error, memory.readJsString (store [0x3d,0xd8]) 0 2 = .ok (.error error) := by
  intro _
  have letter : Utf16.toBytes (Utf16.encode "é".toList) = [0xe9,0] := by decide
  have text := (HostMemory.js_strings_read_iff memory (store [0xe9,0]) 0).1 "é" (letter ▸ held (by decide))
  rw [letter] at text
  have plane : ∀ c ∈ "é".toList, c.toNat < 2 ^ 16 := by
    intro c listed
    obtain rfl : c = 'é' := List.mem_singleton.mp listed
    decide
  refine ⟨text.mpr plane,?_⟩
  refine (HostMemory.js_strings_read_iff memory (store [0x3d,0xd8]) 0).2 [0x3d,0xd8] (held (by decide)) rfl ?_
  rintro ⟨s,same⟩
  exact Utf16.encode_lone (by decide) (by decide) same

open JsStringRun in
-- A pair of surrogates is refused at its first unit.
theorem js_string_pair_refused :
    let _ := Allocator.unlimited
    let data := Utf16.toBytes (Utf16.encode "😀".toList)
    memory.Holds (store data) 0 data ∧
      memory.readJsString (store data) 0 data.length = .ok (.error (.other "Invalid UTF-16 string")) := by
  intro _ data
  have there : memory.Holds (store data) 0 data := held (by decide)
  refine ⟨there,?_⟩
  rw [there.readJsString]
  have refused : HostMemory.pushUnits data "" = .error (.other "Invalid UTF-16 string") := by decide
  rw [refused]

end TinyWasm
