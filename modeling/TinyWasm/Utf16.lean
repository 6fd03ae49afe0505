import TinyWasm.LittleEndian

-- UTF-16 code units, and their bytes from the lower one up.
namespace Utf16

-- A character past the basic multilingual plane has a high and a low surrogate.
def codeUnits (c : Char) : List (BitVec 16) :=
  if c.toNat < 0x10000 then [.ofNat 16 c.toNat]
  else [.ofNat 16 (0xd800 + (c.toNat - 0x10000) / 0x400),.ofNat 16 (0xdc00 + (c.toNat - 0x10000) % 0x400)]

def encode (s : List Char) : List (BitVec 16) := s.flatMap codeUnits

def WellFormed (units : List (BitVec 16)) : Prop := ∃ s, encode s = units

def toBytes (units : List (BitVec 16)) : List UInt8 := units.flatMap (LittleEndian.toBytes 2)

-- An odd byte at the end is no unit.
def ofBytes : List UInt8 → List (BitVec 16)
  | low :: high :: rest => LittleEndian.ofBytes 16 [low,high] :: ofBytes rest
  | _ => []

-- The character of a number that is a Unicode scalar value.
def fromU32 (n : Nat) : Option Char := if valid : n.isValidChar then some (Char.ofNatAux n valid) else none

theorem ofBytes_toBytes (units : List (BitVec 16)) : ofBytes (toBytes units) = units := by
  induction units with
  | nil => rfl
  | cons unit units ih =>
    have two : LittleEndian.toBytes 2 unit = [UInt8.ofBitVec (unit.extractLsb' 0 8),UInt8.ofBitVec (unit.extractLsb' 8 8)] := rfl
    rw [toBytes,List.flatMap_cons,two]
    change LittleEndian.ofBytes 16 _ :: ofBytes (toBytes units) = unit :: units
    rw [ih,←two,LittleEndian.ofBytes_toBytes (n := 2) unit (by decide)]

theorem toBytes_length (units : List (BitVec 16)) : (toBytes units).length = 2 * units.length := by
  induction units with
  | nil => rfl
  | cons unit units ih =>
    rw [toBytes,List.flatMap_cons,List.length_append,LittleEndian.toBytes_length,List.length_cons]
    change 2 + (toBytes units).length = _
    omega

theorem fromU32_some {n : Nat} {c : Char} (found : fromU32 n = some c) : c.toNat = n := by
  unfold fromU32 at found
  split at found
  · cases found; rfl
  · cases found

theorem fromU32_toNat (c : Char) : fromU32 c.toNat = some c := by
  unfold fromU32
  exact dif_pos c.valid

-- A unit that is a character by itself is all of that character.
theorem codeUnits_fromU32 {unit : BitVec 16} {c : Char} (found : fromU32 unit.toNat = some c) : codeUnits c = [unit] := by
  have same := fromU32_some found
  have small : c.toNat < 0x10000 := same ▸ unit.isLt
  rw [codeUnits,if_pos small,same,BitVec.ofNat_toNat,BitVec.setWidth_eq]

theorem fromU32_codeUnits {c : Char} (plane : c.toNat < 0x10000) {unit : BitVec 16} (listed : unit ∈ codeUnits c) :
    fromU32 unit.toNat = some c := by
  rw [codeUnits,if_pos plane,List.mem_singleton] at listed
  rw [listed,BitVec.toNat_ofNat,Nat.mod_eq_of_lt plane,fromU32_toNat]

theorem fromU32_surrogate {n : Nat} (low : 0xd800 ≤ n) (high : n < 0xe000) : fromU32 n = none := by
  unfold fromU32
  rw [dif_neg]
  unfold Nat.isValidChar
  omega

-- Past the plane the first unit is none.
theorem fromU32_high {c : Char} (past : ¬c.toNat < 0x10000) :
    ∃ unit rest, codeUnits c = unit :: rest ∧ fromU32 unit.toNat = none := by
  refine ⟨_,_,by rw [codeUnits,if_neg past],?_⟩
  have bounded : c.toNat < 0x110000 := by
    rcases c.valid with low | high
    · exact Nat.lt_trans low (by decide)
    · exact high.2
  rw [BitVec.toNat_ofNat,Nat.mod_eq_of_lt (by omega)]
  exact fromU32_surrogate (by omega) (by omega)

-- Units that are characters each by itself are those of a string.
theorem encode_fromU32 {units : List (BitVec 16)} {s : List Char} (found : units.mapM (fun unit => fromU32 unit.toNat) = some s) :
    encode s = units := by
  induction units generalizing s with
  | nil => cases found; rfl
  | cons unit units ih =>
    rw [List.mapM_cons] at found
    cases first : fromU32 unit.toNat with
    | none => rw [first] at found; cases found
    | some c =>
      cases later : units.mapM (fun unit => fromU32 unit.toNat) with
      | none => rw [first,later] at found; cases found
      | some s =>
        rw [first,later] at found
        cases found
        rw [encode,List.flatMap_cons,codeUnits_fromU32 first]
        exact congrArg (unit :: ·) (ih later)

theorem fromU32_encode {s : List Char} : (encode s).mapM (fun unit => fromU32 unit.toNat) = some s ↔
    ∀ c ∈ s, c.toNat < 0x10000 := by
  induction s with
  | nil => exact iff_of_true rfl nofun
  | cons c s ih =>
    rw [encode,List.flatMap_cons]
    change (codeUnits c ++ encode s).mapM _ = _ ↔ _
    rw [List.forall_mem_cons,←ih,List.mapM_append]
    by_cases plane : c.toNat < 0x10000
    · have own : (codeUnits c).mapM (fun unit => fromU32 unit.toNat) = some [c] := by
        rw [codeUnits,if_pos plane,List.mapM_cons,BitVec.toNat_ofNat,Nat.mod_eq_of_lt plane,fromU32_toNat]
        rfl
      rw [own]
      cases (encode s).mapM (fun unit => fromU32 unit.toNat) with
      | none => exact iff_of_false nofun fun all => nomatch all.2
      | some s' => simp [plane]
    · refine iff_of_false ?_ fun all => plane all.1
      obtain ⟨unit,rest,units,refused⟩ := fromU32_high plane
      rw [units,List.mapM_cons,refused]
      exact nofun

-- A surrogate is never alone.
theorem encode_lone {s : List Char} {unit : BitVec 16} (low : 0xd800 ≤ unit.toNat) (high : unit.toNat < 0xe000) :
    encode s ≠ [unit] := by
  intro same
  cases s with
  | nil => cases same
  | cons c s =>
    rw [encode,List.flatMap_cons,codeUnits] at same
    split at same
    · rename_i plane
      have own := congrArg BitVec.toNat (List.cons.inj same).1
      rw [BitVec.toNat_ofNat,Nat.mod_eq_of_lt plane] at own
      rcases c.valid with below | above
      · have below : c.toNat < 0xd800 := below
        omega
      · have past : 0xdfff < c.toNat := above.1
        omega
    · cases same

end Utf16
