import TinyWasm.Values

namespace TinyWasm
open ListRange

-- An import by the names it is looked up under.
inductive LinkingError where
  | unknownImport (module name : String)
  | incompatibleImportType (module name : String)
  deriving DecidableEq, Repr

mutual

inductive Trap where
  | unreachable
  | hostFunction (error : Error)
  | memoryOutOfBounds (offset len max : Nat)
  | tableOutOfBounds (offset len max : Nat)
  | divisionByZero
  | invalidConversionToInt
  | invalidStore
  | integerOverflow
  | callStackOverflow
  | valueStackOverflow
  | outOfMemory
  | undefinedElement (index : Nat)
  | uninitializedElement (index : Nat)
  | indirectCallTypeMismatch (expected actual : FuncType)
  | other (message : String)
  deriving DecidableEq, Repr

inductive Error where
  | trap (trap : Trap)
  | linker (error : LinkingError)
  | other (message : String)
  | unsupportedFeature (message : String)
  | invalidHostFnReturn (expected : FuncType) (actual : List WasmValue)
  deriving DecidableEq, Repr

end

-- How host code stops without returning: a failed index or assertion, or a
-- loop that is never left. Everything the interpreter reports is a value.
inductive Abort where
  | panic
  | diverges
  deriving DecidableEq, Repr

abbrev Checked (α : Type) := Except Abort α

variable {α β : Type}

@[simp] theorem ok_bind (a : α) (f : α → Checked β) : ((Except.ok a : Checked α) >>= f) = f a := rfl

@[simp] theorem error_bind (abort : Abort) (f : α → Checked β) :
    ((Except.error abort : Checked α) >>= f) = .error abort := rfl

-- `&xs[a..a + n]`, and `xs[a..a + ys.len()].copy_from_slice(ys)`.
def sliceAt (xs : List α) (a n : Nat) : Checked (List α) :=
  if a + n ≤ xs.length then .ok (slice xs a n) else .error .panic

def copyFromSlice (xs : List α) (a : Nat) (ys : List α) : Checked (List α) :=
  if a + ys.length ≤ xs.length then .ok (splice xs a ys) else .error .panic

theorem sliceAt_ok {xs : List α} {a n : Nat} (within : a + n ≤ xs.length) :
    sliceAt xs a n = .ok (slice xs a n) := if_pos within

theorem copyFromSlice_ok {xs ys : List α} {a : Nat} (within : a + ys.length ≤ xs.length) :
    copyFromSlice xs a ys = .ok (splice xs a ys) := if_pos within

-- The 64-bit host in a release build: unchecked usize arithmetic wraps, and a
-- checked sum that leaves the address space is `None`.
def usizeBits : Nat := 64
def usizeMax : Nat := 2 ^ usizeBits - 1

def wrappingAdd (a b : Nat) : Nat := (a + b) % 2 ^ usizeBits
def wrappingSub (a b : Nat) : Nat := (a + (2 ^ usizeBits - b)) % 2 ^ usizeBits
def wrappingShl (a bits : Nat) : Nat := (a <<< bits) % 2 ^ usizeBits
def checkedAdd (a b : Nat) : Option Nat := if a + b ≤ usizeMax then some (a + b) else none

theorem wrappingAdd_fits {a b : Nat} (fits : a + b ≤ usizeMax) : wrappingAdd a b = a + b := by
  simp only [usizeMax,usizeBits] at fits
  exact Nat.mod_eq_of_lt (by simp only [usizeBits]; omega)

theorem wrappingSub_fits {a b : Nat} (below : b ≤ a) (fits : a ≤ usizeMax) :
    wrappingSub a b = a - b := by
  simp only [usizeMax,usizeBits] at fits
  simp only [wrappingSub,usizeBits]
  omega

theorem checkedAdd_some {a b c : Nat} (added : checkedAdd a b = some c) : c = a + b := by
  unfold checkedAdd at added
  split at added
  · exact (Option.some.inj added).symm
  · cases added

theorem checkedAdd_fits {a b : Nat} (fits : a + b ≤ usizeMax) : checkedAdd a b = some (a + b) := by
  simp [checkedAdd,fits]

theorem checkedAdd_wraps {a b : Nat} (wraps : usizeMax < a + b) : checkedAdd a b = none := by
  simp only [checkedAdd,ite_eq_right_iff,reduceCtorEq,imp_false]
  omega

end TinyWasm
