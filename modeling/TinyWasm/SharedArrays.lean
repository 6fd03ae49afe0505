import TinyWasm.FlatArray

-- Growable arrays under addresses that several clients share, and segments of
-- items that can be copied into them until they are dropped.
namespace SharedArrays
open ListRange

variable {α : Type*}

structure Arrays (α : Type*) where
  arrays : List (List α)
  limits : List Nat
  segments : List (List α)

inductive Placement where
  | kept
  | dropped
  | written (a i : Nat)

structure Segment (α : Type*) where
  items : List α
  placement : Placement

inductive Op (α : Type*) where
  | get (a i : Nat)
  | load (a i n : Nat)
  | set (a i : Nat) (x : α)
  | size (a : Nat)
  | fill (a i n : Nat) (x : α)
  | grow (a n : Nat) (x : α)
  | copy (dst i src j n : Nat)
  | init (segment j n a i : Nat)
  | drop (segment : Nat)
  | place (segments : List (Segment α))
  | refuse

inductive Answer (α : Type*) where
  | item (x : α)
  | items (xs : List α)
  | number (n : Nat)
  | done
  | failed
  | outOfBounds
  deriving DecidableEq

namespace Arrays

def array (s : Arrays α) (a : Nat) : List α := s.arrays[a]?.getD []

def segment (s : Arrays α) (k : Nat) : List α := s.segments[k]?.getD []

def tryWrite (s : Arrays α) (a i : Nat) (xs : List α) : Option (Arrays α) :=
  if i + xs.length ≤ (s.array a).length then some {s with arrays := s.arrays.set a (splice (s.array a) i xs)} else none

def write (s : Arrays α) (a i : Nat) (xs : List α) : Answer α × Arrays α :=
  match s.tryWrite a i xs with
  | some s' => (.done,s')
  | none => (.outOfBounds,s)

-- A whole range moves at once, so an overlapping copy reads the old items.
def transfer (s : Arrays α) (source : List α) (j n a i : Nat) : Answer α × Arrays α :=
  match FlatArray.read source j n with
  | some xs => s.write a i xs
  | none => (.outOfBounds,s)

def add (s : Arrays α) (items : List α) : Arrays α := {s with segments := s.segments ++ [items]}

-- Segment after segment; the first that does not fit ends the placement.
def place (s : Arrays α) : List (Segment α) → Answer α × Arrays α
  | [] => (.done,s)
  | ⟨items,.kept⟩ :: rest => (s.add items).place rest
  | ⟨_,.dropped⟩ :: rest => (s.add []).place rest
  | ⟨items,.written a i⟩ :: rest =>
    match s.tryWrite a i items with
    | some s' => (s'.add []).place rest
    | none => (.outOfBounds,s)

-- `granted` says whether the host has room for so many more.
def apply (granted : Nat → Bool) (s : Arrays α) : Op α → Answer α × Arrays α
  | .get a i =>
    match (s.array a)[i]? with
    | some x => (.item x,s)
    | none => (.outOfBounds,s)
  | .load a i n =>
    match FlatArray.read (s.array a) i n with
    | some xs => (.items xs,s)
    | none => (.outOfBounds,s)
  | .set a i x => s.write a i [x]
  | .size a => (.number (s.array a).length,s)
  | .fill a i n x => s.write a i (List.replicate n x)
  | .grow a n x =>
    if (s.array a).length + n ≤ s.limits[a]?.getD 0 ∧ granted n then
      (.number (s.array a).length,{s with arrays := s.arrays.set a (s.array a ++ List.replicate n x)})
    else (.failed,s)
  | .copy dst i src j n => s.transfer (s.array src) j n dst i
  | .init k j n a i => s.transfer (s.segment k) j n a i
  | .drop k => (.done,{s with segments := s.segments.set k []})
  | .place segments => s.place segments
  | .refuse => (.failed,s)

def applyAll (granted : Nat → Bool) (s : Arrays α) : List (Op α) → List (Answer α) × Arrays α
  | [] => ([],s)
  | op :: rest =>
    let (out,s') := s.apply granted op
    let (outs,last) := s'.applyAll granted rest
    (out :: outs,last)

-- Every array is as long as `bound` at most and every item has a property.
structure Keeps (P : α → Prop) (bound : Nat) (s : Arrays α) : Prop where
  arrays : ∀ xs ∈ s.arrays, xs.length ≤ bound ∧ ∀ x ∈ xs, P x
  limits : ∀ limit ∈ s.limits, limit ≤ bound
  segments : ∀ xs ∈ s.segments, ∀ x ∈ xs, P x

end Arrays

def Op.Brings (P : α → Prop) : Op α → Prop
  | .set _ _ x | .fill _ _ _ x | .grow _ _ x => P x
  | .place segments => ∀ segment ∈ segments, ∀ x ∈ segment.items, P x
  | _ => True

section Invariant
variable {P : α → Prop} {bound : Nat} {s : Arrays α} {xs : List α} {a i n : Nat}

theorem mem_slice {x : α} (member : x ∈ slice xs i n) : x ∈ xs := List.mem_of_mem_drop (List.mem_of_mem_take member)

theorem mem_splice {x : α} {ys : List α} (member : x ∈ splice xs i ys) : x ∈ xs ∨ x ∈ ys := by
  simp only [splice,List.mem_append] at member
  rcases member with (before | inside) | after
  · exact .inl (List.mem_of_mem_take before)
  · exact .inr inside
  · exact .inl (List.mem_of_mem_drop after)

namespace Arrays

theorem Keeps.array (keeps : s.Keeps P bound) (a : Nat) : (s.array a).length ≤ bound ∧ ∀ x ∈ s.array a, P x := by
  unfold Arrays.array
  cases found : s.arrays[a]? with
  | none => simp
  | some xs => exact keeps.arrays xs (List.mem_of_getElem? found)

theorem Keeps.segment (keeps : s.Keeps P bound) (k : Nat) : ∀ x ∈ s.segment k, P x := by
  unfold Arrays.segment
  cases found : s.segments[k]? with
  | none => simp
  | some xs => exact keeps.segments xs (List.mem_of_getElem? found)

theorem Keeps.set (keeps : s.Keeps P bound) (a : Nat) (short : xs.length ≤ bound) (all : ∀ x ∈ xs, P x) :
    Keeps P bound {s with arrays := s.arrays.set a xs} := by
  refine ⟨fun ys member => ?_,keeps.limits,keeps.segments⟩
  rcases List.mem_or_eq_of_mem_set member with old | rfl
  · exact keeps.arrays ys old
  · exact ⟨short,all⟩

theorem Keeps.add (keeps : s.Keeps P bound) (all : ∀ x ∈ xs, P x) : (s.add xs).Keeps P bound := by
  refine ⟨keeps.arrays,keeps.limits,fun ys member => ?_⟩
  rcases List.mem_append.mp member with old | new
  · exact keeps.segments ys old
  · rw [List.mem_singleton.mp new]
    exact all

theorem Keeps.tryWrite {s' : Arrays α} (keeps : s.Keeps P bound) (all : ∀ x ∈ xs, P x)
    (wrote : s.tryWrite a i xs = some s') : s'.Keeps P bound := by
  unfold Arrays.tryWrite at wrote
  by_cases within : i + xs.length ≤ (s.array a).length
  · rw [if_pos within] at wrote
    cases wrote
    refine keeps.set a ?_ fun x member => ?_
    · rw [splice_length within]
      exact (keeps.array a).1
    · rcases mem_splice member with old | new
      · exact (keeps.array a).2 x old
      · exact all x new
  · rw [if_neg within] at wrote
    cases wrote

theorem Keeps.write (keeps : s.Keeps P bound) (a i : Nat) (all : ∀ x ∈ xs, P x) : (s.write a i xs).2.Keeps P bound := by
  unfold Arrays.write
  cases wrote : s.tryWrite a i xs with
  | some s' => exact keeps.tryWrite all wrote
  | none => exact keeps

theorem Keeps.transfer {source : List α} (keeps : s.Keeps P bound) (all : ∀ x ∈ source, P x) (j n a i : Nat) :
    (s.transfer source j n a i).2.Keeps P bound := by
  unfold Arrays.transfer FlatArray.read
  by_cases within : j + n ≤ source.length
  · rw [if_pos within]
    exact keeps.write a i fun x member => all x (mem_slice member)
  · rw [if_neg within]
    exact keeps

theorem Keeps.place {segments : List (Segment α)} (keeps : s.Keeps P bound)
    (brings : ∀ segment ∈ segments, ∀ x ∈ segment.items, P x) : (s.place segments).2.Keeps P bound := by
  induction segments generalizing s with
  | nil => exact keeps
  | cons segment rest ih =>
    have later := fun next member => brings next (List.mem_cons_of_mem segment member)
    obtain ⟨items,placement⟩ := segment
    have all : ∀ x ∈ items, P x := brings ⟨items,placement⟩ List.mem_cons_self
    cases placement with
    | kept => exact ih (keeps.add all) later
    | dropped => exact ih (keeps.add (by simp)) later
    | written a i =>
      simp only [Arrays.place]
      cases wrote : s.tryWrite a i items with
      | some s' => exact ih ((keeps.tryWrite all wrote).add (by simp)) later
      | none => exact keeps

theorem Keeps.apply (keeps : s.Keeps P bound) (granted : Nat → Bool) {op : Op α} (brings : op.Brings P) :
    (s.apply granted op).2.Keeps P bound := by
  cases op with
  | get | load =>
    simp only [Arrays.apply]
    split <;> exact keeps
  | size | refuse => exact keeps
  | set a i x => exact keeps.write a i fun y member => (List.mem_singleton.mp member) ▸ brings
  | fill a i n x => exact keeps.write a i fun y member => (List.eq_of_mem_replicate member) ▸ brings
  | grow a n x =>
    simp only [Arrays.apply]
    split
    · rename_i room
      refine keeps.set a ?_ fun y member => ?_
      · have limit : s.limits[a]?.getD 0 ≤ bound := by
          cases found : s.limits[a]? with
          | none => exact Nat.zero_le _
          | some limit => exact keeps.limits limit (List.mem_of_getElem? found)
        rw [List.length_append,List.length_replicate]
        exact Nat.le_trans room.1 limit
      · rcases List.mem_append.mp member with old | new
        · exact (keeps.array a).2 y old
        · exact (List.eq_of_mem_replicate new) ▸ brings
    · exact keeps
  | copy dst i src j n => exact keeps.transfer (keeps.array src).2 j n dst i
  | init k j n a i => exact keeps.transfer (keeps.segment k) j n a i
  | drop k =>
    refine ⟨keeps.arrays,keeps.limits,fun ys member => ?_⟩
    rcases List.mem_or_eq_of_mem_set member with old | rfl
    · exact keeps.segments ys old
    · simp
  | place segments => exact keeps.place brings

end Arrays

end Invariant

end SharedArrays
