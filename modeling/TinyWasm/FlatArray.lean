import TinyWasm.ListRange

namespace FlatArray
open ListRange

variable {α : Type*} {xs ys : List α} {a d s n k : Nat}

-- The bounds-checked array that a sparse, lazy or shared store of elements is
-- compared with. Bounds are sums of unbounded naturals. A refused operation
-- returns the array as it was.
def read (xs : List α) (a n : Nat) : Option (List α) :=
  if a + n ≤ xs.length then some (slice xs a n) else none

def write (xs : List α) (a : Nat) (ys : List α) : Option Unit × List α :=
  if a + ys.length ≤ xs.length then (some (),splice xs a ys) else (none,xs)

def fill (xs : List α) (a n : Nat) (x : α) : Option Unit × List α :=
  write xs a (List.replicate n x)

def copyWithin (xs : List α) (d s n : Nat) : Option Unit × List α :=
  if s + n ≤ xs.length ∧ d + n ≤ xs.length then (some (),splice xs d (slice xs s n)) else (none,xs)

def extend (xs : List α) (n : Nat) (x : α) : List α := xs ++ List.replicate (n - xs.length) x

@[simp] theorem write_length (xs : List α) (a : Nat) (ys : List α) :
    (write xs a ys).2.length = xs.length := by
  unfold write
  split
  · exact splice_length ‹_›
  · rfl

theorem write_refused {a : Nat} {ys zs : List α} (refused : write xs a ys = (none,zs)) : zs = xs := by
  unfold write at refused
  split at refused <;> cases refused
  rfl

@[simp] theorem fill_length (xs : List α) (a n : Nat) (x : α) :
    (fill xs a n x).2.length = xs.length := write_length _ _ _

@[simp] theorem copyWithin_length (xs : List α) (d s n : Nat) :
    (copyWithin xs d s n).2.length = xs.length := by
  unfold copyWithin
  split
  · rename_i within
    exact splice_length (by rw [slice_length within.1]; exact within.2)
  · rfl

@[simp] theorem extend_length (grows : xs.length ≤ n) (x : α) : (extend xs n x).length = n := by
  simp only [extend,List.length_append,List.length_replicate]
  omega

theorem extend_getElem?_old (x : α) (old : k < xs.length) : (extend xs n x)[k]? = xs[k]? := by
  simp only [extend]
  exact List.getElem?_append_left old

theorem extend_getElem?_new (x : α) (new : xs.length ≤ k) (small : k < n) :
    (extend xs n x)[k]? = some x := by
  simp only [extend]
  rw [List.getElem?_append_right new,List.getElem?_replicate,if_pos (by omega)]

-- Copying block by block through a bounded buffer. Ascending blocks are safe
-- when no destination byte lies above the source byte it replaces or inside
-- the source range, descending blocks when the destination starts above it.
theorem ascending_block (disjoint : d ≤ s ∨ s + n ≤ d) (within : s + n ≤ xs.length)
    (room : d + n ≤ xs.length) (m : Nat) (left : k + m ≤ n) :
    let moved := splice xs d (slice xs s k)
    slice moved (s + k) m = slice xs (s + k) m ∧
      splice moved (d + k) (slice moved (s + k) m) = splice xs d (slice xs s (k + m)) := by
  intro moved
  have size : (slice xs s k).length = k := slice_length (by omega)
  have same : slice moved (s + k) m = slice xs (s + k) m :=
    slice_splice_outside (by omega) (by omega)
  refine ⟨same,?_⟩
  have next : (slice xs (s + k) m).length = m := slice_length (by omega)
  have joined : (slice xs s k ++ slice xs (s + k) m).length = k + m := by
    rw [List.length_append,size,next]
  rw [same,slice_add,splice_append (by omega),size]

theorem splice_prepend {zs : List α} (within : a + (ys ++ zs).length ≤ xs.length) :
    splice (splice xs (a + ys.length) zs) a ys = splice xs a (ys ++ zs) := by
  simp only [List.length_append] at within
  have first : (splice xs (a + ys.length) zs).length = xs.length := splice_length (by omega)
  apply List.ext_getElem?
  intro i
  by_cases front : i < a ∨ a + ys.length + zs.length ≤ i
  · rw [splice_getElem?_outside (by omega) (by omega),splice_getElem?_outside (by omega) (by omega),
      splice_getElem?_outside (by simp; omega) (by simp; omega)]
  · rw [splice_getElem?_inside (show a + (ys ++ zs).length ≤ xs.length by simp; omega) (by omega) (by simp; omega)]
    by_cases left : i < a + ys.length
    · rw [splice_getElem?_inside (by omega) (by omega) left,List.getElem?_append_left (by omega)]
    · rw [splice_getElem?_outside (by omega) (by omega),
        splice_getElem?_inside (by omega) (by omega) (by omega),List.getElem?_append_right (by omega)]
      congr 1
      omega

theorem descending_block (above : s ≤ d) (within : s + n ≤ xs.length) (room : d + n ≤ xs.length)
    (m : Nat) (left : k + m ≤ n) :
    let moved := splice xs (d + (k + m)) (slice xs (s + (k + m)) (n - (k + m)))
    slice moved (s + k) m = slice xs (s + k) m ∧
      splice moved (d + k) (slice moved (s + k) m) = splice xs (d + k) (slice xs (s + k) (n - k)) := by
  intro moved
  have size : (slice xs (s + (k + m)) (n - (k + m))).length = n - (k + m) := slice_length (by omega)
  have same : slice moved (s + k) m = slice xs (s + k) m :=
    slice_splice_outside (by omega) (by omega)
  refine ⟨same,?_⟩
  have block : (slice xs (s + k) m).length = m := slice_length (by omega)
  have joined : slice xs (s + k) (n - k) = slice xs (s + k) m ++ slice xs (s + (k + m)) (n - (k + m)) := by
    have split : n - k = m + (n - (k + m)) := by omega
    rw [split,slice_add,Nat.add_assoc]
  have shifted : d + (k + m) = d + k + (slice xs (s + k) m).length := by rw [block]; omega
  have total : (slice xs (s + k) m ++ slice xs (s + (k + m)) (n - (k + m))).length = n - k := by
    rw [List.length_append,block,size]; omega
  rw [same,joined]
  simp only [moved]
  rw [shifted,splice_prepend (by omega)]

end FlatArray
