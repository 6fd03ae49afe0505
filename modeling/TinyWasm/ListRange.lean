import Mathlib

namespace ListRange

variable {α : Type*} {xs ys zs : List α} {a n i : Nat}

-- The half-open range [a, a + n) of a list, and the list with the range that
-- starts at `a` overwritten by another list. Neither checks a bound.
def slice (xs : List α) (a n : Nat) : List α := (xs.drop a).take n

def splice (xs : List α) (a : Nat) (ys : List α) : List α :=
  xs.take a ++ ys ++ xs.drop (a + ys.length)

@[simp] theorem slice_length (within : a + n ≤ xs.length) : (slice xs a n).length = n := by
  simp only [slice,List.length_take,List.length_drop]
  omega

@[simp] theorem splice_length (within : a + ys.length ≤ xs.length) :
    (splice xs a ys).length = xs.length := by
  simp only [splice,List.length_append,List.length_take,List.length_drop]
  omega

theorem slice_getElem? (small : i < n) : (slice xs a n)[i]? = xs[a + i]? := by
  simp [slice,small]

theorem slice_getElem?_outside (large : n ≤ i) : (slice xs a n)[i]? = none := by
  simp only [slice,List.getElem?_take]
  rw [if_neg (by omega)]

theorem splice_getElem?_inside (within : a + ys.length ≤ xs.length) (lower : a ≤ i)
    (upper : i < a + ys.length) : (splice xs a ys)[i]? = ys[i - a]? := by
  have front : (xs.take a).length = a := by simp only [List.length_take]; omega
  simp only [splice,List.append_assoc]
  rw [List.getElem?_append_right (by omega),front,List.getElem?_append_left (by omega)]

theorem splice_getElem?_outside (within : a + ys.length ≤ xs.length)
    (outside : i < a ∨ a + ys.length ≤ i) : (splice xs a ys)[i]? = xs[i]? := by
  have front : (xs.take a).length = a := by simp only [List.length_take]; omega
  simp only [splice,List.append_assoc]
  rcases outside with before | after
  · rw [List.getElem?_append_left (by omega),List.getElem?_take,if_pos before]
  · rw [List.getElem?_append_right (by omega),front,List.getElem?_append_right (by omega),
      List.getElem?_drop]
    congr 1
    omega

@[simp] theorem slice_zero (xs : List α) (a : Nat) : slice xs a 0 = [] := by simp [slice]

@[simp] theorem splice_nil (xs : List α) (a : Nat) : splice xs a [] = xs := by simp [splice]

theorem slice_replicate {x : α} {m : Nat} (within : a + n ≤ m) :
    slice (List.replicate m x) a n = List.replicate n x := by
  simp only [slice,List.drop_replicate,List.take_replicate]
  congr 1
  omega

theorem slice_add (xs : List α) (a m n : Nat) :
    slice xs a (m + n) = slice xs a m ++ slice xs (a + m) n := by
  simp only [slice,←List.drop_drop]
  exact List.take_add

theorem splice_append (within : a + (ys ++ zs).length ≤ xs.length) :
    splice xs a (ys ++ zs) = splice (splice xs a ys) (a + ys.length) zs := by
  simp only [List.length_append] at within
  have first : (splice xs a ys).length = xs.length := splice_length (by omega)
  apply List.ext_getElem?
  intro i
  by_cases front : i < a ∨ a + ys.length + zs.length ≤ i
  · rw [splice_getElem?_outside (by simp; omega) (by simp; omega),
      splice_getElem?_outside (by omega) (by omega),splice_getElem?_outside (by omega) (by omega)]
  · rw [splice_getElem?_inside (by simp; omega) (by omega) (by simp; omega)]
    by_cases left : i < a + ys.length
    · rw [splice_getElem?_outside (by omega) (Or.inl left),
        splice_getElem?_inside (by omega) (by omega) left,List.getElem?_append_left (by omega)]
    · rw [splice_getElem?_inside (by omega) (by omega) (by omega),
        List.getElem?_append_right (by omega)]
      congr 1
      omega

theorem slice_splice_outside {b : Nat} (within : a + ys.length ≤ xs.length)
    (outside : b + n ≤ a ∨ a + ys.length ≤ b) : slice (splice xs a ys) b n = slice xs b n := by
  apply List.ext_getElem?
  intro i
  by_cases small : i < n
  · rw [slice_getElem? small,slice_getElem? small,splice_getElem?_outside within (by omega)]
  · rw [slice_getElem?_outside (by omega),slice_getElem?_outside (by omega)]

theorem splice_splice_same (within : a + ys.length ≤ xs.length) (same : zs.length = ys.length) :
    splice (splice xs a ys) a zs = splice xs a zs := by
  have first : (splice xs a ys).length = xs.length := splice_length within
  apply List.ext_getElem?
  intro i
  by_cases outside : i < a ∨ a + ys.length ≤ i
  · rw [splice_getElem?_outside (by omega) (by omega),splice_getElem?_outside within outside,
      splice_getElem?_outside (by omega) (by omega)]
  · rw [splice_getElem?_inside (by omega) (by omega) (by omega),
      splice_getElem?_inside (by omega) (by omega) (by omega)]

-- The front of an overwritten range stays when its rest is overwritten again.
theorem splice_rest {ws : List α} (within : a + (ys ++ zs).length ≤ xs.length) (same : ws.length = zs.length) :
    splice (splice xs a (ys ++ zs)) (a + ys.length) ws = splice xs a (ys ++ ws) := by
  have total : (ys ++ ws).length = (ys ++ zs).length := by simp only [List.length_append,same]
  have front : (splice xs a ys).length = xs.length :=
    splice_length (by simp only [List.length_append] at within; omega)
  rw [splice_append within,splice_splice_same _ same,splice_append (by rw [total]; exact within)]
  rw [front]
  simp only [List.length_append] at within
  omega

theorem slice_splice_same (within : a + ys.length ≤ xs.length) :
    slice (splice xs a ys) a ys.length = ys := by
  apply List.ext_getElem?
  intro i
  by_cases small : i < ys.length
  · rw [slice_getElem? small,splice_getElem?_inside within (by omega) (by omega)]
    congr 1
    omega
  · rw [slice_getElem?_outside (by omega)]
    exact (List.getElem?_eq_none (by omega)).symm

theorem splice_slice_self (within : a + n ≤ xs.length) : splice xs a (slice xs a n) = xs := by
  apply List.ext_getElem?
  intro i
  have len : (slice xs a n).length = n := slice_length within
  by_cases outside : i < a ∨ a + n ≤ i
  · exact splice_getElem?_outside (by omega) (by omega)
  · rw [splice_getElem?_inside (by omega) (by omega) (by omega),slice_getElem? (by omega)]
    congr 1
    omega

end ListRange
