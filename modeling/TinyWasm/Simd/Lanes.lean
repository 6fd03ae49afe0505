import TinyWasm.HostInteger
import TinyWasm.Values

namespace TinyWasm

abbrev Value128 := Value .s128

namespace Value128

def laneCount (t : IntTy) : Nat := 128 / t.bits

-- The bytes of a lane, read little-endian.
def lane (t : IntTy) (v : Value128) (i : Nat) : t.Num := v.extractLsb' (t.bits * i) t.bits

-- as_i8x16, as_u8x16 and so on.
def asLanes (t : IntTy) (v : Value128) : List t.Num := (List.range (laneCount t)).map (lane t v)

-- from_i8x16, from_u8x16 and so on.
def fromLanes (t : IntTy) : List t.Num → Value128
  | [] => 0
  | x :: rest => fromLanes t rest <<< t.bits ||| x.setWidth _

def index {α : Type} (lanes : List α) (i : Nat) : Checked α :=
  match lanes[i]? with
  | some x => .ok x
  | none => .error .panic

-- The lanes of `array::from_fn`, made in order.
def makeLanes {α : Type} (f : Nat → Checked α) : List Nat → Checked (List α)
  | [] => .ok []
  | i :: rest => do
    let x ← f i
    let xs ← makeLanes f rest
    .ok (x :: xs)

def fromFn (t : IntTy) (f : Nat → Checked t.Num) : Checked Value128 := do
  let lanes ← makeLanes f (List.range (laneCount t))
  .ok (fromLanes t lanes)

variable {t : IntTy} {i : Nat}

theorem index_asLanes (v : Value128) (inside : i < laneCount t) : index (asLanes t v) i = .ok (lane t v i) := by
  have found : (asLanes t v)[i]? = some (lane t v i) := by
    rw [asLanes,List.getElem?_map,List.getElem?_range inside]
    rfl
  rw [index,found]

theorem getLsbD_fromLanes {xs : List t.Num} {j : Nat} {x : t.Num} (found : xs[i]? = some x) (inside : j < t.bits)
    (fits : t.bits * i + j < 128) : (fromLanes t xs).getLsbD (t.bits * i + j) = x.getLsbD j := by
  induction xs generalizing i with
  | nil => cases found
  | cons y rest ih =>
    have whole : decide (t.bits * i + j < OperandSize.s128.bits) = true := decide_eq_true fits
    rw [fromLanes,BitVec.getLsbD_or,BitVec.getLsbD_shiftLeft,BitVec.getLsbD_setWidth,whole,Bool.true_and,Bool.true_and]
    cases i with
    | zero =>
      cases found
      rw [Nat.mul_zero,Nat.zero_add,decide_eq_true inside,Bool.not_true,Bool.false_and,Bool.false_or]
    | succ i =>
      have next : t.bits * (i + 1) + j = t.bits * i + j + t.bits := by rw [Nat.mul_succ]; omega
      rw [next] at fits ⊢
      rw [decide_eq_false (by omega),Bool.not_false,Bool.true_and,Nat.add_sub_cancel,ih found (by omega),
        BitVec.getLsbD_of_ge y _ (by omega),Bool.or_false]

theorem lane_fromLanes {xs : List t.Num} {x : t.Num} (found : xs[i]? = some x) (inside : i < laneCount t) :
    lane t (fromLanes t xs) i = x := by
  have whole : t.bits * (i + 1) ≤ 128 :=
    Nat.le_trans (Nat.mul_le_mul_left _ inside) (Nat.mul_div_le 128 t.bits)
  rw [Nat.mul_succ] at whole
  apply BitVec.eq_of_getLsbD_eq
  intro j low
  rw [lane,BitVec.getLsbD_extractLsb',decide_eq_true low,Bool.true_and]
  exact getLsbD_fromLanes found low (by omega)

theorem makeLanes_ok {α : Type} {f : Nat → Checked α} {g : Nat → α} {is : List Nat} (each : ∀ i ∈ is, f i = .ok (g i)) :
    makeLanes f is = .ok (is.map g) := by
  induction is with
  | nil => rfl
  | cons i rest ih =>
    have first := each i List.mem_cons_self
    have others := ih fun i later => each i (List.mem_cons_of_mem _ later)
    simp only [makeLanes,first,others,ok_bind,List.map_cons]

-- Every lane is computed, and holds the value of the formula.
def Exact (t : IntTy) (made : Checked Value128) (formula : Nat → Int) : Prop :=
  ∃ r, made = .ok r ∧ ∀ i < laneCount t, t.val (lane t r i) = formula i

theorem fromLanes_exact {xs : List t.Num} {g : Nat → t.Num} {formula : Nat → Int}
    (found : ∀ i < laneCount t, xs[i]? = some (g i)) (each : ∀ i < laneCount t, t.val (g i) = formula i) :
    Exact t (.ok (fromLanes t xs)) formula := by
  refine ⟨_,rfl,fun i inside => ?_⟩
  rw [lane_fromLanes (found i inside) inside]
  exact each i inside

theorem fromFn_exact {f : Nat → Checked t.Num} {formula : Nat → Int}
    (each : ∀ i < laneCount t, ∃ x, f i = .ok x ∧ t.val x = formula i) : Exact t (fromFn t f) formula := by
  have chosen : ∀ i < laneCount t, f i = .ok (t.ofInt (formula i)) := by
    intro i inside
    obtain ⟨x,made,value⟩ := each i inside
    rw [made,←value,IntTy.ofInt_val]
  have made := makeLanes_ok fun i member => chosen i (List.mem_range.mp member)
  rw [fromFn,made,ok_bind]
  have found : ∀ i < laneCount t, ((List.range (laneCount t)).map fun i => t.ofInt (formula i))[i]? = some (t.ofInt (formula i)) :=
    fun i inside => by rw [List.getElem?_map,List.getElem?_range inside]; rfl
  refine fromLanes_exact found fun i inside => ?_
  obtain ⟨x,_,value⟩ := each i inside
  rw [←value,IntTy.ofInt_val]

end Value128

end TinyWasm
