import Mathlib

-- Computations that draw on a level that stops at zero, and the events of a run:
-- what each takes from the level, and what a reading of it has shown.
namespace Metering

structure Events (ε : Type) where
  cost : ε → Nat
  reading : ε → Option Nat

section Records
variable {ε : Type} (events : Events ε)

def total (record : List ε) : Nat := (record.map events.cost).sum

-- Every reading shows the level as it then is.
def Truthful : Nat → List ε → Prop
  | _,[] => True
  | level,e :: rest => (∀ n, events.reading e = some n → n = level) ∧ Truthful (level - events.cost e) rest

variable {events} {level n : Nat} {xs ys : List ε} {e : ε}

@[simp] theorem total_nil : total events [] = 0 := rfl

@[simp] theorem total_cons : total events (e :: xs) = events.cost e + total events xs := List.sum_cons

@[simp] theorem total_append : total events (xs ++ ys) = total events xs + total events ys := by
  rw [total,List.map_append,List.sum_append]
  rfl

theorem truthful_cons : Truthful events level (e :: xs) ↔
    (∀ n, events.reading e = some n → n = level) ∧ Truthful events (level - events.cost e) xs := Iff.rfl

theorem truthful_append : Truthful events level (xs ++ ys) ↔ Truthful events level xs ∧ Truthful events (level - total events xs) ys := by
  induction xs generalizing level with
  | nil => simp [Truthful]
  | cons e rest ih => simp only [List.cons_append,Truthful,ih,and_assoc,total_cons,Nat.sub_sub]

theorem Truthful.reads (truthful : Truthful events level (xs ++ e :: ys)) (shown : events.reading e = some n) :
    n = level - total events xs := (truthful_append.mp truthful).2.1 n shown

-- Ticks of a clock between the events, each at its price.
def Events.ticking (events : Events ε) (price : Nat) : Events (Option ε) where
  cost e := e.elim price events.cost
  reading e := e.bind events.reading

variable {price : Nat}

@[simp] theorem total_unticked : total (events.ticking price) (xs.map some) = total events xs := by
  rw [total,List.map_map]
  rfl

theorem truthful_unticked : Truthful (events.ticking price) level (xs.map some) ↔ Truthful events level xs := by
  induction xs generalizing level with
  | nil => rfl
  | cons e rest ih => exact and_congr Iff.rfl ih

-- A tick is the one that ends the first stretch, or comes later.
theorem tick_cases {rest before behind : List (Option ε)} (split : xs.map some ++ none :: rest = before ++ none :: behind) :
    (before = xs.map some ∧ behind = rest) ∨ ∃ between, before = xs.map some ++ none :: between ∧ rest = between ++ none :: behind := by
  induction xs generalizing before with
  | nil =>
    cases before with
    | nil => cases split; exact .inl ⟨rfl,rfl⟩
    | cons e between => cases split; exact .inr ⟨between,rfl,rfl⟩
  | cons x xs ih =>
    cases before with
    | nil => cases split
    | cons e before =>
      obtain ⟨rfl,rest⟩ := List.cons.inj split
      rcases ih rest with ⟨rfl,same⟩ | ⟨between,rfl,same⟩
      · exact .inl ⟨rfl,same⟩
      · exact .inr ⟨between,rfl,same⟩

end Records

-- What a computation records, and then what is done with its answer.
def after {σ β ε κ : Type} (x : σ → Except κ (β × σ)) (record : β → σ → List ε) (s : σ) : List ε :=
  match x s with
  | .ok (b,s') => record b s'
  | .error _ => []

-- As long as `fixed` holds the record of a run tells all that it takes.
structure Meters {σ β ε κ : Type} (events : Events ε) (fixed : σ → Prop) (level : σ → Nat) (x : σ → Except κ (β × σ))
    (record : σ → List ε) : Prop where
  truthful {s : σ} : fixed s → Truthful events (level s) (record s)
  left {s s' : σ} {b : β} : fixed s → x s = .ok (b,s') → fixed s' ∧ level s' = level s - total events (record s)

namespace Meters
variable {σ β γ ε κ : Type} {events : Events ε} {fixed : σ → Prop} {level : σ → Nat} {x : σ → Except κ (β × σ)}
  {f : β → σ → Except κ (γ × σ)} {record : σ → List ε} {records : β → σ → List ε}

theorem pointwise (each : ∀ s, fixed s → Truthful events (level s) (record s) ∧
    ∀ {b s'}, x s = .ok (b,s') → fixed s' ∧ level s' = level s - total events (record s)) :
    Meters events fixed level x record := ⟨fun holds => (each _ holds).1,fun holds ran => (each _ holds).2 ran⟩

theorem quiet (keeps : ∀ s b s', fixed s → x s = .ok (b,s') → fixed s' ∧ level s' = level s) :
    Meters events fixed level x fun _ => [] where
  truthful _ := trivial
  left holds ran := by simpa using keeps _ _ _ holds ran

-- One computation after the other, the second with what the first answers.
theorem andThen (first : Meters events fixed level x record) (rest : ∀ b, Meters events fixed level (f b) (records b)) :
    Meters events fixed level (fun s => x s >>= fun p => f p.1 p.2) fun s => record s ++ after x records s where
  truthful {s} holds := by
    refine truthful_append.mpr ⟨first.truthful holds,?_⟩
    unfold after
    split
    · rename_i b s' ran
      obtain ⟨holds',spent⟩ := first.left holds ran
      rw [←spent]
      exact (rest b).truthful holds'
    · trivial
  left {s s'} b holds ran := by
    rcases stepped : x s with stop | ⟨a,mid⟩
    · rw [stepped] at ran; cases ran
    · rw [stepped] at ran
      obtain ⟨holds',spent⟩ := first.left holds stepped
      obtain ⟨holds'',spent'⟩ := (rest a).left holds' ran
      refine ⟨holds'',?_⟩
      rw [spent',spent,after,stepped,total_append,Nat.sub_sub]

-- What a computation looks up in its state first.
theorem asks {α : Type} (g : σ → α) {x : α → σ → Except κ (β × σ)} {records : α → σ → List ε}
    (rest : ∀ a, Meters events fixed level (x a) (records a)) :
    Meters events fixed level (fun s => x (g s) s) fun s => records (g s) s where
  truthful {s} := (rest (g s)).truthful
  left {s _ _} := (rest (g s)).left

theorem shows {e : Nat → ε} (free : ∀ n, events.cost (e n) = 0) (shown : ∀ n, events.reading (e n) = some n)
    {x : Nat → σ → Except κ (β × σ)} {records : Nat → σ → List ε} (rest : ∀ n, Meters events fixed level (x n) (records n)) :
    Meters events fixed level (fun s => x (level s) s) fun s => e (level s) :: records (level s) s where
  truthful {s} holds := by
    refine ⟨fun n same => ?_,?_⟩
    · rw [shown] at same
      exact (Option.some.inj same).symm
    · rw [free]
      exact (rest (level s)).truthful holds
  left {s s'} b holds ran := by
    obtain ⟨holds',spent⟩ := (rest (level s)).left holds ran
    exact ⟨holds',by rw [spent,total_cons,free,Nat.zero_add]⟩

-- An event of its own, before the rest.
theorem event {e : ε} (spend : σ → σ) (silent : events.reading e = none)
    (spends : ∀ s, fixed s → fixed (spend s) ∧ level (spend s) = level s - events.cost e)
    (rest : Meters events fixed level x record) : Meters events fixed level (fun s => x (spend s)) fun s => e :: record (spend s) where
  truthful {s} holds := by
    obtain ⟨holds',spent⟩ := spends s holds
    refine ⟨fun n shown => ?_,?_⟩
    · rw [silent] at shown; cases shown
    · rw [←spent]
      exact rest.truthful holds'
  left {s s'} b holds ran := by
    obtain ⟨holds',spent⟩ := spends s holds
    obtain ⟨holds'',spent'⟩ := rest.left holds' ran
    refine ⟨holds'',?_⟩
    rw [spent',spent,total_cons,Nat.sub_sub]

theorem congr {x' : σ → Except κ (β × σ)} {record' : σ → List ε} (metered : Meters events fixed level x record)
    (same : x' = x) (sameRecord : record' = record) : Meters events fixed level x' record' := by
  subst same sameRecord
  exact metered

-- What is at zero stays there.
theorem stays_zero (metered : Meters events fixed level x record) {s s' : σ} {b : β} (holds : fixed s) (zero : level s = 0)
    (ran : x s = .ok (b,s')) : level s' = 0 := by
  rw [(metered.left holds ran).2,zero,Nat.zero_sub]

end Meters

end Metering
