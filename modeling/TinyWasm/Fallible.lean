import Mathlib

-- Fallible calls in a row. The first that fails ends them.
namespace Fallible
variable {α β ε : Type} {f : α → Except ε β} {xs : List α} {ys : List β}

-- A sequence that ends well has a first part that did.
theorem except_bind_ok {x : Except ε α} {f : α → Except ε β} {b : β} (ran : x >>= f = .ok b) : ∃ a, x = .ok a ∧ f a = .ok b := by
  cases x with
  | error error => cases ran
  | ok a => exact ⟨a,rfl,ran⟩

theorem mapM_cons_ok {x : α} (ran : (x :: xs).mapM f = .ok ys) : ∃ y rest, f x = .ok y ∧ xs.mapM f = .ok rest ∧ ys = y :: rest := by
  rw [List.mapM_cons] at ran
  obtain ⟨y,first,ran⟩ := except_bind_ok ran
  obtain ⟨rest,later,ran⟩ := except_bind_ok ran
  cases ran
  exact ⟨y,rest,first,later,rfl⟩

theorem mapM_length (ran : xs.mapM f = .ok ys) : ys.length = xs.length := by
  induction xs generalizing ys with
  | nil => cases ran; rfl
  | cons x xs ih =>
    obtain ⟨y,rest,_,later,rfl⟩ := mapM_cons_ok ran
    exact congrArg Nat.succ (ih later)

theorem mapM_getElem? {k : Nat} {x : α} (ran : xs.mapM f = .ok ys) (there : xs[k]? = some x) :
    ∃ y, ys[k]? = some y ∧ f x = .ok y := by
  induction xs generalizing ys k with
  | nil => cases there
  | cons first xs ih =>
    obtain ⟨y,rest,one,later,rfl⟩ := mapM_cons_ok ran
    cases k with
    | zero => cases there; exact ⟨y,rfl,one⟩
    | succ k =>
      obtain ⟨y',found,same⟩ := ih later there
      exact ⟨y',found,same⟩

theorem mapM_mem (ran : xs.mapM f = .ok ys) : ∀ y ∈ ys, ∃ x ∈ xs, f x = .ok y := by
  induction xs generalizing ys with
  | nil => cases ran; nofun
  | cons x xs ih =>
    obtain ⟨first,rest,one,later,rfl⟩ := mapM_cons_ok ran
    intro y listed
    rcases List.mem_cons.mp listed with rfl | listed
    · exact ⟨x,List.mem_cons_self,one⟩
    · obtain ⟨x',among,found⟩ := ih later y listed
      exact ⟨x',List.mem_cons_of_mem _ among,found⟩

theorem mapM_ok_mem (ran : xs.mapM f = .ok ys) (x : α) (present : x ∈ xs) : ∃ y, f x = .ok y := by
  obtain ⟨k,there⟩ := List.mem_iff_getElem?.mp present
  obtain ⟨y,_,found⟩ := mapM_getElem? ran there
  exact ⟨y,found⟩

theorem mapM_ok_of (all : ∀ x ∈ xs, ∃ y, f x = .ok y) : ∃ ys, xs.mapM f = .ok ys := by
  induction xs with
  | nil => exact ⟨[],rfl⟩
  | cons first rest ih =>
    obtain ⟨y,called⟩ := all first List.mem_cons_self
    obtain ⟨ys,later⟩ := ih fun x among => all x (List.mem_cons_of_mem _ among)
    exact ⟨y :: ys,by rw [List.mapM_cons,called,later]; rfl⟩

theorem mapM_ok {g : α → β} (each : ∀ x ∈ xs, f x = .ok (g x)) : xs.mapM f = .ok (xs.map g) := by
  induction xs with
  | nil => rfl
  | cons x rest ih =>
    rw [List.mapM_cons,each x List.mem_cons_self,ih fun y later => each y (List.mem_cons_of_mem x later)]
    rfl

theorem mapM_append_error {ys : List α} {e : ε} (failed : xs.mapM f = .error e) : (xs ++ ys).mapM f = .error e := by
  rw [List.mapM_append,failed]
  rfl

theorem mapM_append_ok {ys : List α} {zs ws : List β} (front : xs.mapM f = .ok zs) (back : ys.mapM f = .ok ws) :
    (xs ++ ys).mapM f = .ok (zs ++ ws) := by
  rw [List.mapM_append,front,back]
  rfl

theorem mapM_first_error {x : α} {ys : List α} {e : ε} (before : ∀ x ∈ xs, ∃ y, f x = .ok y) (failed : f x = .error e) :
    (xs ++ x :: ys).mapM f = .error e := by
  obtain ⟨zs,front⟩ := mapM_ok_of before
  rw [List.mapM_append,front,List.mapM_cons,failed]
  rfl

end Fallible
