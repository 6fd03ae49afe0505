import Mathlib

namespace Loop
variable {σ ρ ε : Type}

-- A loop whose body goes round again, leaves with a value or stops with an
-- error. `stuck` is what a run says that is cut off before it ends.
def run (step : σ → Except ε (σ ⊕ ρ)) (stuck : ε) : Nat → σ → Except ε ρ
  | 0,_ => .error stuck
  | fuel + 1,s => do
    match ← step s with
    | .inl next => run step stuck fuel next
    | .inr r => .ok r

inductive Ends (step : σ → Except ε (σ ⊕ ρ)) : σ → Except ε ρ → Prop where
  | stop {s : σ} {e : ε} (stopped : step s = .error e) : Ends step s (.error e)
  | leave {s : σ} {r : ρ} (left : step s = .ok (.inr r)) : Ends step s (.ok r)
  | again {s next : σ} {result : Except ε ρ} (went : step s = .ok (.inl next)) (rest : Ends step next result) :
      Ends step s result

-- One state comes to the other, so it ends as that does.
def Leads (step : σ → Except ε (σ ⊕ ρ)) (s t : σ) : Prop := ∀ result, Ends step t result → Ends step s result

theorem Leads.refl (step : σ → Except ε (σ ⊕ ρ)) (s : σ) : Leads step s s := fun _ ends => ends

theorem Leads.step {step : σ → Except ε (σ ⊕ ρ)} {s t u : σ} (went : step s = .ok (.inl t)) (rest : Leads step t u) :
    Leads step s u := fun result ends => .again went (rest result ends)

variable {step : σ → Except ε (σ ⊕ ρ)} {stuck : ε} {s : σ} {result result' : Except ε ρ}

theorem Ends.functional (left : Ends step s result) (right : Ends step s result') : result = result' := by
  induction left with
  | stop stopped =>
    cases right with
    | stop stopped' => rw [stopped] at stopped'; cases stopped'; rfl
    | leave left => rw [stopped] at left; cases left
    | again went _ => rw [stopped] at went; cases went
  | leave left =>
    cases right with
    | stop stopped => rw [left] at stopped; cases stopped
    | leave left' => rw [left] at left'; cases left'; rfl
    | again went _ => rw [left] at went; cases went
  | again went _ ih =>
    cases right with
    | stop stopped => rw [went] at stopped; cases stopped
    | leave left => rw [went] at left; cases left
    | again went' rest => rw [went] at went'; cases went'; exact ih rest

-- A loop that ends is not cut off by any fuel from some point on.
theorem Ends.run (ends : Ends step s result) : ∃ enough, ∀ fuel ≥ enough, Loop.run step stuck fuel s = result := by
  induction ends with
  | stop stopped =>
    refine ⟨1,fun fuel more => ?_⟩
    cases fuel with
    | zero => cases more
    | succ fuel => rw [Loop.run,stopped]; rfl
  | leave left =>
    refine ⟨1,fun fuel more => ?_⟩
    cases fuel with
    | zero => cases more
    | succ fuel => rw [Loop.run,left]; rfl
  | again went _ ih =>
    obtain ⟨enough,ran⟩ := ih
    refine ⟨enough + 1,fun fuel more => ?_⟩
    cases fuel with
    | zero => cases more
    | succ fuel =>
      rw [Loop.run,went]
      exact ran fuel (Nat.le_of_succ_le_succ more)

-- Partial correctness of a computation that can stop short: `E` of where it
-- stops, `Q` of what it returns.
def Holds {α : Type} (E : ε → Prop) (Q : α → Prop) : Except ε α → Prop
  | .ok a => Q a
  | .error e => E e

theorem Holds.bind {α β : Type} {E : ε → Prop} {P : α → Prop} {Q : β → Prop} {x : Except ε α} {f : α → Except ε β}
    (first : Holds E P x) (next : ∀ a, P a → Holds E Q (f a)) : Holds E Q (x >>= f) := by
  cases x with
  | error e => exact first
  | ok a => exact next a first

theorem Holds.any {α : Type} (x : Except ε α) : Holds (fun _ => True) (fun _ => True) x := by cases x <;> trivial

-- An invariant of the body carries over to what the loop answers.
theorem run_holds {I : σ → Prop} {Q : ρ → Prop} {E : ε → Prop} (kept : ∀ s, I s → Holds E (Sum.elim I Q) (step s))
    (cut : E stuck) (fuel : Nat) (initial : I s) : Holds E Q (run step stuck fuel s) := by
  induction fuel generalizing s with
  | zero => exact cut
  | succ fuel ih =>
    refine (kept s initial).bind fun next holds => ?_
    cases next with
    | inl next => exact ih holds
    | inr r => exact holds

theorem Ends.holds {I : σ → Prop} {Q : ρ → Prop} {E : ε → Prop} (kept : ∀ s, I s → Holds E (Sum.elim I Q) (step s))
    (ends : Ends step s result) (initial : I s) : Holds E Q result := by
  induction ends with
  | stop stopped =>
    have body := kept _ initial
    rw [stopped] at body
    exact body
  | leave left =>
    have body := kept _ initial
    rw [left] at body
    exact body
  | again went _ ih =>
    have body := kept _ initial
    rw [went] at body
    exact ih body

end Loop
