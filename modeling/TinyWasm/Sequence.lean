import Mathlib

-- Effects applied one after the other. The first that is refused ends the
-- sequence and leaves the state as it found it.
namespace Sequence
variable {σ ω ε : Type} {apply : σ → ω → Except ε σ} {s t : σ} {w : ω} {ws xs ys : List ω} {e : ε}

def run (apply : σ → ω → Except ε σ) (s : σ) : List ω → Option ε × σ
  | [] => (none,s)
  | w :: ws =>
    match apply s w with
    | .error e => (some e,s)
    | .ok t => run apply t ws

theorem run_applied (applied : apply s w = .ok t) : run apply s (w :: ws) = run apply t ws := by
  rw [run,applied]

theorem run_refused (refused : apply s w = .error e) : run apply s (w :: ws) = (some e,s) := by
  rw [run,refused]

theorem run_append_done (done : run apply s xs = (none,t)) : run apply s (xs ++ ys) = run apply t ys := by
  induction xs generalizing s with
  | nil => cases done; rfl
  | cons x xs ih =>
    cases step : apply s x with
    | error e => rw [run_refused step] at done; cases done
    | ok u =>
      rw [run_applied step] at done
      rw [List.cons_append,run_applied step]
      exact ih done

theorem run_append_stopped (stopped : run apply s xs = (some e,t)) : run apply s (xs ++ ys) = (some e,t) := by
  induction xs generalizing s with
  | nil => cases stopped
  | cons x xs ih =>
    cases step : apply s x with
    | error e => rw [run_refused step] at stopped; rw [List.cons_append,run_refused step]; exact stopped
    | ok u =>
      rw [run_applied step] at stopped
      rw [List.cons_append,run_applied step]
      exact ih stopped

theorem run_map {α : Type} (apply : σ → ω → Except ε σ) (s : σ) (f : α → ω) (xs : List α) :
    run apply s (xs.map f) = run (fun s x => apply s (f x)) s xs := by
  induction xs generalizing s with
  | nil => rfl
  | cons x xs ih =>
    rw [List.map_cons]
    cases step : apply s (f x) with
    | error e => simp only [run,step]
    | ok t => simp only [run,step,ih]

-- A stopped sequence is a done one and the effect that was refused after it.
theorem run_stopped_iff : run apply s ws = (some e,t) ↔
    ∃ before w after, ws = before ++ w :: after ∧ run apply s before = (none,t) ∧ apply t w = .error e := by
  constructor
  · intro stopped
    induction ws generalizing s with
    | nil => cases stopped
    | cons x xs ih =>
      cases step : apply s x with
      | error e' =>
        rw [run_refused step] at stopped
        cases stopped
        exact ⟨[],x,xs,rfl,rfl,step⟩
      | ok u =>
        rw [run_applied step] at stopped
        obtain ⟨before,w,after,rfl,done,refused⟩ := ih stopped
        exact ⟨x :: before,w,after,rfl,(run_applied step).trans done,refused⟩
  · rintro ⟨before,w,after,rfl,done,refused⟩
    rw [run_append_done done,run_refused refused]

end Sequence
