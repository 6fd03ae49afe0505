import Mathlib

namespace TinyWasm

variable {ε α β σ τ : Type} {R : σ → τ → Prop}

-- Two runs end abreast with the same answer and related states, or with the same
-- error.
inductive Abreast (R : σ → τ → Prop) : Except ε (β × σ) → Except ε (β × τ) → Prop where
  | answers {b : β} {s : σ} {t : τ} : R s t → Abreast R (.ok (b,s)) (.ok (b,t))
  | fails (e : ε) : Abreast R (.error e) (.error e)

-- Two parts of a program that run in step from related states.
def Lockstep (R : σ → τ → Prop) (x : σ → Except ε (β × σ)) (y : τ → Except ε (β × τ)) : Prop :=
  ∀ s t, R s t → Abreast R (x s) (y t)

namespace Abreast
variable {a : Except ε (α × σ)} {b : Except ε (α × τ)}

theorem bind {σ' τ' : Type} {Q : σ' → τ' → Prop} {f : α × σ → Except ε (β × σ')} {g : α × τ → Except ε (β × τ')}
    (first : Abreast R a b) (rest : ∀ v s t, R s t → Abreast Q (f (v,s)) (g (v,t))) : Abreast Q (a >>= f) (b >>= g) := by
  cases first with
  | @answers v s t related => exact rest v s t related
  | fails e => exact .fails e

-- What one of them answers, the other does.
theorem left {v : α} {s : σ} (abreast : Abreast R a b) (ran : a = .ok (v,s)) : ∃ t, b = .ok (v,t) ∧ R s t := by
  subst ran
  cases abreast with
  | answers related => exact ⟨_,rfl,related⟩

theorem right {v : α} {t : τ} (abreast : Abreast R a b) (ran : b = .ok (v,t)) : ∃ s, a = .ok (v,s) ∧ R s t := by
  subst ran
  cases abreast with
  | answers related => exact ⟨_,rfl,related⟩

theorem failed {e : ε} (abreast : Abreast R a b) (ran : b = .error e) : a = .error e := by
  subst ran
  cases abreast with
  | fails e => rfl

theorem mono {Q : σ → τ → Prop} (abreast : Abreast R a b) (weaker : ∀ s t, R s t → Q s t) : Abreast Q a b := by
  cases abreast with
  | answers related => exact .answers (weaker _ _ related)
  | fails e => exact .fails e

theorem trans {ρ : Type} {Q : τ → ρ → Prop} {S : σ → ρ → Prop} {c : Except ε (α × ρ)} (first : Abreast R a b) (next : Abreast Q b c)
    (composed : ∀ s t r, R s t → Q t r → S s r) : Abreast S a c := by
  cases first with
  | answers related =>
    cases next with
    | answers related' => exact .answers (composed _ _ _ related related')
  | fails e =>
    cases next with
    | fails e => exact .fails e

end Abreast

namespace Lockstep
variable {x : σ → Except ε (α × σ)} {y : τ → Except ε (α × τ)} {f : α → σ → Except ε (β × σ)} {g : α → τ → Except ε (β × τ)}

theorem andThen (first : Lockstep R x y) (rest : ∀ a, Lockstep R (f a) (g a)) :
    Lockstep R (fun s => x s >>= fun p => f p.1 p.2) fun t => y t >>= fun p => g p.1 p.2 :=
  fun s t related => (first s t related).bind fun v s t related => rest v s t related

theorem modify {c : α} {f : σ → σ} {g : τ → τ} (keeps : ∀ s t, R s t → R (f s) (g t)) :
    Lockstep R (fun s => (.ok (c,f s) : Except ε (α × σ))) fun t => .ok (c,g t) :=
  fun s t related => .answers (keeps s t related)

theorem answer (c : α) : Lockstep R (fun s => (.ok (c,s) : Except ε (α × σ))) fun t => .ok (c,t) := modify fun _ _ => id

end Lockstep

end TinyWasm
