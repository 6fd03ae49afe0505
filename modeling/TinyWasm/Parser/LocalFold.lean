import TinyWasm.Parser.FusedForms

namespace TinyWasm

-- An end that nothing runs after.
def Stops (end_ : Checked (Except Trap Unit × Machine)) : Prop :=
  (∃ abort, end_ = .error abort) ∨ ∃ t m, end_ = .ok (.error t,m)

theorem Stops.bind {x : Step Unit} {f : Unit → Step Unit} {m : Machine} (stops : Stops (x m)) : (x >>= f) m = x m := by
  rw [Exec.bind_run]
  rcases stops with ⟨abort,ended⟩ | ⟨t,m',ended⟩ <;> rw [ended]

section Fold
variable [Allocator] [Numerics] {ctx : Context} {K : Shape} {below : StackBase} {size : OperandSize}
  {i : Instruction} {set : Option Instruction} {x y dst : LocalAddr} {m : Machine} {ts : List OperandSize}

-- A first operand ends in its local, with a copy on the stack that the form
-- without it lacks.
theorem Source.runs (source : Source ctx K size i set x) (small : x < ctx.cf.stackOffset size)
    (stands : Stands ctx.cf K below m (i.operands K ctx.module ++ ts)) :
    Overflows (execStraight ctx i m) ∨
    (Stops (execStraight ctx i m) ∧ execWindow ctx set.toList m = execStraight ctx i m) ∨
    ∃ M a, execStraight ctx i m = .ok (.ok (),M.onTop size a) ∧ execWindow ctx set.toList m = .ok (.ok (),M) ∧
      M.localAt ctx.cf size x = a ∧ Stands ctx.cf K below M ts ∧ M.Room size := by
  cases source with
  | get x _ ran operands =>
    rw [operands] at stands
    have got := Machine.localGet_inside (stands.inside small)
    rcases push_cases stands (m.localAt ctx.cf size x) with full | ⟨room,pushed⟩
    · exact .inl ⟨m,by simp only [ran,pushValue,Exec.bind_run,got,full]⟩
    · exact .inr (.inr ⟨m,_,by simp only [ran,pushValue,Exec.bind_run,got,pushed],rfl,rfl,stands,room⟩)
  | tee x same ran operands =>
    rw [operands] at stands
    obtain ⟨m₀,v,rfl,stands₀,room⟩ := stands.cons
    refine .inr (.inr ⟨m₀.withLocal ctx.cf size x v,v,?_,?_,?_,stands₀.withLocal v,?_⟩)
    · rw [ran,localTee_onTop stands₀ small]
    · exact (congrFun (execWindow_one _) _).trans (setPop_onTop stands₀ small v)
    · exact Machine.localAt_withLocal (stands₀.inside small) v
    · exact room.withLocal ctx.cf x v
  | fused x set value _ reads ran ran' operands =>
    rw [operands] at stands
    have alone : execWindow ctx (some set).toList m = setValue ctx.cf size x value m := by
      rw [←ran']
      exact congrFun (execWindow_one _) _
    rw [ran,alone]
    rcases reads below m _ stands with ⟨abort,read,_⟩ | ⟨t,read,_⟩ | ⟨v,read,_⟩
    · simp only [teeValue,setValue,Exec.bind_run,read]
      exact .inr (.inl ⟨.inl ⟨abort,rfl⟩,trivial⟩)
    · simp only [teeValue,setValue,Exec.bind_run,read]
      exact .inr (.inl ⟨.inr ⟨t,m,rfl⟩,trivial⟩)
    · have stored := Machine.localSet_inside (stands.inside small) v
      have kept := stands.withLocal (i := x) v
      simp only [teeValue,setValue,Exec.bind_run,read,stored]
      rcases push_cases kept v with full | ⟨room,pushed⟩
      · exact .inl ⟨_,full⟩
      · exact .inr (.inr ⟨_,v,pushed,rfl,Machine.localAt_withLocal (stands.inside small) v,kept,room⟩)

-- A second operand that is not the stack's top beside the first.
theorem Source.runs_second (source : Source ctx K size i set y) (small : y < ctx.cf.stackOffset size)
    (read_only : i ≠ .localTee size y) (apart : set = none ∨ y ≠ x) {M : Machine} (stands : Stands ctx.cf K below M ts)
    (room : M.Room size) (a : Value size) :
    Overflows (execStraight ctx i (M.onTop size a)) ∨
    (∃ abort, execStraight ctx i (M.onTop size a) = .error abort ∧ execWindow ctx set.toList M = .error abort) ∨
    (∃ t, execStraight ctx i (M.onTop size a) = .ok (.error t,M.onTop size a) ∧
      execWindow ctx set.toList M = .ok (.error t,M)) ∨
    ∃ M' b, execStraight ctx i (M.onTop size a) = .ok (.ok (),(M'.onTop size a).onTop size b) ∧
      execWindow ctx set.toList M = .ok (.ok (),M') ∧ M'.localAt ctx.cf size x = M.localAt ctx.cf size x ∧
      M'.localAt ctx.cf size y = b ∧ Stands ctx.cf K below M' ts ∧ M'.Room size := by
  have above := stands.onTop room a
  cases source with
  | get y _ ran _ =>
    have got : Machine.localGet ctx.cf size y (M.onTop size a) = .ok (.ok (M.localAt ctx.cf size y),M.onTop size a) := by
      rw [Machine.localGet_inside (above.inside small),Machine.localAt_onTop (stands.inside small)]
    rcases push_cases above (M.localAt ctx.cf size y) with full | ⟨_,pushed⟩
    · exact .inl ⟨M.onTop size a,by simp only [ran,pushValue,Exec.bind_run,got,full]⟩
    · exact .inr (.inr (.inr ⟨M,_,by simp only [ran,pushValue,Exec.bind_run,got,pushed],rfl,rfl,rfl,stands,room⟩))
  | tee y same _ _ => exact absurd same read_only
  | fused y set value _ reads ran ran' _ =>
    have apart : y ≠ x := apart.resolve_left (by simp)
    have alone : execWindow ctx (some set).toList M = setValue ctx.cf size y value M := by
      rw [←ran']
      exact congrFun (execWindow_one _) _
    rw [ran,alone]
    rcases reads below M _ stands with ⟨abort,read,exceeds⟩ | ⟨t,read,exceeds⟩ | ⟨b,read,exceeds⟩
    · simp only [teeValue,setValue,Exec.bind_run,read,exceeds]
      exact .inr (.inl ⟨abort,rfl,rfl⟩)
    · simp only [teeValue,setValue,Exec.bind_run,read,exceeds]
      exact .inr (.inr (.inl ⟨t,rfl,rfl⟩))
    · have stored := Machine.localSet_inside (stands.inside small) b
      have stored' : Machine.localSet ctx.cf size y b (M.onTop size a) =
          .ok (.ok (),(M.withLocal ctx.cf size y b).onTop size a) := by
        rw [Machine.localSet_inside (above.inside small),Machine.withLocal_onTop (stands.inside small)]
      have kept := stands.withLocal (i := y) b
      have room' := room.withLocal ctx.cf y b
      simp only [teeValue,setValue,Exec.bind_run,read,exceeds,stored,stored']
      rcases push_cases (kept.onTop room' a) b with full | ⟨_,pushed⟩
      · exact .inl ⟨_,full⟩
      · exact .inr (.inr (.inr ⟨_,b,pushed,rfl,Machine.localAt_withLocal_ne apart b,
          Machine.localAt_withLocal (stands.inside small) b,kept,room'⟩))

-- Where the folded result goes: into a local, or into it and on the stack.
inductive Sink (ctx : Context) (size : OperandSize) (dst : LocalAddr) : Step Unit → (Step (Value size) → Step Unit) → Prop where
  | set : Sink ctx size dst (setValue ctx.cf size dst (Machine.pop size)) (setValue ctx.cf size dst)
  | tee : Sink ctx size dst (Machine.localTee ctx.cf size dst) (teeValue ctx.cf size dst)

omit [Numerics] in
theorem Sink.runs {fin : Step Unit} {out : Step (Value size) → Step Unit} (sink : Sink ctx size dst fin out)
    (small : dst < ctx.cf.stackOffset size) (stands : Stands ctx.cf K below m ts) (room : m.Room size)
    {value : Step (Value size)} {v : Value size} (ran : value m = .ok (.ok v,m)) : fin (m.onTop size v) = out value m := by
  have stored := Machine.localSet_inside (stands.inside small) v
  cases sink with
  | set => simp only [setValue,Exec.bind_run,Machine.pop_onTop,ran,stored]
  | tee =>
    have pushed := Machine.push_onTop (room.withLocal ctx.cf dst v) v
    simp only [localTee_onTop stands small,teeValue,Exec.bind_run,ran,stored,pushed]

omit [Numerics] in
theorem Sink.stops {fin : Step Unit} {out : Step (Value size) → Step Unit} (sink : Sink ctx size dst fin out)
    {value : Step (Value size)} :
    (∀ abort, value m = .error abort → out value m = .error abort) ∧
      ∀ t m', value m = .ok (.error t,m') → out value m = .ok (.error t,m') := by
  cases sink with
  | set => exact ⟨fun abort ran => by simp only [setValue,Exec.bind_run,ran],fun t m' ran => by simp only [setValue,Exec.bind_run,ran]⟩
  | tee => exact ⟨fun abort ran => by simp only [teeValue,Exec.bind_run,ran],fun t m' ran => by simp only [teeValue,Exec.bind_run,ran]⟩

variable {lhs rhs raw last fused : Instruction} {lset rset : Option Instruction} {f : Value size → Value size → Value size}
  {fin : Step Unit} {out : Step (Value size) → Step Unit}

theorem fold_locals (left : Source ctx K size lhs lset x) (right : Source ctx K size rhs rset y)
    (smallx : x < ctx.cf.stackOffset size) (smally : y < ctx.cf.stackOffset size) (smalld : dst < ctx.cf.stackOffset size)
    (read_only : rhs ≠ .localTee size y) (apart : rset = none ∨ y ≠ x) (operator : execStraight ctx raw = execBinary size f)
    (sink : Sink ctx size dst fin out) (ended : execStraight ctx last = fin)
    (made : execStraight ctx fused = out (binopLocalLocal ctx.cf size f x y)) :
    Covers ctx.cf K below (lhs.operands K ctx.module ++ ts) (execWindow ctx [lhs,rhs,raw,last])
      (execWindow ctx (lset.toList ++ rset.toList ++ [fused])) := by
  intro m stands
  simp only [execWindow_append,execWindow_cons,execWindow_nil,Exec.bind_unit,operator,ended,made]
  rcases left.runs smallx stands with ⟨m',exceeds⟩ | ⟨stops,same⟩ | ⟨M,a,ran,alone,held,stands₁,room⟩
  · exact .inl ⟨m',by simp only [Exec.bind_run,exceeds]⟩
  · have stops' : Stops (execWindow ctx lset.toList m) := same.symm ▸ stops
    refine .inr (.inl ?_)
    rw [stops.bind,Exec.bind_assoc,stops'.bind,same]
  · simp only [Exec.bind_run,ran,alone]
    rcases right.runs_second smally read_only apart stands₁ room a with ⟨m',exceeds⟩ | ⟨abort,ran',alone'⟩ | ⟨t,ran',alone'⟩ |
      ⟨M',b,ran',alone',first,second,stands₂,room'⟩
    · exact .inl ⟨m',by simp only [exceeds]⟩
    · exact .inr (.inl (by simp only [ran',alone']))
    · refine .inr (.inr ⟨t,M.onTop size a,M,by simp only [ran'],by simp only [alone'],rfl,fun other => ?_⟩)
      exact Machine.take_onTop (stands₁.low other) a
    · have value : binopLocalLocal ctx.cf size f x y M' = .ok (.ok (f a b),M') := by
        simp only [binopLocalLocal,Exec.bind_run,Machine.localGet_inside (stands₂.inside smallx),
          Machine.localGet_inside (stands₂.inside smally),first,second,held,Exec.pure_run]
      simp only [ran',alone',execBinary_onTop room',sink.runs smalld stands₂ room' value]
      exact .inr (.inl rfl)

theorem fold_const {imm : Step (Value size)} (left : Source ctx K size lhs lset x) (smallx : x < ctx.cf.stackOffset size)
    (smalld : dst < ctx.cf.stackOffset size) (reads : Reads ctx.cf K imm) (const : execStraight ctx rhs = pushValue size imm)
    (operator : execStraight ctx raw = execBinary size f) (sink : Sink ctx size dst fin out)
    (ended : execStraight ctx last = fin)
    (made : execStraight ctx fused = out (imm >>= fun c => binopLocalConst ctx.cf size f x c)) :
    Covers ctx.cf K below (lhs.operands K ctx.module ++ ts) (execWindow ctx [lhs,rhs,raw,last])
      (execWindow ctx (lset.toList ++ [fused])) := by
  intro m stands
  simp only [execWindow_append,execWindow_cons,execWindow_nil,Exec.bind_unit,operator,ended,made,const]
  rcases left.runs smallx stands with ⟨m',exceeds⟩ | ⟨stops,same⟩ | ⟨M,a,ran,alone,held,stands₁,room⟩
  · exact .inl ⟨m',by simp only [Exec.bind_run,exceeds]⟩
  · have stops' : Stops (execWindow ctx lset.toList m) := same.symm ▸ stops
    refine .inr (.inl ?_)
    rw [stops.bind,stops'.bind,same]
  · simp only [Exec.bind_run,ran,alone,pushValue]
    rcases reads below M _ stands₁ with ⟨abort,read,exceeds⟩ | ⟨t,read,exceeds⟩ | ⟨b,read,exceeds⟩
    · refine .inr (.inl ?_)
      rw [sink.stops.1 abort (by simp only [Exec.bind_run,read])]
      simp only [exceeds]
    · refine .inr (.inr ⟨t,M.onTop size a,M,by simp only [exceeds],?_,rfl,fun other => Machine.take_onTop (stands₁.low other) a⟩)
      exact sink.stops.2 t M (by simp only [Exec.bind_run,read])
    · simp only [exceeds]
      rcases push_cases (stands₁.onTop room a) b with full | ⟨_,pushed⟩
      · exact .inl ⟨M.onTop size a,by simp only [full]⟩
      · have value : (imm >>= fun c => binopLocalConst ctx.cf size f x c) M = .ok (.ok (f a b),M) := by
          simp only [binopLocalConst,Exec.bind_run,read,Machine.localGet_inside (stands₁.inside smallx),held,Exec.pure_run]
        simp only [pushed,execBinary_onTop room,sink.runs smalld stands₁ room value]
        exact .inr (.inl rfl)

-- Where the second source keeps the first operand and pushes nothing, the fold
-- takes it for one, and what lies under the first operand for the other.
def FoldKeeps (ctx : Context) (size : OperandSize) (f : Value size → Value size → Value size) (lhs : Instruction)
    (y dst : LocalAddr) (m : Machine) : Prop :=
  ∀ m₁ under u a, execStraight ctx lhs m = .ok (.ok (),m₁) → (m₁.valueStack.lane size).data = under ++ [u,a] →
    u = a ∨ (y = dst ∧ f u a = f a u)

omit [Numerics] in
-- The two ends hold the same where the two locals do.
theorem Sink.same_iff (sink : Sink ctx size dst fin out) (smalld : dst < ctx.cf.stackOffset size)
    (smally : y < ctx.cf.stackOffset size) (stands : Stands ctx.cf K below m ts) (room : m.Room size) {u a v w : Value size}
    (equal : u = a → v = w) {value value' : Step (Value size)}
    (ran : value (m.withLocal ctx.cf size y a) = .ok (.ok v,m.withLocal ctx.cf size y a))
    (ran' : value' (m.withLocal ctx.cf size y u) = .ok (.ok w,m.withLocal ctx.cf size y u)) :
    SameEnd below (out value (m.withLocal ctx.cf size y a)) (out value' (m.withLocal ctx.cf size y u)) ↔
      u = a ∨ (y = dst ∧ v = w) := by
  have stands₁ := stands.withLocal (i := y) a
  have stands₂ := stands.withLocal (i := y) u
  have stored₁ := Machine.localSet_inside (stands₁.inside smalld) v
  have stored₂ := Machine.localSet_inside (stands₂.inside smalld) w
  let final₁ := (m.withLocal ctx.cf size y a).withLocal ctx.cf size dst v
  let final₂ := (m.withLocal ctx.cf size y u).withLocal ctx.cf size dst w
  have forth (there : ∀ j, final₁.localAt ctx.cf size j = final₂.localAt ctx.cf size j) : u = a ∨ (y = dst ∧ v = w) := by
    have results := there dst
    simp only [final₁,final₂,Machine.localAt_withLocal (stands₁.inside smalld),
      Machine.localAt_withLocal (stands₂.inside smalld)] at results
    by_cases same : y = dst
    · exact .inr ⟨same,results⟩
    · have kept := there y
      simp only [final₁,final₂,Machine.localAt_withLocal_ne (Ne.symm same),
        Machine.localAt_withLocal (stands.inside smally)] at kept
      exact .inl kept.symm
  have back (either : u = a ∨ (y = dst ∧ v = w)) : v = w ∧ final₁ = final₂ := by
    rcases either with same | ⟨same,results⟩
    · subst same
      exact ⟨equal rfl,by simp only [final₁,final₂,equal rfl]⟩
    · subst same results
      exact ⟨rfl,by simp only [final₁,final₂,Machine.withLocal_withLocal]⟩
  cases sink with
  | set =>
    simp only [setValue,Exec.bind_run,ran,ran',stored₁,stored₂]
    refine ⟨fun alike => forth fun j => alike.localAt ctx.cf size j,fun either => ?_⟩
    change final₁.Alike final₂
    rw [(back either).2]
    exact .rfl
  | tee =>
    have pushed₁ := Machine.push_onTop ((room.withLocal ctx.cf y a).withLocal ctx.cf dst v) v
    have pushed₂ := Machine.push_onTop ((room.withLocal ctx.cf y u).withLocal ctx.cf dst w) w
    simp only [teeValue,Exec.bind_run,ran,ran',stored₁,stored₂]
    rw [pushed₁,pushed₂]
    refine ⟨fun alike => forth fun j => ?_,fun either => ?_⟩
    · have alike : (final₁.onTop size v).Alike (final₂.onTop size w) := alike
      exact alike.of_onTop.localAt ctx.cf size j
    · change (final₁.onTop size v).Alike (final₂.onTop size w)
      rw [(back either).2,(back either).1]
      exact .rfl

theorem foldKeeps_iff {M₀ : Machine} {u a : Value size}
    (ran : execStraight ctx lhs m = .ok (.ok (),(M₀.onTop size u).onTop size a)) :
    FoldKeeps ctx size f lhs y dst m ↔ u = a ∨ (y = dst ∧ f u a = f a u) := by
  have data : (((M₀.onTop size u).onTop size a).valueStack.lane size).data = (M₀.valueStack.lane size).data ++ [u,a] := by
    simp [Machine.onTop]
  constructor
  · intro keeps
    exact keeps _ _ u a ran data
  · intro either m₁ under u' a' ran' data'
    cases ran.symm.trans ran'
    have same := List.append_inj_right' (data.symm.trans data') (by simp)
    obtain ⟨rfl,rest⟩ := List.cons.inj same
    obtain ⟨rfl,_⟩ := List.cons.inj rest
    exact either

theorem foldKeeps_stops (stops : Stops (execStraight ctx lhs m)) : FoldKeeps ctx size f lhs y dst m := by
  intro m₁ under u a ran
  rcases stops with ⟨abort,stopped⟩ | ⟨t,m',stopped⟩ <;> cases stopped.symm.trans ran

-- The one fold that takes an operand off the stack twice, and the first from
-- where only the second was meant to be.
theorem fold_tee (left : Source ctx K size lhs lset x) (smallx : x < ctx.cf.stackOffset size)
    (smally : y < ctx.cf.stackOffset size) (smalld : dst < ctx.cf.stackOffset size) (apart : y ≠ x)
    (operator : execStraight ctx raw = execBinary size f) (sink : Sink ctx size dst fin out)
    (ended : execStraight ctx last = fin) (made : execStraight ctx fused = out (binopLocalLocal ctx.cf size f x y))
    (stands : Stands ctx.cf K below m (lhs.operands K ctx.module ++ size :: ts))
    (fits : ¬Overflows (execWindow ctx [lhs,.localTee size y,raw,last] m)) :
    SameEnd below (execWindow ctx [lhs,.localTee size y,raw,last] m)
      (execWindow ctx (lset.toList ++ [.localSet size y] ++ [fused]) m) ↔ FoldKeeps ctx size f lhs y dst m := by
  simp only [execWindow_append,execWindow_cons,execWindow_nil,Exec.bind_unit,operator,ended,made] at fits ⊢
  rcases left.runs smallx stands with ⟨m',exceeds⟩ | ⟨stops,same⟩ | ⟨M,a,ran,alone,held,stands₁,room⟩
  · exact absurd ⟨m',by simp only [Exec.bind_run,exceeds]⟩ fits
  · have stops' : Stops (execWindow ctx lset.toList m) := same.symm ▸ stops
    refine iff_of_true ?_ (foldKeeps_stops stops)
    rw [stops.bind,Exec.bind_assoc,stops'.bind,same]
    exact .refl
  · obtain ⟨M₀,u,rfl,stands₀,room₀⟩ := stands₁.cons
    have teed : execStraight ctx (.localTee size y) ((M₀.onTop size u).onTop size a) =
        .ok (.ok (),((M₀.withLocal ctx.cf size y a).onTop size u).onTop size a) := by
      rw [←Machine.withLocal_onTop (stands₀.inside smally)]
      exact localTee_onTop stands₁ smally a
    have set : execStraight ctx (.localSet size y) (M₀.onTop size u) = .ok (.ok (),M₀.withLocal ctx.cf size y u) :=
      setPop_onTop stands₀ smally u
    have first : fin ((M₀.withLocal ctx.cf size y a).onTop size (f u a)) = out (pure (f u a)) (M₀.withLocal ctx.cf size y a) :=
      sink.runs smalld (stands₀.withLocal a) (room₀.withLocal ctx.cf y a) rfl
    have held : (M₀.withLocal ctx.cf size y u).localAt ctx.cf size x = a := by
      rw [Machine.localAt_withLocal_ne apart,←held,Machine.localAt_onTop (stands₀.inside smallx)]
    have value : binopLocalLocal ctx.cf size f x y (M₀.withLocal ctx.cf size y u) =
        .ok (.ok (f a u),M₀.withLocal ctx.cf size y u) := by
      have inside {j : LocalAddr} (small : j < ctx.cf.stackOffset size) := (stands₀.withLocal (i := y) u).inside small
      simp only [binopLocalLocal,Exec.bind_run,Machine.localGet_inside (inside smallx),Machine.localGet_inside (inside smally),
        held,Machine.localAt_withLocal (stands₀.inside smally),Exec.pure_run]
    simp only [Exec.bind_run,ran,alone,teed,set,execBinary_onTop (room₀.withLocal ctx.cf y a),first]
    rw [foldKeeps_iff ran]
    exact sink.same_iff smalld smally stands₀ room₀ (fun same => by rw [same]) rfl value

end Fold

end TinyWasm
