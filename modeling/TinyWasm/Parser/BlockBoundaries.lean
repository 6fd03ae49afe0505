import TinyWasm.Parser.BlockRewrites
import TinyWasm.Parser.BuilderTargets

namespace TinyWasm
open Fallible

-- The places that code with its table can branch to.
inductive BranchTarget (code : List Instruction) (table : List Nat) (t : Nat) : Prop where
  | instruction {i : Instruction} : i ∈ code → i.target = some t → BranchTarget code table t
  | entry {i : Instruction} {k : Nat} : i ∈ code → i.Tabulates k → table[k]? = some t → BranchTarget code table t

namespace Aimable
variable {code : List Instruction} {table : List Nat}

theorem emits (aimable : Aimable code table) : ∀ i ∈ code, Emitted (code.length - 1) table.length i := by
  obtain ⟨body,rfl,emitted,_⟩ := aimable.emitted
  intro i listed
  rw [List.length_append,List.length_singleton,Nat.add_sub_cancel]
  rcases List.mem_append.mp listed with inside | last
  · exact emitted i inside
  · obtain rfl := List.mem_singleton.mp last
    exact .plain rfl

theorem nonempty (aimable : Aimable code table) : 0 < code.length := by
  obtain ⟨body,rfl,_,_⟩ := aimable.emitted
  rw [List.length_append]
  exact Nat.succ_pos _

theorem entry_lt (aimable : Aimable code table) {t : Nat} (listed : t ∈ table) : t < code.length := by
  obtain ⟨body,rfl,_,entries⟩ := aimable.emitted
  rw [List.length_append]
  exact Nat.lt_succ_of_le (entries t listed)

theorem target_lt (aimable : Aimable code table) {t : Nat} (target : BranchTarget code table t) : t < code.length := by
  cases target with
  | instruction listed named =>
    have low := (aimable.emits _ listed).target_le named
    have nonempty := aimable.nonempty
    omega
  | entry _ _ there => exact aimable.entry_lt (List.mem_of_getElem? there)

theorem entry_target (aimable : Aimable code table) {t : Nat} (listed : t ∈ table) : BranchTarget code table t := by
  obtain ⟨k,there⟩ := List.mem_iff_getElem?.mp listed
  obtain ⟨i,among,own⟩ := aimable.owned k (List.getElem?_eq_some_iff.mp there).1
  exact .entry among own there

end Aimable

section Threading
variable {code : List Instruction} {table : List Nat}

-- Threading ends where it began or where some jump of the code goes.
theorem followJumps_target {t : Nat} (target : BranchTarget code table t) (steps : Nat) :
    BranchTarget code table (followJumps code steps t) := by
  induction steps generalizing t with
  | zero => exact target
  | succ steps ih =>
    unfold followJumps
    split
    · rename_i next there
      exact ih (.instruction (List.mem_of_getElem? there) rfl)
    · exact target

theorem resolveJumpTarget_target {t : Nat} (target : BranchTarget code table t) :
    BranchTarget code table (resolveJumpTarget code t) := followJumps_target target _

end Threading

section Marks

-- Marking more places.
structure Marks (boundaries boundaries' : List Bool) : Prop where
  length : boundaries'.length = boundaries.length
  kept (t : Nat) : boundaries[t]? = some true → boundaries'[t]? = some true

variable {boundaries boundaries' : List Bool} {data : WasmFunctionData}

theorem Marks.refl (boundaries : List Bool) : Marks boundaries boundaries := ⟨rfl,fun _ => id⟩

theorem Marks.trans {boundaries'' : List Bool} (first : Marks boundaries boundaries') (rest : Marks boundaries' boundaries'') :
    Marks boundaries boundaries'' := ⟨rest.length.trans first.length,fun t marked => rest.kept t (first.kept t marked)⟩

theorem markBoundary_marks (error : Nat → ParseError) {t : Nat} (within : t < boundaries.length) :
    ∃ boundaries', markBoundary error boundaries t = .ok boundaries' ∧ Marks boundaries boundaries' ∧ boundaries'[t]? = some true := by
  refine ⟨boundaries.set t true,if_pos within,⟨List.length_set ..,fun u marked => ?_⟩,List.getElem?_set_self within⟩
  by_cases same : t = u
  · rw [←same]
    exact List.getElem?_set_self within
  · rw [List.getElem?_set_ne same]
    exact marked

theorem markBoundaries_mark (error : Nat → ParseError) {targets : List Nat} (within : ∀ t ∈ targets, t < boundaries.length) :
    ∃ boundaries', targets.foldlM (markBoundary error) boundaries = .ok boundaries' ∧ Marks boundaries boundaries' ∧
      ∀ t ∈ targets, boundaries'[t]? = some true := by
  induction targets generalizing boundaries with
  | nil => exact ⟨boundaries,rfl,.refl _,nofun⟩
  | cons t targets ih =>
    obtain ⟨next,first,marks,marked⟩ := markBoundary_marks error (within t List.mem_cons_self)
    have within' (u : Nat) (listed : u ∈ targets) : u < next.length := by
      rw [marks.length]
      exact within u (List.mem_cons_of_mem _ listed)
    obtain ⟨last,rest,marks',all⟩ := ih within'
    refine ⟨last,by rw [List.foldlM_cons,first]; exact rest,marks.trans marks',fun u listed => ?_⟩
    rcases List.mem_cons.mp listed with rfl | listed
    · exact marks'.kept u marked
    · exact all u listed

theorem branchTargets_ok {start len : Nat} (within : start + len ≤ data.branchTableTargets.length)
    (narrow : data.branchTableTargets.length < 2 ^ 32) :
    branchTargets data start len = .ok ((data.branchTableTargets.drop start).take len) := by
  unfold branchTargets
  rw [if_neg (Nat.not_le_of_lt (Nat.lt_of_le_of_lt within narrow)),if_neg (Nat.not_lt_of_le within)]

theorem markTargets_mark {i : Instruction} {size : Nat} (emitted : Emitted size data.branchTableTargets.length i)
    (room : size < boundaries.length) (entries : ∀ t ∈ data.branchTableTargets, t < boundaries.length)
    (narrow : data.branchTableTargets.length < 2 ^ 32) :
    ∃ boundaries', markTargets data boundaries i = .ok boundaries' ∧ Marks boundaries boundaries' ∧
      (∀ t, i.target = some t → boundaries'[t]? = some true) ∧
      ∀ k t, i.Tabulates k → data.branchTableTargets[k]? = some t → boundaries'[t]? = some true := by
  have single (i : Instruction) (t : Nat) (within : t ≤ size) (named : i.target = some t) (alone : ∀ k, ¬i.Tabulates k)
      (same : ∀ boundaries, markTargets data boundaries i = markBoundary targetOutOfBounds boundaries t) :
      ∃ boundaries', markTargets data boundaries i = .ok boundaries' ∧ Marks boundaries boundaries' ∧
        (∀ t, i.target = some t → boundaries'[t]? = some true) ∧
        ∀ k t, i.Tabulates k → data.branchTableTargets[k]? = some t → boundaries'[t]? = some true := by
    obtain ⟨next,answered,marks,marked⟩ := markBoundary_marks targetOutOfBounds (Nat.lt_of_le_of_lt within room)
    refine ⟨next,(same _).trans answered,marks,fun u other => ?_,fun k u own => absurd own (alone k)⟩
    cases named.symm.trans other
    exact marked
  have passes {x : Except ParseError (List Bool)} : (x >>= fun boundaries => .ok boundaries) = x := by cases x <;> rfl
  cases emitted with
  | plain none =>
    refine ⟨boundaries,?_,.refl _,fun t named => ?_,fun k t own => absurd own (Instruction.not_tabulates none)⟩
    · unfold markTargets
      rw [none]
      cases i with
      | branchTable => cases none
      | _ => rfl
    · rw [none] at named
      cases named
  | jump within => exact single _ _ within rfl (fun _ => id) fun _ => passes
  | jumpIfZero within => exact single _ _ within rfl (fun _ => id) fun _ => passes
  | jumpIfNonZero within => exact single _ _ within rfl (fun _ => id) fun _ => passes
  | @branchTable t start len within all =>
    obtain ⟨next,first,marks,marked⟩ := markBoundary_marks targetOutOfBounds (Nat.lt_of_le_of_lt within room)
    have within' (u : Nat) (listed : u ∈ (data.branchTableTargets.drop start).take len) : u < next.length := by
      rw [marks.length]
      exact entries u (List.mem_of_mem_drop (List.mem_of_mem_take listed))
    obtain ⟨last,rest,marks',every⟩ := markBoundaries_mark tableTargetOutOfBounds within'
    refine ⟨last,?_,marks.trans marks',fun u named => ?_,fun k u own there => every u ?_⟩
    · unfold markTargets
      dsimp only [Instruction.target]
      rw [first,branchTargets_ok all narrow]
      exact rest
    · cases named
      exact marks'.kept t marked
    · obtain ⟨low,high⟩ := own
      refine List.mem_of_getElem? (i := k - start) ?_
      rw [List.getElem?_take_of_lt (by omega),List.getElem?_drop,Nat.add_sub_cancel' low]
      exact there

end Marks

theorem targetBoundaries_ok {code : List Instruction} {data : WasmFunctionData} (aimable : Aimable code data.branchTableTargets)
    (narrow : data.branchTableTargets.length < 2 ^ 32) :
    ∃ boundaries, targetBoundaries code data = .ok boundaries ∧ boundaries.length = code.length + 1 ∧
      ∀ t, BranchTarget code data.branchTableTargets t → boundaries[t]? = some true := by
  have run (is : List Instruction) (boundaries : List Bool) (part : ∀ i ∈ is, i ∈ code) (size : boundaries.length = code.length + 1) :
      ∃ boundaries', is.foldlM (markTargets data) boundaries = .ok boundaries' ∧ Marks boundaries boundaries' ∧
        ∀ t, BranchTarget is data.branchTableTargets t → boundaries'[t]? = some true := by
    induction is generalizing boundaries with
    | nil =>
      refine ⟨boundaries,rfl,.refl _,fun t target => ?_⟩
      cases target with
      | instruction listed => cases listed
      | entry listed => cases listed
    | cons i is ih =>
      have room : code.length - 1 < boundaries.length := by omega
      have entries (t : Nat) (listed : t ∈ data.branchTableTargets) : t < boundaries.length := by
        rw [size]
        exact Nat.lt_succ_of_lt (aimable.entry_lt listed)
      obtain ⟨next,first,marks,named,tabled⟩ := markTargets_mark (aimable.emits i (part i List.mem_cons_self)) room entries narrow
      obtain ⟨last,rest,marks',all⟩ := ih next (fun j listed => part j (List.mem_cons_of_mem _ listed)) (marks.length.trans size)
      refine ⟨last,by rw [List.foldlM_cons,first]; exact rest,marks.trans marks',fun t target => ?_⟩
      cases target with
      | instruction listed target =>
        rcases List.mem_cons.mp listed with rfl | listed
        · exact marks'.kept t (named t target)
        · exact all t (.instruction listed target)
      | entry listed own there =>
        rcases List.mem_cons.mp listed with rfl | listed
        · exact marks'.kept t (tabled _ t own there)
        · exact all t (.entry listed own there)
  obtain ⟨boundaries,ran,marks,all⟩ := run code (List.replicate (code.length + 1) false) (fun _ => id) List.length_replicate
  exact ⟨boundaries,ran,marks.length.trans List.length_replicate,all⟩

section Step
variable {source : List Instruction} {functionResults : ValueCounts} {selfFuncAddr : FuncAddr} {size entries oldIdx : Nat}
  {i : Instruction} {block : Block}

-- What one instruction may lead to: it takes only from its block, its targets are
-- threaded, and a table comes out as it went in.
structure Rewrite.Steps (source : List Instruction) (i : Instruction) (block : Block) (rewrite : Rewrite) : Prop where
  within : rewrite.consumed ≤ block.length
  targets : ∀ j ∈ rewrite.out, j.isTable = false → ∀ t, j.target = some t →
    ∃ ip, i.target = some ip ∧ t = resolveJumpTarget source ip
  tables : ∀ j ∈ rewrite.out, j.isTable = true → j = i

namespace Rewrite.Steps

theorem plain {rewrite : Rewrite} (within : rewrite.consumed ≤ block.length) (none : ∀ j ∈ rewrite.out, j.target = none) :
    rewrite.Steps source i block := by
  refine ⟨within,fun j listed _ t named => ?_,fun j listed table => ?_⟩
  · rw [none j listed] at named
    cases named
  · have targetless := none j listed
    cases j with
    | branchTable => cases targetless
    | _ => cases table

theorem aimed {rewrite : Rewrite} {ip : Nat} (within : rewrite.consumed ≤ block.length) (named : i.target = some ip)
    (aims : ∀ j ∈ rewrite.out, j.Aims (resolveJumpTarget source ip)) : rewrite.Steps source i block := by
  refine ⟨within,fun j listed _ t target => ⟨ip,named,?_⟩,fun j listed table => ?_⟩
  · exact Option.some.inj (target.symm.trans (aims j listed).target)
  · rw [(aims j listed).alone] at table
    cases table

end Rewrite.Steps

theorem canonicalizeJumpLikeWithTarget_aims {target fallthrough ip : Nat} (named : i.target = some ip) (alone : i.isTable = false) :
    ∀ j ∈ canonicalizeJumpLikeWithTarget i target fallthrough, j.Aims target := by
  intro j listed
  unfold canonicalizeJumpLikeWithTarget at listed
  split at listed
  · split at listed
    · cases listed
    · obtain rfl := List.mem_singleton.mp listed
      exact ⟨rfl,rfl⟩
  · obtain rfl := List.mem_singleton.mp listed
    exact Instruction.aims_withTarget named alone

-- The builder emits no fused comparison, so no loop's test is repeated.
theorem rewriteJump_aims {ip : Nat} (emitted : ∀ i ∈ source, Emitted size entries i) :
    ∀ j ∈ rewriteJump source oldIdx ip, j.Aims (resolveJumpTarget source ip) := by
  unfold rewriteJump
  dsimp only
  split
  · rename_i there
    cases emitted _ (List.mem_of_getElem? there) with
    | plain none => cases none
  · exact canonicalizeJumpLikeWithTarget_aims (i := .jump ip) rfl rfl

theorem resolved_steps {ip : Nat} {rewrite : Nat → Block → Option Rewrite} (named : i.target = some ip) (alone : i.isTable = false)
    (retests : Retests (resolveJumpTarget source ip) block (rewrite (resolveJumpTarget source ip) block)) :
    Rewrite.Steps source i block ((rewrite (resolveJumpTarget source ip) block).getD
      ⟨0,canonicalizeJumpLikeWithTarget i (resolveJumpTarget source ip) (oldIdx + 1)⟩) := by
  cases answer : rewrite (resolveJumpTarget source ip) block with
  | none => exact .aimed (Nat.zero_le _) named (canonicalizeJumpLikeWithTarget_aims named alone)
  | some chosen =>
    obtain ⟨within,aims⟩ := retests chosen answer
    exact .aimed within named aims

theorem returnInstr_plain {i : Instruction} (chosen : returnInstr functionResults = some i) : i.target = none := by
  unfold returnInstr at chosen
  split at chosen <;> cases chosen <;> rfl

theorem returned_plain : ((returnInstr functionResults).getD .return_).target = none := by
  cases chosen : returnInstr functionResults with
  | none => rfl
  | some i => exact returnInstr_plain chosen

theorem fused_steps (targetless : i.target = none) : Rewrite.Steps source i block ((fuse block i).getD ⟨0,[i]⟩) := by
  cases answer : fuse block i with
  | none => exact .plain (Nat.zero_le _) fun j listed => List.mem_singleton.mp listed ▸ targetless
  | some chosen =>
    have fits := fuse_fits i chosen answer
    exact .plain fits.within fits.plain

theorem rewriteInstr_steps (all : ∀ i ∈ source, Emitted size entries i) (emitted : Emitted size entries i) :
    (rewriteInstr source functionResults selfFuncAddr oldIdx block i).Steps source i block := by
  cases emitted with
  | jump _ => exact .aimed (Nat.zero_le _) rfl (rewriteJump_aims all)
  | jumpIfZero _ => exact resolved_steps rfl rfl (rewriteJumpIf_retests _ _)
  | jumpIfNonZero _ => exact resolved_steps rfl rfl (rewriteJumpIf_retests _ _)
  | branchTable _ _ =>
    refine ⟨Nat.zero_le _,fun j listed alone => ?_,fun j listed _ => List.mem_singleton.mp listed⟩
    obtain rfl := List.mem_singleton.mp listed
    cases alone
  | plain targetless =>
    have one {j : Instruction} (plain : j.target = none) : Rewrite.Steps source i block ⟨0,[j]⟩ :=
      .plain (Nat.zero_le _) fun k listed => List.mem_singleton.mp listed ▸ plain
    unfold rewriteInstr
    dsimp only
    split
    · split
      · exact .plain (Nat.zero_le _) nofun
      · exact one rfl
    · split <;> exact one rfl
    · split <;> exact one rfl
    · exact one returned_plain
    any_goals cases targetless
    exact fused_steps targetless

end Step

namespace CompactOutput
variable {code : List Instruction} {out : CompactOutput} {rewrite : Rewrite} {i : Instruction}

-- Code that lies before the block is not touched any more.
structure Settles (code : List Instruction) (out : CompactOutput) : Prop where
  begins : code <+: out.instructions
  before : code.length ≤ out.blockStart
  within : out.blockStart ≤ out.instructions.length

@[simp] theorem enter_instructions (out : CompactOutput) (boundary : Bool) : (out.enter boundary).instructions = out.instructions := by
  unfold enter
  split <;> rfl

@[simp] theorem enter_oldToNew (out : CompactOutput) (boundary : Bool) : (out.enter boundary).oldToNew = out.oldToNew := by
  unfold enter
  split <;> rfl

namespace Settles

theorem enter (settles : Settles code out) (boundary : Bool) : Settles code (out.enter boundary) := by
  unfold CompactOutput.enter
  split
  · exact ⟨settles.begins,settles.begins.length_le,Nat.le_refl _⟩
  · exact settles

-- All that is written when a boundary is reached.
theorem boundary (out : CompactOutput) : Settles out.instructions (out.enter true) :=
  ⟨List.prefix_refl _,Nat.le_refl _,Nat.le_refl _⟩

theorem append (settles : Settles code out) (within : rewrite.consumed ≤ out.block.length) :
    Settles code (out.append rewrite i) := by
  have size : out.block.length = out.instructions.length - out.blockStart := by
    rw [block,List.length_reverse,List.length_drop]
  have inside := settles.within
  have before := settles.before
  have low : out.blockStart ≤ out.instructions.length - rewrite.consumed := by omega
  refine ⟨?_,before,?_⟩
  · have kept : code <+: out.instructions.take (out.instructions.length - rewrite.consumed) :=
      List.prefix_take_iff.mpr ⟨settles.begins,Nat.le_trans before low⟩
    exact kept.trans (List.prefix_append _ _)
  · change out.blockStart ≤ (out.instructions.take (out.instructions.length - rewrite.consumed) ++ rewrite.out).length
    rw [List.length_append,List.length_take]
    omega

end Settles

end CompactOutput

section Run
variable (source : List Instruction) (boundaries : List Bool) (functionResults : ValueCounts) (selfFuncAddr : FuncAddr)

theorem rewriteFrom_append (first rest : List Instruction) (oldIdx : Nat) (out : CompactOutput) :
    rewriteFrom source boundaries functionResults selfFuncAddr (first ++ rest) oldIdx out =
      rewriteFrom source boundaries functionResults selfFuncAddr rest (oldIdx + first.length)
        (rewriteFrom source boundaries functionResults selfFuncAddr first oldIdx out) := by
  induction first generalizing oldIdx out with
  | nil => rfl
  | cons i first ih =>
    rw [List.cons_append,rewriteFrom,rewriteFrom,ih,List.length_cons,Nat.add_assoc,Nat.add_comm 1]

theorem rewriteFrom_oldToNew (rest : List Instruction) (oldIdx : Nat) (out : CompactOutput) :
    ∃ more, (rewriteFrom source boundaries functionResults selfFuncAddr rest oldIdx out).oldToNew = out.oldToNew ++ more ∧
      more.length = rest.length := by
  induction rest generalizing oldIdx out with
  | nil => exact ⟨[],(List.append_nil _).symm,rfl⟩
  | cons i rest ih =>
    rw [rewriteFrom]
    obtain ⟨more,grown,length⟩ := ih (oldIdx + 1) ((out.enter (boundaries.getD oldIdx false)).append
      (rewriteInstr source functionResults selfFuncAddr oldIdx (out.enter (boundaries.getD oldIdx false)).block i) i)
    refine ⟨out.instructions.length :: more,?_,congrArg Nat.succ length⟩
    rw [grown]
    simp [CompactOutput.append]

-- The output when the pass comes to an instruction of the source.
def reached (t : Nat) : CompactOutput :=
  rewriteFrom source boundaries functionResults selfFuncAddr (source.take t) 0 .empty

theorem reached_from {t u : Nat} (later : t ≤ u) :
    reached source boundaries functionResults selfFuncAddr u =
      rewriteFrom source boundaries functionResults selfFuncAddr ((source.take u).drop t) (source.take t).length
        (reached source boundaries functionResults selfFuncAddr t) := by
  have parts := List.take_append_drop t (source.take u)
  rw [List.take_take,Nat.min_eq_left later] at parts
  have run := rewriteFrom_append source boundaries functionResults selfFuncAddr (source.take t) ((source.take u).drop t) 0 .empty
  rw [parts,Nat.zero_add] at run
  exact run

-- The whole source has been passed.
theorem reached_all : reached source boundaries functionResults selfFuncAddr source.length =
    rewriteFrom source boundaries functionResults selfFuncAddr source 0 .empty := by
  rw [reached,List.take_length]

theorem reached_oldToNew_length {t : Nat} (within : t ≤ source.length) :
    (reached source boundaries functionResults selfFuncAddr t).oldToNew.length = t := by
  obtain ⟨more,grown,length⟩ := rewriteFrom_oldToNew source boundaries functionResults selfFuncAddr (source.take t) 0 .empty
  rw [reached,grown,List.length_append,length,List.length_take,Nat.min_eq_left within]
  exact Nat.zero_add t

-- The image of a place is where the output had come to when the pass did.
theorem rewrite_oldToNew {t : Nat} (inside : t < source.length) :
    (rewrite source boundaries functionResults selfFuncAddr).2[t]? =
      some (reached source boundaries functionResults selfFuncAddr t).instructions.length := by
  have sized := reached_oldToNew_length source boundaries functionResults selfFuncAddr (Nat.le_of_lt inside)
  have whole := reached_from source boundaries functionResults selfFuncAddr (Nat.le_of_lt inside)
  rw [reached_all,List.take_length,List.drop_eq_getElem_cons inside,rewriteFrom] at whole
  obtain ⟨more,grown,_⟩ := rewriteFrom_oldToNew source boundaries functionResults selfFuncAddr (source.drop (t + 1))
    ((source.take t).length + 1) (((reached source boundaries functionResults selfFuncAddr t).enter
        (boundaries.getD (source.take t).length false)).append
      (rewriteInstr source functionResults selfFuncAddr (source.take t).length
        ((reached source boundaries functionResults selfFuncAddr t).enter (boundaries.getD (source.take t).length false)).block
        source[t]) source[t])
  unfold rewrite
  dsimp only
  rw [whole,grown]
  simp [CompactOutput.append,sized]

variable {source boundaries functionResults selfFuncAddr} {size entries : Nat} {table : List Nat}

theorem rewriteFrom_settles {code rest : List Instruction} {oldIdx : Nat} {out : CompactOutput}
    (all : ∀ i ∈ source, Emitted size entries i) (part : ∀ i ∈ rest, i ∈ source) (settles : out.Settles code) :
    (rewriteFrom source boundaries functionResults selfFuncAddr rest oldIdx out).Settles code := by
  induction rest generalizing oldIdx out with
  | nil => exact settles
  | cons i rest ih =>
    refine ih (fun j listed => part j (List.mem_cons_of_mem _ listed)) ((settles.enter _).append ?_)
    exact (rewriteInstr_steps all (all i (part i List.mem_cons_self))).within

-- No instruction before a boundary is touched after the pass has come to it.
theorem reached_keeps {t u : Nat} (all : ∀ i ∈ source, Emitted size entries i) (marked : boundaries[t]? = some true)
    (later : t ≤ u) :
    (reached source boundaries functionResults selfFuncAddr t).instructions <+:
      (reached source boundaries functionResults selfFuncAddr u).instructions := by
  rw [reached_from _ _ _ _ later]
  have part : ∀ i ∈ (source.take u).drop t, i ∈ source := fun i listed => List.mem_of_mem_take (List.mem_of_mem_drop listed)
  cases rest : (source.take u).drop t with
  | nil => exact List.prefix_refl _
  | cons i rest' =>
    rw [rest] at part
    have inside : t < source.length := by
      have size := congrArg List.length rest
      rw [List.length_drop,List.length_take,List.length_cons] at size
      omega
    have here : boundaries.getD (source.take t).length false = true := by
      rw [List.length_take,Nat.min_eq_left (Nat.le_of_lt inside),List.getD_eq_getElem?_getD,marked]
      rfl
    rw [rewriteFrom,here]
    refine (rewriteFrom_settles all (fun j listed => part j (List.mem_cons_of_mem _ listed)) ?_).begins
    exact (CompactOutput.Settles.boundary _).append (rewriteInstr_steps all (all i (part i List.mem_cons_self))).within

-- An instruction of the output goes where the source can branch to, and its tables
-- are those of the source.
structure Threaded (source : List Instruction) (table : List Nat) (i : Instruction) : Prop where
  targets (t : Nat) : i.isTable = false → i.target = some t → BranchTarget source table t
  tables : i.isTable = true → i ∈ source

theorem rewriteFrom_threaded {rest : List Instruction} {oldIdx : Nat} {out : CompactOutput}
    (all : ∀ i ∈ source, Emitted size entries i) (part : ∀ i ∈ rest, i ∈ source)
    (threaded : ∀ i ∈ out.instructions, Threaded source table i) :
    ∀ i ∈ (rewriteFrom source boundaries functionResults selfFuncAddr rest oldIdx out).instructions, Threaded source table i := by
  induction rest generalizing oldIdx out with
  | nil => exact threaded
  | cons i rest ih =>
    refine ih (fun j listed => part j (List.mem_cons_of_mem _ listed)) fun j listed => ?_
    have own := part i List.mem_cons_self
    let block := (out.enter (boundaries.getD oldIdx false)).block
    have steps : (rewriteInstr source functionResults selfFuncAddr oldIdx block i).Steps source i block :=
      rewriteInstr_steps all (all i own)
    rcases List.mem_append.mp listed with old | new
    · rw [CompactOutput.enter_instructions] at old
      exact threaded j (List.mem_of_mem_take old)
    · refine ⟨fun t alone named => ?_,fun table => steps.tables j new table ▸ own⟩
      obtain ⟨ip,target,rfl⟩ := steps.targets j new alone t named
      exact resolveJumpTarget_target (.instruction own target)

-- The last instruction returns, and something is written for it.
theorem rewrite_last {body : List Instruction} {t : Nat} (within : t ≤ body.length)
    (all : ∀ i ∈ body ++ [.return_], Emitted size entries i) (marked : boundaries[t]? = some true) :
    (reached (body ++ [.return_]) boundaries functionResults selfFuncAddr t).instructions.length <
      (rewrite (body ++ [.return_]) boundaries functionResults selfFuncAddr).1.length := by
  have before : (reached (body ++ [.return_]) boundaries functionResults selfFuncAddr t).instructions.length ≤
      (reached (body ++ [.return_]) boundaries functionResults selfFuncAddr body.length).instructions.length :=
    (reached_keeps all marked within).length_le
  have last : (rewrite (body ++ [.return_]) boundaries functionResults selfFuncAddr).1.length =
      (reached (body ++ [.return_]) boundaries functionResults selfFuncAddr body.length).instructions.length + 1 := by
    unfold rewrite reached
    dsimp only
    rw [rewriteFrom_append,List.take_left]
    simp [rewriteFrom,rewriteInstr,CompactOutput.append]
  omega

end Run

section Finalize
variable {source instructions : List Instruction} {data : WasmFunctionData} {oldToNew : Option (List Nat)} {len : Nat}

theorem remapTarget_lt {outside : Nat → ParseError} {t image : Nat} (ran : remapTarget oldToNew len outside t = .ok image) :
    image < len := by
  have checked {mapped : Nat} (ran : (if mapped ≥ len then .error (outside mapped) else .ok mapped) = Except.ok image) : image < len := by
    split at ran
    · cases ran
    · rename_i within
      cases ran
      exact Nat.lt_of_not_le within
  unfold remapTarget at ran
  split at ran
  · exact checked ran
  · split at ran
    · exact checked ran
    · cases ran

theorem Instruction.withTarget_target {i : Instruction} {t target : Nat} (named : i.target = some t) :
    (i.withTarget target).target = some target := by
  cases i
  case jump | jumpIfZero | jumpIfNonZero | jumpIfLocalZero | jumpIfLocalNonZero | jumpCmpStackConst | jumpCmpLocalConst | jumpCmpLocalLocal | branchTable => rfl
  all_goals cases named

-- An instruction of the output is put right, and then it stays in the code.
theorem finalizeInstr_ok {i : Instruction} (aimable : Aimable source data.branchTableTargets) (threaded : Threaded source data.branchTableTargets i)
    (narrow : data.branchTableTargets.length < 2 ^ 32) {data' : WasmFunctionData}
    (sized : data'.branchTableTargets.length = data.branchTableTargets.length)
    (remaps : ∀ t, BranchTarget source data.branchTableTargets t → ∃ image, remapTarget oldToNew len targetOutOfBounds t = .ok image) :
    ∃ j, finalizeInstr oldToNew len data' i = .ok j ∧ ∀ t, j.target = some t → t < len := by
  cases named : i.target with
  | none =>
    refine ⟨i,?_,fun t other => by rw [named] at other; cases other⟩
    unfold finalizeInstr
    rw [named]
    cases i with
    | branchTable => cases named
    | _ => rfl
  | some t =>
    have targeted : BranchTarget source data.branchTableTargets t := by
      cases table : i.isTable with
      | false => exact threaded.targets t table named
      | true => exact .instruction (threaded.tables table) named
    obtain ⟨image,answered⟩ := remaps t targeted
    refine ⟨i.withTarget image,?_,fun u other => ?_⟩
    · unfold finalizeInstr
      rw [named]
      dsimp only
      rw [answered]
      cases i with
      | branchTable ip start count =>
        have all : start + count ≤ data'.branchTableTargets.length := by
          rw [sized]
          cases aimable.emits _ (threaded.tables rfl) with
          | plain none => cases none
          | branchTable _ all => exact all
        simp only [Instruction.withTarget,bind,Except.bind,branchTargets_ok all (sized ▸ narrow)]
      | _ => rfl
    · rw [Instruction.withTarget_target named] at other
      cases other
      exact remapTarget_lt answered

theorem finalize_ok (aimable : Aimable source data.branchTableTargets) (narrow : data.branchTableTargets.length < 2 ^ 32)
    (threaded : ∀ i ∈ instructions, Threaded source data.branchTableTargets i)
    (remaps : ∀ outside t, BranchTarget source data.branchTableTargets t →
      ∃ image, remapTarget oldToNew instructions.length outside t = .ok image) (importedMemoryCount : Nat) :
    ∃ final data' uses, finalize instructions data oldToNew importedMemoryCount = .ok (final,data',uses) ∧
      final.length = instructions.length ∧ (∀ t ∈ data'.branchTableTargets, t < final.length) ∧
      ∀ i ∈ final, ∀ t, i.target = some t → t < final.length := by
  obtain ⟨entries,remapped⟩ := mapM_ok_of (f := remapTarget oldToNew instructions.length tableTargetOutOfBounds)
    fun t listed => remaps tableTargetOutOfBounds t (aimable.entry_target listed)
  have put (i : Instruction) (listed : i ∈ instructions) :=
    @finalizeInstr_ok _ _ _ _ _ aimable (threaded i listed) narrow {data with branchTableTargets := entries}
      (mapM_length remapped) (remaps targetOutOfBounds)
  obtain ⟨final,finalized⟩ := mapM_ok_of fun i listed => (put i listed).imp fun _ => And.left
  have length := mapM_length finalized
  refine ⟨final,{data with branchTableTargets := entries},final.any (usesLocalMemory importedMemoryCount),?_,length,
    fun t listed => ?_,fun j listed t named => ?_⟩
  · unfold finalize
    simp only [bind,Except.bind,remapped,finalized]
  · obtain ⟨u,_,answered⟩ := mapM_mem remapped t listed
    rw [length]
    exact remapTarget_lt answered
  · obtain ⟨i,among,answered⟩ := mapM_mem finalized j listed
    obtain ⟨j',answered',within⟩ := put i among
    obtain rfl := Except.ok.inj (answered.symm.trans answered')
    rw [length]
    exact within t named

end Finalize

-- What the pass keeps at a place that is branched to.
structure KeepsBoundary (source : List Instruction) (boundaries : List Bool) (functionResults : ValueCounts)
    (selfFuncAddr : FuncAddr) (t : Nat) : Prop where
  inside : t < source.length
  threads : resolveJumpTarget source t < source.length
  image : (rewrite source boundaries functionResults selfFuncAddr).2[t]? =
    some (reached source boundaries functionResults selfFuncAddr t).instructions.length
  settled (u : Nat) : t ≤ u → (reached source boundaries functionResults selfFuncAddr t).instructions <+:
    (reached source boundaries functionResults selfFuncAddr u).instructions
  starts : (reached source boundaries functionResults selfFuncAddr t).instructions <+:
    (rewrite source boundaries functionResults selfFuncAddr).1
  strict : (reached source boundaries functionResults selfFuncAddr t).instructions.length <
    (rewrite source boundaries functionResults selfFuncAddr).1.length

namespace Aimable
variable {source : List Instruction} {data : WasmFunctionData} {boundaries : List Bool} {functionResults : ValueCounts}
  {selfFuncAddr : FuncAddr}

theorem keepsBoundary {table : List Nat} {t : Nat} (aimable : Aimable source table) (target : BranchTarget source table t)
    (marked : boundaries[t]? = some true) : KeepsBoundary source boundaries functionResults selfFuncAddr t where
  inside := aimable.target_lt target
  threads := aimable.target_lt (resolveJumpTarget_target target)
  image := rewrite_oldToNew _ _ _ _ (aimable.target_lt target)
  settled u later := reached_keeps aimable.emits marked later
  starts := by
    have whole : _ <+: (reached source boundaries functionResults selfFuncAddr source.length).instructions :=
      reached_keeps aimable.emits marked (Nat.le_of_lt (aimable.target_lt target))
    rw [reached_all] at whole
    exact whole
  strict := by
    have emits := aimable.emits
    have inside := aimable.target_lt target
    obtain ⟨body,rfl,_,_⟩ := aimable.emitted
    rw [List.length_append,List.length_singleton] at inside
    exact rewrite_last (Nat.le_of_lt_succ inside) emits marked

theorem remaps {t : Nat} (aimable : Aimable source data.branchTableTargets)
    (marked : ∀ t, BranchTarget source data.branchTableTargets t → boundaries[t]? = some true) (outside : Nat → ParseError)
    (target : BranchTarget source data.branchTableTargets t) :
    ∃ image, remapTarget (some (rewrite source boundaries functionResults selfFuncAddr).2)
      (rewrite source boundaries functionResults selfFuncAddr).1.length outside t = .ok image := by
  have kept : KeepsBoundary source boundaries functionResults selfFuncAddr t := aimable.keepsBoundary target (marked t target)
  refine ⟨(reached source boundaries functionResults selfFuncAddr t).instructions.length,?_⟩
  unfold remapTarget
  dsimp only
  rw [kept.image]
  exact if_neg (Nat.not_le_of_lt kept.strict)

-- The list as the builder left it keeps its targets too.
theorem unchanged {t : Nat} {table : List Nat} (aimable : Aimable source table) (outside : Nat → ParseError)
    (target : BranchTarget source table t) : ∃ image, remapTarget none source.length outside t = .ok image :=
  ⟨t,if_neg (Nat.not_le_of_lt (aimable.target_lt target))⟩

theorem optimizeInstructions_ok (aimable : Aimable source data.branchTableTargets)
    (narrow : data.branchTableTargets.length < 2 ^ 32) (options : ParserOptions) (functionResults : ValueCounts)
    (selfFuncAddr : FuncAddr) (importedMemoryCount : Nat) :
    ∃ final data' uses,
      optimizeInstructions source data options functionResults selfFuncAddr importedMemoryCount = .ok (final,data',uses) ∧
        (∀ t ∈ data'.branchTableTargets, t < final.length) ∧ ∀ i ∈ final, ∀ t, i.target = some t → t < final.length := by
  unfold optimizeInstructions
  split
  · obtain ⟨boundaries,made,_,marked⟩ := targetBoundaries_ok aimable narrow
    have threaded : ∀ i ∈ (rewrite source boundaries functionResults selfFuncAddr).1,
        Threaded source data.branchTableTargets i := rewriteFrom_threaded aimable.emits (fun _ => id) nofun
    obtain ⟨final,data',uses,ran,_,bounds⟩ := finalize_ok aimable narrow threaded
      (fun outside t target => aimable.remaps marked outside target) importedMemoryCount
    refine ⟨final,data',uses,?_,bounds⟩
    simp only [bind,Except.bind,made]
    exact ran
  · have threaded (i : Instruction) (listed : i ∈ source) : Threaded source data.branchTableTargets i :=
      ⟨fun t _ named => .instruction listed named,fun _ => listed⟩
    obtain ⟨final,data',uses,ran,_,bounds⟩ := finalize_ok aimable narrow threaded
      (fun outside t target => aimable.unchanged outside target) importedMemoryCount
    exact ⟨final,data',uses,ran,bounds⟩

end Aimable

-- For every body that the builder lowers, the pass keeps to its basic blocks, and
-- what it writes is put right without an error. A table has as many entries as a
-- u32 counts.
theorem block_boundaries_respected {metadata : FunctionBuilder.ModuleMetadata} {signature : Signature}
    {localTypes : List OperandSize} {localAddrMap : List LocalAddr} {b : FunctionBuilder}
    (produces : FunctionBuilder.Produces (.new metadata signature localTypes localAddrMap) b)
    (narrow : b.data.branchTableTargets.length < 2 ^ 32) (functionResults : ValueCounts) (selfFuncAddr : FuncAddr) :
    (∃ boundaries, targetBoundaries b.instructions b.data = .ok boundaries ∧
      (∀ t, BranchTarget b.instructions b.data.branchTableTargets t →
        KeepsBoundary b.instructions boundaries functionResults selfFuncAddr t) ∧
      ∀ t u, BranchTarget b.instructions b.data.branchTableTargets t → BranchTarget b.instructions b.data.branchTableTargets u →
        t ≤ u → ∃ image image',
          (rewrite b.instructions boundaries functionResults selfFuncAddr).2[t]? = some image ∧
          (rewrite b.instructions boundaries functionResults selfFuncAddr).2[u]? = some image' ∧ image ≤ image') ∧
    ∀ options importedMemoryCount, ∃ final data' uses,
      optimizeInstructions b.instructions b.data options functionResults selfFuncAddr importedMemoryCount =
        .ok (final,data',uses) ∧
      (∀ t ∈ data'.branchTableTargets, t < final.length) ∧ ∀ i ∈ final, ∀ t, i.target = some t → t < final.length := by
  have aimable := produces.aimable
  obtain ⟨boundaries,made,_,marked⟩ := targetBoundaries_ok aimable narrow
  have keeps (t : Nat) (target : BranchTarget b.instructions b.data.branchTableTargets t) :
      KeepsBoundary b.instructions boundaries functionResults selfFuncAddr t := aimable.keepsBoundary target (marked t target)
  refine ⟨⟨boundaries,made,keeps,fun t u here there later => ?_⟩,fun options importedMemoryCount => ?_⟩
  · exact ⟨_,_,(keeps t here).image,(keeps u there).image,((keeps t here).settled u later).length_le⟩
  · exact aimable.optimizeInstructions_ok narrow options functionResults selfFuncAddr importedMemoryCount

namespace BranchingBlock
open FunctionBuilder

def start : FunctionBuilder := .new ⟨[],[],[],[],[]⟩ ⟨[],[]⟩ [] []

-- A block that is left early, with a value of its own and one below it.
def body : List Operator :=
  [.block .empty,.row [] [.s32] (.const .s32 3) rfl,.row [] [.s32] (.const .s32 0) rfl,.brIf 0,.drop,.end_]

end BranchingBlock

open BranchingBlock FunctionBuilder in
theorem block_boundaries_respected_block : ∃ b, Produces start b ∧ BranchTarget b.instructions b.data.branchTableTargets 5 ∧
    ∃ boundaries, targetBoundaries b.instructions b.data = .ok boundaries ∧
      KeepsBoundary b.instructions boundaries (fun _ => 0) 0 5 := by
  obtain ⟨last,ran⟩ : ∃ last, body.foldlM FunctionBuilder.visit start = .ok last := ⟨_,rfl⟩
  obtain ⟨frame,control⟩ : ∃ frame, last.controlStack = [frame] ∧ frame.kind = .function := by
    cases ran
    exact ⟨_,rfl,rfl⟩
  obtain ⟨b,ended⟩ : ∃ b, last.visitEnd = .ok b := by
    cases ran
    exact ⟨_,rfl⟩
  have produces : Produces start b := ⟨body,last,frame,ran,control.1,control.2,ended⟩
  have tables : b.data.branchTableTargets = [] := by
    cases ran
    cases ended
    rfl
  -- The test jumps over the branch out of the block.
  have test : BranchTarget b.instructions b.data.branchTableTargets 5 := by
    refine .instruction (i := .jumpIfZero .s32 5) (List.mem_of_getElem? (i := 2) ?_) rfl
    cases ran
    cases ended
    rfl
  obtain ⟨⟨boundaries,made,keeps,_⟩,_⟩ := block_boundaries_respected produces (by rw [tables]; exact Nat.two_pow_pos 32) (fun _ => 0) 0
  exact ⟨b,produces,test,boundaries,made,keeps 5 test⟩

end TinyWasm
