import TinyWasm.Parser.BranchCode
import TinyWasm.Parser.Optimize

namespace TinyWasm
open Fallible

-- What the builder emits: of the instructions with a target only these, at a place
-- of the code, and a table only over entries that are there.
inductive Emitted (size entries : Nat) : Instruction → Prop where
  | plain {i : Instruction} : i.target = none → Emitted size entries i
  | jump {t : Nat} : t ≤ size → Emitted size entries (.jump t)
  | jumpIfZero {t : Nat} : t ≤ size → Emitted size entries (.jumpIfZero .s32 t)
  | jumpIfNonZero {t : Nat} : t ≤ size → Emitted size entries (.jumpIfNonZero .s32 t)
  | branchTable {t start len : Nat} : t ≤ size → start + len ≤ entries → Emitted size entries (.branchTable t start len)

-- The entry of the table is one of the instruction's.
def Instruction.Tabulates (k : Nat) : Instruction → Prop
  | .branchTable _ start len => start ≤ k ∧ k < start + len
  | _ => False

theorem Instruction.not_tabulates {i : Instruction} {k : Nat} (none : i.target = none) : ¬i.Tabulates k := by
  cases i with
  | branchTable => cases none
  | _ => exact id

theorem Instruction.continues_plain {i : Instruction} (continues : i.continues = true) : i.target = none := by
  cases i
  case jump | jumpIfZero | jumpIfNonZero | jumpIfLocalZero | jumpIfLocalNonZero | jumpCmpStackConst | jumpCmpLocalConst | jumpCmpLocalLocal | branchTable => cases continues
  all_goals rfl

namespace Emitted
variable {size size' entries entries' : Nat} {i : Instruction}

theorem mono (emitted : Emitted size entries i) (longer : size ≤ size') (wider : entries ≤ entries') : Emitted size' entries' i := by
  cases emitted with
  | plain none => exact .plain none
  | jump within => exact .jump (Nat.le_trans within longer)
  | jumpIfZero within => exact .jumpIfZero (Nat.le_trans within longer)
  | jumpIfNonZero within => exact .jumpIfNonZero (Nat.le_trans within longer)
  | branchTable within all => exact .branchTable (Nat.le_trans within longer) (Nat.le_trans all wider)

theorem target_le {t : Nat} (emitted : Emitted size entries i) (named : i.target = some t) : t ≤ size := by
  cases emitted with
  | plain none => rw [none] at named; cases named
  | jump within => cases named; exact within
  | jumpIfZero within => cases named; exact within
  | jumpIfNonZero within => cases named; exact within
  | branchTable within _ => cases named; exact within

theorem patched {t : Nat} (emitted : Emitted size entries i) (within : t ≤ size) :
    Emitted size entries (FunctionBuilder.patchTarget t i) := by
  cases emitted with
  | plain none =>
    unfold FunctionBuilder.patchTarget
    split
    · cases none
    · cases none
    · cases none
    · exact .plain none
  | jump _ => exact .jump within
  | jumpIfZero _ => exact .jumpIfZero within
  | jumpIfNonZero _ => exact .jumpIfNonZero within
  | branchTable low all => exact .branchTable low all

theorem defaulted {t : Nat} (emitted : Emitted size entries i) (within : t ≤ size) :
    Emitted size entries (FunctionBuilder.setDefault t i) := by
  cases emitted with
  | plain none =>
    unfold FunctionBuilder.setDefault
    split
    · cases none
    · exact .plain none
  | branchTable _ all => exact .branchTable within all
  | jump low => exact .jump low
  | jumpIfZero low => exact .jumpIfZero low
  | jumpIfNonZero low => exact .jumpIfNonZero low

end Emitted

namespace FunctionBuilder

theorem patchTarget_tabulates {t k : Nat} {i : Instruction} (tabulates : i.Tabulates k) : (patchTarget t i).Tabulates k := by
  cases i with
  | branchTable => exact tabulates
  | _ => cases tabulates

theorem setDefault_tabulates {t k : Nat} {i : Instruction} (tabulates : i.Tabulates k) : (setDefault t i).Tabulates k := by
  cases i with
  | branchTable => exact tabulates
  | _ => cases tabulates

-- The targets so far lie within the code so far, and no entry of the table is
-- nobody's. `entries` is how many the table has once the visit is over.
structure Targeted (b : FunctionBuilder) (entries : Nat) : Prop where
  code : ∀ i ∈ b.instructions, Emitted b.instructions.length entries i
  table : ∀ t ∈ b.data.branchTableTargets, t ≤ b.instructions.length
  owned : ∀ k < b.data.branchTableTargets.length, ∃ i ∈ b.instructions, i.Tabulates k
  frames : ∀ frame ∈ b.controlStack, frame.startIp ≤ b.instructions.length

variable {b b' : FunctionBuilder} {entries : Nat} {i : Instruction}

namespace Targeted

theorem new (metadata : ModuleMetadata) (signature : Signature) (localTypes : List OperandSize) (localAddrMap : List LocalAddr) :
    (new metadata signature localTypes localAddrMap).Targeted 0 where
  code := nofun
  table := nofun
  owned := nofun
  frames frame listed := by
    obtain rfl := List.mem_singleton.mp listed
    exact Nat.le_refl _

theorem same (targeted : b.Targeted entries) (code : b'.instructions = b.instructions)
    (table : b'.data.branchTableTargets = b.data.branchTableTargets)
    (frames : ∀ frame ∈ b'.controlStack, frame.startIp ≤ b.instructions.length) : b'.Targeted entries where
  code := by rw [code]; exact targeted.code
  table := by rw [code,table]; exact targeted.table
  owned := by rw [code,table]; exact targeted.owned
  frames := by rw [code]; exact frames

theorem widen {entries' : Nat} (targeted : b.Targeted entries) (wider : entries ≤ entries') : b.Targeted entries' :=
  ⟨fun i listed => (targeted.code i listed).mono (Nat.le_refl _) wider,targeted.table,targeted.owned,targeted.frames⟩

theorem withOperands (targeted : b.Targeted entries) (operands : List OperandSize) (counts : ValueCounts) :
    (b.withOperands operands counts).Targeted entries := targeted.same rfl rfl targeted.frames

-- New code in place of the old one, as long and with its tables.
theorem recoded {code : List Instruction} (targeted : b.Targeted entries) (longer : b.instructions.length ≤ code.length)
    (emitted : ∀ i ∈ code, Emitted code.length entries i)
    (tables : ∀ k, (∃ i ∈ b.instructions, i.Tabulates k) → ∃ i ∈ code, i.Tabulates k) :
    Targeted {b with instructions := code} entries where
  code := emitted
  table t listed := Nat.le_trans (targeted.table t listed) longer
  owned k within := tables k (targeted.owned k within)
  frames frame listed := Nat.le_trans (targeted.frames frame listed) longer

theorem append {more : List Instruction} (targeted : b.Targeted entries)
    (emitted : ∀ i ∈ more, Emitted (b.instructions.length + more.length) entries i) :
    Targeted {b with instructions := b.instructions ++ more} entries := by
  have length : (b.instructions ++ more).length = b.instructions.length + more.length := List.length_append
  refine targeted.recoded (by omega) (fun i listed => ?_) fun k ⟨i,listed,tabulates⟩ => ⟨i,List.mem_append_left _ listed,tabulates⟩
  rw [length]
  rcases List.mem_append.mp listed with old | new
  · exact (targeted.code i old).mono (Nat.le_add_right _ _) (Nat.le_refl _)
  · exact emitted i new

theorem push (targeted : b.Targeted entries) (emitted : Emitted (b.instructions.length + 1) entries i) :
    (b.push i).Targeted entries := by
  refine targeted.append fun j listed => ?_
  obtain rfl := List.mem_singleton.mp listed
  exact emitted

theorem pushPlain (targeted : b.Targeted entries) (none : i.target = none) : (b.push i).Targeted entries :=
  targeted.push (.plain none)

theorem modify {f : Instruction → Instruction} (targeted : b.Targeted entries) (j : Nat)
    (emitted : ∀ i, Emitted b.instructions.length entries i → Emitted b.instructions.length entries (f i))
    (tabulates : ∀ i k, i.Tabulates k → (f i).Tabulates k) :
    Targeted {b with instructions := b.instructions.modify j f} entries := by
  have length : (b.instructions.modify j f).length = b.instructions.length := List.length_modify ..
  refine targeted.recoded (Nat.le_of_eq length.symm) (fun i listed => ?_) fun k ⟨i,listed,own⟩ => ?_
  · rw [length]
    obtain ⟨p,there⟩ := List.mem_iff_getElem?.mp listed
    rw [List.getElem?_modify] at there
    obtain ⟨old,found,rfl⟩ := Option.map_eq_some_iff.mp there
    have kept := targeted.code old (List.mem_of_getElem? found)
    split
    · exact emitted old kept
    · exact kept
  · obtain ⟨p,there⟩ := List.mem_iff_getElem?.mp listed
    refine ⟨if j = p then f i else i,List.mem_iff_getElem?.mpr ⟨p,?_⟩,?_⟩
    · rw [List.getElem?_modify,there]
      split <;> rfl
    · split
      · exact tabulates i k own
      · exact own

theorem patchJump {t : Nat} (targeted : b.Targeted entries) (j : Nat) (within : t ≤ b.instructions.length) :
    (b.patchJump j t).Targeted entries :=
  targeted.modify j (fun _ emitted => emitted.patched within) fun _ _ => patchTarget_tabulates

-- An instruction that is no table may give way to any other.
theorem set {j : Nat} {old : Instruction} (targeted : b.Targeted entries) (there : b.instructions[j]? = some old)
    (plain : ∀ k, ¬old.Tabulates k) (emitted : Emitted b.instructions.length entries i) :
    Targeted {b with instructions := b.instructions.set j i} entries := by
  have length : (b.instructions.set j i).length = b.instructions.length := List.length_set ..
  refine targeted.recoded (Nat.le_of_eq length.symm) (fun other listed => ?_) fun k ⟨other,listed,own⟩ => ?_
  · rw [length]
    rcases List.mem_or_eq_of_mem_set listed with kept | rfl
    · exact targeted.code other kept
    · exact emitted
  · obtain ⟨p,found⟩ := List.mem_iff_getElem?.mp listed
    refine ⟨other,List.mem_iff_getElem?.mpr ⟨p,?_⟩,own⟩
    have different : j ≠ p := by
      rintro rfl
      obtain rfl := Option.some.inj (there.symm.trans found)
      exact plain k own
    rw [List.getElem?_set_ne different]
    exact found

theorem owns (targeted : b.Targeted entries) (depth jumpIp : Nat) :
    Targeted {b with controlStack := b.controlStack.modify depth (ownJump jumpIp)} entries := by
  refine targeted.same rfl rfl fun frame listed => ?_
  obtain ⟨p,there⟩ := List.mem_iff_getElem?.mp listed
  dsimp only at there
  rw [List.getElem?_modify] at there
  obtain ⟨old,found,rfl⟩ := Option.map_eq_some_iff.mp there
  have kept := targeted.frames old (List.mem_of_getElem? found)
  split <;> exact kept

theorem markUnreachable (targeted : b.Targeted entries) : b.markUnreachable.Targeted entries := by
  refine targeted.same (markUnreachable_instructions b) (by rw [markUnreachable_data]) fun frame listed => ?_
  unfold FunctionBuilder.markUnreachable at listed
  split at listed
  · exact targeted.frames frame listed
  · rename_i inner outer control
    have kept := targeted.frames
    rw [control] at kept
    rcases List.mem_cons.mp listed with rfl | listed
    · exact kept inner List.mem_cons_self
    · exact kept frame (List.mem_cons_of_mem _ listed)

theorem emitDropkeep (targeted : b.Targeted entries) (base keep : ValueCounts) : (b.emitDropkeep base keep).Targeted entries := by
  unfold FunctionBuilder.emitDropkeep
  split
  · exact targeted
  · exact targeted.pushPlain rfl

theorem emit {inputs outputs : List OperandSize} (targeted : b.Targeted entries) (ran : b.emit inputs outputs i = .ok b')
    (none : i.target = none) : b'.Targeted entries := by
  obtain ⟨applied,effect,rfl⟩ := emit_parts ran
  obtain ⟨_,_,rfl⟩ := applyEffect_parts effect
  exact (targeted.withOperands _ _).pushPlain none

theorem popExpect {size : OperandSize} (targeted : b.Targeted entries) (ran : b.popExpect size = .ok b') : b'.Targeted entries := by
  rcases popExpect_parts ran with ⟨_,rfl⟩ | ⟨_,_,_,rfl⟩
  · exact targeted
  · exact targeted.withOperands _ _

theorem pushControl {kind : BlockKind} {ty : BlockType} {initialJump : Option Nat} (targeted : b.Targeted entries)
    (ran : b.pushControl kind ty initialJump = .ok b') : b'.Targeted entries := by
  obtain ⟨signature,popped,pushed,_,taken,given,rfl⟩ := pushControl_parts ran
  obtain ⟨_,_,rfl⟩ := popAll_parts taken
  obtain ⟨_,rfl⟩ := pushSizes_parts given
  refine targeted.same rfl rfl fun frame listed => ?_
  rcases List.mem_cons.mp listed with rfl | listed
  · exact Nat.le_refl _
  · exact targeted.frames frame listed

theorem patchEndJumps {frame : ControlFrame} {endIp : Nat} (targeted : b.Targeted entries)
    (begins : frame.startIp ≤ b.instructions.length) (ends : endIp ≤ b.instructions.length) :
    (b.patchEndJumps frame endIp).Targeted entries := by
  have patched {t : Nat} (jumps : List Nat) (b : FunctionBuilder) (targeted : b.Targeted entries)
      (within : t ≤ b.instructions.length) : Targeted (jumps.foldl (fun b jump => b.patchJump jump t) b) entries := by
    induction jumps generalizing b with
    | nil => exact targeted
    | cons jump jumps ih =>
      refine ih _ (targeted.patchJump jump within) ?_
      exact Nat.le_trans within (Nat.le_of_eq (List.length_modify ..).symm)
  unfold FunctionBuilder.patchEndJumps
  split
  · exact patched _ _ targeted begins
  · split
    · exact patched _ _ targeted ends
    · exact patched _ _ (targeted.patchJump _ ends) (Nat.le_trans ends (Nat.le_of_eq (List.length_modify ..).symm))
  · exact patched _ _ targeted ends

theorem emitDropkeepToLabel {depth : Nat} (targeted : b.Targeted entries) (ran : b.emitDropkeepToLabel depth = .ok b') :
    b'.Targeted entries := by
  unfold FunctionBuilder.emitDropkeepToLabel at ran
  split at ran
  · cases ran
    exact targeted
  · obtain ⟨frame,_,ran⟩ := except_bind_ok ran
    cases ran
    exact targeted.emitDropkeep _ _

theorem labelled {depth : Nat} {frame : ControlFrame} (targeted : b.Targeted entries) (named : b.labelFrame depth = .ok frame) :
    frame.startIp ≤ b.instructions.length := by
  unfold labelFrame at named
  split at named
  · cases named
    exact targeted.frames _ (List.mem_of_getElem? (by assumption))
  · cases named

theorem emitBranchJumpOrReturn {depth : Nat} (targeted : b.Targeted entries) (ran : b.emitBranchJumpOrReturn depth = .ok b') :
    b'.Targeted entries := by
  obtain ⟨frame,named,ran⟩ := except_bind_ok ran
  split at ran
  · cases ran
    exact targeted.pushPlain rfl
  · cases ran
    exact targeted.push (.jump (Nat.le_trans (targeted.labelled named) (Nat.le_succ _)))
  all_goals cases ran; exact (targeted.owns depth _).push (.jump (Nat.zero_le _))

end Targeted

theorem emitDropkeep_parts (b : FunctionBuilder) (base keep : ValueCounts) :
    ∃ more, b.emitDropkeep base keep = {b with instructions := b.instructions ++ more} := by
  unfold emitDropkeep
  split
  · exact ⟨[],by rw [List.append_nil]⟩
  · exact ⟨_,rfl⟩

theorem emitDropkeepToLabel_parts {depth : Nat} (ran : b.emitDropkeepToLabel depth = .ok b') :
    ∃ more, b' = {b with instructions := b.instructions ++ more} := by
  unfold emitDropkeepToLabel at ran
  split at ran
  · cases ran
    exact ⟨[],by rw [List.append_nil]⟩
  · obtain ⟨frame,_,ran⟩ := except_bind_ok ran
    cases ran
    exact emitDropkeep_parts _ _ _

-- The pads made so far begin within the code, each with its jump.
def PadsTargeted (b : FunctionBuilder) (pads : List PadInfo) : Prop :=
  ∀ pad ∈ pads, pad.padStart ≤ b.instructions.length ∧ ∃ i, b.instructions[pad.jumpOrRetIp]? = some i ∧ i.leaves = true

theorem PadsTargeted.add {pads : List PadInfo} {pad : PadInfo} {more : List Instruction} (targeted : b.PadsTargeted pads)
    (begins : pad.padStart ≤ b.instructions.length) (jumps : pad.jumpOrRetIp = b.instructions.length + more.length)
    (leaves : i.leaves = true) : PadsTargeted {b with instructions := b.instructions ++ more ++ [i]} (pads ++ [pad]) := by
  intro other listed
  have length : (b.instructions ++ more ++ [i]).length = b.instructions.length + more.length + 1 := by
    rw [List.length_append,List.length_append,List.length_singleton]
  rcases List.mem_append.mp listed with old | new
  · obtain ⟨low,j,there,jumps⟩ := targeted other old
    refine ⟨?_,j,?_,jumps⟩
    · dsimp only
      omega
    · dsimp only
      rw [List.append_assoc,List.getElem?_append_left (List.getElem?_eq_some_iff.mp there).1]
      exact there
  · obtain rfl := List.mem_singleton.mp new
    refine ⟨?_,i,?_,leaves⟩
    · dsimp only
      omega
    · dsimp only
      rw [jumps,←List.length_append,List.getElem?_append_right (Nat.le_refl _),Nat.sub_self]
      rfl

theorem addPads_targeted {depths : List Nat} {pads pads' : List PadInfo} (targeted : b.Targeted entries)
    (padded : b.PadsTargeted pads) (ran : b.addPads depths pads = .ok (b',pads')) :
    b'.Targeted entries ∧ b'.PadsTargeted pads' ∧ ∃ more, b' = {b with instructions := b.instructions ++ more} := by
  induction depths generalizing b pads with
  | nil =>
    cases ran
    exact ⟨targeted,padded,[],by rw [List.append_nil]⟩
  | cons depth depths ih =>
    unfold addPads at ran
    split at ran
    · exact ih targeted padded ran
    · split at ran
      · have added : PadsTargeted {b with instructions := b.instructions ++ [] ++ [.return_]}
            (pads ++ [⟨depth,b.instructions.length,b.instructions.length,true⟩]) := padded.add (Nat.le_refl _) rfl rfl
        rw [List.append_nil] at added
        obtain ⟨targeted',padded',more,rfl⟩ := ih (targeted.pushPlain rfl) added ran
        exact ⟨targeted',padded',[.return_] ++ more,by rw [←List.append_assoc]; rfl⟩
      · obtain ⟨frame,_,ran⟩ := except_bind_ok ran
        have shaped := targeted.emitDropkeep frame.base (LaneCounts.wrap (valueCounts frame.labelTypes))
        obtain ⟨shaping,code⟩ := b.emitDropkeep_parts frame.base (LaneCounts.wrap (valueCounts frame.labelTypes))
        dsimp only at ran
        rw [code] at ran shaped
        have added : PadsTargeted {b with instructions := b.instructions ++ shaping ++ [.jump 0]}
            (pads ++ [⟨depth,b.instructions.length,(b.instructions ++ shaping).length,false⟩]) :=
          padded.add (Nat.le_refl _) List.length_append rfl
        obtain ⟨targeted',padded',more,rfl⟩ := ih (shaped.push (.jump (Nat.zero_le _))) added ran
        exact ⟨targeted',padded',shaping ++ [.jump 0] ++ more,by simp only [push,List.append_assoc]⟩

theorem Instruction.leaves_plain {k : Nat} (leaves : i.leaves = true) : ¬i.Tabulates k := by
  cases i with
  | branchTable => cases leaves
  | _ => exact id

theorem patchPads_targeted {pads : List PadInfo} (targeted : b.Targeted entries) (padded : b.PadsTargeted pads)
    (ran : b.patchPads pads = .ok b') : b'.Targeted entries := by
  induction pads generalizing b with
  | nil =>
    cases ran
    exact targeted
  | cons pad pads ih =>
    have later : b.PadsTargeted pads := fun other listed => padded other (List.mem_cons_of_mem _ listed)
    -- A jump set in the place of another leaves the other pads their jumps.
    have reset {j : Nat} {old new : Instruction} (there : b.instructions[j]? = some old) (jumps : old.leaves = true)
        (leaves : new.leaves = true) : PadsTargeted {b with instructions := b.instructions.set j new} pads := by
      intro other listed
      obtain ⟨low,i,found,jumps'⟩ := later other listed
      exact ⟨Nat.le_trans low (Nat.le_of_eq (List.length_set ..).symm),
        (Repatched.set there jumps leaves).leaves _ i found jumps'⟩
    unfold patchPads at ran
    split at ran
    · exact ih targeted later ran
    · obtain ⟨_,old,there,jumps⟩ := padded pad List.mem_cons_self
      obtain ⟨frame,named,ran⟩ := except_bind_ok ran
      split at ran
      · exact ih (targeted.set there (fun _ => Instruction.leaves_plain jumps) (.plain rfl)) (reset there jumps rfl) ran
      · refine ih (targeted.patchJump _ (targeted.labelled named)) ?_ ran
        have patched := reset there jumps (patchTarget_leaves frame.startIp old jumps)
        intro other listed
        rw [patchJump_set there]
        exact patched other listed
      all_goals exact ih (targeted.owns _ _) later ran

-- Between visits every range of entries is there.
def Aimed (b : FunctionBuilder) : Prop := b.Targeted b.data.branchTableTargets.length

namespace Aimed

-- A visit that adds no table.
theorem of (targeted : b'.Targeted b.data.branchTableTargets.length) (same : b'.data = b.data) : b'.Aimed := by
  unfold Aimed
  rw [same]
  exact targeted

theorem emit {inputs outputs : List OperandSize} (aimed : b.Aimed) (ran : b.emit inputs outputs i = .ok b')
    (none : i.target = none) : b'.Aimed := by
  refine .of (Targeted.emit aimed ran none) ?_
  obtain ⟨applied,effect,rfl⟩ := emit_parts ran
  obtain ⟨_,_,rfl⟩ := applyEffect_parts effect
  rfl

theorem applyEffect {inputs outputs : List OperandSize} (aimed : b.Aimed) (ran : b.applyEffect inputs outputs = .ok b') :
    b'.Aimed := by
  obtain ⟨_,_,rfl⟩ := applyEffect_parts ran
  exact Targeted.withOperands aimed _ _

theorem popExpect {size : OperandSize} (aimed : b.Aimed) (ran : b.popExpect size = .ok b') : b'.Aimed := by
  rcases popExpect_parts ran with ⟨_,rfl⟩ | ⟨_,_,_,rfl⟩
  · exact aimed
  · exact Targeted.withOperands aimed _ _

theorem pushPlain (aimed : b.Aimed) (none : i.target = none) : (b.push i).Aimed := Targeted.pushPlain aimed none

theorem markUnreachable (aimed : b.Aimed) : b.markUnreachable.Aimed := .of (Targeted.markUnreachable aimed) (markUnreachable_data b)

theorem pushControl {kind : BlockKind} {ty : BlockType} {initialJump : Option Nat} (aimed : b.Aimed)
    (ran : b.pushControl kind ty initialJump = .ok b') : b'.Aimed := by
  refine .of (Targeted.pushControl aimed ran) ?_
  obtain ⟨signature,popped,pushed,_,taken,given,rfl⟩ := pushControl_parts ran
  obtain ⟨_,_,rfl⟩ := popAll_parts taken
  obtain ⟨_,rfl⟩ := pushSizes_parts given
  rfl

theorem constant (aimed : b.Aimed) (v128Constants : List (Value .s128)) : Aimed {b with data := {b.data with v128Constants}} :=
  Targeted.same aimed rfl rfl aimed.frames

end Aimed

theorem terminating_aimed (aimed : b.Aimed) (ran : b.terminating i = .ok b') (none : i.target = none) : b'.Aimed :=
  aimed.markUnreachable.emit ran none

theorem visitLocalTee_aimed {idx : Nat} (aimed : b.Aimed) (ran : b.visitLocalTee idx = .ok b') : b'.Aimed := by
  obtain ⟨⟨size,localIdx⟩,_,ran⟩ := except_bind_ok ran
  obtain ⟨applied,effect,ran⟩ := except_bind_ok ran
  have kept := aimed.applyEffect effect
  split at ran
  · rename_i src folded
    cases ran
    -- The get of a local that goes is no table.
    obtain ⟨last,code⟩ : ∃ last, applied.instructions = applied.instructions.dropLast ++ [.localGet last src] := by
      unfold foldableGet at folded
      split at folded
      · rename_i other get top
        refine ⟨other,?_⟩
        split at folded
        · cases folded
          exact (List.dropLast_append_getLast? _ top).symm
        · cases folded
      · cases folded
    have length := congrArg List.length code
    rw [List.length_append,List.length_singleton] at length
    refine Targeted.recoded kept ?_ (fun i listed => ?_) fun k ⟨i,listed,own⟩ => ?_
    · rw [List.length_append]
      exact Nat.le_trans (Nat.le_of_eq length) (Nat.add_le_add_left (Nat.succ_le_succ (Nat.zero_le _)) _)
    · rcases List.mem_append.mp listed with old | new
      · refine (kept.code i (List.dropLast_subset _ old)).mono ?_ (Nat.le_refl _)
        rw [List.length_append]
        exact Nat.le_trans (Nat.le_of_eq length) (Nat.add_le_add_left (Nat.succ_le_succ (Nat.zero_le _)) _)
      · refine .plain ?_
        simp only [List.mem_cons,List.not_mem_nil,or_false] at new
        rcases new with rfl | rfl <;> rfl
    · refine ⟨i,List.mem_append_left _ ?_,own⟩
      rw [code] at listed
      rcases List.mem_append.mp listed with old | gone
      · exact old
      · obtain rfl := List.mem_singleton.mp gone
        cases own
  · cases ran
    exact kept.pushPlain rfl

theorem visitIf_aimed {ty : BlockType} (aimed : b.Aimed) (ran : b.visitIf ty = .ok b') : b'.Aimed := by
  obtain ⟨popped,tested,ran⟩ := except_bind_ok ran
  have tests : (popped.push (.jumpIfZero .s32 0)).Aimed := Targeted.push (aimed.popExpect tested) (.jumpIfZero (Nat.zero_le _))
  exact tests.pushControl ran

theorem visitElse_aimed (aimed : b.Aimed) (ran : b.visitElse = .ok b') : b'.Aimed := by
  obtain ⟨frame,outer,reset,control,_,given,rfl⟩ := visitElse_parts ran
  obtain ⟨_,rfl⟩ := pushSizes_parts given
  have jumped : Targeted _ b.data.branchTableTargets.length := Targeted.push (i := .jump 0) aimed (.jump (Nat.zero_le _))
  have patched := jumped.patchJump (t := b.instructions.length + 1) (frame.branchJumps.headD 0)
    (by rw [push,List.length_append]; exact Nat.le_refl _)
  refine .of (patched.same rfl rfl fun other listed => ?_) rfl
  have kept := patched.frames
  change ∀ other ∈ b.controlStack, _ at kept
  rw [control] at kept
  rcases List.mem_cons.mp listed with rfl | listed
  · exact kept frame List.mem_cons_self
  · exact kept other (List.mem_cons_of_mem _ listed)

theorem patchEndJumps_data (b : FunctionBuilder) (frame : ControlFrame) (endIp : Nat) : (b.patchEndJumps frame endIp).data = b.data := by
  have patched (jumps : List Nat) (target : Nat) (b : FunctionBuilder) :
      (jumps.foldl (fun b jump => b.patchJump jump target) b).data = b.data := by
    induction jumps generalizing b with
    | nil => rfl
    | cons jump jumps ih => exact ih _
  unfold patchEndJumps
  split
  · exact patched _ _ _
  · split <;> exact patched _ _ _
  · exact patched _ _ _

theorem visitEnd_aimed (aimed : b.Aimed) (ran : b.visitEnd = .ok b') : b'.Aimed := by
  have kept := aimed.frames
  obtain ⟨frame,outer,control,⟨_,rfl⟩ | ⟨_,reset,given,rfl⟩⟩ := visitEnd_parts ran
  · rw [control] at kept
    exact Aimed.pushPlain (.of (Targeted.same aimed rfl rfl fun other listed => kept other (List.mem_cons_of_mem _ listed)) rfl) rfl
  · obtain ⟨counts,rfl⟩ := pushSizes_parts given
    rw [control] at kept
    refine .of (Targeted.patchEndJumps ?_ (kept frame List.mem_cons_self) (Nat.le_refl _)) (patchEndJumps_data _ _ _)
    refine Targeted.same aimed rfl rfl fun other listed => ?_
    cases outer with
    | nil => cases listed
    | cons parent outer =>
      rcases List.mem_cons.mp listed with rfl | listed
      · exact kept parent (List.mem_cons_of_mem _ List.mem_cons_self)
      · exact kept other (List.mem_cons_of_mem _ (List.mem_cons_of_mem _ listed))

theorem emitDropkeepToLabel_data {depth : Nat} (ran : b.emitDropkeepToLabel depth = .ok b') : b'.data = b.data := by
  obtain ⟨more,rfl⟩ := emitDropkeepToLabel_parts ran
  rfl

theorem emitBranchJumpOrReturn_data {depth : Nat} (ran : b.emitBranchJumpOrReturn depth = .ok b') : b'.data = b.data := by
  obtain ⟨frame,_,ran⟩ := except_bind_ok ran
  split at ran <;> cases ran <;> rfl

theorem visitBr_aimed {depth : Nat} (aimed : b.Aimed) (ran : b.visitBr depth = .ok b') : b'.Aimed := by
  obtain ⟨shaped,shape,ran⟩ := except_bind_ok ran
  obtain ⟨branched,left,ran⟩ := except_bind_ok ran
  cases ran
  refine Aimed.markUnreachable (.of ((Targeted.emitDropkeepToLabel aimed shape).emitBranchJumpOrReturn left) ?_)
  rw [emitBranchJumpOrReturn_data left,emitDropkeepToLabel_data shape]

theorem visitBrIf_aimed {depth : Nat} (aimed : b.Aimed) (ran : b.visitBrIf depth = .ok b') : b'.Aimed := by
  obtain ⟨popped,tested,shaped,shape,branch⟩ := visitBrIf_parts ran
  have tests : (popped.push (.jumpIfZero .s32 0)).Aimed := Targeted.push (aimed.popExpect tested) (.jumpIfZero (Nat.zero_le _))
  have kept : shaped.Aimed := .of (Targeted.emitDropkeepToLabel tests shape) (emitDropkeepToLabel_data shape)
  rcases branch with ⟨frame,_,_,_,rfl⟩ | ⟨branched,left,rfl⟩
  · have there : shaped.instructions[popped.instructions.length]? = some (.jumpIfZero .s32 0) := by
      obtain ⟨more,rfl⟩ := emitDropkeepToLabel_parts shape
      simp [push]
    exact (Targeted.set kept there (fun _ => id) (.jumpIfNonZero (Nat.zero_le _))).owns depth _
  · have left' : branched.Aimed := .of (Targeted.emitBranchJumpOrReturn kept left) (emitBranchJumpOrReturn_data left)
    exact Targeted.patchJump left' _ (Nat.le_refl _)

theorem patchPads_data {pads : List PadInfo} (ran : b.patchPads pads = .ok b') : b'.data = b.data := by
  induction pads generalizing b with
  | nil => cases ran; rfl
  | cons pad pads ih =>
    unfold patchPads at ran
    split at ran
    · exact ih ran
    · obtain ⟨frame,_,ran⟩ := except_bind_ok ran
      split at ran
      · exact (ih ran).trans rfl
      · exact (ih ran).trans rfl
      all_goals exact (ih ran).trans rfl

-- The entries come after the pads they name, and behind them all stands their table.
theorem visitBrTable_aimed {targetDepths : List Nat} {defaultDepth : Nat} (aimed : b.Aimed)
    (ran : b.visitBrTable targetDepths defaultDepth = .ok b') : b'.Aimed := by
  obtain ⟨popped,filled,pads,found,defaultPad,patched,tested,added,looked,default,patching,rfl⟩ := visitBrTable_parts ran
  have start := aimed.popExpect tested
  let entries := popped.data.branchTableTargets.length + targetDepths.length
  have header : (popped.push (.branchTable 0 popped.data.branchTableTargets.length targetDepths.length)).Targeted entries :=
    Targeted.push (Targeted.widen start (Nat.le_add_right _ _)) (.branchTable (Nat.zero_le _) (Nat.le_refl _))
  obtain ⟨filled',padded,more,rfl⟩ := addPads_targeted header (by intro _ listed; cases listed) added
  have counted : found.length = targetDepths.length := mapM_length looked
  let tabled : FunctionBuilder :=
    {popped with
      instructions := popped.instructions ++ [.branchTable 0 popped.data.branchTableTargets.length targetDepths.length] ++ more
      data := {popped.data with branchTableTargets := popped.data.branchTableTargets ++ found.map PadInfo.padStart}}
  have entered : tabled.Targeted entries := by
    refine ⟨filled'.code,fun t listed => ?_,fun k within => ?_,filled'.frames⟩
    · rcases List.mem_append.mp listed with old | new
      · exact filled'.table t old
      · obtain ⟨pad,among,rfl⟩ := List.mem_map.mp new
        obtain ⟨depth,_,answered⟩ := mapM_mem looked pad among
        exact (padded pad (padFor_found answered).1).1
    · change k < (popped.data.branchTableTargets ++ found.map PadInfo.padStart).length at within
      rw [List.length_append,List.length_map,counted] at within
      by_cases old : k < popped.data.branchTableTargets.length
      · exact filled'.owned k old
      · refine ⟨_,List.mem_append_left _ (List.mem_append_right _ List.mem_cons_self),?_⟩
        exact ⟨Nat.le_of_not_lt old,within⟩
  have named := entered.modify (f := setDefault defaultPad.padStart) popped.instructions.length
    (fun i emitted => emitted.defaulted (padded _ (padFor_found default).1).1) fun _ _ => setDefault_tabulates
  have jumps (pad : PadInfo) (listed : pad ∈ pads) : pad.padStart ≤ tabled.instructions.length ∧
      ∃ i, (tabled.instructions.modify popped.instructions.length (setDefault defaultPad.padStart))[pad.jumpOrRetIp]? = some i ∧
        i.leaves = true := by
    obtain ⟨low,i,there,leaves⟩ := padded pad listed
    refine ⟨low,_,by rw [List.getElem?_modify]; exact congrArg _ there,?_⟩
    split
    · exact setDefault_leaves _ i leaves
    · exact leaves
  have jumped : PadsTargeted {tabled with
      instructions := tabled.instructions.modify popped.instructions.length (setDefault defaultPad.padStart)} pads := by
    intro pad listed
    obtain ⟨low,jump⟩ := jumps pad listed
    exact ⟨Nat.le_trans low (Nat.le_of_eq (List.length_modify ..).symm),jump⟩
  refine Aimed.markUnreachable ?_
  have kept := patchPads_targeted named jumped patching
  unfold Aimed
  rw [patchPads_data patching]
  change patched.Targeted (popped.data.branchTableTargets ++ found.map PadInfo.padStart).length
  rw [List.length_append,List.length_map,counted]
  exact kept

theorem visit_aimed {op : Operator} (aimed : b.Aimed) (ran : b.visit op = .ok b') : b'.Aimed := by
  cases op with
  | row inputs outputs i continues => exact aimed.emit ran (Instruction.continues_plain continues)
  | effect inputs outputs => exact aimed.applyEffect ran
  | v128Const value =>
    obtain ⟨b₁,emitted,ran⟩ := except_bind_ok ran
    cases ran
    exact (aimed.emit emitted rfl).constant _
  | i8x16Shuffle lanes =>
    obtain ⟨b₁,emitted,ran⟩ := except_bind_ok ran
    cases ran
    exact (aimed.emit emitted rfl).constant _
  | unreachable => exact terminating_aimed aimed ran rfl
  | return_ => exact terminating_aimed aimed ran rfl
  | call functionIndex =>
    obtain ⟨signature,_,ran⟩ := except_bind_ok ran
    exact aimed.emit ran rfl
  | callIndirect typeIndex tableIndex =>
    obtain ⟨signature,_,ran⟩ := except_bind_ok ran
    obtain ⟨index,_,ran⟩ := except_bind_ok ran
    exact aimed.emit ran rfl
  | returnCall functionIndex =>
    obtain ⟨signature,_,ran⟩ := except_bind_ok ran
    obtain ⟨applied,effect,ran⟩ := except_bind_ok ran
    cases ran
    exact (aimed.applyEffect effect).markUnreachable.pushPlain rfl
  | returnCallIndirect typeIndex tableIndex =>
    obtain ⟨signature,_,ran⟩ := except_bind_ok ran
    obtain ⟨index,_,ran⟩ := except_bind_ok ran
    obtain ⟨applied,effect,ran⟩ := except_bind_ok ran
    cases ran
    exact (aimed.applyEffect effect).markUnreachable.pushPlain rfl
  | globalSet globalIndex =>
    obtain ⟨size,_,ran⟩ := except_bind_ok ran
    exact aimed.emit ran rfl
  | drop => exact aimed.emit ran rfl
  | select => exact aimed.emit ran rfl
  | localGet idx =>
    obtain ⟨⟨size,localIdx⟩,_,ran⟩ := except_bind_ok ran
    exact aimed.emit ran rfl
  | localSet idx =>
    obtain ⟨⟨size,localIdx⟩,_,ran⟩ := except_bind_ok ran
    exact aimed.emit ran rfl
  | localTee idx => exact visitLocalTee_aimed aimed ran
  | block ty => exact aimed.pushControl ran
  | loop ty => exact aimed.pushControl ran
  | if_ ty => exact visitIf_aimed aimed ran
  | else_ => exact visitElse_aimed aimed ran
  | end_ => exact visitEnd_aimed aimed ran
  | br depth => exact visitBr_aimed aimed ran
  | brIf depth => exact visitBrIf_aimed aimed ran
  | brTable targetDepths defaultDepth => exact visitBrTable_aimed aimed ran

theorem visits_aimed {ops : List Operator} (aimed : b.Aimed) (ran : ops.foldlM visit b = .ok b') : b'.Aimed := by
  induction ops generalizing b with
  | nil =>
    cases ran
    exact aimed
  | cons op ops ih =>
    rw [List.foldlM_cons] at ran
    obtain ⟨b₁,first,rest⟩ := except_bind_ok ran
    exact ih (visit_aimed aimed first) rest

-- A body is over where the function's own frame ends.
def Produces (start b : FunctionBuilder) : Prop := ∃ (ops : List Operator) (last : FunctionBuilder) (frame : ControlFrame),
  ops.foldlM visit start = .ok last ∧ last.controlStack = [frame] ∧ frame.kind = .function ∧ last.visitEnd = .ok b

end FunctionBuilder

-- Code with its table where every target comes before the last instruction, which
-- returns, or is that one.
structure Aimable (code : List Instruction) (table : List Nat) : Prop where
  emitted : ∃ body, code = body ++ [.return_] ∧ (∀ i ∈ body, Emitted body.length table.length i) ∧ ∀ t ∈ table, t ≤ body.length
  owned : ∀ k < table.length, ∃ i ∈ code, i.Tabulates k

theorem FunctionBuilder.Produces.aimable {metadata : ModuleMetadata} {signature : Signature} {localTypes : List OperandSize}
    {localAddrMap : List LocalAddr} {b : FunctionBuilder} (produces : Produces (new metadata signature localTypes localAddrMap) b) :
    Aimable b.instructions b.data.branchTableTargets := by
  obtain ⟨ops,last,frame,ran,control,kind,ended⟩ := produces
  have aimed : last.Aimed := visits_aimed (Targeted.new metadata signature localTypes localAddrMap) ran
  obtain ⟨inner,outer,control',⟨_,rfl⟩ | ⟨different,_⟩⟩ := visitEnd_parts ended
  · refine ⟨⟨last.instructions,rfl,aimed.code,aimed.table⟩,fun k within => ?_⟩
    obtain ⟨i,listed,own⟩ := aimed.owned k within
    exact ⟨i,List.mem_append_left _ listed,own⟩
  · rw [control] at control'
    cases control'
    exact absurd kind different

end TinyWasm
