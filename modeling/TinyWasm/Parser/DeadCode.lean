import TinyWasm.Parser.Bookkeeping
import TinyWasm.Parser.ControlFlow

namespace TinyWasm

-- A jump that is still to be patched is none that control runs through.
def Waits (code : List Instruction) (j : Nat) : Prop := ∃ i, code[j]? = some i ∧ i.continues = false

-- The jumps to a frame's label; the first of an if is its test.
def ControlFrame.ownJumps (frame : ControlFrame) : List Nat :=
  if frame.kind = .if_ then frame.branchJumps.tail else frame.branchJumps

structure SoundFrame (code : List Instruction) (marks : List Bool) (fall : Bool) (frame : ControlFrame) : Prop where
  begins : frame.entryUnreachable = false → Enterable marks fall frame.startIp
  test : frame.kind = .if_ → ∃ condJump jumps, frame.branchJumps = condJump :: jumps ∧ Waits code condJump ∧
    (marks[condJump]? = some false → frame.entryUnreachable = false)
  own : ∀ j ∈ frame.ownJumps, Waits code j ∧
    (marks[j]? = some false → frame.entryUnreachable = false ∧ frame.endReachable = true)

namespace FunctionBuilder

def unreachableIn : List ControlFrame → Bool
  | [] => true
  | frame :: _ => frame.unreachable

theorem isUnreachable_eq (b : FunctionBuilder) : b.isUnreachable = unreachableIn b.controlStack := by
  unfold isUnreachable unreachableIn
  cases b.controlStack <;> rfl

-- A frame is entered as reachable as what is around it, and stays unreachable
-- once it was entered so.
def Flagged : List ControlFrame → Prop
  | [] => True
  | frame :: outer => (frame.entryUnreachable = true → frame.unreachable = true) ∧ (frame.kind = .function → outer = []) ∧
      (frame.kind ≠ .function → frame.entryUnreachable = unreachableIn outer) ∧ Flagged outer

theorem Flagged.live {frames : List ControlFrame} (flags : Flagged frames) (live : unreachableIn frames = false) :
    ∀ frame ∈ frames, frame.entryUnreachable = false := by
  induction frames with
  | nil => nofun
  | cons inner outer ih =>
    obtain ⟨dead,bottom,linked,rest⟩ := flags
    have entered : inner.entryUnreachable = false := by
      cases entry : inner.entryUnreachable with
      | false => rfl
      | true => exact (live.symm.trans (dead entry)).symm ▸ rfl
    intro frame listed
    rcases List.mem_cons.mp listed with rfl | listed
    · exact entered
    · by_cases kind : inner.kind = .function
      · rw [bottom kind] at listed
        cases listed
      · exact ih rest ((linked kind).symm.trans entered) frame listed

theorem unreachableIn_modify (frames : List ControlFrame) (depth j : Nat) :
    unreachableIn (frames.modify depth (ownJump j)) = unreachableIn frames := by
  cases frames with
  | nil => rw [List.modify_nil]
  | cons inner outer => cases depth <;> rfl

theorem Flagged.modify {frames : List ControlFrame} (flags : Flagged frames) (depth j : Nat) :
    Flagged (frames.modify depth (ownJump j)) := by
  induction frames generalizing depth with
  | nil => rw [List.modify_nil]; exact trivial
  | cons inner outer ih =>
    obtain ⟨dead,bottom,linked,rest⟩ := flags
    cases depth with
    | zero => exact ⟨dead,bottom,linked,rest⟩
    | succ depth =>
      rw [List.modify_succ_cons]
      refine ⟨dead,fun kind => ?_,fun kind => ?_,ih rest depth⟩
      · rw [bottom kind,List.modify_nil]
      · rw [unreachableIn_modify]
        exact linked kind

-- The state of the tracking within a visit: `fall` says whether control falls
-- out of the code so far.
structure Tracking (b : FunctionBuilder) (marks : List Bool) (fall : Bool) (hole : Option Nat) : Prop where
  code : LiveCode b.instructions b.data.branchTableTargets marks fall hole
  frames : ∀ frame ∈ b.controlStack, SoundFrame b.instructions marks fall frame
  flags : Flagged b.controlStack

-- Between visits control falls on where the frame is not marked.
def Tracked (b : FunctionBuilder) (marks : List Bool) : Prop := b.Tracking marks (!b.isUnreachable) none

end FunctionBuilder

theorem SoundFrame.persists {code code' : List Instruction} {marks marks' : List Bool} {fall fall' : Bool} {frame : ControlFrame}
    (sound : SoundFrame code marks fall frame) (enters : ∀ ip, Enterable marks fall ip → Enterable marks' fall' ip)
    (waits : ∀ j, Waits code j → Waits code' j ∧ marks'[j]? = marks[j]?) : SoundFrame code' marks' fall' frame := by
  refine ⟨fun entered => enters _ (sound.begins entered),fun kind => ?_,fun j listed => ?_⟩
  · obtain ⟨condJump,jumps,all,waiting,entered⟩ := sound.test kind
    obtain ⟨waiting,same⟩ := waits condJump waiting
    exact ⟨condJump,jumps,all,waiting,by rw [same]; exact entered⟩
  · obtain ⟨waiting,live⟩ := sound.own j listed
    obtain ⟨waiting,same⟩ := waits j waiting
    exact ⟨waiting,by rw [same]; exact live⟩

theorem Waits.append {code : List Instruction} {j : Nat} (waits : Waits code j) (more : List Instruction) : Waits (code ++ more) j := by
  obtain ⟨i,there,jumps⟩ := waits
  exact ⟨i,by rw [List.getElem?_append_left (List.getElem?_eq_some_iff.mp there).1]; exact there,jumps⟩

theorem Waits.set {code : List Instruction} {j k : Nat} {new : Instruction} (waits : Waits code k) (jumps : new.continues = false) :
    Waits (code.set j new) k := by
  obtain ⟨i,there,waiting⟩ := waits
  by_cases own : j = k
  · subst own
    exact ⟨new,List.getElem?_set_self (List.getElem?_eq_some_iff.mp there).1,jumps⟩
  · exact ⟨i,(List.getElem?_set_ne own).trans there,waiting⟩

theorem Waits.modify {code : List Instruction} {j k : Nat} {f : Instruction → Instruction} (waits : Waits code k)
    (jumps : ∀ i, i.continues = false → (f i).continues = false) : Waits (code.modify j f) k := by
  obtain ⟨i,there,waiting⟩ := waits
  refine ⟨if j = k then f i else i,by rw [List.getElem?_modify,there]; rfl,?_⟩
  split
  · exact jumps i waiting
  · exact waiting

theorem Waits.lt {code : List Instruction} {j : Nat} (waits : Waits code j) : j < code.length := by
  obtain ⟨i,there,_⟩ := waits
  exact (List.getElem?_eq_some_iff.mp there).1

namespace FunctionBuilder
variable {b b' : FunctionBuilder} {marks : List Bool} {fall fall' m : Bool} {hole : Option Nat} {i : Instruction}

namespace Tracking

theorem same (tracking : b.Tracking marks fall hole) (code : b'.instructions = b.instructions)
    (table : b'.data.branchTableTargets = b.data.branchTableTargets) (control : b'.controlStack = b.controlStack) :
    b'.Tracking marks fall hole := by
  refine ⟨?_,?_,?_⟩
  · rw [code,table]; exact tracking.code
  · rw [code,control]; exact tracking.frames
  · rw [control]; exact tracking.flags

theorem push (tracking : b.Tracking marks fall hole) (falls : fall = true → m = false)
    (flows : m = false → hole ≠ some b.instructions.length →
      i.Flows b.data.branchTableTargets (Enterable (marks ++ [m]) fall') b.instructions.length) :
    (b.push i).Tracking (marks ++ [m]) fall' hole := by
  refine ⟨tracking.code.push falls flows,fun frame listed => ?_,tracking.flags⟩
  refine (tracking.frames frame listed).persists (fun ip enters => enters.push falls) fun j waits => ⟨waits.append _,?_⟩
  rw [List.getElem?_append_left (by rw [tracking.code.length]; exact waits.lt)]

-- An instruction that passes control on falls out of the code.
theorem pushStraight (tracking : b.Tracking marks fall hole) (falls : fall = !m) (none : i.target = none) :
    (b.push i).Tracking (marks ++ [m]) fall hole := by
  refine tracking.push (fun fell => by rw [falls] at fell; simpa using fell) fun live _ => .straight (.inr ⟨?_,?_⟩) none
  · rw [List.length_append,tracking.code.length]; rfl
  · rw [falls,live]; rfl

theorem pushEnd (tracking : b.Tracking marks fall hole) (falls : fall = true → m = false)
    (terminates : i.isUnconditionalTerminator = true) (none : i.target = none) :
    (b.push i).Tracking (marks ++ [m]) fall' hole := tracking.push falls fun _ _ => .ends terminates none

-- Where one instruction is made anew, it still waits.
theorem alter {instructions : List Instruction} {hole' : Option Nat} (tracking : b.Tracking marks fall hole) (j : Nat)
    (same : instructions.length = b.instructions.length) (others : ∀ k, k ≠ j → instructions[k]? = b.instructions[k]?)
    (holes : ∀ k, k ≠ j → hole' ≠ some k → hole ≠ some k)
    (waits : Waits b.instructions j → Waits instructions j)
    (flows : ∀ i, marks[j]? = some false → instructions[j]? = some i → hole' ≠ some j →
      i.Flows b.data.branchTableTargets (Enterable marks fall) j) :
    Tracking {b with instructions} marks fall hole' := by
  refine ⟨tracking.code.alter j same others holes flows,fun frame listed => ?_,tracking.flags⟩
  refine (tracking.frames frame listed).persists (fun _ enters => enters) fun k waiting => ⟨?_,rfl⟩
  by_cases own : k = j
  · subst own
    exact waits waiting
  · obtain ⟨i,there,jumps⟩ := waiting
    exact ⟨i,(others k own).trans there,jumps⟩

-- Other frames over the same code.
theorem control {controlStack : List ControlFrame} (tracking : b.Tracking marks fall hole) (falls : fall = true → fall' = true)
    (frames : ∀ frame ∈ controlStack, SoundFrame b.instructions marks fall' frame) (flags : Flagged controlStack) :
    Tracking {b with controlStack} marks fall' hole := ⟨tracking.code.mono falls,frames,flags⟩

theorem mono (tracking : b.Tracking marks fall hole) (falls : fall = true → fall' = true) : b.Tracking marks fall' hole :=
  tracking.control falls (fun frame listed => (tracking.frames frame listed).persists (fun _ enters => enters.mono falls)
    fun _ waits => ⟨waits,rfl⟩) tracking.flags

theorem modify {f : Instruction → Instruction} (tracking : b.Tracking marks fall hole) (j : Nat)
    (waits : ∀ i, i.continues = false → (f i).continues = false)
    (flows : ∀ i, marks[j]? = some false → i.Flows b.data.branchTableTargets (Enterable marks fall) j →
      (f i).Flows b.data.branchTableTargets (Enterable marks fall) j) :
    Tracking {b with instructions := b.instructions.modify j f} marks fall hole := by
  have here : (b.instructions.modify j f)[j]? = b.instructions[j]?.map f := by
    rw [List.getElem?_modify_eq]
    rfl
  refine tracking.alter j (List.length_modify ..) (fun k other => List.getElem?_modify_ne f b.instructions (Ne.symm other))
    (fun _ _ => id) (fun waiting => waiting.modify waits) ?_
  · intro i lives there filled
    rw [here] at there
    obtain ⟨old,found,rfl⟩ := Option.map_eq_some_iff.mp there
    exact flows old lives (tracking.code.flows j old lives found filled)

end Tracking

theorem patchTarget_waits (t : Nat) (i : Instruction) (waits : i.continues = false) : (patchTarget t i).continues = false := by
  unfold patchTarget
  split
  · rfl
  · rfl
  · rfl
  · exact waits

theorem patchTarget_flows {table : List Nat} {enters : Nat → Prop} {ip t : Nat} (flows : i.Flows table enters ip)
    (entered : enters t) : (patchTarget t i).Flows table enters ip := by
  have aimed (j : Instruction) (named : j.target = some t) (falls : j.isUnconditionalTerminator = false → enters (ip + 1))
      (alone : ∀ default first len, j ≠ .branchTable default first len) : j.Flows table enters ip := by
    refine ⟨falls,fun u target => ?_,fun default first len same => absurd same (alone default first len)⟩
    cases named.symm.trans target
    exact entered
  unfold patchTarget
  split
  · exact .jump entered
  · exact aimed _ rfl (fun _ => flows.next rfl) nofun
  · exact aimed _ rfl (fun _ => flows.next rfl) nofun
  · exact flows

namespace Tracking

theorem patchJump {j t : Nat} (tracking : b.Tracking marks fall hole) (entered : marks[j]? = some false → Enterable marks fall t) :
    (b.patchJump j t).Tracking marks fall hole :=
  tracking.modify j (patchTarget_waits t) fun _ lives flows => patchTarget_flows flows (entered lives)

theorem patchJumps {jumps : List Nat} {t : Nat} (tracking : b.Tracking marks fall hole)
    (entered : ∀ j ∈ jumps, marks[j]? = some false → Enterable marks fall t) :
    Tracking (jumps.foldl (fun b jump => b.patchJump jump t) b) marks fall hole := by
  induction jumps generalizing b with
  | nil => exact tracking
  | cons j jumps ih =>
    exact ih (tracking.patchJump (entered j List.mem_cons_self)) fun k listed => entered k (List.mem_cons_of_mem _ listed)

-- A jump that is made anew in its place.
theorem set {j : Nat} {new : Instruction} (tracking : b.Tracking marks fall hole) (waits : new.continues = false)
    (flows : marks[j]? = some false → new.Flows b.data.branchTableTargets (Enterable marks fall) j) :
    Tracking {b with instructions := b.instructions.set j new} marks fall hole := by
  refine tracking.alter j (List.length_set ..) (fun k other => List.getElem?_set_ne (Ne.symm other)) (fun _ _ => id)
    (fun waiting => waiting.set waits) ?_
  · intro i lives there _
    rw [List.getElem?_set_self (Nat.lt_of_lt_of_eq (List.getElem?_eq_some_iff.mp there).1 (List.length_set ..))] at there
    cases there
    exact flows lives

-- A jump to the label of a frame: where it is live, the frame is.
theorem owned {depth j : Nat} (tracking : b.Tracking marks fall hole) (waits : Waits b.instructions j)
    (lives : marks[j]? = some false → b.isUnreachable = false) :
    Tracking {b with controlStack := b.controlStack.modify depth (ownJump j)} marks fall hole := by
  refine tracking.control id (fun frame listed => ?_) (tracking.flags.modify depth j)
  obtain ⟨p,there⟩ := List.mem_iff_getElem?.mp listed
  rw [List.getElem?_modify] at there
  obtain ⟨old,found,rfl⟩ := Option.map_eq_some_iff.mp there
  have among := List.mem_of_getElem? found
  have sound := tracking.frames old among
  split
  · have entered (live : marks[j]? = some false) : old.entryUnreachable = false :=
      tracking.flags.live ((isUnreachable_eq b).symm.trans (lives live)) old among
    refine ⟨sound.begins,fun kind => ?_,fun k own => ?_⟩
    · obtain ⟨condJump,jumps,all,rest⟩ := sound.test kind
      exact ⟨condJump,jumps ++ [j],by rw [ownJump,all]; rfl,rest⟩
    · have either : k ∈ old.ownJumps ∨ k = j := by
        unfold ControlFrame.ownJumps at own ⊢
        split at own
        · rename_i kind
          obtain ⟨condJump,jumps,all,_⟩ := sound.test kind
          rw [ownJump,all] at own
          rw [if_pos (show old.kind = .if_ from kind),all]
          exact (List.mem_append.mp own).imp id List.mem_singleton.mp
        · rename_i kind
          rw [if_neg (show ¬old.kind = .if_ from kind)]
          exact (List.mem_append.mp own).imp id List.mem_singleton.mp
      rcases either with before | rfl
      · exact ⟨(sound.own k before).1,fun live => ⟨((sound.own k before).2 live).1,rfl⟩⟩
      · exact ⟨waits,fun live => ⟨entered live,rfl⟩⟩
  · exact sound

theorem markUnreachable (tracking : b.Tracking marks false hole) : b.markUnreachable.Tracking marks false hole := by
  unfold FunctionBuilder.markUnreachable
  have frames := tracking.frames
  have flags := tracking.flags
  split
  · exact tracking
  · rename_i inner outer stack
    rw [stack] at frames flags
    obtain ⟨_,bottom,linked,rest⟩ := flags
    have marked : Flagged ({inner with unreachable := true} :: outer) := ⟨fun _ => rfl,bottom,linked,rest⟩
    refine (tracking.control id (fun frame listed => ?_) marked).same rfl rfl rfl
    rcases List.mem_cons.mp listed with rfl | listed
    · have sound := frames inner List.mem_cons_self
      exact ⟨sound.begins,sound.test,sound.own⟩
    · exact frames frame (List.mem_cons_of_mem _ listed)

end Tracking

end FunctionBuilder

end TinyWasm
