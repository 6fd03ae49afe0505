import TinyWasm.Parser.Optimize

namespace TinyWasm

-- Where control may arrive: at a live instruction, or at the end of the code
-- where it falls through to there.
def Enterable (marks : List Bool) (fall : Bool) (ip : Nat) : Prop := marks[ip]? = some false ∨ ip = marks.length ∧ fall = true

-- Wherever the instruction passes control, it may arrive.
structure Instruction.Flows (table : List Nat) (enters : Nat → Prop) (ip : Nat) (i : Instruction) : Prop where
  next : i.isUnconditionalTerminator = false → enters (ip + 1)
  target (t : Nat) : i.target = some t → enters t
  entries (default first len : Nat) : i = .branchTable default first len → first + len ≤ table.length ∧
    ∀ k < len, ∀ t, table[first + k]? = some t → enters t

-- Dead instructions are marked. A hole is an instruction that is not made yet.
structure LiveCode (code : List Instruction) (table : List Nat) (marks : List Bool) (fall : Bool) (hole : Option Nat) : Prop where
  length : marks.length = code.length
  start : Enterable marks fall 0
  flows (ip : Nat) (i : Instruction) : marks[ip]? = some false → code[ip]? = some i → hole ≠ some ip →
    i.Flows table (Enterable marks fall) ip

namespace Instruction.Flows
variable {table : List Nat} {enters enters' : Nat → Prop} {ip : Nat} {i : Instruction}

theorem mono (flows : i.Flows table enters ip) (more : ∀ t, enters t → enters' t) : i.Flows table enters' ip := by
  refine ⟨fun falls => more _ (flows.next falls),fun t jumps => more t (flows.target t jumps),fun default first len same => ?_⟩
  obtain ⟨range,entries⟩ := flows.entries default first len same
  exact ⟨range,fun k within t listed => more t (entries k within t listed)⟩

theorem append (flows : i.Flows table enters ip) (more : List Nat) : i.Flows (table ++ more) enters ip := by
  refine ⟨flows.next,flows.target,fun default first len same => ?_⟩
  obtain ⟨range,entries⟩ := flows.entries default first len same
  refine ⟨by rw [List.length_append]; omega,fun k within t listed => entries k within t ?_⟩
  rw [List.getElem?_append_left (by omega)] at listed
  exact listed

theorem straight (falls : enters (ip + 1)) (none : i.target = none) : i.Flows table enters ip := by
  refine ⟨fun _ => falls,fun t jumps => ?_,fun default first len same => ?_⟩
  · rw [none] at jumps; cases jumps
  · rw [same] at none; cases none

theorem ends (terminates : i.isUnconditionalTerminator = true) (none : i.target = none) : i.Flows table enters ip := by
  refine ⟨fun falls => ?_,fun t jumps => ?_,fun default first len same => ?_⟩
  · rw [terminates] at falls; cases falls
  · rw [none] at jumps; cases jumps
  · rw [same] at none; cases none

theorem jump {t : Nat} (entered : enters t) : (Instruction.jump t).Flows table enters ip := by
  refine ⟨nofun,fun t' jumps => ?_,nofun⟩
  cases jumps
  exact entered

end Instruction.Flows

namespace Enterable
variable {marks : List Bool} {fall fall' m : Bool} {ip : Nat}

theorem live (enters : Enterable marks false ip) : marks[ip]? = some false := by
  rcases enters with live | ⟨_,falls⟩
  · exact live
  · cases falls

theorem mono (falls : fall = true → fall' = true) (enters : Enterable marks fall ip) : Enterable marks fall' ip := by
  rcases enters with live | ⟨last,fell⟩
  · exact .inl live
  · exact .inr ⟨last,falls fell⟩

-- The instruction that comes to the end is live where control falls to it.
theorem push (falls : fall = true → m = false) (enters : Enterable marks fall ip) : Enterable (marks ++ [m]) fall' ip := by
  rcases enters with live | ⟨rfl,fell⟩
  · refine .inl ?_
    rw [List.getElem?_append_left (List.getElem?_eq_some_iff.mp live).1]
    exact live
  · rw [falls fell]
    exact .inl List.getElem?_concat_length

theorem last (marks : List Bool) (fall : Bool) : Enterable (marks ++ [false]) fall marks.length :=
  .inl List.getElem?_concat_length

end Enterable

namespace LiveCode
variable {code code' : List Instruction} {table : List Nat} {marks : List Bool} {fall fall' m : Bool} {hole hole' : Option Nat}

theorem mono (live : LiveCode code table marks fall hole) (falls : fall = true → fall' = true) :
    LiveCode code table marks fall' hole :=
  ⟨live.length,live.start.mono falls,fun ip i lives there filled =>
    (live.flows ip i lives there filled).mono fun _ enters => enters.mono falls⟩

theorem push {i : Instruction} (live : LiveCode code table marks fall hole) (falls : fall = true → m = false)
    (flows : m = false → hole ≠ some code.length → i.Flows table (Enterable (marks ++ [m]) fall') code.length) :
    LiveCode (code ++ [i]) table (marks ++ [m]) fall' hole := by
  refine ⟨by rw [List.length_append,List.length_append,live.length]; rfl,live.start.push falls,fun ip i' lives there filled => ?_⟩
  rcases Nat.lt_trichotomy ip code.length with before | rfl | after
  · rw [List.getElem?_append_left before] at there
    rw [List.getElem?_append_left (by rw [live.length]; exact before)] at lives
    exact (live.flows ip i' lives there filled).mono fun _ enters => enters.push falls
  · rw [List.getElem?_concat_length] at there
    rw [←live.length,List.getElem?_concat_length] at lives
    cases there
    exact flows (Option.some.inj lives) filled
  · rw [List.getElem?_eq_none (by rw [List.length_append]; exact after)] at there
    cases there

-- One instruction is made anew.
theorem alter (live : LiveCode code table marks fall hole) (j : Nat) (same : code'.length = code.length)
    (others : ∀ k, k ≠ j → code'[k]? = code[k]?) (holes : ∀ k, k ≠ j → hole' ≠ some k → hole ≠ some k)
    (flows : ∀ i, marks[j]? = some false → code'[j]? = some i → hole' ≠ some j → i.Flows table (Enterable marks fall) j) :
    LiveCode code' table marks fall hole' := by
  refine ⟨live.length.trans same.symm,live.start,fun ip i lives there filled => ?_⟩
  by_cases own : ip = j
  · subst own
    exact flows i lives there filled
  · rw [others ip own] at there
    exact live.flows ip i lives there (holes ip own filled)

theorem extend (live : LiveCode code table marks fall hole) (more : List Nat) : LiveCode code (table ++ more) marks fall hole :=
  ⟨live.length,live.start,fun ip i lives there filled => (live.flows ip i lives there filled).append more⟩

-- Where nothing falls out of the code, what is live leads to what is live.
theorem closed {ip : Nat} {i : Instruction} (live : LiveCode code table marks false none) (lives : marks[ip]? = some false)
    (there : code[ip]? = some i) : i.Flows table (fun t => marks[t]? = some false) ip :=
  (live.flows ip i lives there nofun).mono fun _ enters => enters.live

end LiveCode

end TinyWasm
