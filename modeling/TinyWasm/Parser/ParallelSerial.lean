import TinyWasm.Fallible
import TinyWasm.Parser.Parallel

namespace TinyWasm
open Fallible

namespace Parallel
variable {F V R : Type} {ctx : Context F V R} {chunkBytes : Nat} {pending : List (PendingFunction F)}

-- What one body comes to, whatever allocations it is given.
def lowered (ctx : Context F V R) (job : PendingFunction F) : Except ParseError FunctionCode :=
  (processFunctionJob ctx job none ctx.lowering.defaultReaderAllocs).map (·.1)

theorem processFunctionJob_code (irrelevant : ctx.lowering.AllocsIrrelevant) (job : PendingFunction F)
    (validatorAllocs : Option V) (readerAllocs : R) :
    (processFunctionJob ctx job validatorAllocs readerAllocs).map (·.1) = lowered ctx job := by
  have same := irrelevant.same (functionBody job.body) job.funcToValidate
    (validatorAllocs.getD ctx.lowering.defaultValidatorAllocs)
    ((none : Option V).getD ctx.lowering.defaultValidatorAllocs) readerAllocs ctx.lowering.defaultReaderAllocs job.tyIdx
  unfold lowered processFunctionJob
  dsimp only
  revert same
  generalize ctx.lowering.convertModuleCode _ _ readerAllocs _ = left
  generalize ctx.lowering.convertModuleCode _ _ ctx.lowering.defaultReaderAllocs _ = right
  intro same
  cases left with
  | error e =>
    cases right with
    | error e' => cases same; rfl
    | ok b => cases same
  | ok a =>
    cases right with
    | error e' => cases same
    | ok b =>
      have codes : a.1 = b.1 := Except.ok.inj same
      obtain ⟨code,va,ra⟩ := a
      obtain ⟨code',va',ra'⟩ := b
      cases codes
      simp only [bind,Except.bind]
      split <;> rfl

theorem processJobs_eq (irrelevant : ctx.lowering.AllocsIrrelevant) (validatorAllocs : Option V) (readerAllocs : R)
    (codes : List FunctionCode) (jobs : List (PendingFunction F)) :
    processJobs ctx validatorAllocs readerAllocs codes jobs = (jobs.mapM (lowered ctx)).map (codes ++ ·) := by
  induction jobs generalizing validatorAllocs readerAllocs codes with
  | nil => exact congrArg Except.ok (List.append_nil codes).symm
  | cons job jobs ih =>
    have code := processFunctionJob_code irrelevant job validatorAllocs readerAllocs
    rw [processJobs,List.mapM_cons,←code]
    cases processFunctionJob ctx job validatorAllocs readerAllocs with
    | error e => rfl
    | ok outcome =>
      obtain ⟨c,va,ra⟩ := outcome
      simp only [Except.map,bind,Except.bind]
      rw [ih]
      cases jobs.mapM (lowered ctx) with
      | error e => rfl
      | ok rest => exact congrArg Except.ok (List.append_assoc codes [c] rest)

theorem processChunk_eq (irrelevant : ctx.lowering.AllocsIrrelevant) (jobs : List (PendingFunction F)) :
    processChunk ctx jobs = jobs.mapM (lowered ctx) := by
  rw [processChunk,processJobs_eq irrelevant]
  cases jobs.mapM (lowered ctx) <;> rfl

theorem fillChunk_append (chunkBytes bytes : Nat) (jobs : List (PendingFunction F)) :
    (fillChunk chunkBytes bytes jobs).1 ++ (fillChunk chunkBytes bytes jobs).2 = jobs := by
  induction jobs generalizing bytes with
  | nil => rfl
  | cons job jobs ih =>
    unfold fillChunk
    split
    · exact congrArg (job :: ·) (ih _)
    · rfl

-- The chunk a worker was given, which is what it took up and what it has left.
def Worker.jobs (w : Worker F V R) : List (PendingFunction F) := w.taken ++ w.left

-- A worker at work has the codes of what it took up. Its result is that of its
-- whole chunk, and it leaves jobs behind only after an error.
structure Worker.Sound (ctx : Context F V R) (w : Worker F V R) : Prop where
  codes_eq : w.result = none → w.taken.mapM (lowered ctx) = .ok w.codes
  result_eq (r : Except ParseError (List FunctionCode)) : w.result = some r → r = w.jobs.mapM (lowered ctx)
  left_eq (codes : List FunctionCode) : w.result = some (.ok codes) → w.left = []

theorem Worker.sound_working {w : Worker F V R} (unfinished : w.result = none)
    (done : w.taken.mapM (lowered ctx) = .ok w.codes) : w.Sound ctx where
  codes_eq _ := done
  result_eq r finished := by rw [unfinished] at finished; cases finished
  left_eq codes finished := by rw [unfinished] at finished; cases finished

theorem Worker.sound_finished {w : Worker F V R} {r : Except ParseError (List FunctionCode)}
    (finished : w.result = some r) (total : r = w.jobs.mapM (lowered ctx))
    (emptied : ∀ codes, r = .ok codes → w.left = []) : w.Sound ctx where
  codes_eq unfinished := by rw [finished] at unfinished; cases unfinished
  result_eq r' got := by rw [finished] at got; cases got; exact total
  left_eq codes got := by rw [finished] at got; cases got; exact emptied codes rfl

theorem Worker.spawn_sound (chunk : List (PendingFunction F)) : (Worker.spawn ctx chunk).Sound ctx :=
  sound_working rfl rfl

theorem Worker.work_sound (irrelevant : ctx.lowering.AllocsIrrelevant) {w : Worker F V R} (sound : w.Sound ctx)
    (unfinished : w.result = none) : (w.work ctx).Sound ctx ∧ (w.work ctx).jobs = w.jobs := by
  have done := sound.codes_eq unfinished
  unfold work
  split
  · rename_i nothing
    have whole : w.jobs = w.taken := by rw [jobs,nothing,List.append_nil]
    exact ⟨sound_finished rfl (done.symm.trans (congrArg _ whole.symm)) fun _ _ => nothing,rfl⟩
  · rename_i job rest left
    have code := processFunctionJob_code irrelevant job w.validatorAllocs w.readerAllocs
    have moved : w.taken ++ [job] ++ rest = w.jobs := by
      rw [jobs,left,List.append_assoc]
      rfl
    split
    · rename_i error failed
      rw [failed] at code
      have total : (w.taken ++ [job] ++ rest).mapM (lowered ctx) = .error error := by
        rw [List.append_assoc]
        exact mapM_first_error (mapM_ok_mem done) code.symm
      exact ⟨sound_finished rfl total.symm (fun _ ok => nomatch ok),moved⟩
    · rename_i next va ra called
      rw [called] at code
      have one : [job].mapM (lowered ctx) = .ok [next] := by rw [List.mapM_cons,←code]; rfl
      exact ⟨sound_working unfinished (mapM_append_ok done one),moved⟩

-- The chunks cut so far, in the order of the handles, and the jobs not yet cut.
def chunks (workers : List (Worker F V R)) : List (List (PendingFunction F)) := workers.map Worker.jobs

def Main.uncut : Main F → List (PendingFunction F)
  | .spawning jobs => jobs
  | _ => []

def Main.Sound (ctx : Context F V R) (pending : List (PendingFunction F)) (chunks : List (List (PendingFunction F))) :
    Main F → Prop
  | .spawning _ => True
  | .joining next codes => next ≤ chunks.length ∧ (chunks.take next).flatten.mapM (lowered ctx) = .ok codes
  | .leaving result | .returned result => result = pending.mapM (lowered ctx)

structure Pool.Sound (ctx : Context F V R) (pending : List (PendingFunction F)) (p : Pool F V R) : Prop where
  workers : ∀ w ∈ p.workers, w.Sound ctx
  cut : (chunks p.workers).flatten ++ p.main.uncut = pending
  main : p.main.Sound ctx pending (chunks p.workers)

theorem chunk_ok {p : Pool F V R} (sound : p.Sound ctx pending) {next : Nat} {w : Worker F V R}
    (handle : p.workers[next]? = some w) : (chunks p.workers)[next]? = some w.jobs ∧ w.Sound ctx := by
  refine ⟨?_,sound.workers w (List.mem_of_getElem? handle)⟩
  rw [chunks,List.getElem?_map,handle]
  rfl

-- The chunks after a failing one, and the jobs not cut, do not change the error.
theorem failing_chunk {chunks : List (List (PendingFunction F))} {uncut : List (PendingFunction F)} {next : Nat}
    {codes : List FunctionCode} {chunk : List (PendingFunction F)} {error : ParseError}
    (front : (chunks.take next).flatten.mapM (lowered ctx) = .ok codes) (found : chunks[next]? = some chunk)
    (failed : chunk.mapM (lowered ctx) = .error error) (cut : chunks.flatten ++ uncut = pending) :
    pending.mapM (lowered ctx) = .error error := by
  obtain ⟨inside,item⟩ := List.getElem?_eq_some_iff.mp found
  have parts : chunks = chunks.take next ++ chunk :: chunks.drop (next + 1) := by
    rw [←item,←List.drop_eq_getElem_cons inside,List.take_append_drop]
  rw [←cut,parts]
  simp only [List.flatten_append,List.flatten_cons,List.append_assoc]
  rw [List.mapM_append,front]
  exact congrArg (fun rest => (Except.ok codes >>= fun zs => rest >>= fun ws => .ok (zs ++ ws)))
    (mapM_append_error failed)

theorem step_sound (irrelevant : ctx.lowering.AllocsIrrelevant) {p q : Pool F V R} (sound : p.Sound ctx pending)
    (step : Step ctx chunkBytes p q) : q.Sound ctx pending := by
  obtain ⟨workers_sound,cut,main_sound⟩ := sound
  cases step with
  | @spawn first jobs workers =>
    refine ⟨?_,?_,trivial⟩
    · intro w present
      rcases List.mem_append.mp present with before | new
      · exact workers_sound w before
      · rw [List.mem_singleton.mp new]
        exact Worker.spawn_sound _
    · rw [←cut]
      simp only [chunks,Main.uncut,List.map_append,List.flatten_append,List.map_cons,List.map_nil,
        List.flatten_cons,List.flatten_nil,List.append_nil,List.append_assoc]
      congr 1
      exact congrArg (first :: ·) (fillChunk_append _ _ jobs)
  | spawned => exact ⟨workers_sound,cut,Nat.zero_le _,rfl⟩
  | @work main before after w unfinished =>
    obtain ⟨after_sound,same⟩ := Worker.work_sound irrelevant (workers_sound w (by simp)) unfinished
    have kept : chunks (before ++ w.work ctx :: after) = chunks (before ++ w :: after) := by
      simp only [chunks,List.map_append,List.map_cons,same]
    refine ⟨?_,by dsimp only; rw [kept]; exact cut,by dsimp only; rw [kept]; exact main_sound⟩
    intro v present
    rcases List.mem_append.mp present with front | rest
    · exact workers_sound v (List.mem_append_left _ front)
    · rcases List.mem_cons.mp rest with rfl | back
      · exact after_sound
      · exact workers_sound v (List.mem_append_right _ (List.mem_cons_of_mem _ back))
  | @join next codes chunk workers w handle finished =>
    obtain ⟨found,w_sound⟩ := chunk_ok ⟨workers_sound,cut,main_sound⟩ handle
    obtain ⟨inside,item⟩ := List.getElem?_eq_some_iff.mp found
    refine ⟨workers_sound,cut,inside,?_⟩
    dsimp only at found ⊢
    rw [List.take_add_one,found,List.flatten_append]
    exact mapM_append_ok main_sound.2 (by simpa using (w_sound.result_eq _ finished).symm)
  | @fail next codes error workers w handle finished =>
    obtain ⟨found,w_sound⟩ := chunk_ok ⟨workers_sound,cut,main_sound⟩ handle
    exact ⟨workers_sound,cut,
      (failing_chunk main_sound.2 found (w_sound.result_eq _ finished).symm cut).symm⟩
  | @joined codes workers =>
    refine ⟨workers_sound,cut,?_⟩
    have whole : ((chunks workers).take workers.length).flatten.mapM (lowered ctx) = .ok codes := main_sound.2
    rw [List.take_of_length_le (by simp [chunks])] at whole
    rw [←cut]
    exact (whole.symm.trans (congrArg _ (List.append_nil _).symm))
  | leave finished => exact ⟨workers_sound,cut,main_sound⟩

theorem reached_sound (irrelevant : ctx.lowering.AllocsIrrelevant) {p : Pool F V R}
    (reached : Reached ctx chunkBytes pending p) : p.Sound ctx pending := by
  induction reached with
  | start => exact ⟨(fun _ present => nomatch present),rfl,trivial⟩
  | step _ step ih => exact step_sound irrelevant ih step

-- Moves still ahead. A job not cut yet may cost a spawn, a turn of a worker and
-- a join, and what is left of a worker's chunk one turn each and one to finish.
def Worker.ahead (w : Worker F V R) : Nat :=
  match w.result with
  | none => w.left.length + 1
  | some _ => 0

def Main.ahead (workers : Nat) : Main F → Nat
  | .spawning jobs => 4 * jobs.length + workers + 3
  | .joining next _ => workers - next + 2
  | .leaving _ => 1
  | .returned _ => 0

def Pool.ahead (p : Pool F V R) : Nat := p.main.ahead p.workers.length + (p.workers.map Worker.ahead).sum

theorem Worker.work_ahead (ctx : Context F V R) {w : Worker F V R} (unfinished : w.result = none) : (w.work ctx).ahead < w.ahead := by
  have before : w.ahead = w.left.length + 1 := by simp only [ahead,unfinished]
  rw [before]
  unfold work
  split
  · exact Nat.succ_pos _
  · rename_i job rest left
    rw [left]
    split
    · exact Nat.succ_pos _
    · simp only [ahead,unfinished,List.length_cons]
      exact Nat.lt_succ_self _

theorem step_ahead {p q : Pool F V R} (step : Step ctx chunkBytes p q) : q.ahead < p.ahead := by
  cases step with
  | @spawn first jobs workers =>
    have split := congrArg List.length (fillChunk_append chunkBytes (bodyLen first.body) jobs)
    simp only [List.length_append] at split
    simp only [Pool.ahead,Main.ahead,Worker.ahead,Worker.spawn,List.length_append,List.length_cons,List.length_nil,
      List.map_append,List.map_cons,List.map_nil,List.sum_append,List.sum_cons,List.sum_nil]
    omega
  | spawned => exact Nat.add_lt_add_right (by simp only [Main.ahead]; omega) _
  | @work main before after w unfinished =>
    have less := Worker.work_ahead ctx unfinished
    simp only [Pool.ahead,List.length_append,List.length_cons,List.map_append,List.map_cons,List.sum_append,
      List.sum_cons]
    omega
  | @join next codes chunk workers w handle finished =>
    obtain ⟨inside,_⟩ := List.getElem?_eq_some_iff.mp handle
    exact Nat.add_lt_add_right (by simp only [Main.ahead]; omega) _
  | fail => exact Nat.add_lt_add_right (by simp only [Main.ahead]; omega) _
  | joined => exact Nat.add_lt_add_right (by simp only [Main.ahead]; omega) _
  | leave => exact Nat.add_lt_add_right (by simp only [Main.ahead]; omega) _

theorem worker_steps {main : Main F} {workers : List (Worker F V R)} {w : Worker F V R} (present : w ∈ workers)
    (unfinished : w.result = none) : ∃ q, Step ctx chunkBytes ⟨main,workers⟩ q := by
  obtain ⟨before,after,rfl⟩ := List.append_of_mem present
  exact ⟨_,.work unfinished⟩

-- No thread waits for ever: until the call returns, some thread can move.
theorem moves (chunkBytes : Nat) {p : Pool F V R} (sound : p.Sound ctx pending) :
    (∃ r, p.main = .returned r) ∨ ∃ q, Step ctx chunkBytes p q := by
  obtain ⟨main,workers⟩ := p
  cases main with
  | spawning jobs =>
    cases jobs with
    | nil => exact .inr ⟨_,.spawned⟩
    | cons first jobs => exact .inr ⟨_,.spawn⟩
  | joining next codes =>
    have within : next ≤ workers.length := by simpa [chunks] using sound.main.1
    rcases Nat.lt_or_eq_of_le within with inside | rfl
    · have handle := List.getElem?_eq_getElem inside
      cases finished : (workers[next]).result with
      | none => exact .inr (worker_steps (List.getElem_mem inside) finished)
      | some r =>
        cases r with
        | ok chunk => exact .inr ⟨_,.join handle finished⟩
        | error e => exact .inr ⟨_,.fail handle finished⟩
    · exact .inr ⟨_,.joined⟩
  | leaving r =>
    by_cases finished : ∀ w ∈ workers, w.result ≠ none
    · exact .inr ⟨_,.leave finished⟩
    · simp only [ne_eq,not_forall,not_not] at finished
      obtain ⟨w,present,unfinished⟩ := finished
      exact .inr (worker_steps present unfinished)
  | returned r => exact .inl ⟨r,rfl⟩

theorem returns (irrelevant : ctx.lowering.AllocsIrrelevant) {p : Pool F V R}
    (reached : Reached ctx chunkBytes pending p) :
    ∃ q r, Reached ctx chunkBytes pending q ∧ q.main = .returned r := by
  rcases moves chunkBytes (reached_sound irrelevant reached) with ⟨r,returned⟩ | ⟨q,step⟩
  · exact ⟨p,r,reached,returned⟩
  · have closer := step_ahead step
    exact returns irrelevant (.step reached step)
termination_by p.ahead

theorem returned_finished {p : Pool F V R} {r : Except ParseError (List FunctionCode)}
    (reached : Reached ctx chunkBytes pending p) (returned : p.main = .returned r) :
    ∀ w ∈ p.workers, w.result ≠ none := by
  induction reached with
  | start => cases returned
  | step _ step ih =>
    cases step with
    | leave finished => exact finished
    | @work main before after w unfinished => exact absurd unfinished (ih returned w (by simp))
    | _ => cases returned

-- A successful call took up every job of every chunk.
theorem taken_all (irrelevant : ctx.lowering.AllocsIrrelevant) {p : Pool F V R} {codes : List FunctionCode}
    (reached : Reached ctx chunkBytes pending p) (returned : p.main = .returned (.ok codes)) :
    (p.workers.map Worker.taken).flatten = pending := by
  have sound := reached_sound irrelevant reached
  have total : Except.ok codes = pending.mapM (lowered ctx) := by
    have result := sound.main
    rwa [returned] at result
  have cut := sound.cut
  rw [returned] at cut
  have whole : (chunks p.workers).flatten = pending := (List.append_nil _).symm.trans cut
  have taken : p.workers.map Worker.taken = chunks p.workers := by
    refine List.map_congr_left fun w present => ?_
    have chunk_ok : ∃ ys, w.jobs.mapM (lowered ctx) = .ok ys := mapM_ok_of fun job among =>
      mapM_ok_mem total.symm job (by
        rw [←whole]
        exact List.mem_flatten.mpr ⟨w.jobs,List.mem_map_of_mem present,among⟩)
    obtain ⟨ys,ran⟩ := chunk_ok
    cases finished : w.result with
    | none => exact absurd finished (returned_finished reached returned w present)
    | some r =>
      have result := (sound.workers w present).result_eq r finished
      rw [ran] at result
      rw [result] at finished
      rw [Worker.jobs,(sound.workers w present).left_eq ys finished,List.append_nil]
  rw [taken,whole]

-- The call returns, whatever the order, and returns what one thread would: the
-- codes in module order, or the error of the first body that fails. Every job
-- is in one chunk, and a worker takes the jobs of its chunk up once, in order.
theorem parallel_is_serial (irrelevant : ctx.lowering.AllocsIrrelevant) (available : Option Nat)
    (pending : List (PendingFunction F)) :
    (∀ r, ProcessPending ctx available pending r ↔ r = processChunk ctx pending) ∧
    (∀ codes, processChunk ctx pending = .ok codes ↔ pending.mapM (lowered ctx) = .ok codes) ∧
    (∀ before job after error, pending = before ++ job :: after → (∀ x ∈ before, ∃ code, lowered ctx x = .ok code) →
      lowered ctx job = .error error → processChunk ctx pending = .error error) ∧
    (∀ chunkBytes p, Reached ctx chunkBytes pending p →
      ((∃ r, p.main = .returned r) ∨ ∃ q, Step ctx chunkBytes p q) ∧
      (∀ q, Step ctx chunkBytes p q → q.ahead < p.ahead) ∧
      (p.workers.map fun w => w.taken ++ w.left).flatten ++ p.main.uncut = pending ∧
      (∀ codes, p.main = .returned (.ok codes) → (p.workers.map Worker.taken).flatten = pending)) := by
  have serial := processChunk_eq irrelevant pending
  refine ⟨fun r => ⟨?_,?_⟩,fun codes => by rw [serial],?_,?_⟩
  · intro outcome
    cases outcome with
    | serial => rfl
    | parallel several reached returned =>
      have result := (reached_sound irrelevant reached).main
      rw [returned] at result
      rw [serial]
      exact result
  · rintro rfl
    by_cases single : workerCount ctx.options available pending.length = 1
    · exact .serial single
    · have begun : Reached ctx (chunkBytes pending (workerCount ctx.options available pending.length)) pending
        ⟨.spawning pending,[]⟩ := .start
      obtain ⟨p,r,reached,returned⟩ := returns irrelevant begun
      have result := (reached_sound irrelevant reached).main
      rw [returned] at result
      rw [serial,←show r = pending.mapM (lowered ctx) from result]
      exact .parallel single reached returned
  · intro before job after error parts earlier failed
    rw [serial,parts]
    exact mapM_first_error earlier failed
  · intro chunkBytes p reached
    have sound := reached_sound irrelevant reached
    exact ⟨moves chunkBytes sound,fun q step => step_ahead step,sound.cut,fun codes returned => taken_all irrelevant reached returned⟩

-- Nine bodies for three workers, of which the fourth and the eighth are empty.
def emptyBodyFails : Lowering Unit Nat Nat where
  defaultValidatorAllocs := 0
  defaultReaderAllocs := 0
  convertModuleCode body _ r _ :=
    if body.bytes = [] then .error (.parseError "unexpected end" body.offset)
    else .ok (⟨[.returnVoid],⟨[],[]⟩,fun _ => 0,false⟩,none,r + 1)
  optimizeFunctionCode code _ _ _ _ := .ok code

def nineBodies : List (PendingFunction Unit) :=
  (List.range 9).map fun i => ⟨i,fun _ => 0,none,0,.borrowed ⟨if i = 3 ∨ i = 7 then [] else [11],100 + i⟩⟩

theorem parallel_is_serial_nine :
    ProcessPending ⟨emptyBodyFails,⟨true,true,true,none⟩,0,0⟩ (some 8) nineBodies
      (.error (.parseError "unexpected end" 103)) := by
  refine ((parallel_is_serial ⟨?_⟩ (some 8) nineBodies).1 _).mpr rfl
  intro body func v v' r r' ty
  simp only [emptyBodyFails]
  split <;> rfl

end Parallel

end TinyWasm
