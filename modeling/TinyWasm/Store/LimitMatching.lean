import TinyWasm.Store.MemoryGrowth

namespace TinyWasm

-- What the specification asks of an item offered for an import: nothing is asked
-- of its maximum where the import declares none.
structure MemoryType.Matches (ty : MemoryType) (mem : MemoryInstance) : Prop where
  arch : mem.kind.arch = ty.arch
  pageBytes : mem.kind.pageBytes = ty.pageBytes
  minimum : ty.pageCountInitial ≤ mem.pageCount
  maximum (limit) : ty.pageCountMax = some limit → ∃ actual, mem.kind.pageCountMax = some actual ∧ actual ≤ limit

structure TableType.Matches (ty : TableType) (t : TableInstance) : Prop where
  arch : t.kind.arch = ty.arch
  elementType : t.kind.elementType = ty.elementType
  minimum : ty.sizeInitial ≤ t.size
  maximum (limit) : ty.sizeMax = some limit → ∃ actual, t.kind.sizeMax = some actual ∧ actual ≤ limit

-- The maxima are compared as declared, although one of them may be missing: the
-- size that stands for it lies between them.
def MemoryType.MaximaAgree (ty kind : MemoryType) : Prop :=
  match ty.pageCountMax,kind.pageCountMax with
  | none,some actual => actual ≤ maxMemorySize / kind.pageBytes
  | some limit,none => limit < maxMemorySize / kind.pageBytes
  | _,_ => True

-- All but the maximum is as it is asked.
def MemoryType.Comparable (ty : MemoryType) (mem : MemoryInstance) : Prop :=
  mem.kind.arch = ty.arch ∧ mem.kind.pageBytes = ty.pageBytes ∧ ty.pageCountInitial ≤ mem.pageCount

namespace Imports
variable {store : Store} {m : Module} {import_ : Import} {val : ExternVal} {handle : Option Function}

-- The import is linked to the value, whatever was linked before it.
def Accepts (store : Store) (m : Module) (import_ : Import) (val : ExternVal) (handle : Option Function) : Prop :=
  ∀ out, ∃ out', linkImport store m import_ val handle out = .ok (.ok out')

theorem compareTypes_iff {α : Type} [DecidableEq α] {actual expected : α} :
    compareTypes import_ actual expected = .ok () ↔ actual = expected := by
  refine ⟨compareTypes_ok,?_⟩
  rintro rfl
  simp [compareTypes]

theorem compareTypes_bind {α β : Type} [DecidableEq α] {actual expected : α} {next : Except Error β} {b : β} :
    (compareTypes import_ actual expected >>= fun _ => next) = .ok b ↔ actual = expected ∧ next = .ok b := by
  cases compared : compareTypes import_ actual expected with
  | ok _ => simp [bind,Except.bind,compareTypes_ok compared]
  | error error =>
    refine iff_of_false nofun fun same => ?_
    rw [compareTypes_iff.mpr same.1] at compared
    cases compared

theorem compareTableTypes_iff {ty : TableType} {t : TableInstance} :
    compareTableTypes import_ {t.kind with sizeInitial := t.size} ty = .ok () ↔ ty.Matches t := by
  unfold compareTableTypes
  simp only [compareTypes_bind]
  by_cases short : ty.sizeInitial > t.size
  · refine iff_of_false ?_ fun found => absurd found.minimum (Nat.not_le_of_lt short)
    simp [short]
  · have parts : ty.Matches t ↔ ty.arch = t.kind.arch ∧ ty.elementType = t.kind.elementType ∧
        ∀ limit, ty.sizeMax = some limit → ∃ actual, t.kind.sizeMax = some actual ∧ actual ≤ limit :=
      ⟨fun found => ⟨found.arch.symm,found.elementType.symm,found.maximum⟩,
        fun found => ⟨found.1.symm,found.2.1.symm,Nat.le_of_not_lt short,found.2.2⟩⟩
    rw [if_neg short,parts]
    cases t.kind.sizeMax <;> cases ty.sizeMax <;> simp

theorem compareMemoryTypes_iff {ty : MemoryType} {mem : MemoryInstance} (above : mem.kind.pageCountInitial ≤ mem.pageCount) :
    compareMemoryTypes import_ mem.kind ty mem.pageCount = .ok () ↔ ty.Comparable mem ∧ mem.kind.pageLimit ≤ ty.pageLimit := by
  unfold compareMemoryTypes MemoryType.Comparable
  rw [compareTypes_bind]
  have short : (ty.pageCountInitial > mem.kind.pageCountInitial ∧ ty.pageCountInitial > mem.pageCount) ↔
      ¬ty.pageCountInitial ≤ mem.pageCount := by omega
  simp only [short]
  by_cases minimum : ty.pageCountInitial ≤ mem.pageCount <;> by_cases pages : mem.kind.pageBytes = ty.pageBytes <;>
    by_cases limits : mem.kind.pageLimit ≤ ty.pageLimit <;> simp [minimum,pages,limits]

theorem matches_iff {ty : MemoryType} {mem : MemoryInstance} (comparable : ty.Comparable mem) :
    ty.Matches mem ↔ ∀ limit, ty.pageCountMax = some limit → ∃ actual, mem.kind.pageCountMax = some actual ∧ actual ≤ limit :=
  ⟨fun found => found.maximum,fun maximum => ⟨comparable.1,comparable.2.1,comparable.2.2,maximum⟩⟩

-- The defaults of the same page size are the same.
theorem maxima_iff {ty : MemoryType} {mem : MemoryInstance} (comparable : ty.Comparable mem) :
    (mem.kind.pageLimit ≤ ty.pageLimit ↔ ty.Matches mem) ↔ ty.MaximaAgree mem.kind := by
  rw [matches_iff comparable]
  unfold MemoryType.pageLimit MemoryType.MaximaAgree
  rw [comparable.2.1]
  cases ty.pageCountMax <;> cases mem.kind.pageCountMax <;> simp

-- Whether an import is linked does not depend on what was linked before it.
theorem linkImport_free {out out' other : ResolvedImports} (linked : linkImport store m import_ val handle out = .ok (.ok out')) :
    ∃ linked', linkImport store m import_ val handle other = .ok (.ok linked') := by
  unfold linkImport at linked ⊢
  split at linked
  · cases linked
  rename_i kinds
  rw [if_neg kinds]
  split at linked
  · obtain ⟨item,found,same,_⟩ := checked_link linked
    simp only [found,ok_bind,same]
    exact ⟨_,rfl⟩
  · obtain ⟨item,found,same,_⟩ := checked_link linked
    simp only [found,ok_bind,same]
    exact ⟨_,rfl⟩
  · obtain ⟨item,found,same,_⟩ := checked_link linked
    simp only [found,ok_bind,same]
    exact ⟨_,rfl⟩
  · split at linked
    · cases linked
    · rename_i importFuncType _
      cases handle with
      | some func =>
        dsimp only at linked ⊢
        cases owned : Except.mapError Error.trap (func.item.validateStore store) with
        | error error => rw [owned] at linked; cases linked
        | ok _ =>
          cases same : compareTypes import_ func.ty importFuncType with
          | error error => rw [owned,same] at linked; cases linked
          | ok _ => exact ⟨_,rfl⟩
      | none =>
        obtain ⟨item,found,same,_⟩ := checked_link linked
        simp only [found,ok_bind,same]
        exact ⟨_,rfl⟩
  · cases linked

theorem linkImport_accepts {out out' : ResolvedImports} (linked : linkImport store m import_ val handle out = .ok (.ok out')) :
    Accepts store m import_ val handle := fun _ => linkImport_free linked

-- A module is linked if every import of it is.
theorem linkAll_iff {imports : Imports} {rest : List Import} {out : ResolvedImports} :
    (∃ out', linkAll imports store m rest out = .ok (.ok out')) ↔
      ∀ import_ ∈ rest, ∃ val handle, imports.resolve store import_ = .ok (val,handle) ∧ Accepts store m import_ val handle := by
  induction rest generalizing out with
  | nil => exact iff_of_true ⟨out,rfl⟩ nofun
  | cons import_ rest ih =>
    rw [List.forall_mem_cons]
    cases resolved : imports.resolve store import_ with
    | error error =>
      refine iff_of_false ?_ (by rintro ⟨⟨_,_,found,_⟩,_⟩; cases found)
      rintro ⟨out',linked⟩
      simp only [linkAll,resolved] at linked
      cases linked
    | ok target =>
      obtain ⟨val,handle⟩ := target
      cases one : linkImport store m import_ val handle out with
      | error abort =>
        refine iff_of_false ?_ ?_
        · rintro ⟨out',linked⟩
          simp only [linkAll,resolved,one] at linked
          cases linked
        · rintro ⟨⟨_,_,found,accepts⟩,_⟩
          cases found
          obtain ⟨_,linked⟩ := accepts out
          cases one.symm.trans linked
      | ok result =>
        cases result with
        | error error =>
          refine iff_of_false ?_ ?_
          · rintro ⟨out',linked⟩
            simp only [linkAll,resolved,one] at linked
            cases linked
          · rintro ⟨⟨_,_,found,accepts⟩,_⟩
            cases found
            obtain ⟨_,linked⟩ := accepts out
            cases one.symm.trans linked
        | ok next =>
          simp only [linkAll,resolved,one,ok_bind,ih]
          exact ⟨fun others => ⟨⟨val,handle,rfl,linkImport_accepts one⟩,others⟩,And.right⟩

-- An import that is linked once a check of its type has passed.
theorem accepts_checked {check : Except Error Unit} (next : ResolvedImports → ResolvedImports)
    (ran : ∀ out, linkImport store m import_ val handle out = .ok (check >>= fun _ => .ok (next out))) :
    Accepts store m import_ val handle ↔ check = .ok () := by
  cases check with
  | ok _ => exact iff_of_true (fun out => ⟨next out,ran out⟩) rfl
  | error error =>
    refine iff_of_false (fun accepts => ?_) nofun
    obtain ⟨_,linked⟩ := accepts ⟨[],[],[],[]⟩
    cases (ran _).symm.trans linked

theorem accepts_table {addr : TableAddr} {t : TableInstance} {ty : TableType} (offered : store.state.tables[addr]? = some t)
    (kind : import_.kind = .table ty) : Accepts store m import_ (.table addr) handle ↔ ty.Matches t := by
  have compared : compareTableTypes import_ {t.kind with sizeInitial := t.size} ty = .ok () ↔ ty.Matches t := compareTableTypes_iff
  rw [←compared]
  refine accepts_checked (fun out => {out with tables := out.tables ++ [addr]}) fun out => ?_
  unfold linkImport
  rw [kind]
  simp only [State.at_some_iff.mpr offered]
  rfl

theorem accepts_memory {addr : MemAddr} {mem : MemoryInstance} {ty : MemoryType}
    (offered : store.state.memories[addr]? = some mem) (kind : import_.kind = .memory ty) :
    Accepts store m import_ (.memory addr) handle ↔ compareMemoryTypes import_ mem.kind ty mem.pageCount = .ok () := by
  refine accepts_checked (fun out => {out with memories := out.memories ++ [addr]}) fun out => ?_
  unfold linkImport
  rw [kind]
  simp only [State.at_some_iff.mpr offered]
  rfl

end Imports

-- No memory is ever smaller than it was declared.
theorem MemoryInstance.Lived.minimum [Allocator] {mem : MemoryInstance} (lived : mem.Lived) :
    mem.kind.pageCountInitial ≤ mem.pageCount := by
  induction lived with
  | made ran => obtain ⟨_,_,_,rfl⟩ := new_made ran; exact Nat.le_refl _
  | madeLazy ran => obtain ⟨_,rfl⟩ := newLazy_made ran; exact Nat.le_refl _
  | grown lived ran ih =>
    rw [grow_kind ran]
    exact Nat.le_trans ih (grow_pages ran)
  | written lived valid length ih => exact ih

open Imports in
-- A module is linked if and only if each of its imports is; a table is linked as
-- the specification asks, and a memory just where the maxima agree, or something
-- else is in the way.
theorem import_limits_iff [Allocator] (store : Store) (m : Module) (imports : Imports) :
    ((∃ linked, imports.link store m = .ok (.ok linked)) ↔
      ∀ import_ ∈ m.imports, ∃ val handle, imports.resolve store import_ = .ok (val,handle) ∧ Accepts store m import_ val handle) ∧
    (∀ import_ addr handle t ty, store.state.tables[addr]? = some t → import_.kind = .table ty →
      (Accepts store m import_ (.table addr) handle ↔ ty.Matches t)) ∧
    ∀ import_ addr handle mem ty, store.state.memories[addr]? = some mem → mem.Lived → import_.kind = .memory ty →
      ((Accepts store m import_ (.memory addr) handle ↔ ty.Matches mem) ↔ (ty.Comparable mem → ty.MaximaAgree mem.kind)) := by
  refine ⟨linkAll_iff,fun _ _ _ _ _ offered kind => accepts_table offered kind,?_⟩
  intro import_ addr handle mem ty offered lived kind
  rw [accepts_memory offered kind,compareMemoryTypes_iff lived.minimum]
  by_cases comparable : ty.Comparable mem
  · rw [and_iff_right comparable,maxima_iff comparable]
    exact ⟨fun agree _ => agree,fun agree => agree comparable⟩
  · refine iff_of_true (iff_of_false (fun both => comparable both.1) fun found => ?_) fun both => absurd both comparable
    exact comparable ⟨found.arch,found.pageBytes,found.minimum⟩

-- Memories of no pages and a table of one element, and imports of them.
namespace MatchingRun

def config : Config := ⟨fun _ => ⟨8,8,false⟩,⟨8,8,false⟩,.perInstruction,.vec,false⟩

def module (imports : List Import) : Module := ⟨none,[],[],[],[],[],[],[],imports,[],[],.skip⟩

def memory (kind : MemoryType) : MemoryInstance := ⟨kind,.left (.vec ⟨[]⟩),0⟩

def table : TableInstance := ⟨[.uninitialized],⟨.i32,.refFunc,1,some 4⟩⟩

def unbounded : MemoryInstance := memory ⟨.i32,0,none,none⟩

def wide : MemoryInstance := memory ⟨.i64,0,some 65537,none⟩

def store : Store :=
  {Store.new 0 config with state := {State.empty with memories := [unbounded,wide],tables := [table]}}

def tableImport : Import := ⟨"env","table",.table ⟨.i32,.refFunc,1,some 8⟩⟩

def memoryImport : Import := ⟨"env","memory",.memory ⟨.i32,0,none,none⟩⟩

def bounded : Import := ⟨"env","bounded",.memory ⟨.i32,0,some 65536,none⟩⟩

def anyWidth : Import := ⟨"env","anyWidth",.memory ⟨.i64,0,none,none⟩⟩

theorem unbounded_lived [Allocator] (granted : Allocator.tryReserveExact 0 = true) : unbounded.Lived := by
  have made : MemoryInstance.new unbounded.kind .vec = .ok (.ok unbounded) := by
    simp [MemoryInstance.new,MemoryBackend.create,VecMemory.tryNew,granted,unbounded,memory,MemoryType.pageLimit,
      MemoryInstance.initialLen,MemoryType.initialSize]
    rfl
  exact .made made

end MatchingRun

open MatchingRun Imports in
theorem import_limits_iff_table :
    Accepts store (module [tableImport]) tableImport (.table 0) none ∧
      (Accepts store (module [memoryImport]) memoryImport (.memory 0) none ↔ (⟨.i32,0,none,none⟩ : MemoryType).Matches unbounded) := by
  let _ := Allocator.unlimited
  obtain ⟨_,tables,_⟩ := import_limits_iff store (module [tableImport]) .empty
  obtain ⟨_,_,memories⟩ := import_limits_iff store (module [memoryImport]) .empty
  refine ⟨(tables tableImport 0 none table _ rfl rfl).mpr ⟨rfl,rfl,by decide,?_⟩,
    (memories memoryImport 0 none unbounded _ rfl (unbounded_lived rfl) rfl).mpr fun _ => trivial⟩
  intro limit declared
  exact ⟨4,rfl,by cases declared; decide⟩

open MatchingRun Imports in
-- The first declares no maximum where one is asked for; the other declares one
-- and none is asked for.
theorem defaulted_maxima_confused :
    (Accepts store (module [bounded]) bounded (.memory 0) none ∧ ¬(⟨.i32,0,some 65536,none⟩ : MemoryType).Matches unbounded) ∧
      ¬Accepts store (module [anyWidth]) anyWidth (.memory 1) none ∧ (⟨.i64,0,none,none⟩ : MemoryType).Matches wide := by
  refine ⟨⟨(accepts_memory rfl rfl).mpr (by decide),fun found => ?_⟩,fun accepts => ?_,rfl,rfl,by decide,nofun⟩
  · obtain ⟨actual,declared,_⟩ := found.maximum 65536 rfl
    cases declared
  · exact absurd ((accepts_memory rfl rfl).mp accepts) (by decide)

end TinyWasm
