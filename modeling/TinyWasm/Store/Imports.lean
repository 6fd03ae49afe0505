import TinyWasm.Store.Instance

namespace TinyWasm

-- The two maps of an import set, by module and name and by module.
structure Imports where
  externs : String → String → Option Extern
  modules : String → Option Instance

structure ResolvedImports where
  globals : List GlobalAddr
  tables : List TableAddr
  memories : List MemAddr
  funcs : List FuncAddr

def Import.unknown (import_ : Import) : Error := .linker (.unknownImport import_.module import_.name)

def Import.incompatible (import_ : Import) : Error := .linker (.incompatibleImportType import_.module import_.name)

namespace Imports

def empty : Imports := ⟨fun _ _ => none,fun _ => none⟩

def merge (imports other : Imports) : Imports :=
  ⟨fun module name => other.externs module name <|> imports.externs module name,
    fun module => other.modules module <|> imports.modules module⟩

def linkModule (imports : Imports) (name : String) (inst : Instance) : Imports :=
  {imports with modules := fun module => if module = name then some inst else imports.modules module}

def define (imports : Imports) (module name : String) (value : Extern) : Imports :=
  {imports with externs := fun m n => if m = module ∧ n = name then some value else imports.externs m n}

def takeDefined (imports : Imports) (import_ : Import) : Option Extern := imports.externs import_.module import_.name

def compareTypes {α : Type} [DecidableEq α] (import_ : Import) (actual expected : α) : Except Error Unit :=
  if expected ≠ actual then .error import_.incompatible else .ok ()

def compareTableTypes (import_ : Import) (expected actual : TableType) : Except Error Unit := do
  compareTypes import_ actual.arch expected.arch
  compareTypes import_ actual.elementType expected.elementType
  if actual.sizeInitial > expected.sizeInitial then .error import_.incompatible
  else
    match expected.sizeMax,actual.sizeMax with
    | none,some _ => .error import_.incompatible
    | some expectedMax,some actualMax => if actualMax < expectedMax then .error import_.incompatible else .ok ()
    | _,_ => .ok ()

def compareMemoryTypes (import_ : Import) (expected actual : MemoryType) (realSize : Nat) : Except Error Unit := do
  compareTypes import_ expected.arch actual.arch
  if actual.pageCountInitial > expected.pageCountInitial ∧ actual.pageCountInitial > realSize then
    .error import_.incompatible
  else if expected.pageBytes ≠ actual.pageBytes then .error import_.incompatible
  else if expected.pageLimit > actual.pageLimit then .error import_.incompatible
  else .ok ()

-- The address an import stands for, and the handle if it is a defined function.
def resolve (imports : Imports) (store : Store) (import_ : Import) : Except Error (ExternVal × Option Function) :=
  match imports.takeDefined import_ with
  | some (.global item) => .ok (.global item.addr,none)
  | some (.table item) => .ok (.table item.addr,none)
  | some (.memory item) => .ok (.memory item.addr,none)
  | some (.function func) => .ok (.func func.addr,some func)
  | none =>
    match imports.modules import_.module with
    | none => .error import_.unknown
    | some inst => do
      inst.validateStore store
      match inst.exportAddr import_.name with
      | none => .error import_.unknown
      | some val => .ok (val,none)

-- One import. Past the check on its kind, reading a store item that is not
-- there stops the host.
def linkImport (store : Store) (m : Module) (import_ : Import) (val : ExternVal) (handle : Option Function)
    (out : ResolvedImports) : Checked (Except Error ResolvedImports) :=
  if val.kind ≠ import_.kind.kind then .ok (.error import_.incompatible)
  else
    match val,import_.kind with
    | .global addr,.global ty => do
      let global ← State.at store.state.globals addr
      .ok do
        compareTypes import_ global.ty ty
        .ok {out with globals := out.globals ++ [addr]}
    | .table addr,.table ty => do
      let table ← State.at store.state.tables addr
      .ok do
        compareTableTypes import_ {table.kind with sizeInitial := table.size} ty
        .ok {out with tables := out.tables ++ [addr]}
    | .memory addr,.memory ty => do
      let mem ← State.at store.state.memories addr
      .ok do
        compareMemoryTypes import_ mem.kind ty mem.pageCount
        .ok {out with memories := out.memories ++ [addr]}
    | .func addr,.function type =>
      match m.funcTypes[type]? with
      | none => .ok (.error import_.incompatible)
      | some importFuncType =>
        match handle with
        | some func => .ok do
          Except.mapError Error.trap (func.item.validateStore store)
          compareTypes import_ func.ty importFuncType
          .ok {out with funcs := out.funcs ++ [addr]}
        | none => do
          let func ← State.at store.state.funcs addr
          .ok do
            compareTypes import_ func.ty importFuncType
            .ok {out with funcs := out.funcs ++ [addr]}
    | _,_ => .error .panic

def linkAll (imports : Imports) (store : Store) (m : Module) :
    List Import → ResolvedImports → Checked (Except Error ResolvedImports)
  | [],out => .ok (.ok out)
  | import_ :: rest,out =>
    match imports.resolve store import_ with
    | .error error => .ok (.error error)
    | .ok (val,handle) => do
      match ← linkImport store m import_ val handle out with
      | .error error => .ok (.error error)
      | .ok out => linkAll imports store m rest out

def link (imports : Imports) (store : Store) (m : Module) : Checked (Except Error ResolvedImports) :=
  linkAll imports store m m.imports ⟨[],[],[],[]⟩

end Imports

def ImportKind.global? : ImportKind → Option GlobalType
  | .global ty => some ty
  | _ => none

-- The addresses stand in this order for globals of the types.
def DeclaresGlobals (s : State) (addrs : List GlobalAddr) (types : List GlobalType) : Prop :=
  List.Forall₂ (fun addr ty => s.globals[addr]?.map (·.ty) = some ty) addrs types

namespace Imports
variable {store : Store} {m : Module} {import_ : Import} {val : ExternVal} {handle : Option Function}
  {out out' : ResolvedImports}

theorem compareTypes_ok {α : Type} [DecidableEq α] {actual expected : α}
    (same : compareTypes import_ actual expected = .ok ()) : actual = expected := by
  unfold compareTypes at same
  split at same
  · cases same
  · rename_i equal
    exact (Decidable.of_not_not equal).symm

theorem checked_link {α : Type} {found : Checked α} {check : α → Except Error Unit} {next : ResolvedImports}
    (linked : (do let item ← found; .ok do check item; .ok next) = Except.ok (Except.ok out')) :
    ∃ item, found = .ok item ∧ check item = .ok () ∧ next = out' := by
  cases found with
  | error abort => cases linked
  | ok item =>
    cases checked : check item with
    | error error => simp only [ok_bind,checked] at linked; cases linked
    | ok _ =>
      simp only [ok_bind,checked] at linked
      exact ⟨item,rfl,checked,Except.ok.inj (Except.ok.inj linked)⟩

-- A global is linked under exactly its declared type.
theorem linkImport_globals (linked : linkImport store m import_ val handle out = .ok (.ok out')) :
    ∃ added, out'.globals = out.globals ++ added ∧ DeclaresGlobals store.state added import_.kind.global?.toList := by
  unfold linkImport at linked
  split at linked
  · cases linked
  cases kind : import_.kind with
  | global ty =>
    cases val with
    | global addr =>
      rw [kind] at linked
      obtain ⟨g,found,same,rfl⟩ := checked_link linked
      refine ⟨[addr],rfl,.cons ?_ .nil⟩
      rw [State.at_some_iff.mp found,←compareTypes_ok same]
      rfl
    | func addr | table addr | memory addr => rw [kind] at linked; cases linked
  | table ty =>
    cases val with
    | table addr =>
      rw [kind] at linked
      obtain ⟨_,_,_,rfl⟩ := checked_link linked
      exact ⟨[],(List.append_nil _).symm,.nil⟩
    | func addr | global addr | memory addr => rw [kind] at linked; cases linked
  | memory ty =>
    cases val with
    | memory addr =>
      rw [kind] at linked
      obtain ⟨_,_,_,rfl⟩ := checked_link linked
      exact ⟨[],(List.append_nil _).symm,.nil⟩
    | func addr | global addr | table addr => rw [kind] at linked; cases linked
  | function type =>
    cases val with
    | func addr =>
      rw [kind] at linked
      dsimp only at linked
      split at linked
      · cases linked
      · rename_i importFuncType _
        cases handle with
        | some func =>
          dsimp only at linked
          cases owned : Except.mapError Error.trap (func.item.validateStore store) with
          | error error => rw [owned] at linked; cases linked
          | ok _ =>
            cases same : compareTypes import_ func.ty importFuncType with
            | error error => rw [owned,same] at linked; cases linked
            | ok _ =>
              rw [owned,same] at linked
              cases linked
              exact ⟨[],(List.append_nil _).symm,.nil⟩
        | none =>
          obtain ⟨_,_,_,rfl⟩ := checked_link linked
          exact ⟨[],(List.append_nil _).symm,.nil⟩
    | table addr | global addr | memory addr => rw [kind] at linked; cases linked

theorem linkAll_globals {imports : Imports} {rest : List Import}
    (linked : linkAll imports store m rest out = .ok (.ok out')) :
    ∃ added, out'.globals = out.globals ++ added ∧
      DeclaresGlobals store.state added (rest.filterMap (·.kind.global?)) := by
  induction rest generalizing out with
  | nil => cases linked; exact ⟨[],(List.append_nil _).symm,.nil⟩
  | cons import_ rest ih =>
    unfold linkAll at linked
    cases resolved : imports.resolve store import_ with
    | error error => rw [resolved] at linked; cases linked
    | ok target =>
      obtain ⟨val,handle⟩ := target
      rw [resolved] at linked
      dsimp only at linked
      cases one : linkImport store m import_ val handle out with
      | error abort => rw [one] at linked; cases linked
      | ok result =>
        cases result with
        | error error => rw [one] at linked; cases linked
        | ok next =>
          rw [one] at linked
          obtain ⟨first,grown,declared⟩ := linkImport_globals one
          obtain ⟨added,grown',declared'⟩ := ih linked
          refine ⟨first ++ added,by rw [grown',grown,List.append_assoc],?_⟩
          have types : (import_ :: rest).filterMap (·.kind.global?) =
              import_.kind.global?.toList ++ rest.filterMap (·.kind.global?) := by
            rw [List.filterMap_cons]
            cases import_.kind.global? <;> rfl
          rw [types]
          exact List.rel_append declared declared'

end Imports

end TinyWasm
