import TinyWasm.Store.Segments

namespace TinyWasm

inductive ExternalKind where
  | func | table | memory | global
  deriving DecidableEq, Repr

structure Export where
  name : String
  kind : ExternalKind
  index : Nat
  deriving DecidableEq, Repr

inductive ImportKind where
  | function (type : TypeAddr)
  | table (ty : TableType)
  | memory (ty : MemoryType)
  | global (ty : GlobalType)
  deriving DecidableEq, Repr

def ImportKind.kind : ImportKind → ExternalKind
  | function _ => .func
  | table _ => .table
  | memory _ => .memory
  | global _ => .global

structure Import where
  module : String
  name : String
  kind : ImportKind
  deriving DecidableEq, Repr

structure Global where
  ty : GlobalType
  init : List ConstInstruction

inductive DataKind where
  | active (mem : MemAddr) (offset : List ConstInstruction)
  | passive

structure Data where
  data : List Byte
  kind : DataKind

inductive LocalMemoryAllocation where
  | skip | lazy | eager
  deriving DecidableEq, Repr

structure Module where
  startFunc : Option FuncAddr
  funcs : List WasmFunction
  funcTypes : List FuncType
  funcTypeIdxs : List TypeAddr
  exports : List Export
  globals : List Global
  tableTypes : List TableType
  memoryTypes : List MemoryType
  imports : List Import
  data : List Data
  elements : List Element
  localMemoryAllocation : LocalMemoryAllocation

end TinyWasm
