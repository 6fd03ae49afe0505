import TinyWasm.ListRange
import TinyWasm.LittleEndian
import TinyWasm.FlatArray
import TinyWasm.SharedArrays
import TinyWasm.Types
import TinyWasm.Values
import TinyWasm.Error
import TinyWasm.Memory.LinearMemory
import TinyWasm.Memory.FlatMemory
import TinyWasm.Memory.Provided
import TinyWasm.Memory.Vec
import TinyWasm.Memory.Paged
import TinyWasm.Memory.PagedRefinement
import TinyWasm.Memory.PagedAgreement
import TinyWasm.Memory.Boxed
import TinyWasm.Memory.Lazy
import TinyWasm.Memory.LazyRefinement
import TinyWasm.Memory.LazyTransparency
import TinyWasm.Numeric
import TinyWasm.Instruction
import TinyWasm.Interpreter.Stack
import TinyWasm.Store.Table
import TinyWasm.Store.MemoryInstance
import TinyWasm.Store.State
import TinyWasm.Interpreter.Exec
import TinyWasm.Interpreter.MemoryAccess
import TinyWasm.Interpreter.MemoryExactness
import TinyWasm.Store.Segments
import TinyWasm.Module
import TinyWasm.Store.HostTable
import TinyWasm.Interpreter.TableOps
import TinyWasm.Interpreter.TableRefinement
import TinyWasm.Interpreter.TableInstructions
import TinyWasm.Interpreter.TableRuns
import TinyWasm.Interpreter.BulkMemory
import TinyWasm.Interpreter.Straight
import TinyWasm.Interpreter.Effects
import TinyWasm.Interpreter.StraightEffects
import TinyWasm.Memory.Conforming
import TinyWasm.Interpreter.StackLimits
import TinyWasm.Parser.Code
import TinyWasm.Parser.Parallel
import TinyWasm.Parser.ParallelSerial
import TinyWasm.Parser.ModuleReader
import TinyWasm.Loop
import TinyWasm.Parser.Stream
import TinyWasm.Parser.StreamContract
import TinyWasm.Parser.StreamSection
import TinyWasm.Parser.Resolved
import TinyWasm.Parser.StreamWhole
import TinyWasm.Parser.StreamExact
import TinyWasm.Sequence
import TinyWasm.Store.Instance
import TinyWasm.Store.Imports
import TinyWasm.Store.Instantiate
import TinyWasm.Store.Allocation
import TinyWasm.Store.SegmentOrder
import TinyWasm.Store.HostGlobal
import TinyWasm.Store.GlobalTyping
import TinyWasm.Store.GlobalRuns
import TinyWasm.Store.HostItems
import TinyWasm.Store.World
import TinyWasm.Store.HostInstance
import TinyWasm.Store.Growth
import TinyWasm.Interpreter.Host
import TinyWasm.Interpreter.Executor
import TinyWasm.Interpreter.Runtime
import TinyWasm.Interpreter.ExecutorGrowth
import TinyWasm.Interpreter.CacheCoherence
import TinyWasm.Interpreter.Moments
import TinyWasm.Interpreter.ForeignHandles
import TinyWasm.Interpreter.Resumption
import TinyWasm.Interpreter.BulkExactness
import TinyWasm.Parser.Locals
import TinyWasm.Interpreter.FunctionEntry
import TinyWasm.Store.Descriptors
import TinyWasm.Store.ItemTypes
import TinyWasm.Parser.ParsedModule
import TinyWasm.Store.ItemViews
import TinyWasm.Parser.Rewrite
import TinyWasm.Parser.Optimize
import TinyWasm.Interpreter.Ceiling
import TinyWasm.Interpreter.Window
import TinyWasm.Interpreter.WindowLaws
import TinyWasm.Parser.FusedForms
import TinyWasm.Parser.LocalFold
import TinyWasm.Parser.LocalFusion
import TinyWasm.Interpreter.MemoryWindow
import TinyWasm.Parser.ArithmeticFusion
import TinyWasm.Parser.MemoryFusion
import TinyWasm.Interpreter.Marshalling
import TinyWasm.Memory.Reservation
import TinyWasm.Store.MemoryGrowth
import TinyWasm.Store.LimitMatching
import TinyWasm.Store.MemoryTypes
import TinyWasm.HostInteger
import TinyWasm.Simd.Lanes
import TinyWasm.Simd.LaneArithmetic
import TinyWasm.Simd.RelaxedDot
import TinyWasm.Metering
import TinyWasm.Interpreter.Through
import TinyWasm.Interpreter.Fuel
import TinyWasm.Interpreter.FuelAccounting
import TinyWasm.Interpreter.FuelledRun
import TinyWasm.Interpreter.FuelVisibility
import TinyWasm.Parser.ConstExpr
import TinyWasm.Store.ConstEvaluation
import TinyWasm.Store.ConstInitialisers
import TinyWasm.Parser.Builder
import TinyWasm.Parser.Bookkeeping
import TinyWasm.Interpreter.BranchShaping
import TinyWasm.Parser.BranchCode
import TinyWasm.Utf16
import TinyWasm.Store.JsString
import TinyWasm.Parser.ControlFlow
import TinyWasm.Parser.DeadCode
import TinyWasm.Parser.BlockRewrites
import TinyWasm.Parser.BuilderTargets
import TinyWasm.Fallible
import TinyWasm.Parser.BlockBoundaries
import TinyWasm.Parser.DeadVisits
import TinyWasm.Interpreter.HostEffects
import TinyWasm.Interpreter.CallFrames
import TinyWasm.Interpreter.Control
import TinyWasm.Interpreter.DeadCodeRuns
import TinyWasm.Lockstep
import TinyWasm.Interpreter.FuelBlind
import TinyWasm.Interpreter.NestedFrames
import TinyWasm.Interpreter.Suspension
import TinyWasm.Parser.LaneLevels
import TinyWasm.Parser.LevelVisits
import TinyWasm.Parser.LoweringTable
import TinyWasm.Interpreter.DeclaredEffects
import TinyWasm.Store.ItemSizes
import TinyWasm.Parser.StackDiscipline
import TinyWasm.Interpreter.RuntimeEffects
import TinyWasm.Interpreter.StackTyping
import TinyWasm.Interpreter.StackLanes
