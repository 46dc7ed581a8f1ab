import Symbolication.Cfi.CallerRegisters
import Symbolication.Logging.Setup
import Symbolication.OrderedMap.Lemmas
import Symbolication.Resolver.Basic
import Symbolication.Proofs.RangeMap.Disjoint
import Symbolication.Proofs.RangeMap.Keep
import Symbolication.Proofs.SymbolFile.Records
import Symbolication.Proofs.SymbolFile.WholeFile
import Symbolication.Proofs.SymbolFile.Contents
import Symbolication.Proofs.SymbolFile.LookUp
import Symbolication.Proofs.Postfix.Tree
import Symbolication.Proofs.Postfix.Value
import Symbolication.Proofs.Resolver.HandOver
import Symbolication.Proofs.Resolver.Registry
import Symbolication.Proofs.Cfi.CallerRegisters
import Symbolication.Proofs.Text.Field
import Symbolication.Proofs.SymbolFile.Grammar
import Symbolication.Proofs.SymbolFile.Accepted
import Symbolication.Proofs.SymbolFile.FrameRules
import Symbolication.Proofs.SymbolFile.FrameLayouts
import Symbolication.Proofs.Cfi.RoundTrip
import Symbolication.Proofs.Resolver.Retained
import Symbolication.Proofs.Resolver.Lifecycle
import Symbolication.Proofs.SymbolFile.Refusal
import Symbolication.Proofs.SymbolFile.RuleChanges
import Symbolication.Proofs.SymbolFile.ReusedFrame
import Symbolication.Proofs.Cfi.FrameAddress
import Symbolication.Proofs.Postfix.Number
import Symbolication.Proofs.Postfix.Program
import Symbolication.Proofs.SymbolFile.Joined
import Symbolication.Proofs.SymbolFile.Blocks
import Symbolication.Proofs.SymbolFile.Reordering
import Symbolication.Proofs.Postfix.AssignedValue
import Symbolication.Proofs.Postfix.Balance
import Symbolication.Proofs.Postfix.LowHalf
import Symbolication.Proofs.Postfix.NarrowWords
import Symbolication.Proofs.Cfi.NarrowRecovery
import Symbolication.Proofs.SymbolFile.Repeated
import Symbolication.Proofs.SymbolFile.IgnoredContent
import Symbolication.Proofs.SymbolFile.Relocation
import Symbolication.Proofs.SymbolFile.GuardedQueries
import Symbolication.Proofs.RangeMap.Stored
import Symbolication.Proofs.RangeMap.Refused
import Symbolication.Proofs.SymbolFile.Dropped
import Symbolication.Proofs.SymbolFile.WrittenFields
