import AtomicRules.Bits.Literal
import AtomicRules.CommandLine
import AtomicRules.Config.Setting
import AtomicRules.Design.Catalog
import AtomicRules.Main
import AtomicRules.Packed.Codec
import AtomicRules.Packed.Render
import AtomicRules.Proofs.Aborts
import AtomicRules.Proofs.Forwarding
import AtomicRules.Rule.Script
import AtomicRules.Simulation.Basic
import AtomicRules.Proofs.Serial
import AtomicRules.Proofs.Footprints
import AtomicRules.Proofs.Refusals
import AtomicRules.Proofs.Writes
import AtomicRules.Proofs.Isolation
import AtomicRules.Proofs.Reordering
import AtomicRules.Proofs.Memoryless
import AtomicRules.Proofs.PackedLayout
import AtomicRules.Proofs.ModularArithmetic
import AtomicRules.Proofs.RawValues
import AtomicRules.Proofs.Masking
import AtomicRules.Proofs.BinaryDigits
import AtomicRules.Proofs.Sampling
import AtomicRules.Proofs.Interruptions
import AtomicRules.Proofs.Shifts
import AtomicRules.Proofs.DumpReading
import AtomicRules.Proofs.SignedView
import AtomicRules.Proofs.TraceFiles
import AtomicRules.Proofs.WidthChanges
import AtomicRules.Proofs.BitFields
import AtomicRules.Proofs.ChunkRuns
import AtomicRules.Proofs.LiteralGrammar
import AtomicRules.Proofs.PrintedNumerals
import AtomicRules.Proofs.UniqueRendering
import AtomicRules.Proofs.Erasure
import AtomicRules.Proofs.Endings
import AtomicRules.Proofs.CollatzRecurrence
import AtomicRules.Proofs.JournalSets
import AtomicRules.Proofs.LevelLogs
import AtomicRules.Proofs.ScatterRecurrence
