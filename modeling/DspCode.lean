import DspCode.AddressSpace
import DspCode.AddressSpace.Image
import DspCode.AddressSpace.Region
import DspCode.Assembly
import DspCode.ByteWindow
import DspCode.Command
import DspCode.Command.Arguments
import DspCode.Context
import DspCode.DataSpace
import DspCode.DecodeError
import DspCode.Decoding
import DspCode.Draft
import DspCode.Draft.Fields
import DspCode.Effects
import DspCode.Encoding
import DspCode.Encoding.Table
import DspCode.Encoding.Table.Rows00To1F
import DspCode.Encoding.Table.Rows20To5F
import DspCode.Encoding.Table.Rows60To7F
import DspCode.Encoding.Table.Rows80To8F
import DspCode.Encoding.Table.Rows90ToCF
import DspCode.Encoding.Table.RowsD0ToDF
import DspCode.Encoding.Table.RowsE0ToEF
import DspCode.Encoding.Table.RowsF0ToFF
import DspCode.Field
import DspCode.Flow.Block
import DspCode.Flow.Labels
import DspCode.Flow.Report
import DspCode.Flow.Routine
import DspCode.Flow.Walk
import DspCode.Form
import DspCode.Instruction
import DspCode.Json
import DspCode.Json.Printer
import DspCode.Json.Reader
import DspCode.Listing
import DspCode.Machine
import DspCode.Main
import DspCode.Mnemonic
import DspCode.Mnemonic.Renaming
import DspCode.Numeral
import DspCode.Numeral.Reading
import DspCode.Operand
import DspCode.PackedPair
import DspCode.PairLedger
import DspCode.Proofs.Blocks
import DspCode.Proofs.Boundaries
import DspCode.Proofs.Finishing
import DspCode.Proofs.Lengths
import DspCode.Proofs.Locality
import DspCode.Proofs.Lookahead
import DspCode.Proofs.Matching
import DspCode.Proofs.MemoryAccess
import DspCode.Proofs.Modes
import DspCode.Proofs.Outcomes
import DspCode.Proofs.Outline
import DspCode.Proofs.Patterns
import DspCode.Proofs.Reading
import DspCode.Proofs.Repeating
import DspCode.Proofs.Retarget
import DspCode.Proofs.RoundTrip
import DspCode.Proofs.Search
import DspCode.Proofs.Session
import DspCode.Proofs.Shadowing
import DspCode.Proofs.Slots
import DspCode.Proofs.StaleTail
import DspCode.Proofs.Table
import DspCode.Proofs.Unpacking
import DspCode.Proofs.Walking
import DspCode.Proofs.Window
import DspCode.Qualifier
import DspCode.Register
import DspCode.Settings
import DspCode.Settings.Reading
import DspCode.Signed
import DspCode.StatusBit
import DspCode.Step
import DspCode.Survey
import DspCode.Text.Blank
import DspCode.Text.Utf8
import DspCode.Proofs.PairRecords
import DspCode.Proofs.Leftovers
import DspCode.Proofs.Scanning
import DspCode.Proofs.Adjacency
import DspCode.Proofs.Accounting
import DspCode.Proofs.ListingText
import DspCode.Proofs.Stages
import DspCode.Proofs.Reaching
import DspCode.Proofs.Rereading
import DspCode.Proofs.Placement
import DspCode.Proofs.ListingEntries
import DspCode.Proofs.Truncation
import DspCode.Proofs.TableOrder
import DspCode.Proofs.Shapes
import DspCode.Proofs.Roles
import DspCode.Proofs.Legible
import DspCode.Proofs.Rendering
import DspCode.Proofs.Partners
import DspCode.Proofs.Targets
import DspCode.Proofs.CutOff
import DspCode.Proofs.PairWidths
import DspCode.Proofs.Frames
import DspCode.Proofs.ParallelBit
import DspCode.Proofs.Naming
import DspCode.Proofs.PackedMemory
import DspCode.Proofs.Timelines
import DspCode.Proofs.OperandLayout
import DspCode.Proofs.FirstRow
import DspCode.Proofs.ContextEffects
import DspCode.Proofs.WideStores
import DspCode.Proofs.Routines
import DspCode.Proofs.WriteHistories
import DspCode.Proofs.StraightLines
import DspCode.Proofs.DataPages
import DspCode.Proofs.NumeralTexts
import DspCode.Proofs.RenamedRows
import DspCode.Proofs.Brackets
import DspCode.Proofs.WordMatching
import DspCode.Proofs.WindowCalls
import DspCode.Proofs.Surveying
