import MmixAsm.Assembly
import MmixAsm.Command.Session
import MmixAsm.Log.Assembly
import MmixAsm.Main
import MmixAsm.Proofs.ExpandedLines
import MmixAsm.Proofs.WellFormed
import MmixAsm.Proofs.RoundTrip
import MmixAsm.Proofs.TableBuilder
import MmixAsm.Proofs.StageContracts
import MmixAsm.Proofs.BlockUnits
import MmixAsm.Proofs.FirstMentions
import MmixAsm.Proofs.DeclaredSymbols
import MmixAsm.Proofs.OperationWords
import MmixAsm.Proofs.LabelBindings
import MmixAsm.Proofs.UseLabels
import MmixAsm.Proofs.LiteralOperands
import MmixAsm.Proofs.StatementOrder
import MmixAsm.Proofs.IncludedFiles
import MmixAsm.Proofs.IncludeOrder
import MmixAsm.Proofs.SourceOrder
import MmixAsm.Proofs.TableQueries
import MmixAsm.Proofs.WordPositions
import MmixAsm.Proofs.DroppedLines
import MmixAsm.Proofs.IncludeClosure
import MmixAsm.Proofs.LocOffsets
import MmixAsm.Proofs.CharacterCursor
import MmixAsm.Proofs.OnePassReading
import MmixAsm.Proofs.LineByLine
import MmixAsm.Proofs.FirstFault
import MmixAsm.Proofs.Holes
import MmixAsm.Proofs.UnreadActuals
import MmixAsm.Proofs.LongestFormal
import MmixAsm.Proofs.RecordedRegions
import MmixAsm.Proofs.CountedPositions
import MmixAsm.Proofs.BreadthFirst
import MmixAsm.Proofs.FilesApart
import MmixAsm.Proofs.FaithfulListing
import MmixAsm.Proofs.LineContent
import MmixAsm.Proofs.LayoutEdits
import MmixAsm.Proofs.LiteralGrammar
import MmixAsm.Proofs.PackedOperands
import MmixAsm.Proofs.AllocatedBytes
import MmixAsm.Proofs.BlockTable
import MmixAsm.Proofs.InPlace
import MmixAsm.Proofs.EndedLines
import MmixAsm.Proofs.OutputLines
import MmixAsm.Proofs.SettledFiles
import MmixAsm.Proofs.ExactMoves
import MmixAsm.Proofs.WrittenConditions
import MmixAsm.Proofs.SourceReading
