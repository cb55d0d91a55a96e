import TouchedLines.CommandLine.Needs
import TouchedLines.Diff.Patch
import TouchedLines.FileTree
import TouchedLines.Main
import TouchedLines.Sample
import TouchedLines.Proofs.Scan
import TouchedLines.Proofs.Attribution
import TouchedLines.Proofs.Resolution
import TouchedLines.Proofs.Checking
import TouchedLines.Proofs.Reported
import TouchedLines.Proofs.PatchBody
import TouchedLines.Proofs.PathAgreement
import TouchedLines.Proofs.HeaderGrammar
import TouchedLines.Proofs.NearestTargets
import TouchedLines.Proofs.PrintedHeader
import TouchedLines.Proofs.Selection
import TouchedLines.Proofs.Staging
import TouchedLines.Proofs.JsonText
import TouchedLines.Proofs.ReportReading
import TouchedLines.Proofs.Trimming
import TouchedLines.Proofs.PrintedPatch
import TouchedLines.Proofs.Questions
import TouchedLines.Proofs.Refusal
import TouchedLines.Proofs.GivenBase
import TouchedLines.Proofs.BlockComments
import TouchedLines.Proofs.ChangeHistory
import TouchedLines.Proofs.GivenFormat
import TouchedLines.Proofs.ReportFormats
import TouchedLines.Proofs.ListedFiles
import TouchedLines.Proofs.ListedRun
import TouchedLines.Proofs.Matching
import TouchedLines.Proofs.MethodHeads
import TouchedLines.Proofs.Semicolons
import TouchedLines.Proofs.WholeWords
import TouchedLines.Proofs.ScanReport
import TouchedLines.Proofs.AppendedLines
import TouchedLines.Proofs.ReferenceGrammar
import TouchedLines.Proofs.ShadowedRules
import TouchedLines.Proofs.JoinedTemplates
import TouchedLines.Proofs.Tags
import TouchedLines.Proofs.JsonGrammar
import TouchedLines.Proofs.RecordFields
import TouchedLines.Proofs.ReportMembers
import TouchedLines.Proofs.PrintedListing
import TouchedLines.Proofs.Markers
import TouchedLines.Proofs.HunkRanges
import TouchedLines.Proofs.ShownLines
import TouchedLines.Proofs.FileNames
import TouchedLines.Proofs.FinalNewline
