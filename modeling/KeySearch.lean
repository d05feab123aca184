import KeySearch.Address
import KeySearch.Bytes
import KeySearch.Candidate
import KeySearch.Channel
import KeySearch.CommandLine.Flag
import KeySearch.CommandLine.Options
import KeySearch.CommandLine.Reader
import KeySearch.CommandLine.Timeout
import KeySearch.CommandLine.Usage
import KeySearch.CommandLine.Word
import KeySearch.Console
import KeySearch.Ed25519
import KeySearch.Files
import KeySearch.Hex
import KeySearch.Ini.Document
import KeySearch.Ini.Expansion
import KeySearch.Ini.Load
import KeySearch.Ini.Reader
import KeySearch.Json.Reader
import KeySearch.Json.Value
import KeySearch.KeyCheck
import KeySearch.KeyPair
import KeySearch.Log
import KeySearch.Main
import KeySearch.Number.Binary64
import KeySearch.Number.Decimal
import KeySearch.Number.Literal
import KeySearch.Number.Quantity
import KeySearch.Program
import KeySearch.Report.Best
import KeySearch.Report.Count
import KeySearch.Report.Duration
import KeySearch.Report.Progress
import KeySearch.Report.Resources
import KeySearch.SavedKey
import KeySearch.Score
import KeySearch.Search.Run
import KeySearch.Search.State
import KeySearch.Seed
import KeySearch.Settings
import KeySearch.Sha512
import KeySearch.Snapshot
import KeySearch.Text.Blank
import KeySearch.Text.Casing
import KeySearch.Text.Digit
import KeySearch.Text.Lines
import KeySearch.Text.Lowercase
import KeySearch.Text.Printable
import KeySearch.Text.Quoted
import KeySearch.Text.Utf8
import KeySearch.Timestamp
import KeySearch.Worker
import KeySearch.Proofs.AddressLayout
import KeySearch.Proofs.AddressOrder
import KeySearch.Proofs.Ranking
import KeySearch.Proofs.SeedCounter
import KeySearch.Proofs.SeedCycle
import KeySearch.Proofs.WorkerSteps
import KeySearch.Proofs.Schedule
import KeySearch.Proofs.Moves
import KeySearch.Proofs.Ledger
import KeySearch.Proofs.Interleaving
import KeySearch.Proofs.Target
import KeySearch.Proofs.Reports
import KeySearch.Proofs.CandidateScores
import KeySearch.Proofs.FailedSteps
import KeySearch.Proofs.RankedAddresses
import KeySearch.Proofs.Provenance
import KeySearch.Proofs.Rounding
import KeySearch.Proofs.StopReasons
import KeySearch.Proofs.ZeroBlocks
import KeySearch.Proofs.WorkerLoop
import KeySearch.Proofs.ScoresOnly
import KeySearch.Proofs.WrittenText
import KeySearch.Proofs.SecretTexts
import KeySearch.Proofs.HexTexts
import KeySearch.Proofs.AddressTexts
import KeySearch.Proofs.JsonText
import KeySearch.Proofs.FilePlaces
import KeySearch.Proofs.SavedKeys
import KeySearch.Proofs.ChannelOrder
import KeySearch.Proofs.LoadAnswers
import KeySearch.Proofs.SavedSeries
import KeySearch.Proofs.KeyChecks
import KeySearch.Proofs.SnapshotFigures
import KeySearch.Proofs.ProgramRuns
import KeySearch.Proofs.TrustedFields
import KeySearch.Proofs.ExpandedValues
import KeySearch.Proofs.References
import KeySearch.Proofs.SectionSettings
import KeySearch.Proofs.FirstFaults
import KeySearch.Proofs.CheckedOptions
import KeySearch.Proofs.OverriddenOptions
import KeySearch.Proofs.DecodedBytes
import KeySearch.Proofs.LoadedSections
import KeySearch.Proofs.OutputDirectory
import KeySearch.Proofs.DurationTexts
import KeySearch.Proofs.DurationsReadBack
import KeySearch.Proofs.IntegerTexts
import KeySearch.Proofs.TimeLimits
import KeySearch.Proofs.GivenKeys
import KeySearch.Proofs.KeyDispatch
import KeySearch.Proofs.QuotedTexts
import KeySearch.Proofs.JsonStrings
import KeySearch.Proofs.LoggedRejections
