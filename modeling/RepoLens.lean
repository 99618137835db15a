import RepoLens.Version
import RepoLens.Session
import RepoLens.Display
import RepoLens.Main
import RepoLens.Proofs.Escape
import RepoLens.Proofs.Reply
import RepoLens.Proofs.Run
import RepoLens.Proofs.History
import RepoLens.Proofs.Plan
import RepoLens.Proofs.Commit
import RepoLens.Proofs.BranchLog
import RepoLens.Proofs.Merge
import RepoLens.Proofs.Utf8
import RepoLens.Proofs.Hex
import RepoLens.Proofs.Lines
import RepoLens.Proofs.Terminators
import RepoLens.Proofs.Opening
import RepoLens.Proofs.Contents
import RepoLens.Proofs.ExitCodes
import RepoLens.Proofs.Verbosity
import RepoLens.Proofs.Past
import RepoLens.Proofs.Diagnostic
import RepoLens.Proofs.Unmarked
import RepoLens.Proofs.Wrap
import RepoLens.Proofs.Json.Reader
import RepoLens.Proofs.Json.RoundTrip
import RepoLens.Proofs.Json.Ink
import RepoLens.Proofs.Json.Output
import RepoLens.Proofs.Yaml.Plain
import RepoLens.Proofs.Yaml.Single
import RepoLens.Proofs.Yaml.Double
import RepoLens.Proofs.Yaml.Cursor
import RepoLens.Proofs.Yaml.Scan
import RepoLens.Proofs.Yaml.Block
import RepoLens.Proofs.Yaml.Reader
import RepoLens.Proofs.Yaml.Values
import RepoLens.Proofs.SavedSettings
import RepoLens.Proofs.Yaml.Written
import RepoLens.Proofs.Tree
import RepoLens.Proofs.Yaml.Formed
import RepoLens.Proofs.Styled
import RepoLens.Proofs.SetCommand
import RepoLens.Proofs.Defaults
import RepoLens.Proofs.Restores
import RepoLens.Proofs.SetRuns
import RepoLens.Proofs.Resolve
import RepoLens.Proofs.Configured
import RepoLens.Proofs.Failure
import RepoLens.Proofs.MergeNotices
import RepoLens.Proofs.BaseCommit
import RepoLens.Proofs.Fields
import RepoLens.Proofs.SameChanges
import RepoLens.Proofs.ReadOnly
import RepoLens.Proofs.Parts
import RepoLens.Proofs.NameStatus
import RepoLens.Proofs.ShortStatus
import RepoLens.Proofs.Version.Numbers
import RepoLens.Proofs.Version.Sorted
import RepoLens.Proofs.MarkedNames
import RepoLens.Proofs.StatusFields
import RepoLens.Proofs.CommittedLines
import RepoLens.Proofs.Words
import RepoLens.Proofs.Records
import RepoLens.Proofs.FileColumn
