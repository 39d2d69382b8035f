import AssistedShell.Text.Blank
import AssistedShell.Text.Search
import AssistedShell.Text.Utf8
import AssistedShell.Expansion
import AssistedShell.Token.Lexer
import AssistedShell.Pipeline.Reading
import AssistedShell.Pipeline.Plan
import AssistedShell.Fault
import AssistedShell.Home
import AssistedShell.Prompt
import AssistedShell.Builtin
import AssistedShell.Assistant.Conversation
import AssistedShell.Assistant.Credential
import AssistedShell.Assistant.Prompts
import AssistedShell.Assistant.Reply
import AssistedShell.Assistant.Completion
import AssistedShell.Http.Exchange
import AssistedShell.Machine.Format
import AssistedShell.Machine.Tool.Writers
import AssistedShell.Machine.Tool.Count
import AssistedShell.Machine.Tool.Replace
import AssistedShell.Machine.Tool.Sort
import AssistedShell.Machine.Tool.Files
import AssistedShell.Script.Tree
import AssistedShell.Script.Pattern
import AssistedShell.Script.Arithmetic
import AssistedShell.Script.Words
import AssistedShell.Machine.Kernel
import AssistedShell.Pipeline.Launch
import AssistedShell.History
import AssistedShell.Settings.File
import AssistedShell.Preview
import AssistedShell.TabCompletion
import AssistedShell.CommandLine
import AssistedShell.Main
import AssistedShell.Proofs.Job.Polling
import AssistedShell.Proofs.Job.Run
import AssistedShell.Proofs.Job.Status
import AssistedShell.Proofs.Assistant.Budget
import AssistedShell.Proofs.Assistant.Question
import AssistedShell.Proofs.Pipeline.HereDocument
import AssistedShell.Proofs.Token.Writing
import AssistedShell.Proofs.Session.Nesting
import AssistedShell.Proofs.Session.Breakdown
import AssistedShell.Proofs.Job.Books
import AssistedShell.Proofs.Pipeline.Record
import AssistedShell.Proofs.Pipeline.Custody
import AssistedShell.Proofs.Host.Holdings
import AssistedShell.Proofs.Pipeline.Release
import AssistedShell.Proofs.Pipeline.Wiring
import AssistedShell.Proofs.Session.Statuses
import AssistedShell.Proofs.Session.Usage
import AssistedShell.Proofs.Session.Sparing
import AssistedShell.Proofs.Session.CommandHistory
import AssistedShell.Proofs.History.Entries
import AssistedShell.Proofs.History.Sharing
import AssistedShell.Proofs.Expansion.Segmentation
import AssistedShell.Proofs.Pipeline.Untouched
import AssistedShell.Proofs.Pipeline.Stages
import AssistedShell.Proofs.Pipeline.Endings
import AssistedShell.Proofs.Session.Availability
import AssistedShell.Proofs.Path.Joining
import AssistedShell.Proofs.Program.Resolution
import AssistedShell.Proofs.Session.Directory
import AssistedShell.Proofs.Token.Reader
import AssistedShell.Proofs.Token.Continuation
import AssistedShell.Proofs.Token.Separation
import AssistedShell.Proofs.Path.Below
import AssistedShell.Proofs.Session.Abbreviation
import AssistedShell.Proofs.Session.Variables
import AssistedShell.Proofs.Assistant.Authorization
import AssistedShell.Proofs.Assistant.Extraction
import AssistedShell.Proofs.Token.Ending
import AssistedShell.Proofs.TabCompletion.Kind
import AssistedShell.Proofs.Assistant.Decomposition
import AssistedShell.Proofs.Session.Complaint
import AssistedShell.Proofs.Session.Grounds
import AssistedShell.Proofs.Session.Diagnostics
