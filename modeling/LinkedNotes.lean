import LinkedNotes.Files.Memory
import LinkedNotes.Files.Tree
import LinkedNotes.Server.AnswerJson
import LinkedNotes.Server.Dispatch
import LinkedNotes.Proofs.Files.Laws
import LinkedNotes.Proofs.Files.Tree
import LinkedNotes.Proofs.Link.Cursor
import LinkedNotes.Proofs.Link.Grammar
import LinkedNotes.Proofs.Link.Scan
import LinkedNotes.Proofs.Link.Stored
import LinkedNotes.Proofs.Link.Typing
import LinkedNotes.Proofs.Match.Directory
import LinkedNotes.Proofs.Match.Label
import LinkedNotes.Proofs.Match.Relative
import LinkedNotes.Proofs.Match.Resolver
import LinkedNotes.Proofs.Note.Hyphens
import LinkedNotes.Proofs.Note.Separators
import LinkedNotes.Proofs.Note.Substitution
import LinkedNotes.Proofs.Path.Join
import LinkedNotes.Proofs.Path.Normal
import LinkedNotes.Proofs.Path.Relative
import LinkedNotes.Proofs.Rank.Names
import LinkedNotes.Proofs.Rank.Near
import LinkedNotes.Proofs.Server.Commands
import LinkedNotes.Proofs.Server.Configuration
import LinkedNotes.Proofs.Server.References
import LinkedNotes.Proofs.Server.Renaming
import LinkedNotes.Proofs.Server.SortText
import LinkedNotes.Proofs.Server.Suggestion
import LinkedNotes.Proofs.Server.Traffic
import LinkedNotes.Proofs.Settings.RoundTrip
import LinkedNotes.Proofs.Text.Offsets
import LinkedNotes.Proofs.Text.Stored
import LinkedNotes.Proofs.Text.Undo
import LinkedNotes.Proofs.Workspace.Caching
import LinkedNotes.Proofs.Workspace.Cancellation
import LinkedNotes.Proofs.Workspace.Completion
import LinkedNotes.Proofs.Workspace.Confinement
import LinkedNotes.Proofs.Workspace.Definition
import LinkedNotes.Proofs.Workspace.Detail
import LinkedNotes.Proofs.Workspace.Enumeration
import LinkedNotes.Proofs.Workspace.Freshness
import LinkedNotes.Proofs.Workspace.Index
import LinkedNotes.Proofs.Workspace.Listing
import LinkedNotes.Proofs.Workspace.MissingNote
import LinkedNotes.Proofs.Workspace.NewNote
import LinkedNotes.Proofs.Workspace.Outcome
import LinkedNotes.Proofs.Workspace.References
import LinkedNotes.Proofs.Workspace.Requests
import LinkedNotes.Proofs.Workspace.Rivals
