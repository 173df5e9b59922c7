import SessionArchive.Main
import SessionArchive.Proofs.Store.Consistent
import SessionArchive.Proofs.Store.Identity
import SessionArchive.Proofs.Store.Mirror
import SessionArchive.Proofs.Store.Ranking
import SessionArchive.Proofs.Store.Recall
import SessionArchive.Proofs.Store.Rollback
import SessionArchive.Proofs.Store.Saving
import SessionArchive.Store.Tampering
import SessionArchive.Proofs.Pattern.Span
import SessionArchive.Proofs.Store.Scanning
import SessionArchive.Proofs.Store.Search
import SessionArchive.Proofs.Store.Agreement
import SessionArchive.Proofs.Store.Census
import SessionArchive.Proofs.Disk
import SessionArchive.Proofs.Disk.Reopening
import SessionArchive.Proofs.Disk.Closing
import SessionArchive.Proofs.CommandLine.Conclusion
import SessionArchive.Proofs.Json.Grammar
import SessionArchive.Proofs.CommandLine.Reply
import SessionArchive.Proofs.Store.Removal
import SessionArchive.Proofs.Store.Remaining
import SessionArchive.Proofs.CommandLine.Retention
import SessionArchive.Proofs.Store.Window
import SessionArchive.Proofs.Store.Passes
import SessionArchive.Proofs.Store.Ownership
import SessionArchive.Proofs.Store.Latest
import SessionArchive.Proofs.Store.Damage
import SessionArchive.Proofs.Scope.Remote
import SessionArchive.Proofs.Scope.Spelling
import SessionArchive.Proofs.Scope.Host
import SessionArchive.Proofs.Store.Snippet
import SessionArchive.Proofs.Scope.Detection
import SessionArchive.Proofs.Store.Numbering
import SessionArchive.Proofs.Store.Expiry
import SessionArchive.Proofs.Json.Yield
import SessionArchive.Proofs.Message.Depth
import SessionArchive.Proofs.Store.Storing
import SessionArchive.Proofs.Pattern.Literal
import SessionArchive.Proofs.Pattern.Escaped
import SessionArchive.Proofs.Message.Words
import SessionArchive.Proofs.Store.Words
import SessionArchive.Proofs.Settings
import SessionArchive.Proofs.Encoding
import SessionArchive.Proofs.CommandLine.Transcript
import SessionArchive.Proofs.Message.Repetition
import SessionArchive.Proofs.Session
import SessionArchive.Proofs.Text.Excerpt
