import SigScan.Main
import SigScan.Proofs.Account
import SigScan.Proofs.Blame
import SigScan.Proofs.Bounds
import SigScan.Proofs.CommentFree
import SigScan.Proofs.Expansion
import SigScan.Proofs.Finding
import SigScan.Proofs.Grammar
import SigScan.Proofs.History
import SigScan.Proofs.Inputs
import SigScan.Proofs.JsonRecord
import SigScan.Proofs.Layers
import SigScan.Proofs.Lines
import SigScan.Proofs.Loosening
import SigScan.Proofs.Marks
import SigScan.Proofs.Policy
import SigScan.Proofs.Presentation
import SigScan.Proofs.Reading
import SigScan.Proofs.Record
import SigScan.Proofs.RecordOrder
import SigScan.Proofs.Scope
import SigScan.Proofs.SearchReading
import SigScan.Proofs.Segment
import SigScan.Proofs.Spelling
import SigScan.Proofs.Stage
import SigScan.Proofs.Story
import SigScan.Proofs.StrippedReading
import SigScan.Proofs.TextRecord
import SigScan.Proofs.TokenCount
import SigScan.Proofs.WildcardByte
