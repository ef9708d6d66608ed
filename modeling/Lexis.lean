import Lexis.Config.Settings
import Lexis.Diagnostic.Report
import Lexis.Session
import Lexis.Tokenize
import Lexis.Proofs.Cutting
import Lexis.Proofs.Boundaries
import Lexis.Proofs.Numerals
import Lexis.Proofs.Places
import Lexis.Proofs.Readings
import Lexis.Proofs.Locations
import Lexis.Proofs.Segmentation
import Lexis.Proofs.Extents
import Lexis.Proofs.Coverage
import Lexis.Proofs.Recovery
import Lexis.Proofs.Rebasing
import Lexis.Proofs.Joining
import Lexis.Proofs.Lookahead
import Lexis.Proofs.Writing
import Lexis.Proofs.Rescanning
import Lexis.Proofs.Cursor
import Lexis.Proofs.Refusal
import Lexis.Proofs.Dictionaries
import Lexis.Proofs.Observation
import Lexis.Proofs.Classification
import Lexis.Proofs.Acceptance
import Lexis.Proofs.Words
import Lexis.Proofs.EntryPoints
import Lexis.Proofs.Payloads
import Lexis.Proofs.Encoding
import Lexis.Proofs.Files
import Lexis.Proofs.Closing
import Lexis.Proofs.Comparison
import Lexis.Proofs.Carets
import Lexis.Proofs.Reports
import Lexis.Proofs.Widening
import Lexis.Proofs.Doubles
import Lexis.Proofs.Wording
import Lexis.Proofs.Validation
import Lexis.Proofs.Interiors
import Lexis.Proofs.Refilling
import Lexis.Proofs.Delimiting
import Lexis.Proofs.DebugForms
