import Offside.Json.Read
import Offside.Main
import Offside.Outline.Expect
import Offside.Outline.Invariants
import Offside.Proofs.Extension
import Offside.Proofs.LineEnds
import Offside.Proofs.RelativeDepth
import Offside.Proofs.Replay
import Offside.Proofs.Storage
import Offside.Proofs.Sessions
import Offside.Proofs.BlockColon
import Offside.Proofs.CanonicalHeaders
import Offside.Proofs.OpaqueText
import Offside.Proofs.Keywords
import Offside.Proofs.Provenance
import Offside.Proofs.LineQuestions
import Offside.Proofs.Runs
import Offside.Proofs.Acceptance
import Offside.Proofs.Delimiters
import Offside.Proofs.Listings
import Offside.Proofs.TabWidths
import Offside.Proofs.TokenForms
