import DriftObservatory.Theorems.Soundness
import DriftObservatory.Theorems.Cancellation
import DriftObservatory.Theorems.PolicyCopy
import DriftObservatory.Theorems.Refusal
import DriftObservatory.Theorems.Resolution
import DriftObservatory.Theorems.Evidence
import DriftObservatory.Theorems.Suppression
import DriftObservatory.Theorems.Histories
import DriftObservatory.Theorems.Repeats
import DriftObservatory.Theorems.Generations
import DriftObservatory.Theorems.Identities
import DriftObservatory.Theorems.Parallel
import DriftObservatory.Theorems.Unmanaged
import DriftObservatory.Theorems.Enrolment
import DriftObservatory.Theorems.Fidelity
import DriftObservatory.Documents
import DriftObservatory.Theorems.Supplied
import DriftObservatory.Theorems.Leaves
import DriftObservatory.Theorems.Effect
import DriftObservatory.Theorems.Silence
import DriftObservatory.Theorems.Agreements
import DriftObservatory.Theorems.Independence
import DriftObservatory.Theorems.Paths
import DriftObservatory.Theorems.Freshness
import DriftObservatory.Theorems.Instants
import DriftObservatory.Theorems.Laws
import DriftObservatory.Theorems.Encodings
import DriftObservatory.Theorems.Preimages
import DriftObservatory.Theorems.PolicyDigest
import DriftObservatory.Theorems.SeverityOrder
import DriftObservatory.Theorems.Reports
import DriftObservatory.Lib.Lists
import DriftObservatory.Report
import DriftObservatory.Theorems.Paging
import DriftObservatory.Theorems.CodePoints
import DriftObservatory.Theorems.Civil
import DriftObservatory.Wire
import DriftObservatory.Lib.Division
import DriftObservatory.Theorems.Checksums
import DriftObservatory.Theorems.Frames
import DriftObservatory.Lib.Blocks
import DriftObservatory.Lib.Fips180
import DriftObservatory.Theorems.Streaming
import DriftObservatory.Lib.Pieces
import DriftObservatory.Transport
import DriftObservatory.Theorems.Streams
import DriftObservatory.Payloads
import DriftObservatory.Theorems.Payloads
import DriftObservatory.Publisher
import DriftObservatory.Exchange
import DriftObservatory.Theorems.Sessions
import DriftObservatory.Theorems.Arrivals
import DriftObservatory.Theorems.Links
import DriftObservatory.Theorems.Handlers
import DriftObservatory.Theorems.Calls
import DriftObservatory.Theorems.Delivery
import DriftObservatory.Theorems.Served
import DriftObservatory.Theorems.Admissions
import DriftObservatory.Storage
import DriftObservatory.Theorems.Files
import DriftObservatory.Theorems.Storage
import DriftObservatory.Theorems.Accounts
import DriftObservatory.Theorems.Conservation
import DriftObservatory.Theorems.Newest
import DriftObservatory.Theorems.Late
