import Centaeris.Frame.Conflicts
import Centaeris.Frame.RoundTrip
import Centaeris.Frame.Streamed
import Centaeris.Jobs.Readiness
import Centaeris.Library.Note
import Centaeris.Lifecycle.Scan
import Centaeris.Live.Agreement
import Centaeris.Material.LineNumbers
import Centaeris.Postgres.Connections
import Centaeris.Quota.Slots
import Centaeris.Recovery.Activity
import Centaeris.Resource.Claim
import Centaeris.Sse.Retries
import Centaeris.Sse.SessionStream
import Centaeris.Storage.Lanes
import Centaeris.Stream.Fresh
import Centaeris.Supplement.Cancellation
import Centaeris.Transcript.Capture
import Centaeris.Transcript.Generation
import Centaeris.Transcript.OutputRange
import Centaeris.Waiting.Checkpoint
import Centaeris.Web.ContentRanges
import Centaeris.Web.ContentReader
import Centaeris.Web.Controller
import Centaeris.Web.Convergence
import Centaeris.Web.Failure
import Centaeris.Web.Freshness
import Centaeris.Web.Overlay
