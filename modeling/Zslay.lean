import Zslay.Frame.Masking
import Zslay.Frame.RoundTrip
import Zslay.Frame.Encoding
import Zslay.Queue.Refinement
import Zslay.Event.Admission
import Zslay.Event.Stream
import Zslay.Event.Prepare
import Zslay.Event.Priority
import Zslay.CApi.Streams
import Zslay.CApi.Safety
import Zslay.CApi.Reentrancy
import Zslay.CApi.Peers
import Zslay.CApi.Pending
import Zslay.CApi.Directions
import Zslay.CApi.Storage
import Zslay.CApi.Atomicity
import Zslay.CApi.Recovery
import Zslay.CApi.Isolation
import Zslay.CApi.Resend
import Zslay.CApi.Draining
import Zslay.CApi.Preparing
import Zslay.CApi.Boundary
import Zslay.CApi.InOrder
import Zslay.Echo.Runs
