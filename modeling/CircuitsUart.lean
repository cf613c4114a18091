import CircuitsUart.Framing.RoundTrip
import CircuitsUart.Server.FrameTimeout
import CircuitsUart.Port.Reconfigure
import CircuitsUart.Port.Writing
import CircuitsUart.Port.Transparent
import CircuitsUart.Port.TimedOut
import CircuitsUart.Port.Erlcmd
import CircuitsUart.Port.Reasons
import CircuitsUart.Port.Report
import CircuitsUart.Port.ParsedExactly
import CircuitsUart.Port.AtomBuffers
import CircuitsUart.Port.Expiry
import CircuitsUart.Port.OnlyAsked
import CircuitsUart.Port.Encoded
import CircuitsUart.Port.Stdout
import CircuitsUart.System.Defaults
import CircuitsUart.System.Unchanged
import CircuitsUart.System.Session
import CircuitsUart.System.Named
import CircuitsUart.System.Flush
import CircuitsUart.System.Order
import CircuitsUart.System.WriteRequest
import CircuitsUart.Server.ReadLoop
import CircuitsUart.Enum.Reply
import CircuitsUart.Enum.DeviceId
import CircuitsUart.Framing.Batches
import CircuitsUart.Win.Completed
import CircuitsUart.Win.LineState
import CircuitsUart.System.Traces
import CircuitsUart.System.Sender
import CircuitsUart.System.Clocked
import CircuitsUart.System.Link
