import Waitress.Library.Incremental
import Waitress.Library.Regex
import Waitress.Python
import Waitress.Buffers
import Waitress.Buffers.Fifo
import Waitress.Buffers.Operations
import Waitress.Buffers.Pruning
import Waitress.RFC7230
import Waitress.Utilities
import Waitress.Utilities.Quoting
import Waitress.Utilities.Dates
import Waitress.Adjustments
import Waitress.Urllib
import Waitress.Environment.Prefix
import Waitress.ProxyHeaders.Addresses
import Waitress.ProxyHeaders.Failing
import Waitress.ProxyHeaders.Ports
import Waitress.ProxyHeaders.Middleware
import Waitress.Parser.Segmentation
import Waitress.Parser.Escaping
import Waitress.Parser.Headers
import Waitress.Parser.Targets
import Waitress.Parser.FirstLine
import Waitress.Parser.Retained
import Waitress.Receiver.Framing
import Waitress.Task.Delimiting
import Waitress.Task.Chunking
import Waitress.Task.Clipping
import Waitress.Task.Connection
import Waitress.Task.Replacing
import Waitress.Task.Dispatcher
import Waitress.Channel.Lossless
import Waitress.Channel
import Waitress.Channel.Flags
import Waitress.Channel.Stages
import Waitress.Channel.Advancing
import Waitress.Channel.Answering
import Waitress.Channel.Ending
import Waitress.Channel.Continue
import Waitress.Channel.Reopening
import Waitress.Channel.Returning
import Waitress.Channel.Settling
import Waitress.Channel.Backpressure
import Waitress.Channel.Shutting
import Waitress.Channel.Delivery
import Waitress.Channel.Simulation
import Waitress.Channel.Pipelining
import Waitress.Server.Dispatch
import Waitress.Server.Limit
import Waitress.Server.Maintenance
import Waitress.Server.Waking
import Waitress.Server.Requests
import Waitress.Server.Shutdown
import Waitress.Server.Progress
