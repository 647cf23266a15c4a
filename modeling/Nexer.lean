import Nexer.Transition.Machine
import Nexer.Transition.History
import Nexer.Transition.Insertion
import Nexer.Manager.Recorded
import Nexer.Manager.Checked
import Nexer.Manager.Unchecked
import Nexer.Manager.Tracking
import Nexer.Manager.Stack
import Nexer.Manager.Waiting
import Nexer.Manager.Rounds
import Nexer.Manager.Answered
import Nexer.Manager.Preambles
import Nexer.Manager.EmptyRead
import Nexer.Stream.DoubleBuffer
import Nexer.Forwarder.State
import Nexer.Forwarder.Pointers
import Nexer.Forwarder.Lanes
import Nexer.Forwarder.Core
import Nexer.Forwarder.Closing
import Nexer.Forwarder.Handlers
import Nexer.Forwarder.Integrity
import Nexer.Forwarder.EndOfStream
import Nexer.Forwarder.Aging
import Nexer.Process.Handles
import Nexer.Process.Deletion
import Nexer.TcpClient.State
import Nexer.TcpClient.Lifetime
import Nexer.TcpClient.Attempts
import Nexer.TcpClient.Retry
import Nexer.TcpClient.Once
import Nexer.Text.Bytes
import Nexer.Text.Url
import Nexer.Proxy.State
import Nexer.Proxy.Driven
import Nexer.Proxy.Listing
import Nexer.Proxy.Addresses
import Nexer.Proxy.Settled
import Nexer.Http.Message
import Nexer.Http.Connection
import Nexer.Http.Reply
import Nexer.Http.Spelling
import Nexer.Http.Scanner
import Nexer.Http.InFlight
import Nexer.Proxy.Drained
import Nexer.Http.Server
import Nexer.Http.Feeding
import Nexer.Shutdown
import Nexer.Http.Framing
import Nexer.Manager.Traversals
import Nexer.Config.Json
import Nexer.Config.Records
import Nexer.Config.Parser
import Nexer.Config.Simulation
import Nexer.Config.Ledger
import Nexer.Config.Represents
import Nexer.Text.Delimiters
import Nexer.Text.Printing
import Nexer.Text.Targets
import Nexer.Http.Headers
import Nexer.Process.Environment
import Nexer.Process.Termination
import Nexer.Process.Output
import Nexer.TcpClient.Rejection
import Nexer.Transition.Observation
import Nexer.Manager.Completions
import Nexer.Manager.Restarts
import Nexer.Manager.StartLimit
import Nexer.Config.Sound
import Nexer.Config.Loops
import Nexer.Config.Parts
import Nexer.Config.Document
import Nexer.Config.References
import Nexer.Config.Shuffled
import Nexer.Config.Spelling
import Nexer.Config.Reading
import Nexer.Config.Entering
import Nexer.Config.RoundTrip
import Nexer.Text.QueryString
import Nexer.Text.Decoding
import Nexer.Config.Errors
import Nexer.MemoryPool.Links
import Nexer.MemoryPool.State
import Nexer.MemoryPool.Stack
import Nexer.Text.Overlay
import Nexer.StringBuffer.State
import Nexer.StringBuffer.Contents
import Nexer.StringBuffer.Operations
import Nexer.StringBuffer.Printing
import Nexer.StringBuffer.Refinement
import Nexer.StringBuffer.Terminator
import Nexer.StringBuffer.Growth
import Nexer.Http.Client
import Nexer.Text.Formatting
import Nexer.Logger
import Nexer.Manager.Timers
import Nexer.Timer
import Nexer.FunctionList
import Nexer.StringBuffer.Turns
import Nexer.Transition.Instances
import Nexer.Transition.Service
import Nexer.Manager.Owed
import Nexer.Proxy.Stages
import Nexer.System.Checks
import Nexer.System.Answers
import Nexer.System.Backed
import Nexer.TcpClient.Answering
import Nexer.System.Connects
import Nexer.System.Program
import Nexer.System.Settlement
import Nexer.Servers.State
import Nexer.Servers.Closing
import Nexer.Servers.Starting
import Nexer.Servers.Life
import Nexer.Text.Paths
import Nexer.Servers.Hosting
import Nexer.Servers.Requests
import Nexer.Config.Startable
import Nexer.Servers.Configured
import Nexer.Manager.Standing
import Nexer.Process.Launch
import Nexer.Children.State
import Nexer.Children.Lives
import Nexer.Children.Expected
import Nexer.Children.Output
import Nexer.Transition.Annotation
import Nexer.Proxy.Streams
import Nexer.Transition.Refinement
import Nexer.System.Whole
import Nexer.Forwarder.Arrivals
import Nexer.Config.Tree
import Nexer.Config.Described
import Nexer.Config.AppReferences
