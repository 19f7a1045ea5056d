import Blahaj.Lib.Lts
import Blahaj.Lib.Window
import Blahaj.Lib.Segments
import Blahaj.Lib.Streak
import Blahaj.Base
import Blahaj.CommandLine
import Blahaj.Http
import Blahaj.Supervisor.Retry
import Blahaj.Supervisor.Futs
import Blahaj.Supervisor.WaitAbort
import Blahaj.Supervisor.RestartRate
import Blahaj.Supervisor.Broadcast
import Blahaj.Supervisor.Caretaker
import Blahaj.Proxy.Route
import Blahaj.Proxy.Transparent
import Blahaj.Supervisor.Stage
import Blahaj.Supervisor.Moves
import Blahaj.Supervisor.Polls
import Blahaj.Supervisor.RunPolls
import Blahaj.Supervisor.Lifecycle
import Blahaj.Supervisor.StopHandle
import Blahaj.Supervisor.NoRestart
import Blahaj.Supervisor.Answers
import Blahaj.Supervisor.Reports
import Blahaj.Supervisor.Health
import Blahaj.Supervisor.CurrentHealth
import Blahaj.Supervisor.Checks
import Blahaj.Supervisor.LateChecks
import Blahaj.Supervisor.StopChannel
import Blahaj.Main
import Blahaj.Shutdown
import Blahaj.Proxy.ForwardedHeader
import Blahaj.Proxy.Hops
import Blahaj.Proxy.Elements
import Blahaj.Headers
import Blahaj.Proxy.Handler
import Blahaj.Proxy.Slashes
import Blahaj.Proxy.Order
import Blahaj.Logger
import Blahaj.Supervisor.Handover
import Blahaj.Supervisor.Signals
import Blahaj.Lib.Fair
import Blahaj.Supervisor.Termination
import Blahaj.Supervisor.Served
import Blahaj.Supervisor.SpawnRate
import Blahaj.Supervisor.Unheard
import Blahaj.Endpoints
import Blahaj.Supervisor.Cause
import Blahaj.Returns
import Blahaj.Lib.Waker
import Blahaj.Supervisor.Wakes
import Blahaj.Proxy.Chain
