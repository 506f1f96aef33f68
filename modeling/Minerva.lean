import Minerva.Services.OwnerLanes
import Minerva.Services.StateEdges
import Minerva.Services.SingleActive
import Minerva.Services.Fifo
import Minerva.Services.SideTables
import Minerva.Services.NonInterference
import Minerva.Services.LiveLeases
import Minerva.Runtime.TerminalOnce
import Minerva.Runtime.FinalEvents
import Minerva.Runtime.LeftBehind
import Minerva.Runtime.Abort
import Minerva.Runtime.Background
import Minerva.Runtime.EventOrder
import Minerva.Sse.Isolation
import Minerva.Sse.Sequence
import Minerva.Sse.Registry
import Minerva.Sse.Resume
import Minerva.Runtime.Release
import Minerva.Sandbox.Loyalty
import Minerva.Sandbox.Security
import Minerva.Packs.SkillOrder
import Minerva.Packs.RoundTrip
import Minerva.Packs.Prompt
import Minerva.Tools.PiAgent
import Minerva.Tools.Classification
import Minerva.Tools.FileCalls
import Minerva.Sandbox.Filenames
import Minerva.Sandbox.SizeLimit
import Minerva.Tools.Bash
import Minerva.Services.EndedLeases
import Minerva.Sse.Window
import Minerva.Sse.FaultIsolation
import Minerva.Services.Positions
import Minerva.Packs.Loading
import Minerva.Sse.Wire
import Minerva.Services.QueueRefinement
import Minerva.Services.TimerHistory
import Minerva.Runtime.Rest
import Minerva.Runtime.Gate
import Minerva.Tools.BashRefinement
import Minerva.Packs.SameFiles
import Minerva.Runtime.Assignments
import Minerva.Runtime.Connections
import Minerva.Tools.StoreOrder
import Minerva.Api.Answers
import Minerva.Api.Authority
