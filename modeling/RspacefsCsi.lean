import RspacefsCsi.Lib.Text
import RspacefsCsi.Lib.Prog
import RspacefsCsi.Lib.Simulation
import RspacefsCsi.Lib.Run
import RspacefsCsi.Lib.Sys
import RspacefsCsi.Lib.Files
import RspacefsCsi.Lib.Json
import RspacefsCsi.Lib.JsonStream
import RspacefsCsi.Lib.Overlay
import RspacefsCsi.Driver
import RspacefsCsi.Params
import RspacefsCsi.Reference
import RspacefsCsi.Wire
import RspacefsCsi.Backend
import RspacefsCsi.Host
import RspacefsCsi.Sample
import RspacefsCsi.Registry
import RspacefsCsi.Mount
import RspacefsCsi.Freeze
import RspacefsCsi.Node
import RspacefsCsi.Controller
import RspacefsCsi.Frame
import RspacefsCsi.Calls
import RspacefsCsi.SingleConsumer
import RspacefsCsi.Capture
import RspacefsCsi.Unpublish
import RspacefsCsi.Converge
import RspacefsCsi.Release
import RspacefsCsi.TwoTargets
import RspacefsCsi.Revision
import RspacefsCsi.Pull
import RspacefsCsi.Cache
import RspacefsCsi.Handoff
import RspacefsCsi.VolumeDirs
import RspacefsCsi.Layers
import RspacefsCsi.Untrusted
import RspacefsCsi.History
import RspacefsCsi.Atomic
import RspacefsCsi.Push
import RspacefsCsi.Idempotent
import RspacefsCsi.Incarnation
import RspacefsCsi.Targets
import RspacefsCsi.TwoFreezes
import RspacefsCsi.RoundTrip
import RspacefsCsi.Clone
import RspacefsCsi.Commands
import RspacefsCsi.Control
import RspacefsCsi.Dialogs
import RspacefsCsi.Lib.Lockstep
import RspacefsCsi.Lib.Region
