import Btcontrol.Bytes
import Btcontrol.Layout
import Btcontrol.LayoutParser
import Btcontrol.Message
import Btcontrol.Wire
import Btcontrol.Protocol
import Btcontrol.Codec
import Btcontrol.Java
import Btcontrol.Interop
import Btcontrol.Framing
import Btcontrol.Sending
import Btcontrol.Exec
import Btcontrol.Transition
import Btcontrol.Lokdef
import Btcontrol.Hardware
import Btcontrol.Srcp
import Btcontrol.Scanner
import Btcontrol.SrcpReplies
import Btcontrol.Platine
import Btcontrol.Digispark
import Btcontrol.Putzlok
import Btcontrol.DigisparkProtocol
import Btcontrol.ClientThread
import Btcontrol.Paths
import Btcontrol.ReadFile
import Btcontrol.Status
import Btcontrol.Drive
import Btcontrol.Quiet
import Btcontrol.Server
import Btcontrol.Turn
import Btcontrol.Marks
import Btcontrol.EmergencyStop
import Btcontrol.FailedMulti
import Btcontrol.SpeedRange
import Btcontrol.Direction
import Btcontrol.Runaway
import Btcontrol.Variants
import Btcontrol.OneLoco
import Btcontrol.Ownership
import Btcontrol.Replies
import Btcontrol.Calls
import Btcontrol.Deliverable
import Btcontrol.RaspiPWM
import Btcontrol.ESP32PWM
import Btcontrol.K8055
import Btcontrol.Numbering
import Btcontrol.Load
import Btcontrol.Mailbox
import Btcontrol.ControlClientThread
import Btcontrol.BTcommThread
import Btcontrol.Reconnect
import Btcontrol.ExecCmd
import Btcontrol.Receiving
import Btcontrol.RemoteLokdef
import Btcontrol.GuiViewControlLoco
import Btcontrol.GuiViewSelect
import Btcontrol.AndroidServer
import Btcontrol.USBConn
import Btcontrol.Reading
import Btcontrol.Strict
import Btcontrol.Lenient
import Btcontrol.Canonical
import Btcontrol.Bounds
import Btcontrol.Sizes
import Btcontrol.Loaders
import Btcontrol.TypeTable
import Btcontrol.Budget
import Btcontrol.LoadSteps
import Btcontrol.LayoutText
import Btcontrol.LokdefText
import Btcontrol.LokdefReader
import Btcontrol.LokdefTable
import Btcontrol.ControlAction
import Btcontrol.Outgoing
import Btcontrol.ParseExpr
import Btcontrol.Expressions
import Btcontrol.PinCtl
import Btcontrol.PinLevels
import Btcontrol.MaxTime
import Btcontrol.Timers
import Btcontrol.Outputs
import Btcontrol.Zsp
import Btcontrol.ZspBounds
import Btcontrol.Zpp
import Btcontrol.ZppText
import Btcontrol.ZppStored
import Btcontrol.ZppDiSets
import Btcontrol.ZppRoundTrip
import Btcontrol.FahrSound
import Btcontrol.Halting
import Btcontrol.FahrSoundThread
import Btcontrol.Thread
import Btcontrol.Samples
import Btcontrol.Resampling
import Btcontrol.Connections
import Btcontrol.Logging
import Btcontrol.Serving
import Btcontrol.Answers
import Btcontrol.ESP32MAS
import Btcontrol.Gapless
import Btcontrol.Devices
import Btcontrol.DRV8871
import Btcontrol.Mirror
import Btcontrol.Words
import Btcontrol.SrcpText
import Btcontrol.SrcpStream
import Btcontrol.SrcpTold
