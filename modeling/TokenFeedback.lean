import TokenFeedback.Address
import TokenFeedback.Automation.Arguments
import TokenFeedback.Automation.Run
import TokenFeedback.Automation.Site
import TokenFeedback.Automation.Task
import TokenFeedback.Automation.Usage
import TokenFeedback.Base64
import TokenFeedback.Bytes
import TokenFeedback.Calendar
import TokenFeedback.Curve
import TokenFeedback.Der
import TokenFeedback.Edwards
import TokenFeedback.IoError
import TokenFeedback.Log
import TokenFeedback.Main
import TokenFeedback.Mock.Counters
import TokenFeedback.Mock.Error
import TokenFeedback.Mock.Server
import TokenFeedback.Mock.Session
import TokenFeedback.Pem
import TokenFeedback.Proofs.BigEndian
import TokenFeedback.Proofs.Record.Arrival
import TokenFeedback.Proofs.Record.Drain
import TokenFeedback.Proofs.Record.Fragmentation
import TokenFeedback.Proofs.Record.Parse
import TokenFeedback.Proofs.Record.Wire
import TokenFeedback.Proofs.Stream.Contribution
import TokenFeedback.Proofs.Stream.Fill
import TokenFeedback.Proofs.Stream.Items
import TokenFeedback.Proofs.Stream.Script
import TokenFeedback.Record
import TokenFeedback.Record.Backlog
import TokenFeedback.Record.Decoder
import TokenFeedback.ServerName
import TokenFeedback.Session.Batch
import TokenFeedback.Session.Cancel
import TokenFeedback.Session.Config
import TokenFeedback.Session.Error
import TokenFeedback.Session.Link
import TokenFeedback.Session.Lock
import TokenFeedback.Session.Observer
import TokenFeedback.Session.Phase
import TokenFeedback.Session.Prompt
import TokenFeedback.Session.Runtime
import TokenFeedback.Session.Stage
import TokenFeedback.Session.World
import TokenFeedback.Sha512
import TokenFeedback.Span
import TokenFeedback.Stream.Framing
import TokenFeedback.Stream.Idle
import TokenFeedback.Stream.Reader
import TokenFeedback.Stream.Transport
import TokenFeedback.Text.Blank
import TokenFeedback.Text.Digits
import TokenFeedback.Text.Outline
import TokenFeedback.Text.Path
import TokenFeedback.Text.Pieces
import TokenFeedback.Text.Plain
import TokenFeedback.Text.Utf8
import TokenFeedback.Text.Visible
import TokenFeedback.Trust.Certificate
import TokenFeedback.Trust.Config
import TokenFeedback.Trust.Connector
import TokenFeedback.Trust.Dialogue
import TokenFeedback.Trust.Error
import TokenFeedback.Trust.Extension
import TokenFeedback.Trust.Fault
import TokenFeedback.Trust.Handshake
import TokenFeedback.Trust.Hello
import TokenFeedback.Trust.Identity
import TokenFeedback.Trust.KeyPair
import TokenFeedback.Trust.Message
import TokenFeedback.Trust.Reply
import TokenFeedback.Trust.Verdict
import TokenFeedback.Trust.Wire
import TokenFeedback.Proofs.Stream.Outlook
import TokenFeedback.Proofs.Stream.Residue
import TokenFeedback.Proofs.Stream.Silence
import TokenFeedback.Proofs.Session.Turn
import TokenFeedback.Proofs.Session.Story
import TokenFeedback.Proofs.Stream.Reception
import TokenFeedback.Proofs.Session.Deadline
import TokenFeedback.Proofs.Session.Conduct
import TokenFeedback.Proofs.Session.Completion
import TokenFeedback.Proofs.Session.Standing
import TokenFeedback.Proofs.Session.Step
import TokenFeedback.Proofs.Session.Guard
import TokenFeedback.Proofs.Session.Handshake
import TokenFeedback.Proofs.Session.Order
import TokenFeedback.Proofs.Session.Alone
import TokenFeedback.Proofs.Session.Flight
import TokenFeedback.Proofs.Session.Blocks
import TokenFeedback.Proofs.Session.Bridge
import TokenFeedback.Proofs.Session.Report
import TokenFeedback.Proofs.Session.Grounds
import TokenFeedback.Proofs.Session.Wanted
import TokenFeedback.Proofs.Session.Entry
import TokenFeedback.Proofs.Session.Leave
import TokenFeedback.Proofs.Mock.Chunks
import TokenFeedback.Proofs.Mock.Playback
import TokenFeedback.Proofs.Session.Course
import TokenFeedback.Proofs.Session.Reading
import TokenFeedback.Proofs.Mock.Delivery
import TokenFeedback.Proofs.Record.Append
import TokenFeedback.Proofs.Stream.Ending
import TokenFeedback.Proofs.Base64
import TokenFeedback.Proofs.Pem
import TokenFeedback.Proofs.Stream.Expiry
import TokenFeedback.Proofs.Trust.Identity
import TokenFeedback.Proofs.Record.Turns
import TokenFeedback.Proofs.Trust.Key
import TokenFeedback.Proofs.Text.Fields
import TokenFeedback.Proofs.Hex
import TokenFeedback.Proofs.Calendar
import TokenFeedback.Proofs.Record.Display
import TokenFeedback.Proofs.Mock.Counters
