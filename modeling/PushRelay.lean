import PushRelay.Command.Arguments
import PushRelay.Command.Finish
import PushRelay.Command.Recover
import PushRelay.Command.Serve
import PushRelay.Delivery
import PushRelay.Depot.Admission
import PushRelay.Depot.Opening
import PushRelay.Depot.Schedule
import PushRelay.Depot.State
import PushRelay.Depot.Step
import PushRelay.Depot.Tracker
import PushRelay.Files
import PushRelay.Gateway.Account
import PushRelay.Gateway.Apns
import PushRelay.Gateway.Client
import PushRelay.Gateway.Code
import PushRelay.Gateway.Exchange
import PushRelay.Gateway.Failure
import PushRelay.Gateway.Fcm
import PushRelay.Gateway.Gcm
import PushRelay.Gateway.Payload
import PushRelay.Gateway.Setup
import PushRelay.Http.Call
import PushRelay.Http.Form
import PushRelay.Http.Message
import PushRelay.Http.Url
import PushRelay.Json.Basic
import PushRelay.Json.Draft
import PushRelay.Json.Record
import PushRelay.Json.Strict
import PushRelay.Key.Der
import PushRelay.Key.Pem
import PushRelay.Key.Signing
import PushRelay.Key.Token
import PushRelay.Ledger
import PushRelay.Main
import PushRelay.Notification.Basic
import PushRelay.Notification.Rules
import PushRelay.Notification.Wire
import PushRelay.Platform
import PushRelay.Proofs.Delivery
import PushRelay.Proofs.Depot.Acceptance
import PushRelay.Proofs.Depot.Accounts
import PushRelay.Proofs.Depot.Admission
import PushRelay.Proofs.Depot.Arrivals
import PushRelay.Proofs.Depot.Attempts
import PushRelay.Proofs.Depot.Authority
import PushRelay.Proofs.Depot.Calls
import PushRelay.Proofs.Depot.Capacity
import PushRelay.Proofs.Depot.Change
import PushRelay.Proofs.Depot.Conservation
import PushRelay.Proofs.Depot.Course
import PushRelay.Proofs.Depot.Dispatch
import PushRelay.Proofs.Depot.Drain
import PushRelay.Proofs.Depot.Exchanges
import PushRelay.Proofs.Depot.FanOut
import PushRelay.Proofs.Depot.Guards
import PushRelay.Proofs.Depot.History
import PushRelay.Proofs.Depot.Independence
import PushRelay.Proofs.Depot.Lines
import PushRelay.Proofs.Depot.Links
import PushRelay.Proofs.Depot.Numbering
import PushRelay.Proofs.Depot.Outcomes
import PushRelay.Proofs.Depot.Progress
import PushRelay.Proofs.Depot.Quiet
import PushRelay.Proofs.Depot.Reports
import PushRelay.Proofs.Depot.Rest
import PushRelay.Proofs.Depot.Results
import PushRelay.Proofs.Depot.Run
import PushRelay.Proofs.Depot.Sequence
import PushRelay.Proofs.Depot.Step
import PushRelay.Proofs.Depot.Turns
import PushRelay.Proofs.Depot.Workers
import PushRelay.Proofs.Gateway.Apns
import PushRelay.Proofs.Gateway.Code
import PushRelay.Proofs.Gateway.Exchange
import PushRelay.Proofs.Gateway.Message
import PushRelay.Proofs.Gateway.Naming
import PushRelay.Proofs.Gateway.Payload
import PushRelay.Proofs.Gateway.Readiness
import PushRelay.Proofs.Gateway.Refusal
import PushRelay.Proofs.Gateway.Sending
import PushRelay.Proofs.Json.Draft
import PushRelay.Proofs.Json.Path
import PushRelay.Proofs.Json.Record
import PushRelay.Proofs.Json.Size
import PushRelay.Proofs.Json.Sorted
import PushRelay.Proofs.Ledger
import PushRelay.Proofs.Notification.Rules
import PushRelay.Proofs.Notification.Wire
import PushRelay.Proofs.Recovery.Entry
import PushRelay.Proofs.Recovery.Findings
import PushRelay.Proofs.Recovery.Grouping
import PushRelay.Proofs.Recovery.Lossless
import PushRelay.Proofs.Recovery.Posting
import PushRelay.Proofs.Recovery.Readback
import PushRelay.Proofs.Recovery.Reading
import PushRelay.Proofs.Recovery.Reconciliation
import PushRelay.Proofs.Recovery.Restarts
import PushRelay.Proofs.Recovery.Resubmission
import PushRelay.Proofs.Relay.Secrets
import PushRelay.Proofs.Relay.Surface
import PushRelay.Proofs.Text.Decimal
import PushRelay.Proofs.Text.Line
import PushRelay.Proofs.Text.Utf8
import PushRelay.Proofs.Total
import PushRelay.PushLog.Event
import PushRelay.Recovery.Entry
import PushRelay.Recovery.Findings
import PushRelay.Recovery.Resubmission
import PushRelay.Relay.Description
import PushRelay.Relay.Surface
import PushRelay.Settings.Basic
import PushRelay.Settings.Defect
import PushRelay.Settings.Environment
import PushRelay.Settings.Example
import PushRelay.Settings.Source
import PushRelay.Settings.Wire
import PushRelay.Text.Base64
import PushRelay.Text.Blank
import PushRelay.Text.Decimal
import PushRelay.Text.Line
import PushRelay.Text.Numeral
import PushRelay.Text.Punycode
import PushRelay.Text.Quoted
import PushRelay.Text.Utf8
import PushRelay.Toml.Document
import PushRelay.Toml.Node
import PushRelay.Toml.Scalar
import PushRelay.Proofs.Depot.Racing
import PushRelay.Proofs.Depot.Wakeup
import PushRelay.Proofs.Settings.Setting
import PushRelay.Proofs.Settings.Document
import PushRelay.Proofs.Settings.Opening
import PushRelay.Proofs.Settings.Precedence
import PushRelay.Proofs.Gateway.Tokens
