import ChatRelay.Main
import ChatRelay.Proofs.Run
import ChatRelay.Proofs.Ledger.Basic
import ChatRelay.Proofs.Ledger.Simulation
import ChatRelay.Proofs.Ledger.Step
import ChatRelay.Proofs.Admission
import ChatRelay.Proofs.Membership
import ChatRelay.Proofs.Nicknames
import ChatRelay.Proofs.Drain
import ChatRelay.Proofs.FanOut
import ChatRelay.Proofs.Identity
import ChatRelay.Proofs.Link.Discipline
import ChatRelay.Proofs.Link.Drive
import ChatRelay.Proofs.Logs
import ChatRelay.Proofs.OneLine.Lines
import ChatRelay.Proofs.OneLine.Plain
import ChatRelay.Proofs.OneLine.Unit
import ChatRelay.Proofs.Notices.Basic
import ChatRelay.Proofs.Notices.Handle
import ChatRelay.Proofs.Presence
import ChatRelay.Proofs.Departure
import ChatRelay.Proofs.Turnover
import ChatRelay.Proofs.Language.Words
import ChatRelay.Proofs.Language.Parse
import ChatRelay.Proofs.Language.Transports
import ChatRelay.Proofs.Order.Parcels
import ChatRelay.Proofs.Order.Trail
import ChatRelay.Proofs.Freeze
import ChatRelay.Proofs.Privacy.Alike
import ChatRelay.Proofs.Privacy.Whisper
import ChatRelay.Proofs.Attribution
import ChatRelay.Proofs.Speakers
import ChatRelay.Proofs.Recall.Lines
import ChatRelay.Proofs.Recall.Scribe
import ChatRelay.Proofs.Relay.Current
import ChatRelay.Proofs.Refusal
import ChatRelay.Proofs.Namesakes
import ChatRelay.Proofs.Delivery
import ChatRelay.Proofs.Vigil
import ChatRelay.Proofs.Company
import ChatRelay.Proofs.Roster
import ChatRelay.Proofs.Link.Flush
import ChatRelay.Proofs.Queue
import ChatRelay.Proofs.Paths
