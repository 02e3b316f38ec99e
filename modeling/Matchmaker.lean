import Matchmaker.Client.Next
import Matchmaker.Main
import Matchmaker.Rehearsal
import Matchmaker.Server.Basic
import Matchmaker.Proofs.Registry.Queues
import Matchmaker.Proofs.Registry.Reconcile
import Matchmaker.Proofs.Coordinator.Registration
import Matchmaker.Proofs.Coordinator.Starting
import Matchmaker.Proofs.Run.Basic
import Matchmaker.Proofs.Run.Change
import Matchmaker.Proofs.Run.Presence
import Matchmaker.Proofs.Run.Match
import Matchmaker.Proofs.Coordinator.Updates
import Matchmaker.Proofs.Run.View
import Matchmaker.Proofs.Run.Consumption
import Matchmaker.Proofs.Run.Uninterrupted
import Matchmaker.Proofs.Registry.Repetition
import Matchmaker.Proofs.Run.Record
import Matchmaker.Proofs.Lobby.Server
import Matchmaker.Proofs.Lobby.Links
import Matchmaker.Proofs.Run.Capacity
import Matchmaker.Proofs.Run.Listing
import Matchmaker.Proofs.Client.Outbound
import Matchmaker.Proofs.Coordinator.Endpoints
import Matchmaker.Proofs.Run.Venue
import Matchmaker.Proofs.Run.Calling
import Matchmaker.Proofs.Registry.Adoption
import Matchmaker.Proofs.Registry.Trace
import Matchmaker.Proofs.Registry.Changes
import Matchmaker.Proofs.Coordinator.Queueing
import Matchmaker.Proofs.Text.Trimming
import Matchmaker.Proofs.Chat.Body
import Matchmaker.Proofs.Chat.Growth
import Matchmaker.Proofs.Chat.Log
import Matchmaker.Proofs.Chat.History
import Matchmaker.Proofs.Chat.Fates
import Matchmaker.Proofs.Chat.Conservation
import Matchmaker.Proofs.Coordinator.RecentChat
import Matchmaker.Proofs.Service.Deeds
import Matchmaker.Proofs.Service.Cache
import Matchmaker.Proofs.Chat.Room
import Matchmaker.Proofs.Service.Steps
import Matchmaker.Proofs.Chat.Overtaking
import Matchmaker.Proofs.Chat.Chronology
import Matchmaker.Proofs.Run.Sessions
import Matchmaker.Proofs.Chat.Retelling
import Matchmaker.Proofs.Coordinator.SessionTable
import Matchmaker.Proofs.Service.Standing
import Matchmaker.Proofs.Service.House
import Matchmaker.Proofs.Service.Muting
import Matchmaker.Proofs.Service.Reception
import Matchmaker.Proofs.Service.Agreement
import Matchmaker.Proofs.Service.Parts
import Matchmaker.Proofs.Service.Refusal
import Matchmaker.Proofs.Service.Authority
import Matchmaker.Proofs.Service.Purging
import Matchmaker.Proofs.Client.Delivery
import Matchmaker.Proofs.Server.Handlers
import Matchmaker.Proofs.Server.Turns
import Matchmaker.Proofs.Server.Attendance
import Matchmaker.Proofs.Client.Closing
import Matchmaker.Proofs.Protocol.Wire
import Matchmaker.Proofs.Protocol.Grammar
import Matchmaker.Proofs.Protocol.Staging
import Matchmaker.Proofs.Protocol.Envelope
import Matchmaker.Proofs.Server.Malformed
import Matchmaker.Proofs.Tick.Course
import Matchmaker.Proofs.Config.Limits
import Matchmaker.Proofs.Run.Newcomer
import Matchmaker.Proofs.Run.Sweep
import Matchmaker.Proofs.Run.Settling
import Matchmaker.Proofs.Client.Tokens
import Matchmaker.Proofs.Client.Flood
import Matchmaker.Proofs.Run.Eviction
import Matchmaker.Proofs.Run.Idle
import Matchmaker.Proofs.Client.Parting
import Matchmaker.Proofs.Client.Rationing
import Matchmaker.Proofs.Identity.Spelling
import Matchmaker.Proofs.Chat.Keeping
