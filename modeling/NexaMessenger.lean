import NexaMessenger.Lib.Machine
import NexaMessenger.Lib.Word
import NexaMessenger.Lib.HashMap
import NexaMessenger.Lib.Mailbox
import NexaMessenger.Lib.Window
import NexaMessenger.Lib.Decimal
import NexaMessenger.Lib.BTreeMap
import NexaMessenger.MessageCodec
import NexaMessenger.Signing
import NexaMessenger.Session.Agreement
import NexaMessenger.Relay.Delivery
import NexaMessenger.Ratchet.Canonical
import NexaMessenger.EnvelopeCodec
import NexaMessenger.Storage.Restart
import NexaMessenger.Storage.Durability
import NexaMessenger.Storage.Race
import NexaMessenger.Gateway.Claims
import NexaMessenger.Gateway.Publications
import NexaMessenger.Gateway.Reservations
import NexaMessenger.Gateway.Directory
import NexaMessenger.Gateway.Replay
import NexaMessenger.Gateway.Delivery
import NexaMessenger.Gateway.Authority
import NexaMessenger.Gateway.Frames
import NexaMessenger.Gateway.Initiation
import NexaMessenger.Identity.Rotation
import NexaMessenger.Session.Consumption
import NexaMessenger.DhRatchet
import NexaMessenger.Gateway.Isolation
import NexaMessenger.Ratchet.Skipping
import NexaMessenger.Storage.Sharing
import NexaMessenger.Storage.Tampering
import NexaMessenger.Storage.Device
import NexaMessenger.Gateway.PathIds
import NexaMessenger.Gateway.Replacement
import NexaMessenger.Gateway.Quotas
import NexaMessenger.Gateway.Origins
import NexaMessenger.Outbound
import NexaMessenger.Session.Authenticity
import NexaMessenger.Conversation
import NexaMessenger.Gateway.History
import NexaMessenger.Gateway.Polling
import NexaMessenger.Gateway.Handshake
