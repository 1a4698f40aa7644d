import LoraMultihop.Foundation.Fields
import LoraMultihop.Foundation.Soup
import LoraMultihop.Foundation.BoundedArray
import LoraMultihop.Foundation.ByteSum
import LoraMultihop.Foundation.TopTwo
import LoraMultihop.Foundation.Weights
import LoraMultihop.Foundation.ReceiveLoop
import LoraMultihop.Foundation.Runs
import LoraMultihop.Foundation.Readers
import LoraMultihop.Foundation.Stamps
import LoraMultihop.Net.Params
import LoraMultihop.Net.TimeHelpers
import LoraMultihop.Net.Deadlines
import LoraMultihop.Link.Mac
import LoraMultihop.Link.Layer
import LoraMultihop.Link.Windows
import LoraMultihop.Link.Epochs
import LoraMultihop.Link.Transport
import LoraMultihop.Link.Receive
import LoraMultihop.Link.Queue
import LoraMultihop.Link.Draining
import LoraMultihop.Link.Corruption
import LoraMultihop.Link.Simulation
import LoraMultihop.Radio.LoraRadio
import LoraMultihop.Radio.Channels
import LoraMultihop.Multihop.Messages
import LoraMultihop.Multihop.Codec
import LoraMultihop.Multihop.State
import LoraMultihop.Multihop.Sending
import LoraMultihop.Multihop.Slots
import LoraMultihop.Multihop.Histogram
import LoraMultihop.Multihop.Relay
import LoraMultihop.Multihop.Allocation
import LoraMultihop.Multihop.Layout
import LoraMultihop.Multihop.Waiting
import LoraMultihop.Multihop.Acks
import LoraMultihop.Multihop.AckRanges
import LoraMultihop.Multihop.Reports
import LoraMultihop.Multihop.AckRounds
import LoraMultihop.Multihop.Forwarding
import LoraMultihop.Multihop.Fragments
import LoraMultihop.Multihop.Iterator
import LoraMultihop.Multihop.Sequences
import LoraMultihop.Multihop.Discovery
import LoraMultihop.Multihop.Rings
import LoraMultihop.Multihop.Advertise
import LoraMultihop.Multihop.Announcement
import LoraMultihop.Multihop.Retries
import LoraMultihop.Multihop.Counts
import LoraMultihop.Multihop.Scores
import LoraMultihop.Multihop.Heartbeats
import LoraMultihop.Multihop.Cascade
import LoraMultihop.Multihop.Candidates
import LoraMultihop.Multihop.Hysteresis
import LoraMultihop.Multihop.Updates
import LoraMultihop.Multihop.Election
import LoraMultihop.Multihop.Clusters
import LoraMultihop.Multihop.Joining
import LoraMultihop.Multihop.Rejected
import LoraMultihop.Multihop.Api
import LoraMultihop.Multihop.Bounds
import LoraMultihop.Multihop.Clock
import LoraMultihop.Multihop.Divisors
import LoraMultihop.Multihop.TimeSync
import LoraMultihop.Multihop.Fresh
import LoraMultihop.Multihop.Network
import LoraMultihop.Multihop.Handshake
import LoraMultihop.Multihop.Skew
import LoraMultihop.Multihop.Rotation
import LoraMultihop.Multihop.MainLoop
import LoraMultihop.Multihop.Programs
import LoraMultihop.Trace.Decode
import LoraMultihop.Trace.Records
import LoraMultihop.Loramesh.NexusModule
import LoraMultihop.Tdma.Loop
import LoraMultihop.Multihop.Reuse
