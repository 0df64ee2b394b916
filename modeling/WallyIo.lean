import WallyIo.Library.Base128
import WallyIo.Library.Broker
import WallyIo.Library.FieldReader
import WallyIo.Library.Footprint
import WallyIo.Library.HeapVector
import WallyIo.Library.Incarnations
import WallyIo.Library.KeyedMaximum
import WallyIo.Library.LevelPattern
import WallyIo.Library.Machine
import WallyIo.Library.PrefixCode
import WallyIo.Library.Quiescence
import WallyIo.Library.Table
import WallyIo.Library.Timer
import WallyIo.Library.Trace
import WallyIo.Library.WeakHandlers
import WallyIo.Protocol.Common
import WallyIo.Protocol.Packet
import WallyIo.Protocol.Publish
import WallyIo.Protocol.TopicLevels
import WallyIo.Codec.AckCodec
import WallyIo.Codec.ConnectCodec
import WallyIo.Codec.Decoder
import WallyIo.Codec.Encoder
import WallyIo.Codec.Fields
import WallyIo.Codec.FrameBounds
import WallyIo.Codec.FrameLocality
import WallyIo.Codec.FrameReader
import WallyIo.Codec.FrameSplitting
import WallyIo.Codec.PacketDecoder
import WallyIo.Codec.PublishCodec
import WallyIo.Codec.RemainingLength
import WallyIo.Codec.SubscribeCodec
import WallyIo.Codec.WireFormat
import WallyIo.Connection.Answers
import WallyIo.Connection.Authentication
import WallyIo.Connection.FrameSize
import WallyIo.Connection.FrameStream
import WallyIo.Connection.MalformedInput
import WallyIo.Connection.MqttConnection
import WallyIo.Connection.ReadPath
import WallyIo.Connection.Supervision
import WallyIo.Connection.WritePath
import WallyIo.Dispatch.AdvertisedLength
import WallyIo.Dispatch.BrokerRefinement
import WallyIo.Dispatch.ClientSession
import WallyIo.Dispatch.Common
import WallyIo.Dispatch.Delivery
import WallyIo.Dispatch.Duplicates
import WallyIo.Dispatch.FanOut
import WallyIo.Dispatch.FreshSessions
import WallyIo.Dispatch.IgnoredCopies
import WallyIo.Dispatch.LastWillDelivery
import WallyIo.Dispatch.LastWills
import WallyIo.Dispatch.ManagerSteps
import WallyIo.Dispatch.PendingTimers
import WallyIo.Dispatch.Provenance
import WallyIo.Dispatch.Qos2Exchange
import WallyIo.Dispatch.Qos2Receiver
import WallyIo.Dispatch.Qos2Sender
import WallyIo.Dispatch.Quiescence
import WallyIo.Dispatch.Replies
import WallyIo.Dispatch.RetainFlag
import WallyIo.Dispatch.RetainedHistory
import WallyIo.Dispatch.RetainedMessages
import WallyIo.Dispatch.RetryLimit
import WallyIo.Dispatch.RxInFlightPublications
import WallyIo.Dispatch.RxLifetimes
import WallyIo.Dispatch.RxTable
import WallyIo.Dispatch.SessionEnds
import WallyIo.Dispatch.SessionManager
import WallyIo.Dispatch.SessionTables
import WallyIo.Dispatch.SubscriptionHistory
import WallyIo.Dispatch.TopicMatching
import WallyIo.Dispatch.TopicSubscriptions
import WallyIo.Dispatch.Transmissions
import WallyIo.Dispatch.TxInFlightPublications
import WallyIo.Dispatch.TxLifetimes
import WallyIo.Dispatch.TxPublication
import WallyIo.Dispatch.TxTable
import WallyIo.Server.Authenticity
import WallyIo.Server.Broker
import WallyIo.Server.Conversation
import WallyIo.Server.MqttServer
import WallyIo.Server.Pairing
import WallyIo.Server.Projection
import WallyIo.Server.SessionClosing
import WallyIo.Concurrency.IoServicePool
