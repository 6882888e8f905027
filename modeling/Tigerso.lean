import Tigerso.ByteMemory
import Tigerso.FifoQueue
import Tigerso.SystemCalls
import Tigerso.DiskFile
import Tigerso.RingBuffer
import Tigerso.DrainDelivery
import Tigerso.ChunkedCoding
import Tigerso.Dechex
import Tigerso.FileSend
import Tigerso.FileRanges
import Tigerso.FileResumption
import Tigerso.FileDescriptors
import Tigerso.HttpBodyFile
import Tigerso.ChunkSending
import Tigerso.SendChunk
import Tigerso.SendFileChunk
import Tigerso.RingFifo
import Tigerso.RingFill
import Tigerso.NetBuffer
import Tigerso.HttpMessage
import Tigerso.LengthFraming
import Tigerso.TimeoutLog
import Tigerso.TimeWheelEvent
import Tigerso.WheelTimeouts
import Tigerso.EventsLoop
import Tigerso.ChannelLifetime
import Tigerso.BodyAccumulation
import Tigerso.CText
import Tigerso.DNSCache
import Tigerso.DNSSoundness
import Tigerso.DerEncoding
import Tigerso.CertCache
import Tigerso.CertIdentity
import Tigerso.CertStoring
import Tigerso.CheckedMemory
import Tigerso.DNSResolver
import Tigerso.DNSGrammar
import Tigerso.DNSWire
import Tigerso.DNSBounds
import Tigerso.DNSEncoding
import Tigerso.DNSAnswer
import Tigerso.HttpHelper
import Tigerso.HttpParser
import Tigerso.SocketChannel
import Tigerso.HttpConnection
import Tigerso.LexicalPath
import Tigerso.PathContainment
import Tigerso.ConnectionFactory
import Tigerso.ConnectionLifetime
import Tigerso.ConnectionRecycling
import Tigerso.ConnectionAccounting
import Tigerso.CallbackDispatch
import Tigerso.ServedConnection
import Tigerso.KeyedList
import Tigerso.HttpStream
import Tigerso.ParserRuns
import Tigerso.HeaderFragments
import Tigerso.RequestAnswer
import Tigerso.RequestReads
import Tigerso.PipelinedRequests
import Tigerso.ReadInterests
import Tigerso.ReadLoop
import Tigerso.GuardedRuns
import Tigerso.RecordLocks
import Tigerso.FileLock
import Tigerso.DaemonParent
import Tigerso.ThreadPool
import Tigerso.SocketUtil
import Tigerso.BufferCalls
import Tigerso.BufferBounds
import Tigerso.BufferFifo
import Tigerso.BufferRefinement
import Tigerso.BufferResults
import Tigerso.RelatedResults
import Tigerso.RingMemory
import Tigerso.BodyMemory
import Tigerso.HttpMessageObject
import Tigerso.StringSearch
import Tigerso.RequestHost
import Tigerso.RequestPort
import Tigerso.HeaderMap
import Tigerso.MessageMemory
import Tigerso.StateIsolation
import Tigerso.BufferQueue
import Tigerso.HttpProxyConnection
import Tigerso.ProxyMachine
import Tigerso.ProxyRounds
import Tigerso.ProxyRuns
import Tigerso.ForwardedRequests
import Tigerso.MemoryBodies
import Tigerso.ProxyTermination
import Tigerso.ProxyRecycling
import Tigerso.HeadResponses
import Tigerso.TimedSearch
import Tigerso.DNSProbing
import Tigerso.DNSReadBack
import Tigerso.DeferredWrites
import Tigerso.DNSRecords
import Tigerso.DNSDeferral
import Tigerso.DNSPointers
import Tigerso.DNSNames
import Tigerso.DNSQuery
import Tigerso.HostCheck
import Tigerso.RequestRouting
import Tigerso.PeerShutdown
import Tigerso.ConfigParser
import Tigerso.ConfigLookup
import Tigerso.Condition
import Tigerso.HexBuffer
import Tigerso.BodyClassification
import Tigerso.BufferMoves
import Tigerso.MutexReferences
import Tigerso.SockAddr
import Tigerso.AnsweredRequests
import Tigerso.CallbackOrder
import Tigerso.JoinedPieces
import Tigerso.RelatedTurns
import Tigerso.RelatedHeaders
import Tigerso.RelatedBodies
import Tigerso.CutLoops
import Tigerso.CutTurns
import Tigerso.CutBuffers
import Tigerso.BodyRules
import Tigerso.ChunkDecoding
import Tigerso.SizedBodies
import Tigerso.HeaderNames
import Tigerso.HeaderValues
import Tigerso.TakenBytes
import Tigerso.HeaderLines
import Tigerso.HeaderBlocks
import Tigerso.StartLines
import Tigerso.MessageArrivals
import Tigerso.MessageRoundTrips
