import Ttp2.Lib.Lts
import Ttp2.Lib.Framing
import Ttp2.EchoStability
import Ttp2.FrameExtraction
import Ttp2.OrderlyClose
import Ttp2.DescriptorUse
import Ttp2.QueueWaits
import Ttp2.FifoChannel
import Ttp2.UdpLink
import Ttp2.Lib.Subsequence
import Ttp2.UdpDelivery
import Ttp2.PeerReceive
import Ttp2.PeerSend
import Ttp2.UdpNetwork
import Ttp2.UdpAcknowledgement
import Ttp2.Lib.LockOrder
import Ttp2.TcpLocks
import Ttp2.LockDiscipline
import Ttp2.Lib.Turns
import Ttp2.SharedSocket
import Ttp2.FieldSurvival
import Ttp2.DatagramParsing
import Ttp2.PayloadSurvival
import Ttp2.Retransmissions
import Ttp2.ForeignIntegers
import Ttp2.IpV4
import Ttp2.AutomaticIds
import Ttp2.Asn1Der
import Ttp2.PeekResponse
import Ttp2.Reference.Precise
import Ttp2.ComponentWrites
import Ttp2.OversizedPayloads
import Ttp2.FailingWrites
import Ttp2.Lib.AtomicObject
import Ttp2.Linearizability
import Ttp2.EchoService
import Ttp2.Lib.Handles
import Ttp2.EchoServer
import Ttp2.Lib.Ranking
import Ttp2.Shutdown
import Ttp2.Benchmark
import Ttp2.BenchmarkEnd
import Ttp2.UdpProvenance
import Ttp2.Lib.Regex
import Ttp2.RequestInt
import Ttp2.Lib.Reach
import Ttp2.SessionProgress
import Ttp2.EchoProgress
import Ttp2.UdpExactlyOnce
import Ttp2.Lib.InetText
import Ttp2.Addresses
import Ttp2.PeerLocks
import Ttp2.UdpProgress
import Ttp2.SessionLocks
