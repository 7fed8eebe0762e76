import Pdrad.Bytes
import Pdrad.Memory
import Pdrad.Loop
import Pdrad.Chain
import Pdrad.Records
import Pdrad.In6Addr
import Pdrad.DhOptions
import Pdrad.DhPackets
import Pdrad.DhReader
import Pdrad.DhGrammar
import Pdrad.DhWriter
import Pdrad.WriteLog
import Pdrad.DhEncoding
import Pdrad.DhRoundTrip
import Pdrad.DhSolicit
import Pdrad.DhBlocks
import Pdrad.SolicitBuilders
import Pdrad.RequestDhcp
import Pdrad.RouterSolicit
import Pdrad.ValidReply
import Pdrad.Runs
import Pdrad.Clocks
import Pdrad.PrefixBytes
import Pdrad.Agreement
import Pdrad.Handles
import Pdrad.SharedMemory
import Pdrad.Descriptors
import Pdrad.DhcpThread
import Pdrad.PrefixExchange
import Pdrad.OnesComplement
import Pdrad.AddressPrefix
import Pdrad.NdpOptions
import Pdrad.NdpPackets
import Pdrad.NdpWriter
import Pdrad.NdpChecksum
import Pdrad.RouterAdvert
import Pdrad.RaLayout
import Pdrad.NdpBlocks
import Pdrad.RouteInformation
import Pdrad.Delegation
import Pdrad.CStrings
import Pdrad.Arguments
import Pdrad.Daemon
import Pdrad.Global
import Pdrad.Utils
import Pdrad.HardwareAddress
import Pdrad.MixedList
import Pdrad.Process
import Pdrad.CriticalSections
import Pdrad.Atomicity
import Pdrad.Delivery
import Pdrad.Hosts
import Pdrad.Renewal
import Pdrad.Lifecycle
import Pdrad.Blocking
import Pdrad.Sockets
import Pdrad.Isolation
import Pdrad.Takeover
