import NanoIp.Tcp.Delivery
import NanoIp.Tcp.Modular
import NanoIp.Tcp.Dispatch
import NanoIp.Tcp.ActiveClose
import NanoIp.Tcp.Retransmit
import NanoIp.Tcp.Timer
import NanoIp.Tcp.Ownership
import NanoIp.Tcp.Terminal
import NanoIp.Tcp.Crossing
import NanoIp.Tcp.Deferred
import NanoIp.Tcp.Registered
import NanoIp.Core.Fragments
import NanoIp.Udp.Destination
import NanoIp.Sockets.SendOnce
import NanoIp.Sockets.Stream
import NanoIp.Sockets.Wakeup
import NanoIp.Sockets.Accounts
import NanoIp.Sockets.Conserved
import NanoIp.Sockets.Network
import NanoIp.Sockets.Undisturbed
import NanoIp.Sockets.ByteStream
import NanoIp.Sockets.Polling
import NanoIp.Sockets.Readers
import NanoIp.Arp.Resolve
import NanoIp.Arp.Exchange
import NanoIp.Arp.Lan
import NanoIp.Tftp.Refused
import NanoIp.Tftp.Transfer
import NanoIp.Ipv4.Disposition
import NanoIp.Udp.Bind
import NanoIp.Timeouts
import NanoIp.Builders
import NanoIp.Packets.Allocated
import NanoIp.Packets.Queues
import NanoIp.Room
import NanoIp.Icmp.Pings
import NanoIp.Udp.RoundTrip
import NanoIp.Tcp.RoundTrip
import NanoIp.Tcp.Agreement
import NanoIp.Netif.Refused
import NanoIp.Netif.Localhost
import NanoIp.Netif.Handed
import NanoIp.Tcp.Completed
import NanoIp.Tcp.Pending
import NanoIp.Tcp.Ports
import NanoIp.Tcp.Bounds
import NanoIp.Tftp.Peer
import NanoIp.Dhcp.Renewal
import NanoIp.Dhcp.Grammar
import NanoIp.Dhcp.Times
import NanoIp.Oal.Due
import NanoIp.Oal.FlagsLinux
import NanoIp.Oal.FlagsTasks
import NanoIp.Oal.Rearm
import NanoIp.Netif.Routing
import NanoIp.Udp.Bounds
import NanoIp.Icmp.Echo
import NanoIp.Arp.Restart
import NanoIp.Arp.Eviction
import NanoIp.Sockets.Accepting
import NanoIp.Sockets.Readiness
import NanoIp.Netif.Configured
import NanoIp.Core.Bursts
import NanoIp.Sockets.Datagrams
import NanoIp.Tftp.Requests
import NanoIp.Tools.Addresses
import NanoIp.Tools.Format
import NanoIp.Netif.RxRing
import NanoIp.Icmp.RoundTrip
import NanoIp.Ipv4.FirstPacket
import NanoIp.Netif.TxRing
import NanoIp.Lib.Lossy
import NanoIp.Lib.Monitor
import NanoIp.Lib.Worker
import NanoIp.Netif.Task
import NanoIp.Netif.TaskWork
import NanoIp.Tftp.Task
import NanoIp.Tftp.Unreliable
