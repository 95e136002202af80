import Wanpipe.Line.Octets
import Wanpipe.Line.Stuffing
import Wanpipe.Line.Fcs
import Wanpipe.Mtp1.Link
import Wanpipe.Mtp1.Transmit
import Wanpipe.Mtp1.TransmitBuffer
import Wanpipe.Mtp1.TransmitRun
import Wanpipe.Mtp1.TransmitLine
import Wanpipe.Mtp1.Receive
import Wanpipe.Mtp1.ReceiveLine
import Wanpipe.Mtp1.ReceiveRun
import Wanpipe.Mtp1.Loopback
import Wanpipe.Mtp1.BitOrder
import Wanpipe.Mtp1.Recovery
import Wanpipe.Mtp1.Collected
import Wanpipe.Mtp1.Bounds
import Wanpipe.Mtp1.Running
import Wanpipe.Mtp1.Once
import Wanpipe.Mtp1.OctetCount
import Wanpipe.Shelf
import Wanpipe.Mtp1.Ownership
import Wanpipe.Hdlc.Engine
import Wanpipe.Hdlc.Crc
import Wanpipe.Hdlc.Reader
import Wanpipe.Hdlc.Decoder
import Wanpipe.Hdlc.EncoderLine
import Wanpipe.Hdlc.Transmit
import Wanpipe.Hdlc.Fill
import Wanpipe.Hdlc.Loopback
import Wanpipe.Hdlc.Extends
import Wanpipe.Hdlc.LipFill
import Wanpipe.Hdlc.SevenBit
import Wanpipe.Hdlc.Acceptance
import Wanpipe.Hdlc.Cuts
import Wanpipe.Hdlc.Resync
import Wanpipe.Hdlc.Chunks
import Wanpipe.Hdlc.Capacity
import Wanpipe.Line.Burst
import Wanpipe.Hdlc.Agree
import Wanpipe.Usb.Block
import Wanpipe.Usb.Framing
import Wanpipe.Usb.RoundTrip
import Wanpipe.Usb.Exchange
import Wanpipe.TdmApi.Device
import Wanpipe.TdmApi.Events
import Wanpipe.TdmApi.Registration
import Wanpipe.TdmApi.Table
import Wanpipe.TdmApi.TableRun
import Wanpipe.TdmApi.Channel
import Wanpipe.TdmApi.RxPool
import Wanpipe.Mailbox
import Wanpipe.TdmApi.EventRun
import Wanpipe.TdmApi.EventReports
import Wanpipe.TdmApi.EventOrder
import Wanpipe.TdmApi.EventQueues
import Wanpipe.Packets
import Wanpipe.TdmApi.Stream
import Wanpipe.TdmApi.StreamRun
import Wanpipe.Mgd.Boost
import Wanpipe.Mgd.Survive
import Wanpipe.Mgd.Session
import Wanpipe.Mgd.BoostFrame
import Wanpipe.Mgd.Signal
import Wanpipe.Mgd.Digits
import Wanpipe.Mgd.Dialed
import Wanpipe.Mgd.Rbs
import Wanpipe.CString
import Wanpipe.Mgd.NextPair
import Wanpipe.Mgd.ConfigText
import Wanpipe.Mgd.ConfigLines
import Wanpipe.Mgd.CommandFrame
import Wanpipe.Mgd.ThreadMoves
import Wanpipe.Mgd.ThreadFrame
import Wanpipe.Mgd.Tank
import Wanpipe.Mgd.Owner
import Wanpipe.Mgd.Spoken
import Wanpipe.Mgd.Owes
import Wanpipe.Mgd.Quiet
import Wanpipe.Mgd.Account
import Wanpipe.Debts
import Wanpipe.Mgd.Release
import Wanpipe.Circle
import Wanpipe.Aft.Chain
import Wanpipe.Ledger
import Wanpipe.RoundRobin
import Wanpipe.Lip.Link
import Wanpipe.Lip.BottomHalf
import Wanpipe.Lip.State
import Wanpipe.Lip.Outcome
import Wanpipe.Lip.Listed
import Wanpipe.Lip.Balance
import Wanpipe.Lip.Scheduler
import Wanpipe.Lip.Interleaving
import Wanpipe.Mgd.Offer
import Wanpipe.Mgd.Arbitration
import Wanpipe.Mgd.EventQueue
import Wanpipe.TdmApi.RbsBits
import Wanpipe.Hdlc.Retry
import Wanpipe.Hdlc.LipIface
import Wanpipe.Aft.Bert
import Wanpipe.Chase
import Wanpipe.Aft.Ring
import Wanpipe.Aft.Moves
import Wanpipe.Aft.Frames
import Wanpipe.Aft.Interrupts
import Wanpipe.Aft.Order
import Wanpipe.Aft.Addresses
import Wanpipe.Aft.Repeat
import Wanpipe.Aft.DchanFilter
import Wanpipe.Aft.IfSend
import Wanpipe.TdmApi.Multiplied
import Wanpipe.TdmApi.UsrPeriod
import Wanpipe.Wanconfig.ActiveChannels
import Wanpipe.Wanconfig.Selection
import Wanpipe.Wanconfig.ConfSection
import Wanpipe.Wanconfig.SectionRecords
import Wanpipe.Wanconfig.Tokens
import Wanpipe.Usb.Accesses
import Wanpipe.Usb.Hostile
import Wanpipe.Store
import Wanpipe.Usb.RxRing
import Wanpipe.Usb.RxStream
import Wanpipe.Usb.TxRing
import Wanpipe.Usb.TxWhole
import Wanpipe.Usb.Commands
import Wanpipe.Usb.Conserved
import Wanpipe.Utils.Cells
import Wanpipe.Utils.DebugLog
import Wanpipe.Utils.DebugLoop
import Wanpipe.Utils.DebugFifo
import Wanpipe.OnesComplement
import Wanpipe.Utils.UdpReply
import Wanpipe.Utils.UdpChecksum
import Wanpipe.Codec.Law
import Wanpipe.Katm.Channels
import Wanpipe.Katm.Consistent
import Wanpipe.Wanconfig.LinkTable
import Wanpipe.Wanconfig.Rescan
import Wanpipe.Mgd.Message
import Wanpipe.Mgd.MessageHead
import Wanpipe.Mgd.MessageRun
import Wanpipe.Confluence
import Wanpipe.Blocks
import Wanpipe.Syncppp.Md5
import Wanpipe.Syncppp.Link
import Wanpipe.Syncppp.Input
import Wanpipe.Syncppp.Opened
import Wanpipe.Syncppp.Frames
import Wanpipe.Syncppp.Converge
import Wanpipe.Syncppp.Looped
import Wanpipe.Aft.ReceiveKeeps
import Wanpipe.Aft.ReceiveIntr
import Wanpipe.Aft.BriClock
import Wanpipe.Aft.Te1Clock
import Wanpipe.Aft.ShutOut
