import XlioTcp.Seq
import XlioTcp.Pbuf
import XlioTcp.Pcb
import XlioTcp.Shrink
import XlioTcp.Ooseq
import XlioTcp.Receive
import XlioTcp.Options
import XlioTcp.Process
import XlioTcp.Passive
import XlioTcp.Input
import XlioTcp.Retransmit
import XlioTcp.Frame
import XlioTcp.StateMachine
import XlioTcp.AckEffects
import XlioTcp.Reassembly
import XlioTcp.Shift
import XlioTcp.SendSide
import XlioTcp.Handshake
import XlioTcp.Accounting
import XlioTcp.Reset
import XlioTcp.Parsing
import XlioTcp.TcSelector
import XlioTcp.TcBytes
import XlioTcp.TcFilter
import XlioTcp.Delivery
import XlioTcp.ChainTrim
import XlioTcp.OoseqOrder
import XlioTcp.Stream
