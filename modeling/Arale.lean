import Arale.At.Lines
import Arale.At.Readline
import Arale.C2k.FailedHandover
import Arale.C2k.Independence
import Arale.C2k.Ipv6Address
import Arale.C2k.UimRecord
import Arale.Gps.EpoConf
import Arale.Gps.GsvSets
import Arale.Gps.Mnld
import Arale.Gps.NmeaReader
import Arale.Gps.UtcTime
import Arale.Gsm.Septets
import Arale.Gsm.Ussd
import Arale.Immvibe.Daemon
import Arale.Immvibe.ForceStore
import Arale.Lights.ButtonRace
import Arale.Lights.NotificationLed
import Arale.Mux.AdvFrameBuf
import Arale.Mux.AdvRoundTrip
import Arale.Mux.Backlog
import Arale.Mux.BufferFifo
import Arale.Mux.ChannelData
import Arale.Mux.Chat
import Arale.Mux.CheckSequence
import Arale.Mux.FrameList
import Arale.Mux.ListLifetime
import Arale.Mux.Ownership
import Arale.Mux.PfBit
import Arale.Mux.Setup
import Arale.Mux.Signalling
import Arale.Mux.Wakeup
import Arale.Ril.Cnap
import Arale.Ril.CodeTables
import Arale.Ril.DeletedEvents
import Arale.Ril.SimIo
import Arale.Ril.StkDuration
import Arale.Ril.StkRefresh
import Arale.Ril.UsimFcp
import Arale.Ril.VsimFraming
