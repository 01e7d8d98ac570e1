import Uaos.Forest
import Uaos.Pool
import Uaos.RamRuns
import Uaos.DosList
import Uaos.Disk
import Uaos.FatBytes
import Uaos.FatFrame
import Uaos.FatPackets
import Uaos.FfsRuns
import Uaos.FfsArray
import Uaos.Dns
import Uaos.TcpSend
import Uaos.TcpRecv
import Uaos.TcpFins
import Uaos.TcpTuples
import Uaos.UsockStream
import Uaos.Vfs
import Uaos.CmdPattern
import Uaos.X64Reclaim
import Uaos.FdOwners
import Uaos.Clipboard
import Uaos.ElfChecks
import Uaos.HunkSafe
import Uaos.Rfc7693
import Uaos.HttpBody
import Uaos.Redirects
import Uaos.Clock
import Uaos.Dates
