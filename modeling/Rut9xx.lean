import Rut9xx.Boot.Bootm
import Rut9xx.Boot.Gate
import Rut9xx.Data.Align
import Rut9xx.Data.Endian
import Rut9xx.Data.Buffer
import Rut9xx.Tplink.Builder
import Rut9xx.Tplink.Agreement
import Rut9xx.Chilli.Ippool
import Rut9xx.Chilli.FreeSection
import Rut9xx.Chilli.HashTable
import Rut9xx.Chilli.PoolInvariant
import Rut9xx.Chilli.PoolConstruction
import Rut9xx.Chilli.PoolRuns
import Rut9xx.Data.Chunks
import Rut9xx.Data.FlashLog
import Rut9xx.Mtd.Jffs2
import Rut9xx.Mtd.Jffs2Layout
import Rut9xx.Mtd.Jffs2Stream
import Rut9xx.Mtd.Device
import Rut9xx.Mtd.Write
import Rut9xx.Mtd.RecoveryFlag
import Rut9xx.Mtd.WriteRun
import Rut9xx.Mtd.WriteTrace
import Rut9xx.Mtd.WriteDevices
import Rut9xx.Chilli.PoolRange
import Rut9xx.Data.Memory
import Rut9xx.Data.XorChain
import Rut9xx.Buffalo.EncryptedImage
import Rut9xx.Buffalo.RoundTrip
import Rut9xx.Chilli.QuotaWindow
import Rut9xx.Trx.Partitions
import Rut9xx.Trx.RoundTrip
import Rut9xx.Tplink.Inspector
import Rut9xx.Data.Extents
import Rut9xx.Ptgen.Gptable
import Rut9xx.Ptgen.Layout
import Rut9xx.Ptgen.WellFormed
import Rut9xx.Chilli.DnsName
import Rut9xx.Data.Throughout
import Rut9xx.Chilli.DnsNameSafety
import Rut9xx.Chilli.DnsSafety
import Rut9xx.Data.Search
import Rut9xx.Httpd.Server
import Rut9xx.Httpd.Upload
import Rut9xx.Httpd.Reassembly
import Rut9xx.Httpd.Isolation
import Rut9xx.Data.Allocations
import Rut9xx.Httpd.Ownership
import Rut9xx.Data.BitField
import Rut9xx.Switch.Ar8216
import Rut9xx.Data.WriteThrough
import Rut9xx.Switch.VlanIsolation
import Rut9xx.RouterBoot.Dynparts
import Rut9xx.RouterBoot.Partitions
import Rut9xx.Ag71xx.TxRing
import Rut9xx.Ag71xx.TxQueue
import Rut9xx.Ag71xx.TxSend
import Rut9xx.Ag71xx.TxRun
import Rut9xx.Ag71xx.RxRing
import Rut9xx.Ag71xx.RxRun
import Rut9xx.Switch.Rtl8366
import Rut9xx.Switch.VlanTables
import Rut9xx.Data.HexText
import Rut9xx.Safeloader.Image
import Rut9xx.Safeloader.TableText
import Rut9xx.Safeloader.Layout
import Rut9xx.Safeloader.RoundTrip
import Rut9xx.Safeloader.Conversion
import Rut9xx.Data.Chain
import Rut9xx.RadiusClient.Packet
import Rut9xx.RadiusClient.Queue
import Rut9xx.RadiusClient.Represents
import Rut9xx.RadiusClient.Operations
import Rut9xx.RadiusClient.QueueOrder
import Rut9xx.RadiusClient.Client
import Rut9xx.RadiusClient.ReplyMatching
import Rut9xx.RadiusClient.Delivery
import Rut9xx.Data.PageProgram
import Rut9xx.Flash.WriteBuff
import Rut9xx.Boot.Fwtool
import Rut9xx.Data.PairedParity
import Rut9xx.Nand.Ecc
import Rut9xx.Ptgen.PtableLayout
import Rut9xx.Mnf.Codec
import Rut9xx.Mnf.Repair
import Rut9xx.Mnf.RepairSafety
import Rut9xx.Chilli.DnsNat
import Rut9xx.Chilli.DnsTranslation
import Rut9xx.Data.HashChains
import Rut9xx.Chilli.DhcpConn
import Rut9xx.Chilli.DhcpStore
import Rut9xx.Chilli.DhcpRuns
import Rut9xx.Tplink.Marks
import Rut9xx.Tplink.SizeCheck
import Rut9xx.Mtdsplit.UimageSplit
import Rut9xx.Data.Loop
import Rut9xx.Mtd.BootCount
import Rut9xx.Mtd.Jffs2Scan
import Rut9xx.Mtd.Jffs2Entries
import Rut9xx.Mtd.Jffs2Log
import Rut9xx.Mtd.Jffs2Directory
import Rut9xx.Mtd.Jffs2Flush
import Rut9xx.Mtd.Jffs2Outcome
import Rut9xx.Mtd.Fis
import Rut9xx.Mtd.FisRemap
import Rut9xx.Data.BlockRewrite
import Rut9xx.Mtd.FixTrx
import Rut9xx.Mtd.ImageHeader
import Rut9xx.Mtd.FixHeader
import Rut9xx.Ag71xx.Segmentation
import Rut9xx.Ag71xx.Handover
import Rut9xx.Switch.Ar8327
import Rut9xx.Switch.PvidFrame
import Rut9xx.Switch.Swconfig
import Rut9xx.Switch.TagView
import Rut9xx.GpioButton.Debounce
import Rut9xx.Safeloader.FirmwareSplit
import Rut9xx.Data.Lines
import Rut9xx.Switch.ArlTable
import Rut9xx.Switch.ArlListing
import Rut9xx.RouterBoot.ScanOutcome
import Rut9xx.Flash.SelfUpgrade
import Rut9xx.Padjffs2.Marks
import Rut9xx.Padjffs2.Layout
import Rut9xx.Mtdsplit.FitSplit
import Rut9xx.Mtdsplit.TrxSplit
import Rut9xx.Mtdsplit.Wfi
import Rut9xx.Mtdsplit.WfiScan
import Rut9xx.Mtdsplit.WfiParsers
import Rut9xx.Mtdsplit.WfiDual
import Rut9xx.RadiusClient.AttrWalk
import Rut9xx.RadiusClient.Obfuscation
import Rut9xx.RadiusClient.KeyObfuscation
import Rut9xx.RadiusClient.PwObfuscation
import Rut9xx.Chilli.Shaping
import Rut9xx.Data.SqlText
import Rut9xx.Chilli.QuotaDecision
import Rut9xx.Data.BlockPass
import Rut9xx.Pc1crypt.Cipher
import Rut9xx.Hilink.Crypt
import Rut9xx.Brnimg.Builder
import Rut9xx.Mtdsplit.BrnimageSplit
import Rut9xx.Poray.Builder
import Rut9xx.Poray.RoundTrip
import Rut9xx.Data.PlaceMask
import Rut9xx.Senao.Image
import Rut9xx.Senao.RoundTrip
import Rut9xx.Data.PackedStrings
import Rut9xx.Data.FileReads
import Rut9xx.Seama.Entities
import Rut9xx.Seama.Extract
import Rut9xx.Oseama.Extract
import Rut9xx.Oseama.Info
import Rut9xx.Data.WriteRuns
import Rut9xx.Mylo.Image
import Rut9xx.Mylo.Reader
import Rut9xx.Srec.Convert
import Rut9xx.Srec.Format
import Rut9xx.Srec.Readback
import Rut9xx.Trx.Builder
import Rut9xx.Trx.Layout
import Rut9xx.Chilli.PassThrough
import Rut9xx.Mtdsplit.RootfsSearch
import Rut9xx.Chilli.DhcpReply
import Rut9xx.Chilli.UamNat
import Rut9xx.Ar934xNand.Address
import Rut9xx.Chilli.EthersFile
import Rut9xx.Chilli.TcpMssClamp
import Rut9xx.Chilli.DnsAnswer
import Rut9xx.Data.WordMask
import Rut9xx.Ar934xNand.Transfer
import Rut9xx.Ar934xNand.Restart
import Rut9xx.RadiusClient.AttrBuild
import Rut9xx.Ag71xx.Polling
import Rut9xx.Switch.SmiBus
import Rut9xx.Switch.SmiBus
import Rut9xx.Chilli.Session
import Rut9xx.Chilli.SessionAudit
import Rut9xx.Chilli.SessionPass
