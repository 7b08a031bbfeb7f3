import Rtw.Lib.Run
import Rtw.Lib.Hlist
import Rtw.Lib.Serial
import Rtw.Lib.ReorderBuffer
import Rtw.Lib.Ccm
import Rtw.Lib.Places
import Rtw.Lib.Chain
import Rtw.Lib.Splice
import Rtw.Lib.Access
import Rtw.Lib.Tally
import Rtw.Lib.Latest
import Rtw.Lib.Tlv
import Rtw.Lib.Chunks
import Rtw.Lib.Loop
import Rtw.Lib.Prog
import Rtw.Lib.OnesComplement
import Rtw.Lib.Layout
import Rtw.Lib.Regions
import Rtw.Lib.Crc
import Rtw.Recv.Frame
import Rtw.Recv.Ethhdr
import Rtw.Recv.Amsdu
import Rtw.Recv.EthhdrBounds
import Rtw.Recv.Reorder
import Rtw.Recv.ReorderSim
import Rtw.Recv.Session
import Rtw.Recv.Defrag
import Rtw.Recv.DefragBounds
import Rtw.Recv.PortCtrl
import Rtw.Recv.Pool
import Rtw.Recv.RecvFunc
import Rtw.Recv.Conservation
import Rtw.Mlme.Ie
import Rtw.Mlme.StaMgt
import Rtw.Mlme.Assoc
import Rtw.Mlme.AidInv
import Rtw.Mlme.SharedKey
import Rtw.Mlme.Tim
import Rtw.Mlme.ApState
import Rtw.Mlme.ApWf
import Rtw.Mlme.BssCap
import Rtw.Mlme.HtOper
import Rtw.Mlme.ErpInfo
import Rtw.Mlme.BcnInfo
import Rtw.Mlme.WpaParse
import Rtw.Mlme.AssocRsp
import Rtw.Mlme.IeList
import Rtw.Mlme.IeItems
import Rtw.Mlme.IeParse
import Rtw.Mlme.IeSearch
import Rtw.Mlme.IeEdit
import Rtw.Mlme.IesRemove
import Rtw.Mlme.BcnIe
import Rtw.Mlme.TimPlace
import Rtw.Mlme.AssocReq
import Rtw.Mlme.ApLists
import Rtw.Mlme.StaLists
import Rtw.Mlme.StaTable
import Rtw.Mlme.Macid
import Rtw.Cmd.CmdThread
import Rtw.Xmit.Attrib
import Rtw.Xmit.Coalesce
import Rtw.Xmit.EthTrip
import Rtw.Xmit.PacketNumber
import Rtw.Xmit.SwRegions
import Rtw.Xmit.PowerSave
import Rtw.Xmit.SleepQueue
import Rtw.Xmit.DzBitmap
import Rtw.Xmit.Classifier
import Rtw.Security.AesCcmp
import Rtw.Security.CcmpRoundTrip
import Rtw.Security.CcmpMic
import Rtw.Security.Wep
import Rtw.Security.SwDecrypt
import Rtw.Security.DecryptBounds
import Rtw.Security.Michael
import Rtw.Security.MicTrip
import Rtw.Security.TkipTrip
import Rtw.Security.Bip
import Rtw.Mlme.PmfAssoc
import Rtw.Security.Cam
import Rtw.Usb.Align
import Rtw.Usb.RecvBuf
import Rtw.Usb.TxFrame
import Rtw.Usb.TxQueues
import Rtw.Usb.XmitComplete
import Rtw.Usb.XmitLayout
import Rtw.Usb.DumpXframe
import Rtw.Usb.TxPool
import Rtw.Usb.TxConserve
import Rtw.Scan.BssInfo
import Rtw.Scan.CollectBss
import Rtw.Scan.ScanQueue
import Rtw.Scan.ScanPool
import Rtw.Scan.ScanMerge
import Rtw.Scan.CurNetwork
import Rtw.Scan.SelectJoin
import Rtw.Bridge.Nat25
import Rtw.Bridge.Nat25Map
import Rtw.Bridge.ClientTx
import Rtw.Bridge.Pppoe
import Rtw.Bridge.PppoeTag
import Rtw.Bridge.NdOption
import Rtw.Bridge.DhcpFlag
import Rtw.Efuse.Walkers
import Rtw.Efuse.Log
import Rtw.Efuse.Agree
import Rtw.Efuse.Write
import Rtw.Monitor.Radiotap
import Rtw.Monitor.RadiotapTrip
import Rtw.Monitor.RadiotapValid
import Rtw.P2p.GoNego
import Rtw.P2p.GoAgree
import Rtw.P2p.AttrWalk
import Rtw.P2p.MergeIes
import Rtw.P2p.AttrRemove
import Rtw.P2p.AttrContent
import Rtw.P2p.NoaParse
import Rtw.P2p.ChEntries
import Rtw.P2p.ChWalks
import Rtw.P2p.ChList
import Rtw.P2p.NegoAttr
import Rtw.P2p.NegoHandlers
import Rtw.P2p.NegoBounds
import Rtw.P2p.NegoElements
import Rtw.P2p.NegoSafe
import Rtw.Mlme.VhtOpMode
import Rtw.Mlme.SecIe
import Rtw.Efuse.FileRead
import Rtw.TxPower.PowerIndex
import Rtw.TxPower.ParaText
import Rtw.TxPower.ByRate
import Rtw.TxPower.ByRateConf
import Rtw.TxPower.PgFile
import Rtw.TxPower.ParaScan
import Rtw.TxPower.PgText
import Rtw.TxPower.PgValues
import Rtw.TxPower.PgParse
import Rtw.TxPower.LimitFile
import Rtw.TxPower.ParaSafe
import Rtw.TxPower.PgSafe
import Rtw.TxPower.LimitSafe
import Rtw.TxPower.ParaFiles
import Rtw.Mlme.JoinIes
import Rtw.Mlme.JoinReads
import Rtw.Mlme.JoinBuild
import Rtw.Mlme.JoinBlock
import Rtw.Bridge.NatFrame
import Rtw.Bridge.BrFrame
import Rtw.Bridge.FrameFields
import Rtw.Bridge.FrameOk
import Rtw.Security.Icv
import Rtw.Efuse.WriteLog
import Rtw.Efuse.ReadBack
import Rtw.Scan.Survey
import Rtw.Scan.SurveyRun
import Rtw.Scan.SurveyCover
import Rtw.Scan.SurveyEnds
import Rtw.Mlme.Join
import Rtw.Mlme.JoinLevels
