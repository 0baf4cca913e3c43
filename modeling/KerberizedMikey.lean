import KerberizedMikey.CLib.Memory
import KerberizedMikey.CLib.Fields
import KerberizedMikey.CLib.Strtok
import KerberizedMikey.CLib.Decimal
import KerberizedMikey.CLib.InetNtop
import KerberizedMikey.CLib.Getopt
import KerberizedMikey.CLib.Shell
import KerberizedMikey.CLib.ByteOrder
import KerberizedMikey.CLib.Stream
import KerberizedMikey.CLib.Runs
import KerberizedMikey.CLib.Relay
import KerberizedMikey.CLib.Knowledge
import KerberizedMikey.CLib.Output
import KerberizedMikey.CLib.Timespec
import KerberizedMikey.CLib.TextFile
import KerberizedMikey.CLib.Variance
import KerberizedMikey.CLib.Shuffle
import KerberizedMikey.Payload.GeneralExtensions
import KerberizedMikey.Payload.Parse
import KerberizedMikey.Payload.Bounds
import KerberizedMikey.Payload.DummyMap
import KerberizedMikey.Mikey
import KerberizedMikey.PlainMikey
import KerberizedMikey.Gcks2
import KerberizedMikey.TokenizerState
import KerberizedMikey.Kdc.GcksReq
import KerberizedMikey.Kdc.TgsReq
import KerberizedMikey.ConnInfo
import KerberizedMikey.Gcks2Loop
import KerberizedMikey.Km2Binding
import KerberizedMikey.Kdc.GcksLink
import KerberizedMikey.AuthGate
import KerberizedMikey.RecvAuth
import KerberizedMikey.Km1Framing
import KerberizedMikey.Gcks1
import KerberizedMikey.GroupName
import KerberizedMikey.Km2Transport
import KerberizedMikey.Km2Buffers
import KerberizedMikey.Credentials
import KerberizedMikey.SendAuth
import KerberizedMikey.KeyOutput
import KerberizedMikey.Latency
import KerberizedMikey.TestSuite.TimingLog
import KerberizedMikey.TestSuite.Shuffle
import KerberizedMikey.TestSuite.RunningStats
import KerberizedMikey.TestSuite.RunTest
import KerberizedMikey.TestSuite.Returns
import KerberizedMikey.Km2Agreement
import KerberizedMikey.Km2Progress
import KerberizedMikey.Km1Agreement
import KerberizedMikey.Km2Secrecy
import KerberizedMikey.Km1Secrecy
import KerberizedMikey.Clients
import KerberizedMikey.TestSuite.Bench
import KerberizedMikey.TestSuite.ClientExec
import KerberizedMikey.Payload.Reencode
import KerberizedMikey.Gcks1Start
import KerberizedMikey.Gcks1Output
import KerberizedMikey.SclientOutput
import KerberizedMikey.Gcks2Service
import KerberizedMikey.TestSuite.Experiment
