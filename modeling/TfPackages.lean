import TfPackages.Flags
import TfPackages.Runs
import TfPackages.OnesComplement
import TfPackages.Tokens
import TfPackages.UciShow
import TfPackages.PoeFrames
import TfPackages.PoeQueue
import TfPackages.PoeStopAndWait
import TfPackages.PoeTranslation
import TfPackages.PoeReplies
import TfPackages.PoeConfig
import TfPackages.PoePolling
import TfPackages.PoePortSetup
import TfPackages.PoeSendFrame
import TfPackages.PoeReassembly
import TfPackages.PoeLiveness
import TfPackages.PoeRefresh
import TfPackages.CStrings
import TfPackages.DmAuthentication
import TfPackages.DmExchanges
import TfPackages.DmRestarts
import TfPackages.DmBounds
import TfPackages.DmNetInfo
import TfPackages.DmUciInfo
import TfPackages.DmSplitLine
import TfPackages.DmGateway
import TfPackages.HwsysRegisters
import TfPackages.DkjsonRoundTrip
import TfPackages.LldpPorts
import TfPackages.LuaPatterns
import TfPackages.MstpSpanningTree
import TfPackages.NtpServers
import TfPackages.RestartDaemon
import TfPackages.RestartInvariant
import TfPackages.RestartBounds
import TfPackages.RestartPowerOff
import TfPackages.RestartProcesses
import TfPackages.RestartRequests
import TfPackages.RestartSettings
import TfPackages.RestartIntake
import TfPackages.RestartStatus
import TfPackages.RestartPing
import TfPackages.RestartTests
import TfPackages.RestartVerdicts
import TfPackages.RestartSpeed
import TfPackages.RestartAlarms
import TfPackages.RestartLiveness
import TfPackages.UserAccounts
import TfPackages.VlanConfig
import TfPackages.VlanMembership
import TfPackages.VlanManagement
import TfPackages.VlanPortCommands
import TfPackages.VlanRemoval
import TfPackages.Csv
import TfPackages.SyslogConvert
import TfPackages.SyslogJson
