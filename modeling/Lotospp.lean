import Lotospp.Text.Bytes
import Lotospp.Commands.CommandIds
import Lotospp.Common.TeloptPass
import Lotospp.Common.TeloptEnd
import Lotospp.Common.Admission
import Lotospp.Common.BitEnum
import Lotospp.Common.DispatcherFlush
import Lotospp.Common.DispatcherOrder
import Lotospp.Common.DispatcherShutdown
import Lotospp.Common.Echo
import Lotospp.Common.EditedLines
import Lotospp.Common.EnumTable
import Lotospp.Common.Local
import Lotospp.Common.LoginSearch
import Lotospp.Common.PendingBytes
import Lotospp.Common.PacketCuts
import Lotospp.Common.Printf
import Lotospp.Common.SchedulerIds
import Lotospp.Common.SchedulerWait
import Lotospp.Common.Termsize
import Lotospp.Common.Timers
import Lotospp.Database.Queries
import Lotospp.Database.Transaction
import Lotospp.Strings.CleanString
import Lotospp.Strings.HighBytes
import Lotospp.Strings.WordGrammar
import Lotospp.Strings.WordOffsets
import Lotospp.Lua.Enum
import Lotospp.Lua.Initialize
import Lotospp.Lua.Masks
import Lotospp.Network.Attempts
import Lotospp.Network.Evidence
import Lotospp.Network.Identifiers
import Lotospp.Network.Kicks
import Lotospp.Network.Names
import Lotospp.Network.NetworkMessage
import Lotospp.Network.Passwords
import Lotospp.Network.ReadBack
import Lotospp.Network.Registered
import Lotospp.Network.Returns
import Lotospp.Network.Negotiation
import Lotospp.Network.OutputPool
import Lotospp.Network.PoolChanges
import Lotospp.Network.PoolFunctions
import Lotospp.Network.PoolMessages
import Lotospp.Network.PoolPlaces
import Lotospp.Network.PoolReferences
import Lotospp.Network.SendAll
import Lotospp.Network.ServicePort
import Lotospp.Network.Stages
import Lotospp.Network.Takeovers
import Lotospp.Network.Threads
import Lotospp.Network.UniqueNames
import Lotospp.Network.UsersOnline
import Lotospp.Network.Write
import Lotospp.Security.Encoding
import Lotospp.Security.Encryption
import Lotospp.Security.Malformed
import Lotospp.Security.SelfTest
import Lotospp.Socket.Closing
import Lotospp.Socket.PendingWrite
