import MipClients.Interoperability
import MipClients.RustHandleData
import MipClients.RustChecked
import MipClients.Fragmentation
import MipClients.Acceptance
import MipClients.TsConnection
import MipClients.TsDisconnect
import MipClients.TsRetry
import MipClients.TsStreams
import MipClients.TsEventLog
import MipClients.PyConnectionLoss
import MipClients.PyRetry
import MipClients.PyDisconnect
import MipClients.RustMsgId
import MipClients.RustOutgoing
import MipClients.RustClose
import MipClients.RustGenerations
import MipClients.Handshake
import MipClients.Reconnect
import MipClients.RustHeaderGrammar
import MipClients.RustRecovery
import MipClients.RustPublish
import MipClients.Publish
import MipClients.PyMalformed
import MipClients.RustNotifications
import MipClients.RustAttempts
import MipClients.TsRedelivery
import MipClients.TsPingTimer
import MipClients.TsPromises
import MipClients.RustQuiescence
import MipClients.PayloadGrammar
import MipClients.SequentialMsgIds
import MipClients.TsMsgIds
import MipClients.RustPointerWidth
import MipClients.RustRefusals
import MipClients.RustFailedConnect
import MipClients.PyFailedConnect
import MipClients.RustReceive
import MipClients.RustMessages
import MipClients.RustProgress
import MipClients.RustCallbacks
import MipClients.TsDecoding
import MipClients.TsMessages
import MipClients.PyMessages
import MipClients.PyEventLog
import MipClients.PyDisconnected
import MipClients.PyStreams
import MipClients.EndToEnd
import MipClients.TsIdOrder
import MipClients.PyIdOrder
import MipClients.RustIdOrder
