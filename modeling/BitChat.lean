import BitChat.AppDelivery
import BitChat.AtMostOnce
import BitChat.Authenticity
import BitChat.BroadcastHeld
import BitChat.CliDelivery
import BitChat.CommandLine
import BitChat.ContactRepository
import BitChat.DedupReplacement
import BitChat.DedupSafety
import BitChat.DisplayName
import BitChat.FalseDuplicates
import BitChat.FfiMemory
import BitChat.Flood
import BitChat.FloodCoverage
import BitChat.IdentityRepository
import BitChat.JniBridge
import BitChat.MessageStore
import BitChat.PendingQuery
import BitChat.Provenance
import BitChat.PushAndPoll
import BitChat.RebroadcastBudget
import BitChat.ReceiveSpec
import BitChat.StorageRoundTrip
import BitChat.TtlFloor
import BitChat.UdpTransport
