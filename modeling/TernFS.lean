import TernFS.CDC.Tree
import TernFS.CDC.Policies
import TernFS.Shard.History
import TernFS.CDC.EdgeTargets
import TernFS.Shard.Replicas
import TernFS.Shard.BlockIds
import TernFS.Shard.Asserts
import TernFS.CDC.Malformed
import TernFS.LogsDB.Phases
import TernFS.Nfsd.SessionStore
import TernFS.Nfsd.KeyedLock
import TernFS.Nfsd.ByteRange
import TernFS.Shard.SpanChecks
import TernFS.Shard.BlockLists
import TernFS.CDC.LogEntries
import TernFS.Shard.EdgeKeys
import TernFS.Shard.SpanPages
import TernFS.Cleanup.Policy
import TernFS.Registry.Chunks
import TernFS.Registry.Writable
import TernFS.Client.WriteSpan
import TernFS.Client.BlocksProcessor
import TernFS.BlockService.Erase
import TernFS.BlockService.Write
