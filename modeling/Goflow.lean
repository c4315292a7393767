import Goflow.Basic
import Goflow.Redis.Keyspace
import Goflow.Redis.Glob
import Goflow.Redis.Watch
import Goflow.Redis.Interference
import Goflow.Redis.Atomic
import Goflow.Store.Redis
import Goflow.Store.Namespace
import Goflow.Store.Counter
import Goflow.Store.Isolation
import Goflow.Queue.Consume
import Goflow.Queue.Settle
import Goflow.Queue.Trace
import Goflow.Json.Map
import Goflow.Json.Utf8
import Goflow.Fmt
import Goflow.Runtime.Registry
import Goflow.Runtime.Worker
import Goflow.Runtime.Chain
import Goflow.Json.Encode
import Goflow.Json.Decode
import Goflow.Json.RoundTrip
import Goflow.Runtime.Task
import Goflow.Runtime.Heartbeat
import Goflow.Runtime.Handle
