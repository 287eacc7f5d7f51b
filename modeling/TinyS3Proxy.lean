import TinyS3Proxy.Coop.Rely
import TinyS3Proxy.Cache.Identity
import TinyS3Proxy.Coop.Solo
import TinyS3Proxy.Cache.SingleFlight
import TinyS3Proxy.Cache.MetaLocks
import TinyS3Proxy.S3.Strictness
import TinyS3Proxy.S3.Fragmentation
import TinyS3Proxy.Auth.Unambiguity
import TinyS3Proxy.Handlers.Routing
import TinyS3Proxy.Cache.Rollback
import TinyS3Proxy.Handlers.Passthrough
import TinyS3Proxy.Cache.ForeignNames
import TinyS3Proxy.Cache.Accounting
import TinyS3Proxy.Cache.LeastRecent
import TinyS3Proxy.Auth.Derivation
import TinyS3Proxy.Cache.Scan
import TinyS3Proxy.Cache.TmpSweep
import TinyS3Proxy.Handlers.Sending
import TinyS3Proxy.S3.CompleteMultipart
import TinyS3Proxy.Handlers.CopySource
import TinyS3Proxy.Handlers.Kept
import TinyS3Proxy.S3.SignedQuery
import TinyS3Proxy.Auth.Authorization
import TinyS3Proxy.Auth.Presigned
import TinyS3Proxy.Auth.Verification
import TinyS3Proxy.Handlers.Strict
import TinyS3Proxy.Handlers.Credentials
import TinyS3Proxy.Handlers.Invalidation
import TinyS3Proxy.Handlers.Tee
import TinyS3Proxy.Proxy.Objects
import TinyS3Proxy.Proxy.Versions
import TinyS3Proxy.Proxy.World
import TinyS3Proxy.Proxy.Requests
