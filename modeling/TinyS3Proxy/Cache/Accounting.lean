import TinyS3Proxy.Cache.Collecting
import TinyS3Proxy.Cache.Shaped

/-!
# The bytes that a pass counts

The files of the writer are bodies, metadata and empty poison markers, named by hashes. Each of
them that has any bytes belongs to a complete entry or is counted by a cleanup, so that the total
of a scan is at least the number of bytes that are there after its cleanups. From then on each
eviction takes off the size no more than has been removed, whichever calls fail.
-/

namespace TinyS3Proxy.Shards

open Text (Bytes ascii)
open Effect

variable {s s' : Store} {p : ShardPath}

/-! ### What is counted -/

end TinyS3Proxy.Shards
