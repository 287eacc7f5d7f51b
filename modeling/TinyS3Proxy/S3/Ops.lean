import TinyS3Proxy.Text.Bytes

/-!
# Operations

The operations that requests are classified into, and what else is read from a request
(`s3/ops.rs`). A hash map from strings to strings is the list of its entries, with no name
twice.
-/

namespace TinyS3Proxy

open Text (Bytes)

/-! ### Maps -/

/-- A map from strings to strings. -/
abbrev StringMap := List (Bytes × Bytes)

namespace StringMap

/-- The value of a name. -/
def get (map : StringMap) (name : Bytes) : Option Bytes :=
  (map.find? fun entry => entry.1 = name).map Prod.snd

/-- There is a value of a name. -/
def containsKey (map : StringMap) (name : Bytes) : Bool := map.any fun entry => entry.1 = name

/-- Set the value of a name. -/
def insert (map : StringMap) (name value : Bytes) : StringMap :=
  (map.filter fun entry => entry.1 ≠ name) ++ [(name, value)]

end StringMap

/-! ### Operations -/

/-- The parameters of a listing. -/
structure ListParams where
  pre : Option Bytes
  delimiter : Option Bytes
  maxKeys : Option ℤ
  continuationToken : Option Bytes
  marker : Option Bytes
  startAfter : Option Bytes
  encodingType : Option Bytes
deriving DecidableEq

/-- What a request asks for. -/
inductive S3Operation
  | getObject (bucket key : Bytes)
  | headObject (bucket key : Bytes)
  | putObject (bucket key : Bytes)
  | deleteObject (bucket key : Bytes)
  | listObjectsV1 (bucket : Bytes) (params : ListParams)
  | listObjectsV2 (bucket : Bytes) (params : ListParams)
  | createMultipartUpload (bucket key : Bytes)
  | uploadPart (bucket key : Bytes) (partNumber : ℤ) (uploadId : Bytes)
  | completeMultipartUpload (bucket key uploadId : Bytes)
  | abortMultipartUpload (bucket key uploadId : Bytes)
  | unsupported (method path : Bytes)
deriving DecidableEq

namespace S3Operation

/-- The bucket that the operation is about, and the path of the request if that is not known. -/
def bucket : S3Operation → Bytes
  | getObject bucket _ => bucket
  | headObject bucket _ => bucket
  | putObject bucket _ => bucket
  | deleteObject bucket _ => bucket
  | listObjectsV1 bucket _ => bucket
  | listObjectsV2 bucket _ => bucket
  | createMultipartUpload bucket _ => bucket
  | uploadPart bucket _ _ _ => bucket
  | completeMultipartUpload bucket _ _ => bucket
  | abortMultipartUpload bucket _ _ => bucket
  | unsupported _ path => path

/-- The key of the object that the operation is about, if it is about an object. -/
def key : S3Operation → Option Bytes
  | getObject _ key => some key
  | headObject _ key => some key
  | putObject _ key => some key
  | deleteObject _ key => some key
  | createMultipartUpload _ key => some key
  | uploadPart _ key _ _ => some key
  | completeMultipartUpload _ key _ => some key
  | abortMultipartUpload _ key _ => some key
  | listObjectsV1 _ _ => none
  | listObjectsV2 _ _ => none
  | unsupported _ _ => none

end S3Operation

/-- What is read from a request. -/
structure ParsedRequest where
  operation : S3Operation
  requestId : Bytes
  contentType : Option Bytes
  contentLength : Option ℤ
  contentMd5 : Option Bytes
  authorization : Option Bytes
  amzDate : Option Bytes
  amzContentSha256 : Option Bytes
  range : Option Bytes
  userMetadata : StringMap
  extraAmzHeaders : StringMap
  contentHeaders : StringMap
deriving DecidableEq

end TinyS3Proxy
