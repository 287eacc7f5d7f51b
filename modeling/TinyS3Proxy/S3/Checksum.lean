import TinyS3Proxy.Text.Encoding

/-!
# Checksums of request bodies

The checksum algorithms that a trailer of a request can name (`s3/checksum.rs`).
-/

namespace TinyS3Proxy

open Text (Bytes ascii)

/-- A checksum algorithm. -/
inductive ChecksumAlgorithm
  | crc32
  | crc32C
  | crc64Nvme
  | sha1
  | sha256
deriving DecidableEq

/-- A checksum that a request declares. -/
structure ChecksumHeader where
  algorithm : ChecksumAlgorithm
  name : Bytes
  value : Bytes
deriving DecidableEq

namespace ChecksumAlgorithm

/-- The name of the header that carries the checksum. -/
def headerName : ChecksumAlgorithm → Bytes
  | crc32 => ascii "x-amz-checksum-crc32"
  | crc32C => ascii "x-amz-checksum-crc32c"
  | crc64Nvme => ascii "x-amz-checksum-crc64nvme"
  | sha1 => ascii "x-amz-checksum-sha1"
  | sha256 => ascii "x-amz-checksum-sha256"

/-- The length of the checksum in bytes. -/
def digestLen : ChecksumAlgorithm → ℕ
  | crc32 => 4
  | crc32C => 4
  | crc64Nvme => 8
  | sha1 => 20
  | sha256 => 32

/-- Split the string after the length of `front`, if it starts with `front` up to the case of
ASCII letters. -/
def stripIgnoreCase (front name : Bytes) : Option Bytes :=
  if name.length < front.length then none
  else if Text.eqIgnoreCase (name.take front.length) front then some (name.drop front.length)
  else none

/-- The algorithm that a header name stands for. -/
def fromHeaderName (name : Bytes) : Option ChecksumAlgorithm :=
  (stripIgnoreCase (ascii "x-amz-checksum-") name).bind fun suffix =>
    let suffix := Text.lower suffix
    if suffix = ascii "crc32" then some crc32
    else if suffix = ascii "crc32c" then some crc32C
    else if suffix = ascii "crc64nvme" then some crc64Nvme
    else if suffix = ascii "sha1" then some sha1
    else if suffix = ascii "sha256" then some sha256
    else none

/-- An algorithm is read back from the name of its header. -/
theorem fromHeaderName_headerName
    (a : ChecksumAlgorithm) :
  fromHeaderName a.headerName = some a
  := by
  cases a with
  | crc32 => decide
  | crc32C => decide
  | crc64Nvme => decide
  | sha1 => decide
  | sha256 => decide

end ChecksumAlgorithm

end TinyS3Proxy
