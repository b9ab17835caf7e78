import AirFerry.Exec
import AirFerry.Library.Utf8

namespace AirFerry.QrProtocol
open Library

def fnvOffset128 : U128 := 0x6c62272e07bb01426b82175983ad0b58
def fnvPrime128 : U128 := 0x0000000001000000000000000000013b

def fnv128 (h : U128) (bytes : Bytes) : U128 :=
  bytes.foldl (fun h b => (h ^^^ b.setWidth 128) * fnvPrime128) h

def toLe {w : Nat} (n : Nat) (value : BitVec w) : Bytes := (toBe n value).reverse

def SessionId.derive (name : String) (size mtimeMs : U64) (fingerprint : Bytes) : U128 :=
  fnv128 fnvOffset128
    (Utf8.encode name ++ toLe 8 size ++ toLe 8 mtimeMs ++ fingerprint)

def SessionId.deriveSegment (root : U128) (segmentIndex : U32) : U128 :=
  fnv128 fnvOffset128
    (Utf8.encode "AirFerry.segment.v1" ++ toBe 16 root ++ toBe 4 segmentIndex)

def fnvOffset64 : U64 := 0xcbf29ce484222325
def fnvPrime64 : U64 := 0x100000001b3

def contentFingerprint (head tail : Bytes) : Bytes :=
  toLe 8 ((head ++ tail).foldl (fun h b => (h ^^^ b.setWidth 64) * fnvPrime64) fnvOffset64)

end AirFerry.QrProtocol
