import AirFerry.Exec
import AirFerry.Library.Bits
import AirFerry.FastQr.Version

/-!
# The bit buffer of the QR encoder

A vector of bytes, written one field after another. Bytes that no field has reached are zero, so
a field is put in place by `or`.
-/

namespace AirFerry.FastQr
open Library

def keepLastTable : List Nat := [
  0, 1, 3, 7, 15, 31, 63, 127, 255, 511, 1023, 2047, 4095, 8191, 16383, 32767, 65535, 131071,
  262143, 524287, 1048575, 2097151, 4194303, 8388607, 16777215, 33554431, 67108863, 134217727,
  268435455, 536870911, 1073741823, 2147483647, 4294967295, 8589934591, 17179869183, 34359738367,
  68719476735, 137438953471, 274877906943, 549755813887, 1099511627775, 2199023255551,
  4398046511103, 8796093022207, 17592186044415, 35184372088831, 70368744177663, 140737488355327,
  281474976710655, 562949953421311, 1125899906842623, 2251799813685247, 4503599627370495,
  9007199254740991, 18014398509481983, 36028797018963967, 72057594037927935, 144115188075855871,
  288230376151711743, 576460752303423487, 1152921504606846975, 2305843009213693951,
  4611686018427387903, 9223372036854775807, 18446744073709551615]

def keepLast (i : Nat) : Exec Nat := index keepLastTable i

def updateAt {α : Type} (xs : List α) (i : Nat) (change : α → α) : Exec (List α) :=
  if i < xs.length then .ok (xs.modify i change) else .error .indexOutOfRange

structure CompactQR where
  len : Nat
  data : Bytes
deriving DecidableEq, Repr

namespace CompactQR

def fromVersion (v : Version) : CompactQR := { len := 0, data := List.replicate (v.maxBytes * 8) 0 }

def fromArray (data : Bytes) (len : Nat) : CompactQR := { len, data }

def increaseLen (c : CompactQR) (dataLength : Nat) : CompactQR :=
  if c.data.length ≤ dataLength / 8 then { c with data := c.data.rightpad (dataLength / 8 + 1) 0 }
  else c

def pushU8 (c : CompactQR) (bits : U8) : Exec CompactQR := do
  let c := c.increaseLen (c.len + 8)
  let right := c.len % 8
  let first := c.len / 8
  if right = 0 then
    let data ← updateAt c.data first fun _ => bits
    return { len := c.len + 8, data }
  else
    let left := 8 - right
    let keepLeft ← keepLast left
    let keepRight ← keepLast right
    let data ← updateAt c.data first fun b => b ||| (bits >>> right &&& BitVec.ofNat 8 keepLeft)
    let data ← updateAt data (first + 1) fun b => b ||| ((bits &&& BitVec.ofNat 8 keepRight) <<< left)
    return { len := c.len + 8, data }

def pushU8Slice (c : CompactQR) (bytes : Bytes) : Exec CompactQR :=
  bytes.foldlM pushU8 (c.increaseLen (c.len + 8 * bytes.length))

def pushWhole (c : CompactQR) (bits i : Nat) : Exec CompactQR :=
  if 8 ≤ i then do
    let c ← c.pushU8 (BitVec.ofNat 8 (bits >>> (i - 8)))
    c.pushWhole bits (i - 8)
  else return c
termination_by i

def finishByte (c : CompactQR) (bits remSpace : Nat) : Exec CompactQR :=
  if remSpace = 0 then return c
  else do
    let keep ← keepLast remSpace
    let data ← updateAt c.data (c.len / 8) fun b => b ||| BitVec.ofNat 8 (bits &&& keep)
    return { len := c.len + remSpace, data }

def startByte (c : CompactQR) (bits remaining : Nat) : Exec CompactQR :=
  if remaining = 0 then return c
  else do
    let keep ← keepLast remaining
    let data ← updateAt c.data (c.len / 8) fun b =>
      b + BitVec.ofNat 8 (bits &&& keep) <<< (8 - remaining)
    return { len := c.len + remaining, data }

def pushBits (c : CompactQR) (bits len : Nat) : Exec CompactQR := do
  let c := c.increaseLen (c.len + len)
  let keep ← keepLast len
  let bits := bits &&& keep
  let remSpace := (8 - c.len % 8) % 8
  if len < remSpace then
    let data ← updateAt c.data (c.len / 8) fun b => b ||| BitVec.ofNat 8 (bits <<< (remSpace - len))
    return { len := c.len + len, data }
  else
    let c ← c.finishByte (bits >>> (len - remSpace)) remSpace
    let c ← c.pushWhole bits (len - remSpace)
    c.startByte bits ((len - remSpace) % 8)

def padBytes : List U8 := [0b11101100, 0b00010001]

/-- One pad byte for each step of eight bits from `len` to the number of bytes. -/
def fill (c : CompactQR) : Exec CompactQR :=
  (List.range (ceilDiv (c.data.length - c.len) 8)).foldlM
    (fun c i => do c.pushU8 (← index padBytes (i % 2))) c

end CompactQR
end AirFerry.FastQr
