import AirFerry.FastQr.Compact
import AirFerry.FastQr.Hardcode

/-!
# Encoding an input as a bit string

A mode indicator, the number of characters and the characters, then a terminator and pad bytes. The
assertions on characters are faults of the vendored encoder.
-/

namespace AirFerry.FastQr.Encode
open Hardcode

def isAsciiDigit (c : U8) : Bool := 48 ≤ c.toNat && c.toNat ≤ 57

def isAsciiUppercase (c : U8) : Bool := 65 ≤ c.toNat && c.toNat ≤ 90

def isQrAlphanumeric (c : U8) : Bool :=
  isAsciiUppercase c || isAsciiDigit c ||
    [32, 36, 37, 42, 43, 45, 46, 47, 58].contains c.toNat

def bestEncoding (input : Bytes) : Mode :=
  if input.all isAsciiDigit then .numeric
  else if input.all isQrAlphanumeric then .alphanumeric
  else .byte

def asciiToDigit (c : U8) : Exec Nat :=
  if isAsciiDigit c then .ok (c.toNat - 48) else .error .upstream

def asciiToAlphanumeric (c : U8) : Exec Nat :=
  if isAsciiDigit c then .ok (c.toNat - 48)
  else if isAsciiUppercase c then .ok (c.toNat - 65 + 10)
  else
    match c.toNat with
    | 32 => .ok 36
    | 36 => .ok 37
    | 37 => .ok 38
    | 42 => .ok 39
    | 43 => .ok 40
    | 45 => .ok 41
    | 46 => .ok 42
    | 47 => .ok 43
    | 58 => .ok 44
    | _ => .error .upstream

inductive NumericEncoding
  | single
  | double
  | triple

def encodeNumber (c : CompactQR) (number : Nat) : NumericEncoding → Exec CompactQR
  | .single => c.pushBits number 4
  | .double => c.pushBits number 7
  | .triple => c.pushBits number 10

def encodeDigits : CompactQR → Bytes → Exec CompactQR
  | c, x :: y :: z :: rest => do
      let number := (← asciiToDigit x) * 100 + (← asciiToDigit y) * 10 + (← asciiToDigit z)
      let c ← encodeNumber c number .triple
      encodeDigits c rest
  | c, [x, y] => do
      let number := (← asciiToDigit x) * 10 + (← asciiToDigit y)
      encodeNumber c number .double
  | c, [x] => do
      let number ← asciiToDigit x
      encodeNumber c number .single
  | c, [] => return c

def encodeNumeric (c : CompactQR) (input : Bytes) (cciBits : Nat) : Exec CompactQR := do
  let c ← c.pushBits 0b0001 4
  let c ← c.pushBits input.length cciBits
  encodeDigits c input

def encodePairs : CompactQR → Bytes → Exec CompactQR
  | c, x :: y :: rest => do
      let a ← asciiToAlphanumeric x
      let b ← asciiToAlphanumeric y
      let c ← c.pushBits (a * 45 + b) 11
      encodePairs c rest
  | c, [x] => do
      let a ← asciiToAlphanumeric x
      c.pushBits a 6
  | c, [] => return c

def encodeAlphanumeric (c : CompactQR) (input : Bytes) (cciBits : Nat) : Exec CompactQR := do
  let c ← c.pushBits 0b0010 4
  let c ← c.pushBits input.length cciBits
  encodePairs c input

def encodeByte (c : CompactQR) (input : Bytes) (cciBits : Nat) : Exec CompactQR := do
  let c ← c.pushBits 0b0100 4
  let c ← c.pushBits input.length cciBits
  c.pushU8Slice input

def addTerminator (c : CompactQR) (dataBits : Nat) : Exec CompactQR :=
  if c.len ≤ dataBits then c.pushBits 0 (min (dataBits - c.len) 4) else .error .overflow

def padTo8 (c : CompactQR) : Exec CompactQR := c.pushBits 0 ((8 - c.len % 8) % 8)

def encodeAs (c : CompactQR) (input : Bytes) (cciBits : Nat) : Mode → Exec CompactQR
  | .numeric => encodeNumeric c input cciBits
  | .alphanumeric => encodeAlphanumeric c input cciBits
  | .byte => encodeByte c input cciBits

def encode (input : Bytes) (mode : Mode) (v : Version) : Exec CompactQR := do
  let c ← encodeAs (CompactQR.fromVersion v) input (cciBits v mode) mode
  let c ← addTerminator c (dataBits v)
  let c ← padTo8 c
  c.fill

end AirFerry.FastQr.Encode
