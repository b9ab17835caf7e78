import AirFerry.Library.BigEndian
import AirFerry.Library.Crc

namespace AirFerry.Library.Digest

abbrev Word := BitVec 32

def crcBit (crc : Word) : Word :=
  if crc &&& 1 = 1 then (crc >>> 1) ^^^ 0xEDB88320 else crc >>> 1

def crcByte (crc : Word) (b : BitVec 8) : Word := crcBit^[8] (crc ^^^ b.setWidth 32)

def crc32 (bytes : List (BitVec 8)) : Word := ~~~ bytes.foldl crcByte 0xFFFFFFFF

example : crc32 [0x31, 0x32, 0x33, 0x34, 0x35, 0x36, 0x37, 0x38, 0x39] = 0xCBF43926 := by
  decide +kernel

theorem crcByte_eq (crc : Word) (b : BitVec 8) : crcByte crc b = Crc.absorb 0xEDB88320 crc b := by
  have bit : crcBit = Crc.shift 0xEDB88320 := by
    funext c
    have low : c &&& 1 = 1 ↔ c.getLsbD 0 = true := by
      rw [show (1 : Word) = 1#32 from rfl, BitVec.and_one_eq_setWidth_ofBool_getLsbD]
      cases c.getLsbD 0 <;> decide
    unfold crcBit Crc.shift
    simp only [low]
  rw [crcByte, bit, Crc.absorb]

theorem crc32_burst {start : Nat} {xs ys : List (BitVec 8)} (burst : Crc.Burst 4 start xs ys)
    (same : crc32 xs = crc32 ys) : xs = ys := by
  have bytewise : crcByte = Crc.absorb 0xEDB88320 := by
    funext crc b
    exact crcByte_eq crc b
  rw [crc32, crc32, BitVec.not_inj, bytewise] at same
  exact Crc.burst_detected (by decide) (by decide) (by decide) burst same

def roundConstants : List Word := [
  0x428a2f98, 0x71374491, 0xb5c0fbcf, 0xe9b5dba5, 0x3956c25b, 0x59f111f1, 0x923f82a4, 0xab1c5ed5,
  0xd807aa98, 0x12835b01, 0x243185be, 0x550c7dc3, 0x72be5d74, 0x80deb1fe, 0x9bdc06a7, 0xc19bf174,
  0xe49b69c1, 0xefbe4786, 0x0fc19dc6, 0x240ca1cc, 0x2de92c6f, 0x4a7484aa, 0x5cb0a9dc, 0x76f988da,
  0x983e5152, 0xa831c66d, 0xb00327c8, 0xbf597fc7, 0xc6e00bf3, 0xd5a79147, 0x06ca6351, 0x14292967,
  0x27b70a85, 0x2e1b2138, 0x4d2c6dfc, 0x53380d13, 0x650a7354, 0x766a0abb, 0x81c2c92e, 0x92722c85,
  0xa2bfe8a1, 0xa81a664b, 0xc24b8b70, 0xc76c51a3, 0xd192e819, 0xd6990624, 0xf40e3585, 0x106aa070,
  0x19a4c116, 0x1e376c08, 0x2748774c, 0x34b0bcb5, 0x391c0cb3, 0x4ed8aa4a, 0x5b9cca4f, 0x682e6ff3,
  0x748f82ee, 0x78a5636f, 0x84c87814, 0x8cc70208, 0x90befffa, 0xa4506ceb, 0xbef9a3f7, 0xc67178f2]

structure Sha where
  (a b c d e f g h : Word)
deriving DecidableEq

def Sha.initial : Sha :=
  ⟨0x6a09e667, 0xbb67ae85, 0x3c6ef372, 0xa54ff53a, 0x510e527f, 0x9b05688c, 0x1f83d9ab, 0x5be0cd19⟩

def Sha.add (s t : Sha) : Sha :=
  ⟨s.a + t.a, s.b + t.b, s.c + t.c, s.d + t.d, s.e + t.e, s.f + t.f, s.g + t.g, s.h + t.h⟩

def Sha.round (s : Sha) (k w : Word) : Sha :=
  let choice := (s.e &&& s.f) ^^^ (~~~ s.e &&& s.g)
  let majority := (s.a &&& s.b) ^^^ (s.a &&& s.c) ^^^ (s.b &&& s.c)
  let high := s.e.rotateRight 6 ^^^ s.e.rotateRight 11 ^^^ s.e.rotateRight 25
  let low := s.a.rotateRight 2 ^^^ s.a.rotateRight 13 ^^^ s.a.rotateRight 22
  let t := s.h + high + choice + k + w
  ⟨t + low + majority, s.a, s.b, s.c, s.d + t, s.e, s.f, s.g⟩

/-- One more word of the message schedule, kept in reverse. -/
def scheduleNext (words : List Word) : List Word :=
  let w (i : Nat) := words.getD (i - 1) 0
  let s0 := (w 15).rotateRight 7 ^^^ (w 15).rotateRight 18 ^^^ (w 15 >>> 3)
  let s1 := (w 2).rotateRight 17 ^^^ (w 2).rotateRight 19 ^^^ (w 2 >>> 10)
  (w 16 + s0 + w 7 + s1) :: words

def words : Nat → List (BitVec 8) → List Word
  | 0, _ => []
  | n+1, bytes => BitVec.ofNat 32 (BigEndian.ofBytes (bytes.take 4)) :: words n (bytes.drop 4)

def Sha.compress (s : Sha) (block : List (BitVec 8)) : Sha :=
  let schedule := (scheduleNext^[48] (words 16 block).reverse).reverse
  s.add ((roundConstants.zip schedule).foldl (fun s kw => s.round kw.1 kw.2) s)

def Sha.blocks : Nat → Sha → List (BitVec 8) → Sha
  | 0, s, _ => s
  | n+1, s, bytes => Sha.blocks n (s.compress (bytes.take 64)) (bytes.drop 64)

def shaPad (bytes : List (BitVec 8)) : List (BitVec 8) :=
  bytes ++ 0x80 :: (List.replicate ((119 - bytes.length % 64) % 64) 0 ++
    BigEndian.toBytes 8 (8 * bytes.length))

def Sha.digest (s : Sha) : List (BitVec 8) :=
  BigEndian.toBytes 4 s.a.toNat ++ BigEndian.toBytes 4 s.b.toNat ++ BigEndian.toBytes 4 s.c.toNat ++
    BigEndian.toBytes 4 s.d.toNat ++ BigEndian.toBytes 4 s.e.toNat ++
    BigEndian.toBytes 4 s.f.toNat ++ BigEndian.toBytes 4 s.g.toNat ++ BigEndian.toBytes 4 s.h.toNat

def sha256 (bytes : List (BitVec 8)) : { digest : List (BitVec 8) // digest.length = 32 } :=
  let padded := shaPad bytes
  ⟨(Sha.blocks (padded.length / 64) Sha.initial padded).digest, by simp [Sha.digest]⟩

example : (sha256 [0x61, 0x62, 0x63]).1 =
    BigEndian.toBytes 32 0xba7816bf8f01cfea414140de5dae2223b00361a396177a9cb410ff61f20015ad := by
  decide +kernel

end AirFerry.Library.Digest
