import AirFerry.Library.Fnv
import AirFerry.TransferEngine.Segment

/-!
# Child session ids

The segments of one root differ in the last four bytes that are hashed, and four bytes never collide.
-/

namespace AirFerry.Proof
open Library QrProtocol TransferEngine

theorem toBe_injective {w n : Nat} (width : w = 8 * n) : Function.Injective (toBe n : BitVec w → Bytes) := by
  intro a b same
  have read := BigEndian.ofNat_ofBytes_toBytes n width a
  rw [show BigEndian.toBytes n a.toNat = BigEndian.toBytes n b.toNat from same,
    BigEndian.ofNat_ofBytes_toBytes n width b] at read
  exact read.symm

theorem exists_four_bytes (index : U32) : ∃ a b c d, toBe 4 index = [a, b, c, d] :=
  ⟨_, _, _, _, rfl⟩

theorem fnv128_four (h : U128) (a b c d : U8) :
    fnv128 h [a, b, c, d] =
      Fnv.round Fnv.prime128 (Fnv.round Fnv.prime128 (Fnv.round Fnv.prime128
        (Fnv.round Fnv.prime128 h a) b) c) d := rfl

theorem deriveSegment_injective (root : U128) :
    Function.Injective (SessionId.deriveSegment root) := by
  intro i j same
  obtain ⟨a, b, c, d, bytes⟩ := exists_four_bytes i
  obtain ⟨a', b', c', d', bytes'⟩ := exists_four_bytes j
  have split : ∀ k : U32, SessionId.deriveSegment root k =
      fnv128 (fnv128 fnvOffset128 (Utf8.encode "AirFerry.segment.v1" ++ toBe 16 root)) (toBe 4 k) :=
    fun k => List.foldl_append
  rw [split, split, bytes, bytes', fnv128_four, fnv128_four] at same
  obtain ⟨rfl, rfl, rfl, rfl⟩ := Fnv.four_bytes_injective same
  exact toBe_injective rfl (bytes.trans bytes'.symm)

theorem child_ids_never_collide (root : U128) :
    (∀ i j : U32, i ≠ j → SessionId.deriveSegment root i ≠ SessionId.deriveSegment root j) ∧
      ∀ (sessionId : U128) (s t : SegmentMeta) (file other : FileMeta),
        s.rootSessionId = root → t.rootSessionId = root → s.validate sessionId file = .ok () →
        t.validate sessionId other = .ok () → s.segmentIndex = t.segmentIndex := by
  refine ⟨fun i j different same => different (deriveSegment_injective root same), ?_⟩
  rintro sessionId s t file other rfl sameRoot accepted again
  have first := (SegmentMeta.validate_ok_iff.mp accepted).child
  have second := (SegmentMeta.validate_ok_iff.mp again).child
  rw [sameRoot] at second
  exact deriveSegment_injective _ (first.trans second.symm)

end AirFerry.Proof
