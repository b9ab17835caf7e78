import Mathlib.Tactic

namespace AirFerry.Library.Utf8

def toByteArray (bytes : List (BitVec 8)) : ByteArray := ⟨(bytes.map UInt8.ofBitVec).toArray⟩

def ofByteArray (bytes : ByteArray) : List (BitVec 8) := bytes.data.toList.map UInt8.toBitVec

def encode (s : String) : List (BitVec 8) := ofByteArray s.toByteArray

def decode (bytes : List (BitVec 8)) : Option String := String.fromUTF8? (toByteArray bytes)

def IsBoundary (s : String) (n : Nat) : Prop := String.Pos.Raw.IsValid s ⟨n⟩

instance (s : String) (n : Nat) : Decidable (IsBoundary s n) :=
  inferInstanceAs (Decidable (String.Pos.Raw.IsValid s ⟨n⟩))

theorem toByteArray_ofByteArray (bytes : ByteArray) : toByteArray (ofByteArray bytes) = bytes := by
  simp [toByteArray, ofByteArray, Function.comp_def]

theorem ofByteArray_toByteArray (bytes : List (BitVec 8)) :
    ofByteArray (toByteArray bytes) = bytes := by
  simp [toByteArray, ofByteArray, Function.comp_def]

theorem decode_eq_some_iff {bytes : List (BitVec 8)} {s : String} :
    decode bytes = some s ↔ bytes = encode s := by
  unfold decode String.fromUTF8?
  constructor
  · intro h
    split at h
    · cases h
      exact (ofByteArray_toByteArray bytes).symm
    · cases h
  · rintro rfl
    have valid : (toByteArray (encode s)).IsValidUTF8 := by
      rw [encode, toByteArray_ofByteArray]
      exact s.isValidUTF8
    rw [dif_pos valid]
    congr 1
    apply String.toByteArray_inj.mp
    exact toByteArray_ofByteArray s.toByteArray

@[simp] theorem decode_encode (s : String) : decode (encode s) = some s :=
  decode_eq_some_iff.mpr rfl

theorem encode_injective : Function.Injective encode := by
  intro s t same
  have decoded := decode_encode s
  rw [same, decode_encode] at decoded
  exact (Option.some.inj decoded).symm

theorem length_encode (s : String) : (encode s).length = s.utf8ByteSize := by
  rw [encode, ofByteArray, List.length_map, Array.length_toList]
  exact String.size_toByteArray

theorem isBoundary_zero (s : String) : IsBoundary s 0 := String.Pos.Raw.isValid_zero

theorem encode_append (s t : String) : encode (s ++ t) = encode s ++ encode t := by
  simp [encode, ofByteArray, ByteArray.data_append]

theorem isBoundary_iff {s : String} {n : Nat} :
    IsBoundary s n ↔ ∃ front back, s = front ++ back ∧ n = (encode front).length := by
  rw [IsBoundary, String.Pos.Raw.isValid_iff_exists_append]
  constructor
  · rintro ⟨front, back, whole, place⟩
    refine ⟨front, back, whole, ?_⟩
    rw [length_encode]
    exact congrArg String.Pos.Raw.byteIdx place
  · rintro ⟨front, back, whole, rfl⟩
    refine ⟨front, back, whole, ?_⟩
    rw [length_encode]
    rfl

end AirFerry.Library.Utf8
