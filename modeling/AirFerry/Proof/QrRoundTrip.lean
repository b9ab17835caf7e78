import AirFerry.Proof.QrReadback
import AirFerry.QrProtocol.QrRender

namespace AirFerry.Proof.Qr
open Library FastQr QrStandard QrProtocol

theorem path_fits (v : Version) : v.size * (v.size - 1) ≤ 8 * 5430 := by
  have large := (size_bounds v).2
  have small : v.size ≤ 177 := large
  calc v.size * (v.size - 1) ≤ 177 * 176 := Nat.mul_le_mul small (by omega)
    _ ≤ 8 * 5430 := by norm_num

theorem createMatrix_symbol {v : Version} {mode : Mode} {input : Bytes} (writable : Writable mode input)
    (fits : input.length ≤ (Version.longest mode).getD v 0) :
    ∃ qr data, Placement.createMatrix input mode v = .ok qr ∧ qr.size = v.size ∧
      qr.data.length = qrMaxModules ∧ (grid qr).modules.length = (grid qr).size * (grid qr).size ∧
      IsSymbol v data (grid qr) ∧ Hardcode.dataCodewords v ≤ data.length ∧
      readData (number v) (Bits.ofBytes (data.take (Hardcode.dataCodewords v))) = some input := by
  obtain ⟨c, encoded, room, reads⟩ := encode_reads writable fits
  have enough := (dataCodewords_le_maxBytes v).trans room
  obtain ⟨out, arranged, count, codewords⟩ := @structured_spec c.data v enough
  obtain ⟨qr, table, placed, drawn, finished⟩ := @placeOnMatrix_finished v out
    (by rw [count]; exact path_fits v) (v.maxBytes * 8 + v.missingBits)
  have small := (blockLayout v).2.2.1
  have words := codewords_grid drawn finished (by omega)
  refine ⟨qr, c.data, ?_, drawn.size, drawn.length, grid_length drawn, ?_, enough, reads⟩
  · simp only [Placement.createMatrix, encoded, bind, Except.bind, arranged, placed]
  · refine ⟨readVersion_grid drawn, readMask_grid drawn finished, fun p colour inside function => ?_, ?_⟩
    · have square : InSquare v.size p := by rwa [grid, drawn.size] at inside
      rw [grid_colour drawn square]
      exact finished.function p colour square function
    · rw [readBlocks, words, codewords, dealBlocks_interleave enough]

theorem longestByte_le (v : Version) (mode : Mode) :
    Version.longestByte.getD v 0 ≤ (Version.longest mode).getD v 0 := by
  revert v
  cases mode <;> decide

theorem get_le {mode : Mode} {len : Nat} {v : Version} (fits : len ≤ (Version.longest mode).getD v 0) :
    ∃ smallest, Version.get mode len = some smallest ∧ smallest.val ≤ v.val := by
  have reached : (Version.get mode len).isSome = true :=
    List.find?_isSome.mpr ⟨v, List.mem_finRange v, by simpa using fits⟩
  obtain ⟨smallest, found⟩ := Option.isSome_iff_exists.mp reached
  refine ⟨smallest, found, ?_⟩
  obtain ⟨-, i, inside, rfl, before⟩ := List.find?_eq_some_iff_getElem.mp found
  by_contra later
  have refused : ¬ len ≤ (Version.longest mode).getD v 0 := by
    simpa using before v.val (by simpa using later)
  exact refused fits

theorem new_symbol {v : Version} {input : Bytes} (fits : input.length ≤ Version.longestByte.getD v 0) :
    ∃ qr data, QRCode.new input v = .ok (.ok qr) ∧ qr.size = v.size ∧
      qr.data.length = qrMaxModules ∧ (grid qr).modules.length = (grid qr).size * (grid qr).size ∧
      IsSymbol v data (grid qr) ∧ Hardcode.dataCodewords v ≤ data.length ∧
      readData (number v) (Bits.ofBytes (data.take (Hardcode.dataCodewords v))) = some input := by
  have room := fits.trans (longestByte_le v (Encode.bestEncoding input))
  obtain ⟨smallest, found, below⟩ := get_le room
  obtain ⟨qr, data, created, symbol⟩ := createMatrix_symbol (writable_bestEncoding input) room
  refine ⟨qr, data, ?_, symbol⟩
  simp only [QRCode.new, found, if_pos below, created, bind, Except.bind, pure, Except.pure]

theorem qrByteCapacityL_eq : QrRender.qrByteCapacityL = Version.longestByte := rfl

theorem longestByte_room (v : Version) :
    4 + countBits (number v) .byte ≤ 8 * (blockSizes (number v)).sum ∧
      Version.longestByte.getD v 0 =
        (8 * (blockSizes (number v)).sum - (4 + countBits (number v) .byte)) / 8 := by
  revert v
  decide +kernel

theorem minVersionFor_some {len : Nat} (fits : len ≤ 2953) :
    ∃ v : Version, QrRender.minVersionFor len = some (number v) ∧ len ≤ Version.longestByte.getD v 0 ∧
      ∀ u : Version, u < v → Version.longestByte.getD u 0 < len := by
  have last : (2953 : Nat) ∈ Version.longestByte := by decide
  have found : (Version.longestByte.findIdx? fun cap => len ≤ cap).isSome := by
    rw [List.findIdx?_isSome, List.any_eq_true]
    exact ⟨2953, last, decide_eq_true fits⟩
  obtain ⟨i, first⟩ := Option.isSome_iff_exists.mp found
  obtain ⟨inside, reaches, before⟩ := List.findIdx?_eq_some_iff_getElem.mp first
  have count : Version.longestByte.length = 40 := rfl
  refine ⟨⟨i, by omega⟩, ?_, ?_, fun u smaller => ?_⟩
  · rw [QrRender.minVersionFor, qrByteCapacityL_eq, first]
    rfl
  · rw [List.getD_eq_getElem?_getD, List.getElem?_eq_getElem inside]
    exact of_decide_eq_true reaches
  · have refused := before u.val smaller
    have listed : u.val < Version.longestByte.length := by omega
    rw [List.getD_eq_getElem?_getD, List.getElem?_eq_getElem listed]
    simpa using refused

theorem minVersionFor_none {len : Nat} (long : 2953 < len) : QrRender.minVersionFor len = none := by
  have all : ∀ cap ∈ Version.longestByte, cap ≤ 2953 := by decide
  rw [QrRender.minVersionFor, qrByteCapacityL_eq, Option.map_eq_none_iff, List.findIdx?_eq_none_iff]
  intro cap listed
  have small := all cap listed
  exact decide_eq_false (by omega)

/-- What a camera sees of a matrix. -/
def seen (m : QrRender.QrMatrix) : Grid := { size := m.size, modules := m.modules }

theorem encode_symbol {data : Bytes} (fits : data.length ≤ 2953) :
    ∃ m v codewords, QrRender.encode data = .ok (.ok m) ∧ m.size = v.size ∧
      m.modules.length = m.size * m.size ∧ IsSymbol v codewords (seen m) ∧
      Hardcode.dataCodewords v ≤ codewords.length ∧
      readData (number v) (Bits.ofBytes (codewords.take (Hardcode.dataCodewords v))) = some data ∧
      data.length ≤ Version.longestByte.getD v 0 ∧
      ∀ u : Version, u < v → Version.longestByte.getD u 0 < data.length := by
  obtain ⟨v, chosen, room, minimal⟩ := minVersionFor_some fits
  obtain ⟨qr, codewords, created, size, whole, square, symbol, enough, reads⟩ := new_symbol room
  have version : index (List.finRange 40) (number v - 1) = .ok v := by
    apply index_of_getElem?
    simp [number]
  have inside : qr.size * qr.size ≤ qr.data.length := by
    rw [whole, size]
    exact Nat.mul_le_mul (size_bounds v).2 (size_bounds v).2
  refine ⟨{ modules := (grid qr).modules, size := qr.size }, v, codewords, ?_, size, square, symbol, enough,
    reads, room, minimal⟩
  have left : 41 - number v = 39 - v.val + 1 := by
    simp only [number]
    omega
  simp only [QrRender.encode, chosen, left, QrRender.encodeFrom, version, bind, Except.bind, created, slice,
    if_pos (And.intro (Nat.zero_le (qr.size * qr.size)) inside), List.drop_zero, Nat.sub_zero, grid, pure,
    Except.pure]

theorem encode_long {data : Bytes} (long : 2953 < data.length) :
    QrRender.encode data = .ok (.error { need := 2953, have' := data.length }) := by
  rw [QrRender.encode, minVersionFor_none long]
  rfl

/-- Data of at most 2953 bytes become a symbol of the smallest version with room for so many bytes,
with all function patterns of the standard, and a reader gets just the data back; longer data are
refused. -/
theorem encode_reads_back (data : Bytes) :
    (data.length ≤ 2953 → ∃ m version, QrRender.encode data = .ok (.ok m) ∧
      1 ≤ version ∧ version ≤ 40 ∧ m.size = side version ∧ m.modules.length = m.size * m.size ∧
      QrStandard.read (seen m) = some data ∧
      (∀ p colour, p.1 < m.size → p.2 < m.size → functionColour version 0 p = some colour →
        (seen m).colour p = colour) ∧
      4 + countBits version .byte + 8 * data.length ≤ 8 * (blockSizes version).sum ∧
      ∀ smaller, 1 ≤ smaller → smaller < version →
        8 * (blockSizes smaller).sum < 4 + countBits smaller .byte + 8 * data.length) ∧
    (2953 < data.length →
      QrRender.encode data = .ok (.error { need := 2953, have' := data.length })) := by
  refine ⟨fun fits => ?_, encode_long⟩
  obtain ⟨m, v, codewords, encoded, size, square, symbol, enough, reads, room, minimal⟩ :=
    encode_symbol fits
  refine ⟨m, number v, encoded, by simp, v.isLt, size.trans (size_eq v), square, symbol.read enough reads,
    fun p colour below right => symbol.function p colour ⟨below, right⟩, ?_,
    fun smaller positive less => ?_⟩
  · obtain ⟨header, capacity⟩ := longestByte_room v
    rw [capacity] at room
    omega
  · have last : smaller - 1 < v.val := by simp only [number] at less; omega
    have full := minimal ⟨smaller - 1, last.trans v.isLt⟩ last
    rw [(longestByte_room _).2] at full
    simp only [number, Nat.sub_add_cancel positive] at full
    omega

end AirFerry.Proof.Qr
