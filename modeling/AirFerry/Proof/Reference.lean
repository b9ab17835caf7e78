import AirFerry.Library.Digest
import AirFerry.Proof.Stage
import AirFerry.RaptorqCore.Systematic

/-!
# A reference environment

The digests themselves, the systematic code, no codec for compressed objects, and a cache that
drains in the order of its entries. Concrete runs of the receiver use it.
-/

namespace AirFerry.Proof
open Library QrProtocol RaptorqCore TransferEngine

def reference : Env where
  crc32 := Digest.crc32
  sha256 := Digest.sha256
  raptorq := systematic
  codecs :=
    { zstdDecoder := fun _ => .error "Unknown frame descriptor"
      xzDecoder := fun _ => .error "stream/file format not recognized" }
  drain := id
  drain_perm := fun _ => List.Perm.refl _

variable {E : Env}

def zeroFrame (E : Env) (sessionId : U128) (sbn size : U32) (esi : Nat) : WireFrame E.crc32 :=
  .build E.crc32 sessionId 0 sbn (BitVec.ofNat 32 esi) 1 1 size 0 0
    (List.replicate size.toNat 0) (List.length_replicate ..)

def burst (E : Env) (sessionId : U128) (sbn size : U32) (n : Nat) : List (WireFrame E.crc32) :=
  (List.range n).map (zeroFrame E sessionId sbn size)

theorem zeroFrame_data (E : Env) (sessionId : U128) (sbn size : U32) (esi : Nat) :
    (zeroFrame E sessionId sbn size esi).1.header.flags &&& flagDescriptor = 0 := by
  show (0 : U8) &&& flagDescriptor = 0
  decide

theorem burst_data {sessionId : U128} {sbn size : U32} {n : Nat} {f : WireFrame E.crc32}
    (member : f ∈ burst E sessionId sbn size n) :
    f.1.header.sessionId = sessionId ∧ f.1.header.flags &&& flagDescriptor = 0 := by
  obtain ⟨esi, -, rfl⟩ := List.mem_map.mp member
  exact ⟨rfl, zeroFrame_data ..⟩

structure Burst (cache : Cache) (sbn size : U32) (n : Nat) (filled : Cache) : Prop where
  length : filled.entries.length = cache.entries.length + n
  keys : ∀ key ∈ filled, key ∈ cache ∨ (key.1 = sbn ∧ key.2.toNat < n)
  entries : ∃ added, filled.entries = added ++ cache.entries ∧
    added.map (fun entry => entry.2) = List.replicate n (List.replicate size.toNat 0)

theorem burst_run (sessionId : U128) {cache : Cache} {sbn size : U32} {n : Nat}
    (unused : ∀ key ∈ cache, key.1 ≠ sbn) (small : n ≤ 2 ^ 32)
    (room : cache.entries.length + n ≤ preMetaCacheMax size) :
    ∃ filled, (Stage.waiting cache).run E sessionId (burst E sessionId sbn size n) =
      .waiting filled ∧ Burst cache sbn size n filled := by
  induction n with
  | zero => exact ⟨cache, rfl, rfl, fun key old => Or.inl old, [], rfl, rfl⟩
  | succ n ih =>
      obtain ⟨before, run, filled⟩ := ih (by omega) (by omega)
      obtain ⟨added, entries, payloads⟩ := filled.entries
      have esi : (BitVec.ofNat 32 n).toNat = n := by
        rw [BitVec.toNat_ofNat]
        exact Nat.mod_eq_of_lt small
      have fresh : (sbn, BitVec.ofNat 32 n) ∉ before := by
        intro old
        rcases filled.keys _ old with old | ⟨-, earlier⟩
        · exact unused _ old rfl
        · rw [esi] at earlier
          exact lt_irrefl n earlier
      have next : (Stage.waiting before).next E sessionId (zeroFrame E sessionId sbn size n).1 =
          .waiting (before.insert (sbn, BitVec.ofNat 32 n) (List.replicate size.toNat 0)) := by
        have stored := @bufferFrame_new before (zeroFrame E sessionId sbn size n).1 fresh
          (by rw [filled.length]; exact room)
        exact (Stage.next_data rfl (zeroFrame_data ..) _).trans (congrArg Stage.waiting stored)
      refine ⟨before.insert (sbn, BitVec.ofNat 32 n) (List.replicate size.toNat 0), ?_, ?_, ?_,
        ⟨(sbn, BitVec.ofNat 32 n), List.replicate size.toNat 0⟩ :: added, ?_, ?_⟩
      · rw [burst, List.range_succ, List.map_append, Stage.run_append]
        rw [burst] at run
        rw [run]
        exact next
      · rw [AList.entries_insert_of_notMem fresh, List.length_cons, filled.length]
        rfl
      · intro key member
        rcases (AList.mem_insert before).mp member with rfl | old
        · exact Or.inr ⟨rfl, by rw [esi]; exact Nat.lt_succ_self n⟩
        · rcases filled.keys key old with old | ⟨same, earlier⟩
          · exact Or.inl old
          · exact Or.inr ⟨same, by omega⟩
      · rw [AList.entries_insert_of_notMem fresh, entries]
        rfl
      · rw [List.map_cons, payloads]
        rfl

end AirFerry.Proof
