import SealedChat.Random.Draw
import Mathlib.Logic.Function.Iterate

/-!
# Where random bytes come from

A source of random bytes is a stream and a position in it. A request is granted just the bytes that
come next, or it is refused and the position stays where it was (`Supplies`); when it is refused is
left open. The stream of a `RandomStream` is such a source, whatever is drawn from it
(`RandomStream.supplies_run`).
-/

namespace SealedChat

/-- The bytes of a stream from a position on. -/
def segment (bytes : Nat → UInt8) (start count : Nat) : Bytes :=
  (List.range count).map fun k => bytes (start + k)

theorem segment_succ (bytes : Nat → UInt8) (start count : Nat) :
    segment bytes start (count + 1) = bytes start :: segment bytes (start + 1) count := by
  simp [segment, List.range_succ_eq_map, Nat.add_assoc, Nat.add_comm 1]

/-- The requests are answered from the stream, and lead from one position in it to another. -/
inductive Supplies (bytes : Nat → UInt8) : Nat → List Draw.Answer → Nat → Prop where
  | nil (p : Nat) : Supplies bytes p [] p
  | granted {p q n : Nat} {b : Block n} {rest : List Draw.Answer} (hb : b.bytes = segment bytes p n)
      (h : Supplies bytes (p + n) rest q) : Supplies bytes p (⟨n, some b⟩ :: rest) q
  | refused {p q : Nat} (n : Nat) {rest : List Draw.Answer} (h : Supplies bytes p rest q) :
      Supplies bytes p (⟨n, none⟩ :: rest) q

namespace RandomStream

/-- The stream that a state begins. -/
def byteAt (s : UInt64) (k : Nat) : UInt8 := (advance^[k + 1] s >>> 56).toUInt8

theorem produce_eq (s : UInt64) (p n : Nat) :
    produce n (advance^[p] s) = (segment (byteAt s) p n, advance^[p + n] s) := by
  induction n generalizing p with
  | zero => rfl
  | succ n ih =>
    rw [produce, ← Function.iterate_succ_apply' advance, ih (p + 1), segment_succ, byteAt,
      Nat.add_right_comm]
    rfl

/-- **A random stream is a source**, from wherever it has come to. -/
theorem supplies_run {α : Type} (d : Draw α) {s : UInt64} {r : RandomStream} {p : Nat}
    (h : r.state = advance^[p] s) : ∃ answers q, d.Runs answers (d.run r).1 ∧
      Supplies (byteAt s) p answers q ∧ (d.run r).2.state = advance^[q] s := by
  induction d generalizing r p with
  | done a => exact ⟨[], p, .done a, .nil p, h⟩
  | fill n next ih =>
    by_cases hleft : r.left.all (n ≤ ·)
    · have hfill : r.fill n = (some ⟨(produce n r.state).1, length_produce n r.state⟩,
          ⟨(produce n r.state).2, r.left.map (· - n)⟩) := if_pos hleft
      have hblock : (produce n r.state).1 = segment (byteAt s) p n := by rw [h, produce_eq]
      have hstate : (r.fill n).2.state = advance^[p + n] s := by
        rw [hfill]
        change (produce n r.state).2 = _
        rw [h, produce_eq]
      obtain ⟨answers, q, hruns, hsupplies, hq⟩ := ih (r.fill n).1 hstate
      refine ⟨⟨n, (r.fill n).1⟩ :: answers, q, .fill _ hruns, ?_, hq⟩
      rw [hfill]
      exact .granted hblock hsupplies
    · have hfill : r.fill n = (none, r) := if_neg hleft
      have hstate : (r.fill n).2.state = advance^[p] s := by
        rw [hfill]
        exact h
      obtain ⟨answers, q, hruns, hsupplies, hq⟩ := ih (r.fill n).1 hstate
      refine ⟨⟨n, (r.fill n).1⟩ :: answers, q, .fill _ hruns, ?_, hq⟩
      rw [hfill]
      exact .refused n hsupplies

end RandomStream

end SealedChat
