import Mathlib.Tactic.Common
import ScriptHost.Proofs.Http.BlankLine

/-!
# What is buffered

A stream arrives cut into pieces that are not empty.  The buffer holds what comes first in it, and
reading stops when the buffer holds what its own bytes ask for, when it is full, or with the stream.
Where the cuts are decides only how much more than it waits for reading takes.

## Main definitions

* `Http.IsCutting` : a stream cut into pieces.
* `Http.Buffered` : what may be in the buffer when reading stops.

## Main results

* `Http.exists_receive` : reading stops, with such a buffer.
* `Http.Buffered.eq_seen`, `Http.Buffered.exists_take` : how much the buffer holds.
* `Http.exists_cutting` : every length that is long enough is one at which reading stops.
-/

namespace ScriptHost.Http

/-- A stream cut into pieces that are not empty. -/
structure IsCutting (stream : List UInt8) (pieces : List (List UInt8)) : Prop where
  flatten_eq : pieces.flatten = stream
  ne_nil : ∀ piece ∈ pieces, piece ≠ []

/-- The pieces as what the reads of a connection give. -/
def deliveries (pieces : List (List UInt8)) : Connection := pieces.map .bytes

/-- What may be in the buffer when reading stops, of the bytes `seen` for which there is room: it
holds what its own bytes ask for, or all of them. -/
structure Buffered (limit : Nat) (seen buffer : List UInt8) : Prop where
  isPrefix : buffer <+: seen
  stopped : (Phase.of buffer).goal limit ≤ buffer.length ∨ buffer = seen

/-! ### Reading -/

section Reading

variable {limit : Nat} {buffer : List UInt8}

theorem receiveFrom_of_goal_le {phase : Phase} (h : phase.goal limit ≤ buffer.length)
    (reads : Nat) (source : Connection) :
    receiveFrom limit phase buffer reads source = .ok ⟨buffer, reads, source⟩ := by
  rw [receiveFrom.eq_def, if_pos h]

theorem receiveFrom_nil {phase : Phase} (h : ¬phase.goal limit ≤ buffer.length) (reads : Nat) :
    receiveFrom limit phase buffer reads [] = .ok ⟨buffer, reads + 1, []⟩ := by
  rw [receiveFrom.eq_def, if_neg h]

theorem receiveFrom_reset {phase : Phase} (h : ¬phase.goal limit ≤ buffer.length) (reads : Nat)
    (source : Connection) :
    receiveFrom limit phase buffer reads (.reset :: source) = .error (reads + 1) := by
  rw [receiveFrom.eq_def, if_neg h]

/-- A read that gives nothing is the end of the stream. -/
theorem receiveFrom_bytes_nil {phase : Phase} (h : ¬phase.goal limit ≤ buffer.length)
    (reads : Nat) (source : Connection) :
    receiveFrom limit phase buffer reads (.bytes [] :: source) =
      .ok ⟨buffer, reads + 1, source⟩ := by
  rw [receiveFrom.eq_def, if_neg h]
  rfl

/-- A piece for which there is room is added to the buffer. -/
theorem receiveFrom_bytes (h : ¬(Phase.of buffer).goal limit ≤ buffer.length)
    {piece : List UInt8} (hne : piece ≠ []) (hroom : piece.length ≤ limit - buffer.length)
    (reads : Nat) (source : Connection) :
    receiveFrom limit (Phase.of buffer) buffer reads (.bytes piece :: source) =
      receiveFrom limit (Phase.of (buffer ++ piece)) (buffer ++ piece) (reads + 1) source := by
  have hempty : piece.isEmpty = false := by simpa using hne
  rw [receiveFrom.eq_def, if_neg h]
  simp only [hempty, Bool.false_eq_true, if_false]
  rw [if_pos hroom, Phase.next_of]

/-- Of a piece for which there is no room as much is taken as fits. -/
theorem receiveFrom_bytes_of_lt {phase : Phase} (h : ¬phase.goal limit ≤ buffer.length)
    {piece : List UInt8} (hroom : limit - buffer.length < piece.length) (reads : Nat)
    (source : Connection) :
    receiveFrom limit phase buffer reads (.bytes piece :: source) =
      .ok ⟨buffer ++ piece.take (limit - buffer.length), reads + 1,
        .bytes (piece.drop (limit - buffer.length)) :: source⟩ := by
  have hempty : piece.isEmpty = false := by
    cases piece with
    | nil => exact absurd hroom (Nat.not_lt_zero _)
    | cons b piece => rfl
  rw [receiveFrom.eq_def, if_neg h]
  simp only [hempty, Bool.false_eq_true, if_false]
  rw [if_neg (Nat.not_le.2 hroom)]

/-- Reading on from a buffer stops. -/
theorem exists_receiveFrom (pieces : List (List UInt8)) (hne : ∀ piece ∈ pieces, piece ≠ [])
    (hlength : buffer.length ≤ limit) (reads : Nat) :
    ∃ r, receiveFrom limit (Phase.of buffer) buffer reads (deliveries pieces) = .ok r ∧
      Buffered limit ((buffer ++ pieces.flatten).take limit) r.buffer := by
  induction pieces generalizing buffer reads with
  | nil =>
    rw [List.flatten_nil, List.append_nil, List.take_of_length_le hlength]
    by_cases hgoal : (Phase.of buffer).goal limit ≤ buffer.length
    · exact ⟨_, receiveFrom_of_goal_le hgoal _ _, List.prefix_rfl, .inl hgoal⟩
    · exact ⟨_, receiveFrom_nil hgoal _, List.prefix_rfl, .inr rfl⟩
  | cons piece pieces ih =>
    obtain ⟨hpiece, hne⟩ := List.forall_mem_cons.1 hne
    by_cases hgoal : (Phase.of buffer).goal limit ≤ buffer.length
    · refine ⟨_, receiveFrom_of_goal_le hgoal _ _, ?_, .inl hgoal⟩
      exact List.prefix_take_iff.2 ⟨List.prefix_append _ _, hlength⟩
    rw [List.flatten_cons, ← List.append_assoc]
    by_cases hroom : piece.length ≤ limit - buffer.length
    · have hlength : (buffer ++ piece).length ≤ limit := by
        rw [List.length_append]
        omega
      obtain ⟨r, hr, hbuffered⟩ := ih hne hlength (reads + 1)
      exact ⟨r, (receiveFrom_bytes hgoal hpiece hroom _ _).trans hr, hbuffered⟩
    · have hlt := Nat.lt_of_not_le hroom
      have hfull : (buffer ++ piece ++ pieces.flatten).take limit =
          buffer ++ piece.take (limit - buffer.length) := by
        rw [List.append_assoc, List.take_append, List.take_of_length_le hlength,
          List.take_append_of_le_length (Nat.le_of_lt hlt)]
      rw [hfull]
      exact ⟨_, receiveFrom_bytes_of_lt hgoal hlt _ _, List.prefix_rfl, .inr rfl⟩

/-- Reading a stream stops, however it is cut. -/
theorem exists_receive {stream : List UInt8} {pieces : List (List UInt8)}
    (h : IsCutting stream pieces) (hlimit : limit ≤ maxBufferBytes) :
    ∃ r, receive limit (deliveries pieces) = .ok r ∧
      Buffered limit (stream.take limit) r.buffer := by
  have hempty : ([] : List UInt8).length ≤ limit := Nat.zero_le limit
  obtain ⟨r, hr, hbuffered⟩ := exists_receiveFrom pieces h.ne_nil hempty 0
  rw [List.nil_append, h.flatten_eq] at hbuffered
  refine ⟨r, ?_, hbuffered⟩
  have hstart : receiveFrom limit (.head 0) [] 0 (deliveries pieces) = .ok r := hr
  rw [receive, if_pos hlimit, hstart]
  rfl

end Reading

/-! ### How much is buffered -/

namespace Buffered

variable {limit e : Nat} {seen buffer : List UInt8}

/-- Without an end of the header block all there is room for is read. -/
theorem eq_seen (h : Buffered limit seen buffer) (hseen : seen.length ≤ limit)
    (hnone : headerEnd? seen = none) : buffer = seen := by
  refine h.stopped.elim (fun hgoal ↦ ?_) id
  have hnone : headerEnd? buffer = none := by
    obtain ⟨rest, rfl⟩ := h.isPrefix
    cases he : headerEnd? buffer with
    | none => rfl
    | some e =>
      rw [headerEnd?_append he rest] at hnone
      cases hnone
  rw [Phase.of_eq_head hnone] at hgoal
  exact h.isPrefix.eq_of_length_le (Nat.le_trans hseen hgoal)

/-- With one the header block is read, and of what follows it what it declares, if so much is
there. -/
theorem exists_take (h : Buffered limit seen buffer) (hseen : seen.length ≤ limit)
    (he : headerEnd? seen = some e) :
    ∃ n, buffer = seen.take (e + 4 + n) ∧
      (declaredLength (seen.take e) ≤ n ∨ seen.length ≤ e + 4 + n) := by
  have htake := List.prefix_iff_eq_take.1 h.isPrefix
  have hle : e + 4 ≤ buffer.length := by
    refine Nat.le_of_not_lt fun hlt ↦ ?_
    have hnone : headerEnd? buffer = none := by
      rw [htake]
      exact headerEnd?_take_eq_none he hlt
    have heq : buffer = seen := by
      refine h.stopped.elim (fun hgoal ↦ ?_) id
      rw [Phase.of_eq_head hnone] at hgoal
      exact h.isPrefix.eq_of_length_le (Nat.le_trans hseen hgoal)
    rw [heq, he] at hnone
    cases hnone
  obtain ⟨n, hn⟩ := Nat.exists_eq_add_of_le hle
  rw [hn] at htake
  refine ⟨n, htake, ?_⟩
  rcases h.stopped with hgoal | heq
  · have he' : headerEnd? buffer = some e := by
      rw [htake]
      exact headerEnd?_take he (Nat.le_add_right _ n)
    have hhead : buffer.take e = seen.take e := by
      rw [htake, List.take_take, Nat.min_eq_left (by omega)]
    rw [Phase.of_eq_body he', hhead, Phase.goal, hn] at hgoal
    omega
  · rw [← heq, hn]
    exact .inr (Nat.le_refl _)

end Buffered

/-! ### Where reading may stop -/

/-- A stream may be cut once. -/
theorem exists_isCutting_take {stream : List UInt8} {n : Nat} (hne : stream.take n ≠ []) :
    ∃ rest, IsCutting stream (stream.take n :: rest) := by
  by_cases hrest : stream.drop n = []
  · refine ⟨[], ?_, List.forall_mem_singleton.2 hne⟩
    have happend := List.take_append_drop n stream
    rwa [hrest] at happend
  · refine ⟨[stream.drop n], ?_, ?_⟩
    · rw [List.flatten_cons, List.flatten_singleton]
      exact List.take_append_drop n stream
    · exact List.forall_mem_cons.2 ⟨hne, List.forall_mem_singleton.2 hrest⟩

/-- Reading stops after a first piece that holds what its own bytes ask for. -/
theorem receive_bytes {limit : Nat} {piece : List UInt8} (hlimit : limit ≤ maxBufferBytes)
    (hne : piece ≠ []) (hroom : piece.length ≤ limit)
    (hgoal : (Phase.of piece).goal limit ≤ piece.length) (source : Connection) :
    receive limit (.bytes piece :: source) = .ok ⟨piece, 1, source⟩ := by
  have hpos := List.length_pos_iff.2 hne
  have hstart : ¬(Phase.of []).goal limit ≤ ([] : List UInt8).length := fun h ↦ by
    have hzero : limit ≤ 0 := h
    omega
  have hread : receiveFrom limit (.head 0) [] 0 (.bytes piece :: source) = .ok ⟨piece, 1, source⟩ :=
    (receiveFrom_bytes hstart hne hroom 0 source).trans (receiveFrom_of_goal_le hgoal 1 source)
  rw [receive, if_pos hlimit, hread]
  rfl

/-- Reading can stop at every length at which the buffer holds what it asks for. -/
theorem exists_cutting {stream : List UInt8} {limit e n : Nat} (hlimit : limit ≤ maxBufferBytes)
    (he : headerEnd? (stream.take limit) = some e)
    (hn : declaredLength ((stream.take limit).take e) ≤ n)
    (hle : e + 4 + n ≤ (stream.take limit).length) :
    ∃ pieces r, IsCutting stream pieces ∧ receive limit (deliveries pieces) = .ok r ∧
      r.buffer = (stream.take limit).take (e + 4 + n) := by
  rw [List.length_take] at hle
  have hfirst : (stream.take limit).take (e + 4 + n) = stream.take (e + 4 + n) := by
    rw [List.take_take, Nat.min_eq_left (by omega)]
  have hlength : (stream.take (e + 4 + n)).length = e + 4 + n := by
    rw [List.length_take]
    omega
  have hne : stream.take (e + 4 + n) ≠ [] := by
    refine List.ne_nil_of_length_pos ?_
    omega
  have hgoal : (Phase.of (stream.take (e + 4 + n))).goal limit ≤
      (stream.take (e + 4 + n)).length := by
    have he' := headerEnd?_take he (Nat.le_add_right (e + 4) n)
    rw [hfirst] at he'
    have hhead : (stream.take (e + 4 + n)).take e = (stream.take limit).take e := by
      rw [List.take_take, List.take_take, Nat.min_eq_left (by omega), Nat.min_eq_left (by omega)]
    rw [Phase.of_eq_body he', hhead, hlength]
    exact Nat.le_trans (Nat.min_le_left _ _) (by omega)
  obtain ⟨rest, hcutting⟩ := exists_isCutting_take hne
  rw [hfirst]
  exact ⟨_, _, hcutting, receive_bytes hlimit hne (by omega) hgoal _, rfl⟩

end ScriptHost.Http
