import ScriptHost.Http.Offsets
import ScriptHost.Proofs.Http.Buffering

/-!
# When reading stops

Reading goes from moment to moment, each of which follows from the one before by one more read.  It
stops at the first moment at which the buffer is full, the end of the stream was read, or the buffer
holds the first blank line of the whole stream and as much behind it as the header block declares.
At no moment before that is a read made for which there is no room, and a read that fails ends it.

## Main definitions

* `Http.delivered` : the bytes of a stream up to its end or its failure.
* `Http.Moment`, `Http.momentAfter` : how reading stands after so many reads.
* `Http.Moment.Stops` : the condition on which reading stops.
* `Http.EndsAtFirstStop` : the answer of reading that stops at the first moment that meets it.

## Main results

* `Http.goal_le_iff` : what the buffer alone asks for, seen from the whole stream.
* `Http.endsAtFirstStop_receive_iff` : reading gives it exactly if there is a buffer of the size
  that was asked for.
-/

namespace ScriptHost.Http

/-- What the reads of a connection give up to the end of the stream or the first failure. -/
def delivered : Connection → List UInt8
  | [] => []
  | .reset :: _ => []
  | .bytes bs :: source => if bs.isEmpty then [] else bs ++ delivered source

/-- How reading stands between two reads. -/
structure Moment where
  buffer : List UInt8
  /-- What the connection still gives. -/
  left : Connection
  /-- The last read gave nothing. -/
  ended : Bool

namespace Moment

/-- The moment after one more read, which asks for all the room that is left in the buffer; none if
the read fails.  A read for which there is no room gives nothing, as the end of the stream does. -/
def read? (limit : Nat) (m : Moment) : Option Moment :=
  let room := limit - m.buffer.length
  match m.left with
  | [] => some { m with ended := true }
  | .reset :: _ => none
  | .bytes bs :: left =>
    some {
      buffer := m.buffer ++ bs.take room
      left := if bs.length ≤ room then left else .bytes (bs.drop room) :: left
      ended := (bs.take room).isEmpty }

/-- Reading stops with a full buffer, with the end of the stream, and with a buffer that holds the
first blank line of the stream and what the bytes before it declare. -/
def Stops (limit : Nat) (stream : List UInt8) (m : Moment) : Prop :=
  limit ≤ m.buffer.length ∨ m.ended = true ∨
    ∃ e, (BlankLineAt stream e ∧ ∀ i < e, ¬BlankLineAt stream i) ∧ e + 4 ≤ m.buffer.length ∧
      min limit (saturatingAdd (e + 4) (declaredLength (stream.take e))) ≤ m.buffer.length

end Moment

/-- The moment after so many reads of a connection, none if one of them fails. -/
def momentAfter (limit : Nat) (source : Connection) : Nat → Option Moment
  | 0 => some ⟨[], source, false⟩
  | n + 1 => (momentAfter limit source n).bind (Moment.read? limit)

/-- Reading makes `n` reads: it does not stop before, there is room for each of them, and after each
the blank line is found from three bytes before the new ones on just where it is in the buffer. -/
structure MakesReads (limit : Nat) (source : Connection) (n : Nat) : Prop where
  goesOn : ∀ k < n, ∃ m, momentAfter limit source k = some m ∧ ¬m.Stops limit (delivered source)
  hasRoom : ∀ k < n, ∀ m, momentAfter limit source k = some m → m.buffer.length < limit
  findsEnd : ∀ k < n, ∀ m m', momentAfter limit source k = some m →
    momentAfter limit source (k + 1) = some m' → headerEnd? m.buffer = none →
      headerEnd? m'.buffer =
        (headerEnd? (m'.buffer.drop (m.buffer.length - 3))).map (m.buffer.length - 3 + ·)

/-- The moment is one at which reading stops, with what comes first in the stream in its buffer. -/
structure Moment.IsStop (limit : Nat) (source : Connection) (m : Moment) : Prop where
  stops : m.Stops limit (delivered source)
  isPrefix : m.buffer <+: delivered source
  length_le : m.buffer.length ≤ limit

/-- The answer of reading that makes reads up to the first moment at which it stops, and no more.
If one of these reads fails, all of reading fails. -/
def EndsAtFirstStop (limit : Nat) (source : Connection) (answer : Except ReadFault Received) :
    Prop :=
  ∃ n, MakesReads limit source n ∧
    ((∃ m, momentAfter limit source n = some m ∧ m.IsStop limit source ∧
        answer = .ok ⟨m.buffer, n, m.left⟩) ∨
      (momentAfter limit source n = none ∧ answer = .error (.reset n)))

/-! ### What the buffer asks for -/

section Goal

variable {limit : Nat} {stream buffer : List UInt8}

theorem min_saturatingAdd (hlimit : limit ≤ maxBufferBytes) (a b : Nat) :
    min limit (saturatingAdd a b) = min (a + b) limit := by
  have hbound : limit ≤ lengthBound - 1 := Nat.le_trans hlimit (by decide)
  rw [saturatingAdd]
  omega

/-- What the buffer alone asks for is what the whole stream asks for: the blank line that is found
in the buffer is the first of the stream. -/
theorem goal_le_iff (hlimit : limit ≤ maxBufferBytes) (hbuffer : buffer <+: stream) :
    (Phase.of buffer).goal limit ≤ buffer.length ↔ limit ≤ buffer.length ∨
      ∃ e, headerEnd? stream = some e ∧ e + 4 ≤ buffer.length ∧
        min limit (saturatingAdd (e + 4) (declaredLength (stream.take e))) ≤ buffer.length := by
  have htake := List.prefix_iff_eq_take.1 hbuffer
  cases hend : headerEnd? buffer with
  | none =>
    rw [Phase.of_eq_head hend]
    refine ⟨.inl, fun h ↦ h.elim id ?_⟩
    rintro ⟨e, he, hle, -⟩
    rw [htake, headerEnd?_take he hle] at hend
    cases hend
  | some e =>
    obtain ⟨rest, rfl⟩ := hbuffer
    have hle := add_four_le_of_headerEnd? hend
    have hhead : (buffer ++ rest).take e = buffer.take e :=
      List.take_append_of_le_length (by omega)
    rw [Phase.of_eq_body hend]
    constructor
    · intro hgoal
      refine .inr ⟨e, headerEnd?_append hend rest, hle, ?_⟩
      rwa [min_saturatingAdd hlimit, hhead]
    · rintro (hfull | ⟨e', he', -, hgoal⟩)
      · exact Nat.le_trans (Nat.min_le_right _ _) hfull
      · obtain rfl := Option.some.inj ((headerEnd?_append hend rest).symm.trans he')
        rwa [min_saturatingAdd hlimit, hhead] at hgoal

/-- Between two reads reading stops exactly if the buffer holds what it asks for. -/
theorem Moment.stops_iff (hlimit : limit ≤ maxBufferBytes) (hbuffer : buffer <+: stream)
    (left : Connection) :
    (Moment.mk buffer left false).Stops limit stream ↔
      (Phase.of buffer).goal limit ≤ buffer.length := by
  rw [goal_le_iff hlimit hbuffer]
  simp [Moment.Stops, headerEnd?_eq_some_iff]

end Goal

/-! ### From moment to moment -/

section Moments

variable {limit n : Nat} {source left : Connection} {buffer : List UInt8}

theorem makesReads_zero (limit : Nat) (source : Connection) : MakesReads limit source 0 where
  goesOn k hk := absurd hk (Nat.not_lt_zero k)
  hasRoom k hk := absurd hk (Nat.not_lt_zero k)
  findsEnd k hk := absurd hk (Nat.not_lt_zero k)

/-- A read leaves what is in the buffer there. -/
theorem Moment.prefix_of_read? {m m' : Moment} (h : m.read? limit = some m') :
    m.buffer <+: m'.buffer := by
  unfold Moment.read? at h
  split at h
  · cases h
    exact List.prefix_rfl
  · cases h
  · cases h
    exact List.prefix_append _ _

/-- One more read is made at a moment at which reading does not stop. -/
theorem MakesReads.succ (h : MakesReads limit source n) {m : Moment}
    (hm : momentAfter limit source n = some m) (hgoes : ¬m.Stops limit (delivered source)) :
    MakesReads limit source (n + 1) where
  goesOn k hk := by
    rcases Nat.lt_succ_iff_lt_or_eq.1 hk with hk | rfl
    · exact h.goesOn k hk
    · exact ⟨m, hm, hgoes⟩
  hasRoom k hk m' hm' := by
    rcases Nat.lt_succ_iff_lt_or_eq.1 hk with hk | rfl
    · exact h.hasRoom k hk m' hm'
    · obtain rfl := Option.some.inj (hm.symm.trans hm')
      exact Nat.lt_of_not_le fun hfull ↦ hgoes (.inl hfull)
  findsEnd k hk m' m'' hm' hm'' hnone := by
    rcases Nat.lt_succ_iff_lt_or_eq.1 hk with hk | rfl
    · exact h.findsEnd k hk m' m'' hm' hm'' hnone
    · rw [momentAfter, hm', Option.bind_some] at hm''
      obtain ⟨bytes, hbytes⟩ := Moment.prefix_of_read? hm''
      rw [← hbytes]
      exact headerEnd?_append_eq_map hnone bytes

theorem delivered_bytes {piece : List UInt8} (hne : piece ≠ []) (left : Connection) :
    delivered (.bytes piece :: left) = piece ++ delivered left := by
  rw [delivered, if_neg (by simpa using hne)]

/-- A moment between two reads: nothing of the stream is lost. -/
structure IsBetween (limit : Nat) (source : Connection) (n : Nat) (buffer : List UInt8)
    (left : Connection) : Prop where
  makesReads : MakesReads limit source n
  moment_eq : momentAfter limit source n = some ⟨buffer, left, false⟩
  stream_eq : buffer ++ delivered left = delivered source
  length_le : buffer.length ≤ limit

namespace IsBetween

theorem isPrefix (h : IsBetween limit source n buffer left) : buffer <+: delivered source :=
  ⟨_, h.stream_eq⟩

/-- Reading stops with what the buffer asks for. -/
theorem ends (h : IsBetween limit source n buffer left) (hlimit : limit ≤ maxBufferBytes)
    (hgoal : (Phase.of buffer).goal limit ≤ buffer.length) :
    EndsAtFirstStop limit source (.ok ⟨buffer, n, left⟩) := by
  have hstops := (Moment.stops_iff hlimit h.isPrefix left).2 hgoal
  exact ⟨n, h.makesReads, .inl ⟨_, h.moment_eq, ⟨hstops, h.isPrefix, h.length_le⟩, rfl⟩⟩

/-- Without it one more read is made, for which there is room. -/
theorem next (h : IsBetween limit source n buffer left) (hlimit : limit ≤ maxBufferBytes)
    (hgoal : ¬(Phase.of buffer).goal limit ≤ buffer.length) :
    MakesReads limit source (n + 1) ∧
      momentAfter limit source (n + 1) = Moment.read? limit ⟨buffer, left, false⟩ ∧
      buffer.length < limit := by
  have hgoes := mt (Moment.stops_iff hlimit h.isPrefix left).1 hgoal
  have hreads := h.makesReads.succ h.moment_eq hgoes
  refine ⟨hreads, ?_, hreads.hasRoom n (Nat.lt_succ_self n) _ h.moment_eq⟩
  rw [momentAfter, h.moment_eq, Option.bind_some]

/-- The end of the stream is a stop. -/
theorem ends_of_ended (h : IsBetween limit source n buffer left) {left' : Connection}
    (hreads : MakesReads limit source (n + 1))
    (hnext : momentAfter limit source (n + 1) = some ⟨buffer, left', true⟩) :
    EndsAtFirstStop limit source (.ok ⟨buffer, n + 1, left'⟩) :=
  ⟨n + 1, hreads, .inl ⟨_, hnext, ⟨.inr (.inl rfl), h.isPrefix, h.length_le⟩, rfl⟩⟩

/-- Reading on ends at the first stop. -/
theorem endsAtFirstStop (hlimit : limit ≤ maxBufferBytes)
    (h : IsBetween limit source n buffer left) :
    EndsAtFirstStop limit source
      ((receiveFrom limit (Phase.of buffer) buffer n left).mapError .reset) := by
  induction left generalizing n buffer with
  | nil =>
    by_cases hgoal : (Phase.of buffer).goal limit ≤ buffer.length
    · rw [receiveFrom_of_goal_le hgoal]
      exact h.ends hlimit hgoal
    obtain ⟨hreads, hnext, -⟩ := h.next hlimit hgoal
    rw [receiveFrom_nil hgoal]
    exact h.ends_of_ended hreads hnext
  | cons delivery left ih =>
    by_cases hgoal : (Phase.of buffer).goal limit ≤ buffer.length
    · rw [receiveFrom_of_goal_le hgoal]
      exact h.ends hlimit hgoal
    obtain ⟨hreads, hnext, hroom⟩ := h.next hlimit hgoal
    cases delivery with
    | reset =>
      rw [receiveFrom_reset hgoal]
      exact ⟨n + 1, hreads, .inr ⟨hnext, rfl⟩⟩
    | bytes piece =>
      by_cases hne : piece = []
      · subst hne
        rw [receiveFrom_bytes_nil hgoal]
        simp only [Moment.read?, List.take_nil, List.append_nil] at hnext
        exact h.ends_of_ended hreads hnext
      have hstream := h.stream_eq
      rw [delivered_bytes hne, ← List.append_assoc] at hstream
      by_cases hfits : piece.length ≤ limit - buffer.length
      · -- The whole piece goes into the buffer, and reading goes on from there.
        rw [receiveFrom_bytes hgoal hne hfits]
        refine ih ⟨hreads, ?_, hstream, ?_⟩
        · rw [hnext, Moment.read?]
          dsimp only
          rw [List.take_of_length_le hfits, if_pos hfits, List.isEmpty_eq_false_iff.2 hne]
        · rw [List.length_append]
          omega
      · -- The piece fills the buffer, and its rest is left.
        have hlt := Nat.lt_of_not_le hfits
        rw [receiveFrom_bytes_of_lt hgoal hlt]
        have hlength : (buffer ++ piece.take (limit - buffer.length)).length = limit := by
          rw [List.length_append, List.length_take]
          omega
        refine ⟨n + 1, hreads, .inl ⟨_, hnext, ⟨.inl (Nat.le_of_eq hlength.symm), ?_,
          Nat.le_of_eq hlength⟩, ?_⟩⟩
        · rw [← hstream, List.append_assoc]
          exact (List.prefix_append_right_inj _).2
            ((List.take_prefix _ piece).trans (List.prefix_append _ _))
        · dsimp only
          rw [if_neg hfits]
          rfl

end IsBetween

end Moments

/-- Reading ends at the first stop exactly if there is a buffer of the size that was asked for. -/
theorem endsAtFirstStop_receive_iff (limit : Nat) (source : Connection) :
    EndsAtFirstStop limit source (receive limit source) ↔ limit ≤ maxBufferBytes := by
  constructor
  · rintro ⟨n, -, ⟨m, -, -, hanswer⟩ | ⟨-, hanswer⟩⟩ <;> by_contra hlimit
    · rw [receive, if_neg hlimit] at hanswer
      cases hanswer
    · rw [receive, if_neg hlimit] at hanswer
      cases hanswer
  · intro hlimit
    rw [receive, if_pos hlimit]
    exact IsBetween.endsAtFirstStop hlimit
      ⟨makesReads_zero limit source, rfl, List.nil_append _, Nat.zero_le limit⟩

/-- No buffer is as large as a limit may be: without a failing read there is no request then. -/
theorem not_endsAtFirstStop_receive :
    let source : Connection := [.bytes (Text.Utf8.encode "GET / HTTP/1.1\r\n\r\n".toList)]
    delivered source = Text.Utf8.encode "GET / HTTP/1.1\r\n\r\n".toList ∧
      receive ((1 <<< 64) - 1) source = .error .bufferTooLarge ∧
      ¬EndsAtFirstStop ((1 <<< 64) - 1) source (receive ((1 <<< 64) - 1) source) := by
  intro source
  have hreceive : receive ((1 <<< 64) - 1) source = .error .bufferTooLarge := if_neg (by decide)
  refine ⟨by decide +kernel, hreceive, ?_⟩
  rw [hreceive]
  rintro ⟨n, -, ⟨m, -, -, hanswer⟩ | ⟨-, hanswer⟩⟩
  · cases hanswer
  · cases hanswer

end ScriptHost.Http
