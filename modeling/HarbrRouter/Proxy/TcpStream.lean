import HarbrRouter.Lib.Transition
import HarbrRouter.Routing.Upstream

/-!
# Bidirectional streaming

`proxy/tcp.rs`, `copy_stream` and `stream_bidirectional`: two copy loops, one per direction, raced
by `tokio::select!`. An event is one result of the operating system (a read of some length, the end
of the stream, a partial write, a failure), so that the chunking and the interleaving of the
directions are the list of events. The first loop to finish ends the race, and the other is dropped
with what it had read and what its peer still sends.

**Theorem** (`written_isPrefix`): whatever happens, each direction has delivered a prefix of what
its peer sent, in order. What a loop has written, the rest of its chunk and what is unread are the
source, at every step (`Carries.step`).

**Theorem** (`lossless_iff`): a streaming that ended well delivered everything in both directions
exactly when the other direction was drained at the moment one direction saw its end. Without
failures the race is on, or one direction has ended with everything written and the other one is as
it was at that moment (`race_of_run`); and a loop that is not done has written everything exactly
when it is drained (`Carries.written_eq_iff`).
-/

set_option autoImplicit false

namespace HarbrRouter.Proxy

open Transition Routing

/-! ## One direction -/

/-- What the copy loop does next. -/
inductive CopyPhase where
  /-- `reader.read(buffer)` -/
  | reading
  /-- `writer.write_all(&buffer[..bytes_read])`, with the rest that is not written yet -/
  | writing (rest : List UInt8) (bytesRead : ℕ)
  | done (result : Result ℕ)

/-- A copy loop between its two peers. Source: `proxy/tcp.rs`, `TcpProxy::copy_stream` -/
structure CopyStream where
  /-- What the reader's peer sends before it closes and the loop has not read yet. -/
  unread : List UInt8
  /-- What the writer's peer was given. -/
  written : List UInt8
  totalBytes : ℕ
  phase : CopyPhase

/-- A result of the operating system. -/
inductive IoEvent where
  /-- `read` gave this many bytes. -/
  | read (n : ℕ)
  /-- `read` gave `Ok(0)`. -/
  | eof
  /-- `read` failed, with `UnexpectedEof` or with another kind and its text. -/
  | readUnexpectedEof
  | readError (e : String)
  /-- One write of `write_all` accepted this many bytes. -/
  | wrote (n : ℕ)
  | writeError (e : String)

/-- Does a read or a write fail? -/
def IoEvent.fails : IoEvent → Bool
  | .readUnexpectedEof | .readError _ | .writeError _ => true
  | _ => false

/-- The length of the buffers. Source: `proxy/tcp.rs`, `TcpProxy::stream_bidirectional` -/
def copyBufferLen : ℕ := 65536

namespace CopyStream

/-- A copy loop that has not read anything. -/
def start (source : List UInt8) : CopyStream := ⟨source, [], 0, .reading⟩

/-- The result of the loop, once it is done. -/
def result (c : CopyStream) : Option (Result ℕ) :=
  match c.phase with
  | .done r => some r
  | _ => none

/-- The loop goes on with a result of the operating system; the second component is what is added to
`metrics.bytes_transferred`. Source: `proxy/tcp.rs`, `TcpProxy::copy_stream` -/
def step (c : CopyStream) (e : IoEvent) : Option (CopyStream × ℕ) :=
  match c.phase, e with
  | .reading, .read n =>
      if 0 < n ∧ n ≤ copyBufferLen ∧ n ≤ c.unread.length then
        some ({ c with unread := c.unread.drop n, phase := .writing (c.unread.take n) n }, 0)
      else none
  | .reading, .eof =>
      if c.unread = [] then some ({ c with phase := .done (.ok c.totalBytes) }, 0) else none
  | .reading, .readUnexpectedEof => some ({ c with phase := .done (.ok c.totalBytes) }, 0)
  | .reading, .readError e =>
      let error := Error.network ("Read failed: " ++ e) .connectionFailed
      some ({ c with phase := .done (.error error) }, 0)
  | .writing rest bytesRead, .wrote n =>
      if n = 0 ∨ rest.length < n then none
      else if n < rest.length then
        some ({ c with
          written := c.written ++ rest.take n
          phase := .writing (rest.drop n) bytesRead }, 0)
      else
        -- the chunk is written; only now it is counted
        some ({ c with
          written := c.written ++ rest
          totalBytes := wrappingAdd c.totalBytes bytesRead
          phase := .reading }, bytesRead)
  | .writing _ _, .writeError e =>
      let error := Error.network ("Write failed: " ++ e) .connectionFailed
      some ({ c with phase := .done (.error error) }, 0)
  | _, _ => none

/-- A loop that has read and written all that its peer sends. -/
def Drained (c : CopyStream) : Prop := c.unread = [] ∧ c.phase = .reading

/-- What a loop holds of its source: the bytes written, those of the chunk it is writing and the
unread ones are the source, in this order; once it is done, the bytes written are a prefix. -/
def Carries (source : List UInt8) (c : CopyStream) : Prop :=
  match c.phase with
  | .reading => c.written ++ c.unread = source
  | .writing rest _ => rest ≠ [] ∧ c.written ++ (rest ++ c.unread) = source
  | .done _ => c.written <+: source

/-- A fresh loop carries its source. -/
theorem carries_start (source : List UInt8) : (start source).Carries source := rfl

/-- What one step of the loop can do: read a chunk, write a part of it, write the last of it, or be
done with nothing written; it succeeds without a failure only at the end of a drained source. -/
theorem step_cases {c c' : CopyStream} {e : IoEvent} {k : ℕ} (h : c.step e = some (c', k)) :
    (∃ n, 0 < n ∧ n ≤ c.unread.length ∧ e = .read n ∧ c.phase = .reading ∧
        c' = { c with unread := c.unread.drop n, phase := .writing (c.unread.take n) n }) ∨
      (∃ rest b n, n < rest.length ∧ e = .wrote n ∧ c.phase = .writing rest b ∧
        c' = { c with written := c.written ++ rest.take n, phase := .writing (rest.drop n) b }) ∨
      (∃ rest b n, e = .wrote n ∧ c.phase = .writing rest b ∧
        c' = { c with
          written := c.written ++ rest
          totalBytes := wrappingAdd c.totalBytes b
          phase := .reading }) ∨
      (e = .eof ∧ c.Drained ∧ c' = { c with phase := .done (.ok c.totalBytes) }) ∨
      (e.fails = true ∧ ∃ r, c' = { c with phase := .done r }) := by
  unfold step at h
  split at h
  · next n hphase =>
      split_ifs at h with hn
      obtain ⟨rfl, -⟩ := Prod.mk.inj (Option.some.inj h)
      exact Or.inl ⟨n, hn.1, hn.2.2, rfl, hphase, rfl⟩
  · next hphase =>
      split_ifs at h with hunread
      obtain ⟨rfl, -⟩ := Prod.mk.inj (Option.some.inj h)
      exact Or.inr (Or.inr (Or.inr (Or.inl ⟨rfl, ⟨hunread, hphase⟩, rfl⟩)))
  · obtain ⟨rfl, -⟩ := Prod.mk.inj (Option.some.inj h)
    exact Or.inr (Or.inr (Or.inr (Or.inr ⟨rfl, _, rfl⟩)))
  · obtain ⟨rfl, -⟩ := Prod.mk.inj (Option.some.inj h)
    exact Or.inr (Or.inr (Or.inr (Or.inr ⟨rfl, _, rfl⟩)))
  · next rest b n hphase =>
      split_ifs at h with hn hpart
      · obtain ⟨rfl, -⟩ := Prod.mk.inj (Option.some.inj h)
        exact Or.inr (Or.inl ⟨rest, b, n, hpart, rfl, hphase, rfl⟩)
      · obtain ⟨rfl, -⟩ := Prod.mk.inj (Option.some.inj h)
        exact Or.inr (Or.inr (Or.inl ⟨rest, b, n, rfl, hphase, rfl⟩))
  · obtain ⟨rfl, -⟩ := Prod.mk.inj (Option.some.inj h)
    exact Or.inr (Or.inr (Or.inr (Or.inr ⟨rfl, _, rfl⟩)))
  · exact absurd h (by simp)

/-- Every step of the loop keeps the bytes in order. -/
theorem Carries.step {source : List UInt8} {c c' : CopyStream} {e : IoEvent} {k : ℕ}
    (h : c.Carries source) (hstep : c.step e = some (c', k)) : c'.Carries source := by
  rcases step_cases hstep with ⟨n, hpos, hle, -, hphase, rfl⟩ | ⟨rest, b, n, hlt, -, hphase, rfl⟩ |
    ⟨rest, b, n, -, hphase, rfl⟩ | ⟨-, ⟨-, hphase⟩, rfl⟩ | ⟨-, r, rfl⟩
  · simp only [Carries, hphase] at h ⊢
    refine ⟨fun hnil => ?_, by rwa [List.take_append_drop]⟩
    have := congrArg List.length hnil
    simp only [List.length_take, List.length_nil] at this
    omega
  · simp only [Carries, hphase] at h ⊢
    obtain ⟨-, hsource⟩ := h
    refine ⟨fun hnil => ?_, ?_⟩
    · have := congrArg List.length hnil
      simp only [List.length_drop, List.length_nil] at this
      omega
    · rw [List.append_assoc, ← List.append_assoc (rest.take n), List.take_append_drop, hsource]
  · simp only [Carries, hphase] at h ⊢
    rw [List.append_assoc, h.2]
  · simp only [Carries, hphase] at h ⊢
    exact ⟨c.unread, h⟩
  · simp only [Carries] at h ⊢
    split at h
    · exact ⟨_, h⟩
    · exact ⟨_, h.2⟩
    · exact h

/-- The bytes written are a prefix of the source. -/
theorem Carries.isPrefix {source : List UInt8} {c : CopyStream} (h : c.Carries source) :
    c.written <+: source := by
  unfold Carries at h
  split at h
  · exact ⟨_, h⟩
  · exact ⟨_, h.2⟩
  · exact h

/-- A loop that is not done has written everything exactly when it is drained. -/
theorem Carries.written_eq_iff {source : List UInt8} {c : CopyStream} (h : c.Carries source)
    (hdone : ∀ r, c.phase ≠ .done r) : c.written = source ↔ c.Drained := by
  unfold Carries at h
  unfold Drained
  split at h
  · next hphase =>
      rw [← h, hphase]
      simp
  · next rest b hphase =>
      obtain ⟨hne, hsource⟩ := h
      rw [← hsource, hphase]
      simp [hne]
  · next r hphase => exact absurd hphase (hdone r)

/-- A step that is not the end of the stream and not a failure does not end the loop. -/
theorem result_of_step {c c' : CopyStream} {e : IoEvent} {k : ℕ} (h : c.step e = some (c', k))
    (heof : e ≠ .eof) (hfails : e.fails = false) : c'.result = none := by
  rcases step_cases h with ⟨n, -, -, -, -, rfl⟩ | ⟨rest, b, n, -, -, -, rfl⟩ |
    ⟨rest, b, n, -, -, rfl⟩ | ⟨rfl, -⟩ | ⟨hf, -⟩
  · rfl
  · rfl
  · rfl
  · exact absurd rfl heof
  · rw [hfails] at hf
    exact absurd hf (by decide)

/-- A loop without a result is not done. -/
theorem result_eq_none_iff {c : CopyStream} : c.result = none ↔ ∀ r, c.phase ≠ .done r := by
  unfold result
  cases c.phase <;> simp

end CopyStream

/-! ## Both directions -/

/-- A direction of copying. -/
inductive Direction where
  | toUpstream
  | toClient
deriving DecidableEq, Repr

/-- The direction of copying opposite to a direction. -/
def Direction.other : Direction → Direction
  | .toUpstream => .toClient
  | .toClient => .toUpstream

/-- A connection between a client and an upstream.
Source: `proxy/tcp.rs`, `TcpProxy::stream_bidirectional` -/
structure Streaming where
  /-- The two copy loops, by direction. -/
  copy : Direction → CopyStream
  /-- `metrics.bytes_transferred` -/
  bytesTransferred : ℕ
  /-- `upstream.stats` -/
  stats : UpstreamStats
  startTime : ℕ
  result : Option (Result Unit)

/-- A result of the operating system for one direction, or the end of the race. -/
inductive StreamEvent where
  | io (d : Direction) (e : IoEvent)
  | finish (now : ℕ)

namespace Streaming

/-- The start of the race between a client that sends `sent .toUpstream` and an upstream that sends
`sent .toClient`. -/
def start (sent : Direction → List UInt8) (bytesTransferred : ℕ) (stats : UpstreamStats)
    (now : ℕ) : Streaming :=
  ⟨fun d => .start (sent d), bytesTransferred, stats.incrementConnections, now, none⟩

/-- The result of the race: of the loop that is done. -/
def outcome (s : Streaming) : Option (Result ℕ) :=
  (s.copy .toUpstream).result.or (s.copy .toClient).result

/-- The race goes on, or its result is recorded; once one loop is done the other is not polled
again. Source: `proxy/tcp.rs`, `TcpProxy::stream_bidirectional` -/
def step (s : Streaming) : StreamEvent → Option Streaming
  | .io d e =>
      if s.outcome.isSome then none
      else ((s.copy d).step e).map fun r =>
        { s with
          copy := Function.update s.copy d r.1
          bytesTransferred := wrappingAdd s.bytesTransferred r.2 }
  | .finish now =>
      if s.result.isSome then none
      else s.outcome.map fun
        | .ok _ =>
            { s with
              stats := s.stats.decrementConnections.recordSuccess (now - s.startTime) now
              result := some (.ok ()) }
        | .error e =>
            { s with
              stats := s.stats.decrementConnections.recordFailure now
              result := some (.error e) }

/-- The machine of the interleavings of the two directions. -/
def machine : Machine Streaming StreamEvent := ⟨step⟩

/-- What one step can do: one loop moves while neither is done, or the result is recorded. -/
theorem step_cases {s s' : Streaming} {e : StreamEvent} (h : machine.step s e = some s') :
    (∃ d i c k, e = .io d i ∧ s.outcome = none ∧ (s.copy d).step i = some (c, k) ∧
        s'.copy = Function.update s.copy d c ∧ s'.result = s.result) ∨
      ∃ now r, e = .finish now ∧ s.outcome = some r ∧ s'.copy = s.copy ∧
        s'.result = some (r.map fun _ => ()) := by
  cases e with
  | io d i =>
      simp only [machine, step] at h
      split_ifs at h with hout
      obtain ⟨⟨c, k⟩, hc, rfl⟩ := Option.map_eq_some_iff.mp h
      exact Or.inl ⟨d, i, c, k, rfl, by simpa using hout, hc, rfl, rfl⟩
  | finish now =>
      simp only [machine, step] at h
      split_ifs at h
      obtain ⟨r, hr, rfl⟩ := Option.map_eq_some_iff.mp h
      cases r with
      | ok n => exact Or.inr ⟨now, _, rfl, hr, rfl, rfl⟩
      | error e => exact Or.inr ⟨now, _, rfl, hr, rfl, rfl⟩

/-- The race is on while neither loop is done. -/
theorem outcome_eq_none_iff {s : Streaming} : s.outcome = none ↔ ∀ d, (s.copy d).result = none := by
  rw [outcome, Option.or_eq_none_iff]
  constructor
  · rintro ⟨hup, hdown⟩ d
    cases d with
    | toUpstream => exact hup
    | toClient => exact hdown
  · exact fun h => ⟨h _, h _⟩

/-- The result of the race is that of the loop that is done. -/
theorem outcome_of_result {s : Streaming} {d : Direction} {r : Result ℕ}
    (hd : (s.copy d).result = some r) (hother : (s.copy d.other).result = none) :
    s.outcome = some r := by
  cases d with
  | toUpstream => rw [outcome, hd, Option.some_or]
  | toClient =>
      rw [outcome, hd]
      simp only [Direction.other] at hother
      rw [hother, Option.none_or]

/-- A direction and the other one are different. -/
theorem other_ne (d : Direction) : d.other ≠ d := by
  cases d <;> decide

/-- Every direction is a given one or the other. -/
theorem eq_or_eq_other (d d' : Direction) : d' = d ∨ d' = d.other := by
  cases d <;> cases d' <;> decide

section run

variable {sent : Direction → List UInt8} {bytesTransferred : ℕ} {stats : UpstreamStats} {now : ℕ}
  {es : List StreamEvent} {s : Streaming}

/-- Both loops carry what their peers send, in every reachable state. -/
theorem carries_of_run
    (hrun : machine.run (start sent bytesTransferred stats now) es = some s) (d : Direction) :
    (s.copy d).Carries (sent d) := by
  refine machine.run_preserves (I := fun q => ∀ d, (q.copy d).Carries (sent d)) ?_
    (fun d => CopyStream.carries_start (sent d)) hrun d
  intro q e q' hq hstep d
  rcases step_cases hstep with ⟨d', i, c, k, -, -, hc, hcopy, -⟩ | ⟨_, r, -, -, hcopy, -⟩
  · rw [hcopy]
    by_cases hd : d = d'
    · subst hd
      rw [Function.update_self]
      exact (hq d).step hc
    · rw [Function.update_of_ne hd]
      exact hq d
  · rw [hcopy]
    exact hq d

/-- In every reachable state, also after failures, each peer was given a prefix of what the other
sent: nothing is duplicated or reordered, and what is lost is lost at the end. -/
theorem written_isPrefix
    (hrun : machine.run (start sent bytesTransferred stats now) es = some s) (d : Direction) :
    (s.copy d).written <+: sent d :=
  (carries_of_run hrun d).isPrefix

/-- The events of a run in which no read and no write fails. -/
def NoFailure (es : List StreamEvent) : Prop := ∀ d e, .io d e ∈ es → e.fails = false

/-- The condition on a step: when one direction sees its end, the other one is drained. -/
def OtherDrained (s : Streaming) (e : StreamEvent) : Prop :=
  ∀ d, e = .io d .eof → (s.copy d.other).Drained

/-- The race without failures: it is still on and no direction has seen its end, or the direction
`d` has ended with everything written, the other one is as it was at that moment, and only that
moment counts. -/
def Race (sent : Direction → List UInt8) (along : Prop) (s : Streaming) : Prop :=
  (s.outcome = none ∧ s.result = none ∧ along) ∨
    ∃ d n, s.outcome = some (.ok n) ∧ (s.copy d).written = sent d ∧
      (s.copy d.other).result = none ∧ (along ↔ (s.copy d.other).Drained)

/-- A race without failures is on, or one direction has ended first. -/
theorem race_of_run
    (hrun : machine.run (start sent bytesTransferred stats now) es = some s)
    (hclean : NoFailure es) :
    Race sent (machine.Along OtherDrained (start sent bytesTransferred stats now) es) s := by
  refine machine.run_induction (Q := fun es s => NoFailure es →
    Race sent (machine.Along OtherDrained (start sent bytesTransferred stats now) es) s)
    ?_ ?_ hrun hclean
  · exact fun _ => Or.inl ⟨rfl, rfl, trivial⟩
  · intro es e q q' hq ih hstep hclean
    rw [machine.along_concat hq]
    have hrace := ih fun d i hmem => hclean d i (List.mem_append_left _ hmem)
    rcases step_cases hstep with ⟨d, i, c, k, rfl, hnone, hc, hcopy, hres⟩ |
      ⟨t, r, rfl, hsome, hcopy, hres⟩
    · -- the race is on, so nobody has seen the end so far
      obtain ⟨-, hres₀, halong⟩ : q.outcome = none ∧ q.result = none ∧ _ := by
        rcases hrace with h | ⟨d', n, h, -⟩
        · exact h
        · rw [hnone] at h
          exact absurd h (by simp)
      have hfails : i.fails = false := hclean d i (by simp)
      have hself : q'.copy d = c := by rw [hcopy, Function.update_self]
      have hother : q'.copy d.other = q.copy d.other := by
        rw [hcopy, Function.update_of_ne (other_ne d)]
      have hresults := outcome_eq_none_iff.mp hnone
      by_cases heof : i = .eof
      · subst heof
        right
        rcases CopyStream.step_cases hc with ⟨_, -, -, h, -⟩ | ⟨_, _, _, -, h, -⟩ |
          ⟨_, _, _, h, -⟩ | ⟨-, hdrained, rfl⟩ | ⟨h, -⟩
        · exact absurd h (by simp)
        · exact absurd h (by simp)
        · exact absurd h (by simp)
        · refine ⟨d, (q.copy d).totalBytes, ?_, ?_, ?_, ?_⟩
          · exact outcome_of_result (d := d) (by rw [hself]; rfl) (by rw [hother]; exact hresults _)
          · rw [hself]
            exact ((carries_of_run hq d).written_eq_iff
              (CopyStream.result_eq_none_iff.mp (hresults d))).mpr hdrained
          · rw [hother]
            exact hresults _
          · rw [hother, and_iff_right halong]
            refine ⟨fun h => h d rfl, fun h d' heq => ?_⟩
            obtain rfl : d = d' := (StreamEvent.io.inj heq).1
            exact h
        · exact absurd h (by decide)
      · left
        refine ⟨outcome_eq_none_iff.mpr fun d' => ?_, hres.trans hres₀, halong, fun d' heq => ?_⟩
        · rcases eq_or_eq_other d d' with rfl | rfl
          · rw [hself]
            exact CopyStream.result_of_step hc heof hfails
          · rw [hother]
            exact hresults _
        · exact absurd (StreamEvent.io.inj heq).2 heof
    · right
      rcases hrace with ⟨h, -⟩ | ⟨d, n, hout, hwritten, hother, halong⟩
      · rw [hsome] at h
        exact absurd h (by simp)
      · refine ⟨d, n, ?_, by rwa [hcopy], by rwa [hcopy], ?_⟩
        · rw [outcome, hcopy]
          exact hout
        · rw [hcopy, ← halong]
          exact and_iff_left fun d' heq => by simp at heq

/-- **When streaming is lossless.** In a run without failing reads and writes that returned `Ok`,
each peer was given exactly what the other sent if and only if, at the moment one direction saw its
end, the other one had read and written everything. -/
theorem lossless_iff
    (hrun : machine.run (start sent bytesTransferred stats now) es = some s)
    (hclean : NoFailure es) (hok : s.result = some (.ok ())) :
    (∀ d, (s.copy d).written = sent d) ↔
      machine.Along OtherDrained (start sent bytesTransferred stats now) es := by
  rcases race_of_run hrun hclean with ⟨-, hres, -⟩ | ⟨d, n, -, hwritten, hother, halong⟩
  · rw [hres] at hok
    exact absurd hok (by simp)
  · rw [halong, ← (carries_of_run hrun d.other).written_eq_iff
      (CopyStream.result_eq_none_iff.mp hother)]
    refine ⟨fun h => h d.other, fun h d' => ?_⟩
    rcases eq_or_eq_other d d' with rfl | rfl
    · exact hwritten
    · exact h

end run

/-! ## A client that closes its sending side first -/

/-- The client sends one byte and the upstream another. -/
def oneByteEach : Direction → List UInt8
  | .toUpstream => [1]
  | .toClient => [2]

/-- The client half-closes after its byte, before the answer arrives. -/
def clientHalfCloses : List StreamEvent :=
  [.io .toUpstream (.read 1), .io .toUpstream (.wrote 1), .io .toUpstream .eof, .finish 5]

/-- The streaming returns `Ok`, and the client was given nothing. -/
theorem halfClose_loses_answer :
    ∃ s, machine.run (start oneByteEach 0 (.new 0) 0) clientHalfCloses = some s ∧
      NoFailure clientHalfCloses ∧ s.result = some (.ok ()) ∧
      (s.copy .toUpstream).written = oneByteEach .toUpstream ∧
      (s.copy .toClient).written ≠ oneByteEach .toClient := by
  refine ⟨_, rfl, ?_, rfl, rfl, by decide⟩
  intro d e h
  simp only [clientHalfCloses, List.mem_cons, StreamEvent.io.injEq, reduceCtorEq, List.not_mem_nil,
    or_false] at h
  rcases h with ⟨-, rfl⟩ | ⟨-, rfl⟩ | ⟨-, rfl⟩ <;> rfl

/-- The client half-closes after the answer has been delivered. -/
def answerFirst : List StreamEvent :=
  [.io .toUpstream (.read 1), .io .toUpstream (.wrote 1), .io .toClient (.read 1),
    .io .toClient (.wrote 1), .io .toUpstream .eof, .finish 5]

/-- With the answer delivered first, nothing is lost. -/
theorem lossless_iff_answerFirst :
    ∃ s, machine.run (start oneByteEach 0 (.new 0) 0) answerFirst = some s ∧
      ∀ d, (s.copy d).written = oneByteEach d := by
  obtain ⟨s, hs, hok⟩ : ∃ s, machine.run (start oneByteEach 0 (.new 0) 0) answerFirst = some s ∧
      s.result = some (.ok ()) := ⟨_, rfl, rfl⟩
  refine ⟨s, hs, (lossless_iff hs ?_ hok).mpr ?_⟩
  · intro d e h
    simp only [answerFirst, List.mem_cons, StreamEvent.io.injEq, reduceCtorEq, List.not_mem_nil,
      or_false] at h
    rcases h with ⟨-, rfl⟩ | ⟨-, rfl⟩ | ⟨-, rfl⟩ | ⟨-, rfl⟩ | ⟨-, rfl⟩ <;> rfl
  · -- only the fifth event is the end of a stream
    have hskip : ∀ {q : Streaming} {d : Direction} {n : ℕ}, OtherDrained q (.io d (.read n)) ∧
        OtherDrained q (.io d (.wrote n)) := ⟨fun _ h => by simp at h, fun _ h => by simp at h⟩
    refine (machine.along_cons rfl).mpr ⟨hskip.1, (machine.along_cons rfl).mpr ⟨hskip.2, ?_⟩⟩
    refine (machine.along_cons rfl).mpr ⟨hskip.1, (machine.along_cons rfl).mpr ⟨hskip.2, ?_⟩⟩
    refine (machine.along_cons rfl).mpr ⟨fun d h => ?_, ?_⟩
    · obtain ⟨rfl, -⟩ := StreamEvent.io.inj h
      exact ⟨rfl, rfl⟩
    · exact (machine.along_cons rfl).mpr ⟨fun d h => by simp at h, trivial⟩

end Streaming

end HarbrRouter.Proxy
