import HarbrRouter.Proxy.TcpStream

/-!
# One copy loop from its start to its end

`proxy/tcp.rs`, `copy_stream`: what the loop writes, returns and counts, for every sequence of
results of its reads and writes. Other copy loops add to the same `bytes_transferred` in between.

**Theorem** (`copyStream_correct`): the loop stops at the first end or error, what it has written
are the chunks it read up to there, and what it returns and counts is their length.

While nothing stops the loop, the chunks it has read are those it has written in full, and at most
one that it is writing (`Progress`): a step of the loop keeps that (`Progress.step`), and so does
what other loops count (`progress_of_run`). The first end or error finds it so and leaves behind
what it should (`stoppedAt_of_step`), a loop that is done is told nothing more (`run_of_done`), and
every sequence of results has a first one that stops the loop or none (`exists_first_stop`).
-/

set_option autoImplicit false

namespace HarbrRouter.Proxy

open Transition

/-! ## What a step counts -/

/-- Does the loop stop at this result of the operating system? -/
def IoEvent.stops : IoEvent → Bool
  | .eof => true
  | e => e.fails

namespace CopyStream

/-- The steps of a copy loop, by its phase, with what is added to `metrics.bytes_transferred`. -/
inductive CopyStep (c : CopyStream) : CopyPhase → IoEvent → CopyStream → ℕ → Prop
  | read {n : ℕ} (hpos : 0 < n) (hbuffer : n ≤ copyBufferLen) (hunread : n ≤ c.unread.length) :
      CopyStep c .reading (.read n)
        { c with unread := c.unread.drop n, phase := .writing (c.unread.take n) n } 0
  | eof (hunread : c.unread = []) :
      CopyStep c .reading .eof { c with phase := .done (.ok c.totalBytes) } 0
  | unexpectedEof :
      CopyStep c .reading .readUnexpectedEof { c with phase := .done (.ok c.totalBytes) } 0
  | readError {e : String} :
      CopyStep c .reading (.readError e) { c with
        phase := .done (.error (.network ("Read failed: " ++ e) .connectionFailed)) } 0
  | wrotePart {rest : List UInt8} {bytesRead n : ℕ} (hpos : 0 < n) (hn : n < rest.length) :
      CopyStep c (.writing rest bytesRead) (.wrote n) { c with
        written := c.written ++ rest.take n
        phase := .writing (rest.drop n) bytesRead } 0
  | wroteRest {rest : List UInt8} {bytesRead n : ℕ} (hpos : 0 < n) (hn : n = rest.length) :
      CopyStep c (.writing rest bytesRead) (.wrote n) { c with
        written := c.written ++ rest
        totalBytes := wrappingAdd c.totalBytes bytesRead
        phase := .reading } bytesRead
  | writeError {rest : List UInt8} {bytesRead : ℕ} {e : String} :
      CopyStep c (.writing rest bytesRead) (.writeError e) { c with
        phase := .done (.error (.network ("Write failed: " ++ e) .connectionFailed)) } 0

variable {c c' : CopyStream} {e : IoEvent} {k : ℕ}

/-- Every step of the loop is one of these. -/
theorem step_inv (h : c.step e = some (c', k)) : CopyStep c c.phase e c' k := by
  unfold step at h
  split at h
  · next n hphase =>
      split_ifs at h with hn
      obtain ⟨rfl, rfl⟩ := Prod.mk.inj (Option.some.inj h)
      rw [hphase]
      exact .read hn.1 hn.2.1 hn.2.2
  · next hphase =>
      split_ifs at h with hunread
      obtain ⟨rfl, rfl⟩ := Prod.mk.inj (Option.some.inj h)
      rw [hphase]
      exact .eof hunread
  · next hphase =>
      obtain ⟨rfl, rfl⟩ := Prod.mk.inj (Option.some.inj h)
      rw [hphase]
      exact .unexpectedEof
  · next hphase =>
      obtain ⟨rfl, rfl⟩ := Prod.mk.inj (Option.some.inj h)
      rw [hphase]
      exact .readError
  · next rest bytesRead n hphase =>
      split_ifs at h with hn hpart
      · obtain ⟨rfl, rfl⟩ := Prod.mk.inj (Option.some.inj h)
        rw [hphase]
        exact .wrotePart (by omega) hpart
      · obtain ⟨rfl, rfl⟩ := Prod.mk.inj (Option.some.inj h)
        rw [hphase]
        exact .wroteRest (by omega) (by omega)
  · next hphase =>
      obtain ⟨rfl, rfl⟩ := Prod.mk.inj (Option.some.inj h)
      rw [hphase]
      exact .writeError
  · exact absurd h (by simp)

/-- A loop that is done takes no more steps. -/
theorem step_of_done {r : Result ℕ} (hphase : c.phase = .done r) (e : IoEvent) :
    c.step e = none := by
  unfold step
  rw [hphase]

/-! ## The bytes of a chunk -/

/-- The bytes of the chunk being written that are still to write. -/
def pending (c : CopyStream) : ℕ :=
  match c.phase with
  | .writing rest _ => rest.length
  | _ => 0

/-- The bytes of that chunk that are written, and not counted yet. -/
def uncounted (c : CopyStream) : ℕ :=
  match c.phase with
  | .writing rest bytesRead => bytesRead - rest.length
  | _ => 0

/-- A chunk that is being written has something to write, and was read. -/
def WellFormed (c : CopyStream) : Prop :=
  match c.phase with
  | .writing rest bytesRead => rest ≠ [] ∧ rest.length ≤ bytesRead
  | _ => True

/-- With nothing to write, everything written is counted. -/
theorem WellFormed.uncounted_eq_zero (h : c.WellFormed) (hpending : c.pending = 0) :
    c.uncounted = 0 := by
  unfold WellFormed at h
  unfold pending at hpending
  unfold uncounted
  split at h
  · next hphase =>
      rw [hphase] at hpending
      exact absurd (List.eq_nil_of_length_eq_zero hpending) h.1
  · rfl

end CopyStream

/-- The bytes that a read gives. -/
def IoEvent.bytesRead : IoEvent → ℕ
  | .read n => n
  | _ => 0

/-- The bytes that a write accepts. -/
def IoEvent.bytesWritten : IoEvent → ℕ
  | .wrote n => n
  | _ => 0

namespace CopyStream

variable {c c' : CopyStream} {e : IoEvent} {k : ℕ}

/-- Unless a write fails, every byte that was read is written or still to write, and every byte
that was written is counted or still to count. -/
theorem WellFormed.step (h : c.WellFormed) (hstep : c.step e = some (c', k))
    (hwrites : ∀ text, e ≠ .writeError text) :
    c'.WellFormed ∧ c.pending + e.bytesRead = c'.pending + e.bytesWritten ∧
      c.uncounted + e.bytesWritten = c'.uncounted + k := by
  have hcases := step_inv hstep
  unfold WellFormed pending uncounted at *
  generalize hphase : c.phase = phase at hcases h
  cases hcases with
  | @read n hpos hbuffer hunread =>
      have hlength : (c.unread.take n).length = n := by
        rw [List.length_take, Nat.min_eq_left hunread]
      refine ⟨⟨fun hnil => ?_, hlength.le⟩, ?_, ?_⟩
      · rw [hnil] at hlength
        exact hpos.ne hlength
      · simp [IoEvent.bytesRead, IoEvent.bytesWritten, hlength]
      · simp [IoEvent.bytesWritten, hlength]
  | eof | unexpectedEof | readError => exact ⟨trivial, rfl, rfl⟩
  | @wrotePart rest bytesRead n hpos hn =>
      have hlength : (rest.drop n).length = rest.length - n := List.length_drop
      simp only [IoEvent.bytesRead, IoEvent.bytesWritten, hlength]
      refine ⟨⟨fun hnil => ?_, ?_⟩, ?_, ?_⟩
      · rw [hnil] at hlength
        simp only [List.length_nil] at hlength
        omega
      · omega
      · omega
      · omega
  | wroteRest hpos hn =>
      simp only [IoEvent.bytesRead, IoEvent.bytesWritten]
      refine ⟨trivial, ?_, ?_⟩
      · omega
      · omega
  | writeError => exact absurd rfl (hwrites _)

/-! ## The chunks of a loop that goes on -/

/-- What a loop that goes on has done with the `chunks` it has read: those of `full` are written and
counted, and the last one, of which a part may be written, is being written, unless the loop
reads. -/
def Progress (c : CopyStream) (chunks full : List (List UInt8)) : Prop :=
  c.totalBytes = full.flatten.length % 2 ^ 64 ∧
  match c.phase with
  | .reading => chunks = full ∧ c.written = full.flatten
  | .writing rest bytesRead => ∃ part, chunks = full ++ [part ++ rest] ∧ rest ≠ [] ∧
      bytesRead = (part ++ rest).length ∧ c.written = full.flatten ++ part
  | .done _ => False

/-- The chunk that a read puts into the buffer. -/
def chunkOf (c : CopyStream) : IoEvent → List (List UInt8)
  | .read n => [c.unread.take n]
  | _ => []

/-- A step that does not stop the loop keeps its progress, and counts the chunk that it ends. -/
theorem Progress.step {chunks full : List (List UInt8)} (h : c.Progress chunks full)
    (hgoes : e.stops = false) (hstep : c.step e = some (c', k)) :
    ∃ full', c'.Progress (chunks ++ c.chunkOf e) full' ∧
      full'.flatten.length = full.flatten.length + k := by
  have hcases := step_inv hstep
  obtain ⟨htotal, h⟩ := h
  generalize hphase : c.phase = phase at hcases h
  cases hcases with
  | read hpos hbuffer hunread =>
      obtain ⟨rfl, hwritten⟩ := h
      refine ⟨chunks, ⟨htotal, [], by simp [chunkOf], ?_, ?_, by simpa using hwritten⟩, rfl⟩
      · intro hnil
        have := congrArg List.length hnil
        simp only [List.length_take, List.length_nil] at this
        omega
      · rw [List.nil_append, List.length_take, Nat.min_eq_left hunread]
  | wrotePart hpos hn =>
      next rest bytesRead n =>
      obtain ⟨part, rfl, -, hlength, hwritten⟩ := h
      have hchunk : part ++ rest.take n ++ rest.drop n = part ++ rest := by
        rw [List.append_assoc, List.take_append_drop]
      refine ⟨full, ⟨htotal, part ++ rest.take n, by simp [chunkOf], ?_, ?_, ?_⟩, rfl⟩
      · intro hnil
        have := congrArg List.length hnil
        simp only [List.length_drop, List.length_nil] at this
        omega
      · rw [hchunk, hlength]
      · rw [← List.append_assoc, hwritten]
  | wroteRest hpos hn =>
      next rest n =>
      obtain ⟨part, rfl, -, hlength, hwritten⟩ := h
      refine ⟨full ++ [part ++ rest], ⟨?_, by simp [chunkOf], by simp [hwritten]⟩, ?_⟩
      · simp [htotal, wrappingAdd, hlength]
      · simp [hlength]
  | eof | unexpectedEof | readError | writeError =>
      exact absurd hgoes (by simp [IoEvent.stops, IoEvent.fails])

end CopyStream

/-! ## The loop beside others -/

/-- A copy loop and the counter that it shares. -/
structure Copying where
  copy : CopyStream
  /-- `metrics.bytes_transferred` -/
  bytesTransferred : ℕ

namespace Copying

/-- A result of the operating system for the loop, or a `fetch_add` of another loop. -/
inductive Event where
  | io (e : IoEvent)
  | others (bytes : ℕ)

/-- The loop goes on, or another one counts. Source: `proxy/tcp.rs`, `TcpProxy::copy_stream` -/
def machine : Machine Copying Event where
  step s
    | .io e => (s.copy.step e).map fun r => ⟨r.1, wrappingAdd s.bytesTransferred r.2⟩
    | .others bytes => some { s with bytesTransferred := wrappingAdd s.bytesTransferred bytes }

/-- The chunks that a step reads. -/
def readOf (s : Copying) : Event → Copying → List (List UInt8)
  | .io e, _ => s.copy.chunkOf e
  | .others _, _ => []

/-- What the other loops count. -/
def othersCounted : List Event → ℕ
  | [] => 0
  | .io _ :: es => othersCounted es
  | .others bytes :: es => bytes + othersCounted es

/-- The other loops count in a run what they count in its two parts. -/
theorem othersCounted_append (es es' : List Event) :
    othersCounted (es ++ es') = othersCounted es + othersCounted es' := by
  induction es with
  | nil => simp [othersCounted]
  | cons e es ih =>
      cases e with
      | io => exact ih
      | others bytes => simp only [List.cons_append, othersCounted, ih, Nat.add_assoc]

variable {s s' : Copying} {es : List Event} {source : List UInt8} {counter : ℕ}

/-- A step of the loop, with what it does to the counter. -/
theorem step_io {e : IoEvent} (h : machine.step s (.io e) = some s') :
    ∃ k, s.copy.step e = some (s'.copy, k) ∧
      s'.bytesTransferred = wrappingAdd s.bytesTransferred k := by
  obtain ⟨r, hr, rfl⟩ := Option.map_eq_some_iff.mp h
  exact ⟨r.2, hr, rfl⟩

/-- No result of the operating system stops the loop. -/
def NoStop (es : List Event) : Prop := ∀ e, .io e ∈ es → e.stops = false

/-- A loop that is not stopped has written the chunks it has read, but for the one that it is
writing, and has counted those. -/
theorem progress_of_run (hcounter : counter < 2 ^ 64)
    (hrun : machine.run ⟨.start source, counter⟩ es = some s) (hgoes : NoStop es) :
    ∃ full, s.copy.Progress (machine.log readOf ⟨.start source, counter⟩ es) full ∧
      s.bytesTransferred = (counter + othersCounted es + full.flatten.length) % 2 ^ 64 := by
  refine machine.run_induction (Q := fun es s => NoStop es →
    ∃ full, s.copy.Progress (machine.log readOf ⟨.start source, counter⟩ es) full ∧
      s.bytesTransferred = (counter + othersCounted es + full.flatten.length) % 2 ^ 64)
    ?_ ?_ hrun hgoes
  · exact fun _ => ⟨[], ⟨rfl, rfl, rfl⟩, (Nat.mod_eq_of_lt hcounter).symm⟩
  · intro es e q q' hq ih hstep hgoes
    obtain ⟨full, hprogress, hcounted⟩ := ih fun i hi => hgoes i (List.mem_append_left _ hi)
    rw [machine.log_concat readOf hq hstep, othersCounted_append]
    cases e with
    | io e =>
        obtain ⟨k, hcopy, hcounter'⟩ := step_io hstep
        obtain ⟨full', hprogress', hlength⟩ := hprogress.step (hgoes e (by simp)) hcopy
        refine ⟨full', hprogress', ?_⟩
        rw [hcounter', hcounted, hlength]
        simp only [othersCounted, wrappingAdd]
        omega
    | others bytes =>
        obtain rfl := Option.some.inj hstep
        refine ⟨full, by simpa [readOf] using hprogress, ?_⟩
        simp only [hcounted, othersCounted, wrappingAdd]
        omega

/-- A loop that is done stays as it is: it is asked nothing more, and only the others count. -/
theorem run_of_done {r : Result ℕ} (hdone : s.copy.phase = .done r)
    (hcounter : s.bytesTransferred < 2 ^ 64) (hrun : machine.run s es = some s') :
    s'.copy = s.copy ∧ (∀ e, .io e ∉ es) ∧ machine.log readOf s es = [] ∧
      s'.bytesTransferred = (s.bytesTransferred + othersCounted es) % 2 ^ 64 := by
  refine machine.run_induction (Q := fun es s' => s'.copy = s.copy ∧ (∀ e, .io e ∉ es) ∧
    machine.log readOf s es = [] ∧
    s'.bytesTransferred = (s.bytesTransferred + othersCounted es) % 2 ^ 64) ?_ ?_ hrun
  · exact ⟨rfl, by simp, rfl, (Nat.mod_eq_of_lt hcounter).symm⟩
  · rintro es e q q' hq ⟨hcopy, hquiet, hlog, hcounted⟩ hstep
    cases e with
    | io e =>
        obtain ⟨k, hmove, -⟩ := step_io hstep
        rw [hcopy, CopyStream.step_of_done hdone] at hmove
        exact absurd hmove (by simp)
    | others bytes =>
        rw [machine.log_concat readOf hq hstep, othersCounted_append, hlog]
        obtain rfl := Option.some.inj hstep
        refine ⟨hcopy, by simpa using hquiet, rfl, ?_⟩
        simp only [hcounted, othersCounted, wrappingAdd]
        omega

/-! ## What the loop leaves behind -/

/-- What a loop that stopped at this result of the operating system has done with the `chunks` that
it read; `before` is what the counter would be without it. -/
def StoppedAt (chunks : List (List UInt8)) (before : ℕ) (s : Copying) : IoEvent → Prop
  | .eof | .readUnexpectedEof =>
      s.copy.written = chunks.flatten ∧
        s.copy.result = some (.ok (chunks.flatten.length % 2 ^ 64)) ∧
        s.bytesTransferred = (before + chunks.flatten.length) % 2 ^ 64
  | .readError e =>
      s.copy.written = chunks.flatten ∧
        s.copy.result = some (.error (.network ("Read failed: " ++ e) .connectionFailed)) ∧
        s.bytesTransferred = (before + chunks.flatten.length) % 2 ^ 64
  | .writeError e =>
      -- the last chunk, of which a part may be written, is not counted
      ∃ full part rest, chunks = full ++ [part ++ rest] ∧ rest ≠ [] ∧
        s.copy.written = full.flatten ++ part ∧
        s.copy.result = some (.error (.network ("Write failed: " ++ e) .connectionFailed)) ∧
        s.bytesTransferred = (before + full.flatten.length) % 2 ^ 64
  | .read _ | .wrote _ => False

/-- The step that stops a loop leaves behind what it should. -/
theorem stoppedAt_of_step {chunks full : List (List UInt8)} {before : ℕ} {e : IoEvent}
    (hprogress : s.copy.Progress chunks full)
    (hcounted : s.bytesTransferred = (before + full.flatten.length) % 2 ^ 64)
    (hstops : e.stops = true) (hstep : machine.step s (.io e) = some s') :
    (∃ r, s'.copy.phase = .done r) ∧ s'.bytesTransferred < 2 ^ 64 ∧ s.copy.chunkOf e = [] ∧
      StoppedAt chunks before s' e := by
  obtain ⟨c', counted'⟩ := s'
  obtain ⟨k, hcopy, hcounter⟩ := step_io hstep
  have hcases := CopyStream.step_inv hcopy
  obtain ⟨htotal, h⟩ := hprogress
  have hlt : s.bytesTransferred < 2 ^ 64 := by omega
  -- a step that stops the loop counts nothing
  have hsame : k = 0 → counted' = s.bytesTransferred := by
    rintro rfl
    exact hcounter.trans (Nat.mod_eq_of_lt hlt)
  generalize hphase : s.copy.phase = phase at hcases h
  cases hcases with
  | eof | unexpectedEof =>
      obtain ⟨rfl, hwritten⟩ := h
      obtain rfl := hsame rfl
      refine ⟨⟨_, rfl⟩, hlt, rfl, hwritten, ?_, hcounted⟩
      rw [← htotal]
      rfl
  | readError =>
      obtain ⟨rfl, hwritten⟩ := h
      obtain rfl := hsame rfl
      exact ⟨⟨_, rfl⟩, hlt, rfl, hwritten, rfl, hcounted⟩
  | writeError =>
      obtain ⟨part, rfl, hrest, -, hwritten⟩ := h
      obtain rfl := hsame rfl
      exact ⟨⟨_, rfl⟩, hlt, rfl, full, part, _, rfl, hrest, hwritten, rfl, hcounted⟩
  | read | wrotePart | wroteRest => exact absurd hstops (by simp [IoEvent.stops, IoEvent.fails])

/-- What the other loops count after a loop has stopped comes on top in the counter. -/
theorem StoppedAt.later {chunks : List (List UInt8)} {before more : ℕ} {e : IoEvent}
    (h : StoppedAt chunks before s e) (hcopy : s'.copy = s.copy)
    (hcounted : s'.bytesTransferred = (s.bytesTransferred + more) % 2 ^ 64) :
    StoppedAt chunks (before + more) s' e := by
  have hmore : ∀ n, s.bytesTransferred = (before + n) % 2 ^ 64 →
      s'.bytesTransferred = (before + more + n) % 2 ^ 64 := by
    intro n hn
    rw [hcounted, hn]
    omega
  cases e with
  | eof | readUnexpectedEof | readError =>
      obtain ⟨hwritten, hresult, hcount⟩ := h
      exact ⟨hcopy ▸ hwritten, hcopy ▸ hresult, hmore _ hcount⟩
  | writeError =>
      obtain ⟨full, part, rest, hchunks, hrest, hwritten, hresult, hcount⟩ := h
      exact ⟨full, part, rest, hchunks, hrest, hcopy ▸ hwritten, hcopy ▸ hresult, hmore _ hcount⟩
  | read | wrote => exact h

/-- Where something stops the loop, something is the first to do so. -/
theorem exists_first_stop (h : ¬ NoStop es) :
    ∃ es₁ e es₂, es = es₁ ++ .io e :: es₂ ∧ e.stops = true ∧ NoStop es₁ := by
  induction es with
  | nil => exact absurd (fun e he => absurd he (by simp)) h
  | cons a es ih =>
      by_cases hhead : ∃ e, a = .io e ∧ e.stops = true
      · obtain ⟨e, rfl, hstops⟩ := hhead
        exact ⟨[], e, es, rfl, hstops, fun e he => absurd he (by simp)⟩
      · have hgoes : ∀ e, a = .io e → e.stops = false := fun e he => by
          simpa using fun hstops => hhead ⟨e, he, hstops⟩
        have htail : ¬ NoStop es := fun hes => h fun e he => by
          rcases List.mem_cons.mp he with heq | he
          · exact hgoes e heq.symm
          · exact hes e he
        obtain ⟨es₁, e, es₂, rfl, hstops, hes₁⟩ := ih htail
        refine ⟨a :: es₁, e, es₂, rfl, hstops, fun i hi => ?_⟩
        rcases List.mem_cons.mp hi with heq | hi
        · exact hgoes i heq.symm
        · exact hes₁ i hi

/-- A loop that returned a total returned the length of what it wrote, as far as a word can tell. -/
theorem StoppedAt.total {chunks : List (List UInt8)} {before total : ℕ} {e : IoEvent}
    (h : StoppedAt chunks before s e) (hok : s.copy.result = some (.ok total))
    (hsmall : s.copy.written.length < 2 ^ 64) : total = s.copy.written.length := by
  cases e with
  | eof | readUnexpectedEof =>
      obtain ⟨hwritten, hresult, -⟩ := h
      rw [hok, ← hwritten, Nat.mod_eq_of_lt hsmall] at hresult
      exact Except.ok.inj (Option.some.inj hresult)
  | readError =>
      obtain ⟨-, hresult, -⟩ := h
      rw [hok] at hresult
      exact absurd hresult (by simp)
  | writeError =>
      obtain ⟨_, _, _, -, -, -, hresult, -⟩ := h
      rw [hok] at hresult
      exact absurd hresult (by simp)
  | read | wrote => exact h.elim

/-- A loop that is not stopped has no result. -/
theorem result_of_noStop (hcounter : counter < 2 ^ 64)
    (hrun : machine.run ⟨.start source, counter⟩ es = some s) (hgoes : NoStop es) :
    s.copy.result = none := by
  obtain ⟨full, ⟨-, hprogress⟩, -⟩ := progress_of_run hcounter hrun hgoes
  rw [CopyStream.result_eq_none_iff]
  intro r hphase
  rwa [hphase] at hprogress

/-- The first end or error is the last thing that a loop is told, and it leaves behind what it
should. -/
theorem stoppedAt_of_run (hcounter : counter < 2 ^ 64) {es₁ es₂ : List Event} {e : IoEvent}
    (hrun : machine.run ⟨.start source, counter⟩ (es₁ ++ .io e :: es₂) = some s)
    (hstops : e.stops = true) (hgoes : NoStop es₁) :
    (∀ i, .io i ∉ es₂) ∧
      StoppedAt (machine.log readOf ⟨.start source, counter⟩ (es₁ ++ .io e :: es₂))
        (counter + othersCounted (es₁ ++ .io e :: es₂)) s e := by
  obtain ⟨s₁, hrun₁, hrest⟩ := machine.run_append_eq_some.mp hrun
  obtain ⟨s₂, hstep, hrun₂⟩ := machine.run_cons_eq_some.mp hrest
  obtain ⟨full, hprogress, hcounted⟩ := progress_of_run hcounter hrun₁ hgoes
  obtain ⟨⟨r, hdone⟩, hlt, hchunk, hleft⟩ := stoppedAt_of_step hprogress hcounted hstops hstep
  obtain ⟨hcopy, hquiet, hlog, hcounter'⟩ := run_of_done hdone hlt hrun₂
  have hchunks : machine.log readOf ⟨.start source, counter⟩ (es₁ ++ .io e :: es₂) =
      machine.log readOf ⟨.start source, counter⟩ es₁ := by
    rw [machine.log_append readOf _ hrun₁]
    simp [Machine.log, hstep, hlog, readOf, hchunk]
  refine ⟨hquiet, ?_⟩
  rw [hchunks, othersCounted_append, ← Nat.add_assoc]
  exact hleft.later hcopy hcounter'

/-- **What a copy loop does.** For every sequence of results of its reads and writes, with any
counting of other loops in between: a loop without a result has met no end and no error; at the
first end or error it stops for good, and what it wrote, returned and counted are the chunks that it
read before that. -/
theorem copyStream_correct (source : List UInt8) (counter : ℕ) (hcounter : counter < 2 ^ 64)
    (es : List Event) (s : Copying)
    (hrun : machine.run ⟨.start source, counter⟩ es = some s) :
    (NoStop es → s.copy.result = none) ∧
      (∀ es₁ e es₂, es = es₁ ++ .io e :: es₂ → e.stops = true →
        NoStop es₁ ∧ (∀ i, .io i ∉ es₂) ∧
        StoppedAt (machine.log readOf ⟨.start source, counter⟩ es)
          (counter + othersCounted es) s e) ∧
      ∀ total, s.copy.result = some (.ok total) → s.copy.written.length < 2 ^ 64 →
        total = s.copy.written.length := by
  refine ⟨result_of_noStop hcounter hrun, ?_, ?_⟩
  · rintro es₁ e es₂ rfl hstops
    have hfirst : NoStop es₁ := by
      by_contra hstop
      obtain ⟨es₀, i, es₃, rfl, hi, hgoes⟩ := exists_first_stop hstop
      rw [List.append_assoc, List.cons_append] at hrun
      exact (stoppedAt_of_run hcounter hrun hi hgoes).1 e (by simp)
    exact ⟨hfirst, stoppedAt_of_run hcounter hrun hstops hfirst⟩
  · intro total hok hsmall
    have hstop : ¬ NoStop es := fun hgoes => by
      rw [result_of_noStop hcounter hrun hgoes] at hok
      exact absurd hok (by simp)
    obtain ⟨es₁, e, es₂, rfl, hstops, hgoes⟩ := exists_first_stop hstop
    exact (stoppedAt_of_run hcounter hrun hstops hgoes).2.total hok hsmall

/-- Three bytes in two chunks, with a partial write and another loop in between, and the end. -/
def threeBytes : List Event :=
  [.io (.read 2), .io (.wrote 1), .others 10, .io (.wrote 1), .io (.read 1), .io (.wrote 1),
    .io .eof]

/-- The three bytes are written, returned and counted. -/
theorem copyStream_correct_threeBytes :
    ∃ s, machine.run ⟨.start [7, 8, 9], 5⟩ threeBytes = some s ∧ s.copy.written = [7, 8, 9] ∧
      s.copy.result = some (.ok 3) ∧ s.bytesTransferred = 18 := by
  obtain ⟨s, hs⟩ : ∃ s, machine.run ⟨.start [7, 8, 9], 5⟩ threeBytes = some s := ⟨_, rfl⟩
  obtain ⟨hwritten, hresult, hcounted⟩ :=
    ((copyStream_correct [7, 8, 9] 5 (by decide) threeBytes s hs).2.1 (threeBytes.take 6) .eof []
      rfl rfl).2.2
  exact ⟨s, hs, hwritten, hresult, hcounted⟩

end Copying

end HarbrRouter.Proxy
