import Mathlib.Data.Nat.Notation
import Mathlib.Data.List.Infix
import Rieul.Lib.Monitor

/-!
# The input channel of the browser (web/src/protocol/desktop-input.ts)

`tail` runs the jobs of `send` and `flush` one after the other. A job rests at what it awaits;
meanwhile events are enqueued, and the channel may be aborted.
-/

namespace Rieul.Web.InputChannel

def frameLimit : ℕ := 16 * 1024

def rolloverLimit : ℕ := 7 * 1024 * 1024

def queueLimit : ℕ := 128

structure Epochs where
  inputEpoch : ℕ
  layoutEpoch : ℕ

/-- An event, with the epochs at its `send`. -/
structure Sent (ε : Type) where
  epochs : Epochs
  event : ε

structure Frame (ε : Type) where
  epochs : Epochs
  sequence : ℕ
  event : ε

structure Encoder (ε : Type) where
  payload : Frame ε → Option ℕ
  message : Bool → ℕ → ℕ

structure InputStream where
  bytes : ℕ
  lastSequence : ℕ
  started : Bool

inductive Job (ε : Type) where
  | send (sent : Sent ε)
  | finish

def Job.sent {ε : Type} : Job ε → Option (Sent ε)
  | .send sent => some sent
  | .finish => none

/-- What the running job awaits. `next` is the event for which `finish` makes room. -/
inductive Stage (ε : Type) where
  | close (stream : InputStream) (next : Option (Sent ε))
  | receipt (stream : InputStream) (next : Option (Sent ε))
  | opening (sent : Sent ε)
  | write (bytes : ℕ)

/-- What the transport sees. A stream that is `refused` opened too late and is aborted at once. -/
inductive Entry (ε : Type) where
  | opened
  | wrote (frame : Frame ε)
  | finished (receipt : ℕ)
  | aborted
  | refused

/-- `accepted` are the events for which `send` returned true. -/
structure Channel (ε : Type) where
  epochs : Epochs
  jobs : List (Job ε)
  stage : Option (Stage ε)
  pending : ℕ
  sequence : ℕ
  stream : Option InputStream
  closed : Bool
  log : List (Entry ε)
  accepted : List (Sent ε)

variable {ε : Type}

def Channel.new (epochs : Epochs) : Channel ε :=
  ⟨epochs, [], none, 0, 0, none, false, [], []⟩

def abort (c : Channel ε) : Channel ε :=
  if c.closed then c
  else
    { c with
      closed := true
      stream := none
      log := c.log ++ if c.stream.isSome then [.aborted] else [] }

/-- The end of a job of `send`. -/
def settle (c : Channel ε) : Channel ε := { c with stage := none, pending := c.pending - 1 }

def write (encoder : Encoder ε) (c : Channel ε) (stream : InputStream) (sent : Sent ε) :
    Channel ε :=
  let frame : Frame ε := ⟨sent.epochs, c.sequence + 1, sent.event⟩
  let c := { c with sequence := c.sequence + 1 }
  match encoder.payload frame with
  | none => settle (abort c)
  | some length =>
    if frameLimit < length then settle (abort c)
    else
      { c with
        log := c.log ++ [.wrote frame]
        stage := some (.write (encoder.message stream.started length)) }

def proceed (encoder : Encoder ε) (c : Channel ε) (sent : Sent ε) : Channel ε :=
  match c.stream with
  | some stream => write encoder c stream sent
  | none => { c with stage := some (.opening sent) }

def start (encoder : Encoder ε) (c : Channel ε) : Job ε → Channel ε
  | .finish =>
    match c.stream with
    | some stream => { c with stage := some (.close stream none) }
    | none => c
  | .send sent =>
    if c.closed then settle c
    else
      match c.stream with
      | some stream =>
        if rolloverLimit ≤ stream.bytes then { c with stage := some (.close stream (some sent)) }
        else write encoder c stream sent
      | none => { c with stage := some (.opening sent) }

/-- `finish` throws. -/
def refuse (c : Channel ε) : Option (Sent ε) → Channel ε
  | none => { abort c with stage := none }
  | some _ => settle (abort c)

/-- `finish` returns; the stream is that of the channel, or the channel has none any more. -/
def finish (encoder : Encoder ε) (c : Channel ε) (receipt : ℕ) (next : Option (Sent ε)) :
    Channel ε :=
  let c := { c with stream := none, log := c.log ++ [.finished receipt] }
  match next with
  | none => { c with stage := none }
  | some sent => proceed encoder c sent

/-- `ok` for a stream, a write or a close that succeeds. A response that is no receipt is an error,
and so is what takes too long. -/
inductive Answer where
  | ok
  | receipt (lastSequence : ℕ)
  | error

def resume (encoder : Encoder ε) (c : Channel ε) : Stage ε → Answer → Channel ε
  | .close stream next, .ok => { c with stage := some (.receipt stream next) }
  | .close _ next, _ => refuse c next
  | .receipt stream next, .receipt lastSequence =>
    if lastSequence = stream.lastSequence then finish encoder c lastSequence next
    else refuse c next
  | .receipt _ next, _ => refuse c next
  | .opening sent, .ok =>
    if c.closed then settle { c with log := c.log ++ [.refused] }
    else write encoder { c with stream := some ⟨0, 0, false⟩, log := c.log ++ [.opened] }
      ⟨0, 0, false⟩ sent
  | .write bytes, .ok =>
    -- an aborted stream is no longer that of the channel
    settle { c with stream := c.stream.map fun s => ⟨s.bytes + bytes, c.sequence, true⟩ }
  | _, _ => settle (abort c)

inductive Action (ε : Type) where
  | epochs (now : Epochs)
  | send (event : ε)
  | flush
  | abort
  | start
  | resume (answer : Answer)
  /-- A stream opens after its time. -/
  | late

def step (encoder : Encoder ε) (c : Channel ε) : Action ε → Channel ε
  | .epochs now => { c with epochs := now }
  | .send event =>
    if c.closed then c
    else if queueLimit ≤ c.pending then InputChannel.abort c
    else
      { c with
        pending := c.pending + 1
        jobs := c.jobs ++ [.send ⟨c.epochs, event⟩]
        accepted := c.accepted ++ [⟨c.epochs, event⟩] }
  | .flush => { c with jobs := c.jobs ++ [.finish] }
  | .abort => InputChannel.abort c
  | .start =>
    match c.stage, c.jobs with
    | none, job :: jobs => InputChannel.start encoder { c with jobs := jobs } job
    | _, _ => c
  | .resume answer =>
    match c.stage with
    | some stage => InputChannel.resume encoder c stage answer
    | none => c
  | .late => if c.closed then { c with log := c.log ++ [.refused] } else c

def run (encoder : Encoder ε) (c : Channel ε) (actions : List (Action ε)) : Channel ε :=
  actions.foldl (step encoder) c

/-- `last` is what the stream that was opened last carried last. -/
structure Wire where
  isOpen : Bool
  last : Option ℕ
  count : ℕ

def Wire.next (w : Wire) : Entry ε → Wire
  | .opened => { w with isOpen := true, last := none }
  | .wrote frame => { w with last := some frame.sequence, count := w.count + 1 }
  | .finished _ => { w with isOpen := false }
  | .aborted => { w with isOpen := false }
  | .refused => w

def Wire.Allows (w : Wire) : Entry ε → Prop
  | .opened => w.isOpen = false
  | .wrote frame => w.isOpen = true ∧ frame.sequence = w.count + 1
  | .finished receipt => w.last = some receipt
  | .aborted => w.isOpen = true
  | .refused => w.isOpen = false

def Wire.silent : Wire := ⟨false, none, 0⟩

def Channel.wire (c : Channel ε) : Wire := c.log.foldl Wire.next .silent

def Entry.frame : Entry ε → Option (Frame ε)
  | .wrote frame => some frame
  | _ => none

def Channel.frames (c : Channel ε) : List (Frame ε) := c.log.filterMap Entry.frame

def numbered (accepted : List (Sent ε)) : List (Frame ε) :=
  accepted.mapIdx fun i sent => ⟨sent.epochs, i + 1, sent.event⟩

def Stage.waiting : Stage ε → List (Sent ε)
  | .close _ next => next.toList
  | .receipt _ next => next.toList
  | .opening sent => [sent]
  | .write _ => []

def Channel.waiting (c : Channel ε) : List (Sent ε) :=
  (c.stage.elim [] Stage.waiting) ++ c.jobs.filterMap Job.sent

structure Channel.Sound (c : Channel ε) : Prop where
  orderly : Monitor.Orderly Wire.next Wire.Allows Wire.silent c.log
  isOpen : c.wire.isOpen = c.stream.isSome
  closed : c.closed = true → c.stream = none
  sent : c.frames <+: numbered c.accepted

def Channel.Holds (c : Channel ε) (waiting : List (Sent ε)) : Prop :=
  c.closed = false → ∃ done, c.accepted = done ++ waiting ∧ c.frames = numbered done ∧
    c.sequence = done.length

def Channel.Fits (c : Channel ε) : Option (Stage ε) → Prop
  | none => ∀ stream, c.stream = some stream → c.wire.last = some stream.lastSequence
  | some (.close stream _) =>
    c.wire.last = some stream.lastSequence ∧ (c.closed = false → c.stream = some stream)
  | some (.receipt stream _) =>
    c.wire.last = some stream.lastSequence ∧ (c.closed = false → c.stream = some stream)
  | some (.opening _) => c.stream = none
  | some (.write _) => ∀ stream, c.stream = some stream → c.wire.last = some c.sequence

structure Channel.Kept (c : Channel ε) : Prop where
  sound : c.Sound
  holds : c.Holds c.waiting
  fits : c.Fits c.stage

structure Channel.Leads (c d : Channel ε) : Prop where
  kept : d.Kept
  quiet : c.closed = true → d.closed = true ∧ d.frames = c.frames

theorem numbered_snoc (done : List (Sent ε)) (sent : Sent ε) :
    numbered (done ++ [sent]) = numbered done ++ [⟨sent.epochs, done.length + 1, sent.event⟩] := by
  simp [numbered, List.mapIdx_append]

theorem numbered_grows (done rest : List (Sent ε)) : numbered done <+: numbered (done ++ rest) := by
  unfold numbered
  rw [List.mapIdx_append]
  exact List.prefix_append _ _

theorem frames_snoc (log : List (Entry ε)) (e : Entry ε) (he : e.frame = none) :
    (log ++ [e]).filterMap Entry.frame = log.filterMap Entry.frame := by
  rw [List.filterMap_append, List.filterMap_cons_none he]
  exact List.append_nil _

theorem count_foldl (w : Wire) (log : List (Entry ε)) :
    (log.foldl Wire.next w).count = w.count + (log.filterMap Entry.frame).length := by
  induction log generalizing w with
  | nil => rfl
  | cons e log ih =>
    rw [List.foldl_cons, ih]
    cases e with
    | wrote frame =>
      rw [List.filterMap_cons_some (b := frame) (f := Entry.frame) rfl, List.length_cons]
      simp only [Wire.next]
      omega
    | opened | finished receipt | aborted | refused => rfl

theorem wire_snoc (log : List (Entry ε)) (e : Entry ε) :
    (log ++ [e]).foldl Wire.next .silent = (log.foldl Wire.next .silent).next e := by
  rw [List.foldl_append]
  rfl

section

variable {c : Channel ε}

theorem Channel.Sound.snoc (h : c.Sound) (e : Entry ε) (he : e.frame = none)
    (hallows : c.wire.Allows e) (stream : Option InputStream)
    (hopen : (c.wire.next e).isOpen = stream.isSome) (hclosed : c.closed = true → stream = none) :
    Channel.Sound { c with stream := stream, log := c.log ++ [e] } := by
  refine ⟨h.orderly.snoc hallows, ?_, hclosed, ?_⟩
  · rw [Channel.wire, wire_snoc]
    exact hopen
  · rw [Channel.frames, frames_snoc c.log e he]
    exact h.sent

theorem Channel.Sound.abort (h : c.Sound) : (abort c).Sound ∧ (abort c).closed = true ∧
    (abort c).wire.last = c.wire.last := by
  unfold InputChannel.abort
  cases hc : c.closed with
  | true => exact ⟨h, hc, rfl⟩
  | false =>
    rw [if_neg Bool.false_ne_true]
    have hopen := h.isOpen
    cases hs : c.stream with
    | none =>
      rw [hs] at hopen
      simp only [Option.isSome_none, Bool.false_eq_true, if_false, List.append_nil]
      exact ⟨⟨h.orderly, hopen, fun _ => rfl, h.sent⟩, trivial, rfl⟩
    | some stream =>
      rw [hs] at hopen
      have hsnoc := h.snoc .aborted rfl hopen none rfl fun _ => rfl
      simp only [Option.isSome_some, if_true]
      refine ⟨⟨hsnoc.orderly, hsnoc.isOpen, fun _ => rfl, hsnoc.sent⟩, trivial, ?_⟩
      simp only [Channel.wire, wire_snoc, Wire.next]

theorem Channel.Sound.ended (h : c.Sound) (pending : ℕ) :
    c.Leads { InputChannel.abort c with stage := none, pending := pending } := by
  obtain ⟨habort, hclosed, -⟩ := h.abort
  have hnone : (InputChannel.abort c).stream = none := habort.closed hclosed
  refine ⟨⟨⟨habort.orderly, habort.isOpen, habort.closed, habort.sent⟩, fun hfalse => ?_,
    fun stream hs => ?_⟩, fun hc => ?_⟩
  · have hopen : (InputChannel.abort c).closed = false := hfalse
    rw [hclosed] at hopen
    cases hopen
  · have hsome : (InputChannel.abort c).stream = some stream := hs
    rw [hnone] at hsome
    cases hsome
  · have hsame : InputChannel.abort c = c := if_pos hc
    rw [hsame]
    exact ⟨hc, rfl⟩

theorem Channel.Sound.refuse (h : c.Sound) (next : Option (Sent ε)) : c.Leads (refuse c next) := by
  cases next with
  | none | some sent => exact h.ended _

theorem Channel.Sound.write (h : c.Sound) (encoder : Encoder ε) {stream : InputStream}
    {sent : Sent ε} (hclosed : c.closed = false) (hstream : c.stream = some stream)
    (hholds : c.Holds (sent :: c.jobs.filterMap Job.sent)) :
    c.Leads (write encoder c stream sent) := by
  refine ⟨?_, fun hc => absurd hc (by rw [hclosed]; exact Bool.false_ne_true)⟩
  have hopen := h.isOpen
  rw [hstream] at hopen
  obtain ⟨done, haccepted, hframes, hsequence⟩ := hholds hclosed
  have hcount : c.wire.count = c.sequence := by
    have hcount := count_foldl .silent c.log
    rw [show c.log.filterMap Entry.frame = numbered done from hframes] at hcount
    simpa [numbered, Wire.silent, Channel.wire, hsequence] using hcount
  have hskipped : Channel.Sound { c with sequence := c.sequence + 1 } :=
    ⟨h.orderly, h.isOpen, h.closed, h.sent⟩
  unfold InputChannel.write
  dsimp only
  split
  · exact (hskipped.ended _).kept
  split
  · exact (hskipped.ended _).kept
  · next length =>
    have hwritten : (c.log ++ [Entry.wrote ⟨sent.epochs, c.sequence + 1, sent.event⟩]).filterMap
        Entry.frame = numbered (done ++ [sent]) := by
      rw [List.filterMap_append, numbered_snoc, ← hsequence, ← hframes]
      rfl
    refine ⟨⟨h.orderly.snoc ⟨hopen, by rw [← hcount]; rfl⟩, ?_, h.closed, ?_⟩, fun _ => ?_,
      fun _ _ => ?_⟩
    · rw [Channel.wire, wire_snoc]
      exact h.isOpen
    · rw [Channel.frames, hwritten, haccepted]
      have hfirst := numbered_grows (done ++ [sent]) (c.jobs.filterMap Job.sent)
      rwa [List.append_assoc] at hfirst
    · refine ⟨done ++ [sent], ?_, hwritten, ?_⟩
      · simpa [Channel.waiting, Stage.waiting] using haccepted
      · simp [hsequence]
    · rw [Channel.wire, wire_snoc]
      rfl

theorem Channel.Sound.proceed (h : c.Sound) (encoder : Encoder ε) {sent : Sent ε}
    (hholds : c.Holds (sent :: c.jobs.filterMap Job.sent)) : c.Leads (proceed encoder c sent) := by
  unfold InputChannel.proceed
  split
  · next stream hs =>
    have hclosed : c.closed = false := by
      cases hc : c.closed with
      | false => rfl
      | true =>
        rw [h.closed hc] at hs
        cases hs
    exact h.write encoder hclosed hs hholds
  · next hs =>
    exact ⟨⟨⟨h.orderly, h.isOpen, h.closed, h.sent⟩, hholds, hs⟩, fun hc => ⟨hc, rfl⟩⟩

end

/-- A channel that is closed, in the stage of `c` or at the end of a job. -/
theorem Channel.Sound.kept {c d : Channel ε} (h : d.Sound) (hclosed : d.closed = true)
    (hstage : d.stage = none ∨ d.stage = c.stage ∧ d.wire.last = c.wire.last)
    (hfits : c.Fits c.stage) : d.Kept := by
  have hnone : ∀ stream, d.stream ≠ some stream := fun stream hs => by
    rw [h.closed hclosed] at hs
    cases hs
  have hshut : d.closed ≠ false := by
    rw [hclosed]
    decide
  refine ⟨h, fun hopen => absurd hopen hshut, ?_⟩
  rcases hstage with hstage | ⟨hstage, hlast⟩
  · rw [hstage]
    exact fun stream hs => absurd hs (hnone stream)
  rw [hstage]
  cases hc : c.stage with
  | none => exact fun stream hs => absurd hs (hnone stream)
  | some stage =>
    rw [hc] at hfits
    cases stage with
    | close stream next | receipt stream next =>
      exact ⟨hlast.trans hfits.1, fun hopen => absurd hopen hshut⟩
    | opening sent => exact h.closed hclosed
    | write bytes => exact fun stream hs => absurd hs (hnone stream)

theorem Channel.Kept.aborted {c : Channel ε} (h : c.Kept) : (abort c).Kept := by
  obtain ⟨hsound, hclosed, hlast⟩ := h.sound.abort
  refine hsound.kept hclosed (.inr ⟨?_, hlast⟩) h.fits
  unfold InputChannel.abort
  split
  · rfl
  · rfl

theorem Channel.Kept.refused {c : Channel ε} (h : c.Kept) (hclosed : c.closed = true) :
    (settle { c with log := c.log ++ [.refused] }).Kept ∧
    Channel.Kept { c with log := c.log ++ [.refused] } := by
  have hshut : c.wire.isOpen = false := by
    rw [h.sound.isOpen, h.sound.closed hclosed]
    rfl
  have hsnoc := h.sound.snoc .refused rfl hshut c.stream h.sound.isOpen h.sound.closed
  have hlast : Channel.wire { c with log := c.log ++ [.refused] } = c.wire := wire_snoc _ _
  refine ⟨Channel.Sound.kept ⟨hsnoc.orderly, hsnoc.isOpen, hsnoc.closed, hsnoc.sent⟩ hclosed
    (.inl rfl) h.fits, Channel.Sound.kept (c := c) hsnoc hclosed (.inr ⟨rfl, ?_⟩) h.fits⟩
  rw [hlast]

theorem Channel.Kept.start {c : Channel ε} (h : c.Kept) (encoder : Encoder ε) (job : Job ε)
    (jobs : List (Job ε)) (hstage : c.stage = none) (hjobs : c.jobs = job :: jobs) :
    c.Leads (start encoder { c with jobs := jobs } job) := by
  have hsound : Channel.Sound { c with jobs := jobs } :=
    ⟨h.sound.orderly, h.sound.isOpen, h.sound.closed, h.sound.sent⟩
  have hholds := h.holds
  have hfits := h.fits
  simp only [Channel.waiting, hstage, hjobs, Option.elim_none, List.nil_append] at hholds
  rw [hstage] at hfits
  cases job with
  | finish =>
    simp only [InputChannel.start]
    split
    · next stream hs => exact ⟨⟨⟨hsound.orderly, hsound.isOpen, hsound.closed, hsound.sent⟩, hholds,
        hfits stream hs, fun _ => hs⟩, fun hc => ⟨hc, rfl⟩⟩
    · refine ⟨⟨hsound, ?_, ?_⟩, fun hc => ⟨hc, rfl⟩⟩
      · simp only [Channel.waiting, hstage]
        exact hholds
      · rw [show Channel.stage { c with jobs := jobs } = none from hstage]
        exact hfits
  | send sent =>
    simp only [InputChannel.start]
    split
    · next hclosed =>
      have hc : c.closed = true := hclosed
      refine ⟨⟨⟨hsound.orderly, hsound.isOpen, hsound.closed, hsound.sent⟩, fun hfalse => ?_, hfits⟩,
        fun _ => ⟨hc, rfl⟩⟩
      have hopen : c.closed = false := hfalse
      rw [hc] at hopen
      cases hopen
    next hclosed =>
    split
    · next stream hs =>
      split
      · exact ⟨⟨⟨hsound.orderly, hsound.isOpen, hsound.closed, hsound.sent⟩, hholds,
          hfits stream hs, fun _ => hs⟩, fun hc => ⟨hc, rfl⟩⟩
      · have hwrite := hsound.write encoder (Bool.eq_false_iff.2 hclosed) hs hholds
        exact ⟨hwrite.kept, hwrite.quiet⟩
    · next hs =>
      exact ⟨⟨⟨hsound.orderly, hsound.isOpen, hsound.closed, hsound.sent⟩, hholds, hs⟩,
        fun hc => ⟨hc, rfl⟩⟩

theorem Channel.Kept.resume {c : Channel ε} (h : c.Kept) (encoder : Encoder ε) (stage : Stage ε)
    (answer : Answer) (hstage : c.stage = some stage) : c.Leads (resume encoder c stage answer) := by
  have hholds := h.holds
  have hfits := h.fits
  simp only [Channel.waiting, hstage, Option.elim_some] at hholds
  rw [hstage] at hfits
  cases stage with
  | close stream next =>
    cases answer with
    | ok =>
      exact ⟨⟨⟨h.sound.orderly, h.sound.isOpen, h.sound.closed, h.sound.sent⟩, hholds, hfits⟩,
        fun hc => ⟨hc, rfl⟩⟩
    | receipt lastSequence | error => exact h.sound.refuse next
  | receipt stream next =>
    cases answer with
    | ok | error => exact h.sound.refuse next
    | receipt lastSequence =>
      simp only [InputChannel.resume]
      split
      · next hreceipt =>
        have hlast : c.wire.last = some lastSequence := hreceipt ▸ hfits.1
        have hsnoc := h.sound.snoc (.finished lastSequence) rfl hlast none rfl fun _ => rfl
        have hwaits : Channel.Holds
            { c with stream := none, log := c.log ++ [.finished lastSequence] }
            (next.toList ++ c.jobs.filterMap Job.sent) := fun hclosed => by
          obtain ⟨done, haccepted, hframes, hsequence⟩ := hholds hclosed
          exact ⟨done, haccepted, (frames_snoc c.log _ rfl).trans hframes, hsequence⟩
        have hsame := frames_snoc c.log (.finished lastSequence) rfl
        cases next with
        | none =>
          refine ⟨⟨⟨hsnoc.orderly, hsnoc.isOpen, hsnoc.closed, hsnoc.sent⟩, hwaits, fun _ hs => ?_⟩,
            fun hc => ⟨hc, hsame⟩⟩
          cases hs
        | some sent =>
          have hnext := hsnoc.proceed encoder hwaits
          exact ⟨hnext.kept, fun hc => ⟨(hnext.quiet hc).1, (hnext.quiet hc).2.trans hsame⟩⟩
      · exact h.sound.refuse next
  | opening sent =>
    cases answer with
    | receipt lastSequence | error => exact h.sound.ended _
    | ok =>
      have hshut : c.wire.isOpen = false := by
        rw [h.sound.isOpen, show c.stream = none from hfits]
        rfl
      simp only [InputChannel.resume]
      split
      · next hclosed => exact ⟨(h.refused hclosed).1, fun hc => ⟨hc, frames_snoc c.log _ rfl⟩⟩
      · next hclosed =>
        have hopen := Bool.eq_false_iff.2 hclosed
        have hsnoc := h.sound.snoc .opened rfl hshut (some ⟨0, 0, false⟩) rfl fun hc => by
          rw [hopen] at hc
          cases hc
        refine ⟨(hsnoc.write encoder hopen rfl fun _ => ?_).kept, fun hc => absurd hc hclosed⟩
        obtain ⟨done, haccepted, hframes, hsequence⟩ := hholds hopen
        exact ⟨done, haccepted, (frames_snoc c.log _ rfl).trans hframes, hsequence⟩
  | write bytes =>
    cases answer with
    | receipt lastSequence | error => exact h.sound.ended _
    | ok =>
      simp only [InputChannel.resume]
      refine ⟨⟨⟨h.sound.orderly, ?_, fun hc => ?_, h.sound.sent⟩, hholds, fun stream hs => ?_⟩,
        fun hc => ⟨hc, rfl⟩⟩
      · exact h.sound.isOpen.trans (Option.isSome_map ..).symm
      · exact Option.map_eq_none_iff.2 (h.sound.closed hc)
      · obtain ⟨old, hold, rfl⟩ := Option.map_eq_some_iff.1 hs
        exact hfits old hold

theorem Channel.Kept.step {c : Channel ε} (h : c.Kept) (encoder : Encoder ε) (a : Action ε) :
    c.Leads (step encoder c a) := by
  have hsame : c.Leads c := ⟨h, fun hc => ⟨hc, rfl⟩⟩
  have habort : c.Leads (abort c) := ⟨h.aborted, fun hc => by
    rw [show abort c = c from if_pos hc]
    exact ⟨hc, rfl⟩⟩
  have hholds := h.holds
  have hfits := h.fits
  cases a with
  | epochs now =>
    exact ⟨⟨⟨h.sound.orderly, h.sound.isOpen, h.sound.closed, h.sound.sent⟩, hholds, hfits⟩,
      fun hc => ⟨hc, rfl⟩⟩
  | send event =>
    simp only [InputChannel.step]
    split
    · exact hsame
    next hclosed =>
    split
    · exact habort
    · have hopen := Bool.eq_false_iff.2 hclosed
      obtain ⟨done, haccepted, hframes, hsequence⟩ := hholds hopen
      refine ⟨⟨⟨h.sound.orderly, h.sound.isOpen, h.sound.closed, ?_⟩, fun _ => ?_, hfits⟩,
        fun hc => absurd hc hclosed⟩
      · exact h.sound.sent.trans (numbered_grows _ _)
      · refine ⟨done, ?_, hframes, hsequence⟩
        simp [Channel.waiting, haccepted, Job.sent]
  | flush =>
    refine ⟨⟨⟨h.sound.orderly, h.sound.isOpen, h.sound.closed, h.sound.sent⟩, ?_, hfits⟩,
      fun hc => ⟨hc, rfl⟩⟩
    have hjobs : Channel.waiting { c with jobs := c.jobs ++ [.finish] } = c.waiting := by
      simp [Channel.waiting, Job.sent]
    exact hjobs.symm ▸ hholds
  | abort => exact habort
  | start =>
    simp only [InputChannel.step]
    split
    · next job jobs hstage hjobs => exact h.start encoder job jobs hstage hjobs
    · exact hsame
  | resume answer =>
    simp only [InputChannel.step]
    split
    · next stage hstage => exact h.resume encoder stage answer hstage
    · exact hsame
  | late =>
    simp only [InputChannel.step]
    split
    · next hclosed => exact ⟨(h.refused hclosed).2, fun hc => ⟨hc, frames_snoc c.log _ rfl⟩⟩
    · exact hsame

theorem new_kept (epochs : Epochs) : (Channel.new (ε := ε) epochs).Kept :=
  ⟨⟨trivial, rfl, fun h => absurd h Bool.false_ne_true, List.prefix_refl _⟩,
    fun _ => ⟨[], rfl, rfl, rfl⟩, fun _ h => by cases h⟩

theorem run_kept (encoder : Encoder ε) (actions : List (Action ε)) {c : Channel ε} (h : c.Kept) :
    (run encoder c actions).Kept := by
  induction actions generalizing c with
  | nil => exact h
  | cons a actions ih => exact ih (h.step encoder a).kept

end Rieul.Web.InputChannel
