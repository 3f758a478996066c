import Rieul.Screen.HelperInput

/-!
# Steps over the helper's channel

Every step of the worker and of the helper keeps the invariant; the acknowledgement
of a recovery keeps it when it makes the ledger forget nothing.
-/

namespace Rieul.Screen.Ipc
open System

theorem opening_typed (s : State) (call : Call) (h : call.Plain) :
    (s.opening call).Typed ∧ (s.ledger = ⟨[], []⟩ → (s.opening call).Plain) := by
  unfold State.opening
  by_cases hr : call.recovery
  · rw [if_pos hr]
    refine ⟨hr, fun hempty => ⟨hr, fun _ => ?_⟩⟩
    show s.ledger.recovery = _
    rw [hempty]
    rfl
  · rw [if_neg hr]
    exact ⟨h.1, fun _ => h⟩

theorem link_start (generation : ℕ) : Link.Ok ⟨generation, [], 0, [], false⟩ where
  labels := fun _ he => absurd he List.not_mem_nil
  pings := fun _ he => absurd he List.not_mem_nil
  order := List.Pairwise.nil
  plain := fun _ he => absurd he List.not_mem_nil
  fenced := fun _ _ _ he => absurd he List.not_mem_nil
  answered := fun _ hr => absurd hr List.not_mem_nil
  opened := fun _ hr => absurd hr List.not_mem_nil

theorem safe_start (generation : ℕ) (ledger : Ledger) (held : Finset Pressed)
    (h : ∀ p ∈ held, ∃ id, ledger.Records p id) :
    Safe ⟨generation, [], 0, [], false⟩ ledger held where
  known := h
  unread := fun _ he => absurd he List.not_mem_nil
  settled := fun _ hr => absurd hr List.not_mem_nil
  carried := fun _ _ _ he => absurd he List.not_mem_nil
  cleared := fun _ _ _ hr => absurd hr List.not_mem_nil

theorem inv_connect (s t : State) (connected : Except Error Unit) (sound : Prop) (h : s.Inv sound)
    (ht : s.connect connected = some t) : t.Inv sound := by
  unfold State.connect at ht
  split at ht
  · rename_i call calls hw hcalls
    have hq : ∀ c ∈ calls, c.Plain := fun c hc =>
      h.queued c (hcalls ▸ List.mem_cons_of_mem call hc)
    have hcall : call.Plain := h.queued call (hcalls ▸ List.mem_cons_self)
    dsimp only at ht
    split at ht
    · cases ht
      exact { h with queued := hq }
    · rename_i hcond
      split at ht
      · cases ht
        exact { h with queued := hq }
      · split at ht
        · cases ht
          obtain ⟨htyped, hplain⟩ := opening_typed { s with calls := calls } call hcall
          refine
            { queued := hq
              link := link_start s.generation
              worker := ?_
              helper := ?_
              safe := fun hs => safe_start s.generation s.ledger s.native.held (h.safe hs).known
              start := fun _ hw => (nomatch hw)
              idle := fun hw => (nomatch hw) }
          · intro w hw'
            cases hw'
            refine
              { current := rfl
                recovered := fun _ => h.idle hw
                bound := fun e he => absurd he List.not_mem_nil
                pending := fun x hx => absurd hx List.not_mem_nil
                closed := fun hrec => nomatch hrec
                initial := ?_
                opening := ?_ }
            · intro c hc
              cases hc
              refine ⟨htyped, fun hor => hplain ?_⟩
              rcases hor with hgen | hne
              · exact h.start hgen hw
              · exact absurd rfl hne
            · intro hgen _
              have hrec : call.recovery := by
                by_contra hrec
                exact hcond (.inr ⟨hgen, hrec⟩)
              refine ⟨_, rfl, ?_, ?_, ?_⟩
              · unfold State.opening
                rw [if_pos hrec]
                by_contra hne
                exact hcond (.inl hne)
              · unfold State.opening
                rw [if_pos hrec]
                exact hrec
              · unfold State.opening
                rw [if_pos hrec]
          · intro h' hh'
            cases hh'
            refine ⟨fun _ _ => rfl, ?_, ?_⟩
            · intro id hid
              rcases hid with ⟨g, hg, _⟩ | ⟨r, hr, _⟩ | ⟨r, hr, _⟩
              · cases hg
              · cases hr
              · cases hr
            · intro hs hor p hp
              rcases hor with hrec | hgen
              · cases hrec
              · obtain ⟨id, hid⟩ := (h.safe hs).known p hp
                rw [h.start hgen hw] at hid
                exact absurd hid (records_nil p id)
        · cases ht
  · cases ht

theorem inv_take (s t : State) (sound : Prop) (h : s.Inv sound) (ht : s.take = some t) : t.Inv sound := by
  unfold State.take at ht
  split at ht
  · rename_i w call calls hw hcalls
    have hcall : call.Plain := h.queued call (hcalls ▸ List.mem_cons_self)
    split at ht
    · rename_i hcond
      cases ht
      have hc := h.worker w hw
      refine { h with queued := ?_, worker := ?_, start := fun _ hw => (nomatch hw),
                      idle := fun hw => (nomatch hw) }
      · exact fun c hc => h.queued c (hcalls ▸ List.mem_cons_of_mem call hc)
      · intro w' hw'
        cases hw'
        refine { hc with initial := ?_, opening := ?_ }
        · intro c hc
          cases hc
          exact ⟨hcall.1, fun _ => hcall⟩
        · intro hgen hnext
          obtain ⟨c, hc, _⟩ := hc.opening hgen hnext
          rw [hc] at hcond
          cases hcond.1
    · cases ht
  · cases ht

theorem Connected.drop (l : Link) (generation : ℕ) (ready : Bool) (ledger : Ledger) (w : Worker)
    (h : Connected l generation ready ledger w) (n : ℕ) (hn : w.next ≤ n)
    (h0 : generation ≠ 0 → n ≠ 0) :
    Connected l generation ready ledger { w with initial := none, next := n } where
  current := h.current
  recovered := h.recovered
  bound := fun e he => (h.bound e he).trans hn
  pending := h.pending
  closed := h.closed
  initial := fun _ hi => (nomatch hi)
  opening := fun hgen hnext => absurd hnext (h0 hgen)

theorem refusal_opening (s : State) (w : Worker) (call : Call)
    (h : Connected s.link s.generation s.ready s.ledger w) (hi : w.initial = some call)
    (hgen : s.generation ≠ 0) (hnext : w.next = 0) : s.refusal call = none := by
  obtain ⟨c, hc, hcurrent, hrec, hcommand⟩ := h.opening hgen hnext
  rw [hi] at hc
  cases hc
  unfold State.refusal
  rw [if_neg (fun hne => hne hcurrent), if_neg (fun hcond => hcond.2.2 hrec), hcommand]
  rfl

theorem refusal_none (s : State) (call : Call) (h : s.refusal call = none) :
    call.generation = s.generation ∧ (s.ready = false → s.generation ≠ 0 → call.recovery) := by
  unfold State.refusal at h
  split at h
  · cases h
  · rename_i hgen
    simp only [ne_eq, not_not] at hgen
    refine ⟨hgen, fun hready h0 => ?_⟩
    split at h
    · cases h
    · rename_i hcond
      by_contra hrec
      exact hcond ⟨hready, hgen ▸ h0, hrec⟩

section
variable (s : State) (w : Worker) (call : Call) (sound : Prop) (h : s.Inv sound)
  (hw : s.worker = some w) (hi : w.initial = some call) (hr : s.refusal call = none) (start : Bool)
include s w call sound h hw hi hr start

theorem next_send :
    s.link.Next ⟨start, ⟨w.next + 1, call.command⟩⟩ := by
  have hc := h.worker w hw
  obtain ⟨htyped, hplain⟩ := hc.initial call hi
  obtain ⟨_, hready⟩ := refusal_none s call hr
  refine ⟨fun _ e he => Nat.lt_succ_of_le (hc.bound e he), nofun, ?_, ?_⟩
  · intro hrec hor
    have hor' : s.generation = 0 ∨ w.next ≠ 0 := by
      rcases hor with hgen | hne
      · exact .inl (hc.current ▸ hgen)
      · exact .inr fun h0 => hne (congrArg Nat.succ h0)
    exact (hplain hor').2 (htyped.trans hrec)
  · intro hgen hrec _
    have hgen' : s.generation ≠ 0 := hc.current ▸ hgen
    exact htyped ▸ hready ((hc.recovered hgen').trans hrec) hgen'

theorem recorded_send :
    Recorded s.link ⟨start, ⟨w.next + 1, call.command⟩⟩ s.ledger
      (s.ledger.record call.command (w.next + 1)) := by
  have hc := h.worker w hw
  have hrec : s.link.generation ≠ 0 → s.link.recovered = false → call.command.isRecovery :=
    fun hgen hrec => (next_send s w call sound h hw hi hr start).fenced hgen hrec (Nat.succ_ne_zero _)
  refine ⟨records_record s.ledger call.command (w.next + 1), ?_, ?_⟩
  · intro hgen hrecovered
    have hrec := hrec hgen hrecovered
    cases hcommand : call.command with
    | RecoverInput keys buttons => rfl
    | _ =>
      rw [hcommand] at hrec
      cases hrec
  · intro hgen _ hid
    obtain ⟨c, hc', _, _, hcommand⟩ := hc.opening (hc.current ▸ hgen) (Nat.succ_injective hid)
    rw [hi] at hc'
    cases hc'
    exact hcommand

end

theorem inv_send (s : State) (w : Worker) (call : Call) (write : Write) (sound : Prop) (h : s.Inv sound)
    (hw : s.worker = some w) (hi : w.initial = some call) (hr : s.refusal call = none) :
    (s.send w call write).Inv sound := by
  have hc := h.worker w hw
  have hcall : call.generation = s.generation := (refusal_none s call hr).1
  have hgen : call.generation = s.link.generation := hcall.trans hc.current.symm
  have hnext := next_send s w call sound h hw hi hr w.firstRequest
  have hrecorded := recorded_send s w call sound h hw hi hr w.firstRequest
  have hlink := h.link.write s.link _ hnext write
  have hhelper := fun h' hh => (h.helper h' hh).write s.link sound s.native h' s.link.generation
    ⟨w.firstRequest, ⟨w.next + 1, call.command⟩⟩ write
  have hsafe := fun hs => (h.safe hs).write s.link h.link s.ledger _ s.native.held _ hnext hrecorded
    s.link.generation write
  unfold State.send
  rw [hgen]
  cases write with
  | failed delivered => exact inv_close _ sound _ h.queued hlink hhelper hsafe
  | sent =>
    refine ⟨h.queued, hlink, ?_, hhelper, hsafe, fun _ hw => (nomatch hw), fun hw => (nomatch hw)⟩
    intro w' hw'
    cases hw'
    refine ⟨hc.current, hc.recovered, ?_, ?_, ?_, fun _ hi => (nomatch hi),
      fun _ h0 => absurd h0 (Nat.succ_ne_zero w.next)⟩
    · intro e he
      rcases List.mem_append.mp he with he | he
      · exact (hc.bound e he).trans (Nat.le_succ w.next)
      · rw [List.mem_singleton.mp he]
    · intro x hx
      rcases List.mem_append.mp hx with hx | hx
      · obtain ⟨h0, htyped, hg, e, he, heq⟩ := hc.pending x hx
        exact ⟨h0, htyped, hg, e, List.mem_append_left _ he, heq⟩
      · rw [List.mem_singleton.mp hx]
        exact ⟨Nat.succ_ne_zero _, (hc.initial call hi).1, hcall, _,
          List.mem_append_right _ List.mem_cons_self, rfl, rfl⟩
    · intro hrec
      obtain ⟨e, he, hlookup⟩ := hc.closed hrec
      refine ⟨e, head_append _ _ e he, ?_⟩
      rw [lookup_none] at hlookup ⊢
      intro x hx
      rcases List.mem_append.mp hx with hx | hx
      · exact hlookup x hx
      · rw [List.mem_singleton.mp hx]
        have hle := hc.bound e (List.mem_of_mem_head? he)
        show w.next + 1 ≠ e.2.id
        omega

theorem inv_submit (s t : State) (write : Write) (sound : Prop) (h : s.Inv sound)
    (ht : s.submit write = some t) : t.Inv sound := by
  unfold State.submit at ht
  split at ht
  · rename_i w hw
    have hc := h.worker w hw
    split at ht
    · rename_i call hi
      split at ht
      · rename_i value hvalue
        cases ht
        refine { h with worker := ?_, start := fun _ hw => (nomatch hw), idle := fun hw => (nomatch hw) }
        intro w' hw'
        cases hw'
        refine hc.drop s.link s.generation s.ready s.ledger w w.next (Nat.le_refl _) ?_
        intro hgen hnext
        rw [refusal_opening s w call hc hi hgen hnext] at hvalue
        cases hvalue
      · rename_i hr
        split at ht
        · cases ht
          exact h.close s sound w.pending
        · split at ht
          · cases ht
            refine { h with worker := ?_, start := fun _ hw => (nomatch hw), idle := fun hw => (nomatch hw) }
            intro w' hw'
            cases hw'
            exact hc.drop s.link s.generation s.ready s.ledger w (w.next + 1) (Nat.le_succ _)
              fun _ => Nat.succ_ne_zero _
          · cases ht
            exact inv_send s w call write sound h hw hi hr
    · cases ht
  · cases ht

theorem next_ping (l : Link) : l.Next ⟨false, ⟨0, .Ping⟩⟩ where
  fresh := fun h0 => absurd rfl h0
  ping := fun _ => rfl
  plain := fun hrec => (nomatch hrec)
  fenced := fun _ _ h0 => absurd rfl h0

theorem inv_heartbeat (s t : State) (write : Write) (sound : Prop) (h : s.Inv sound)
    (ht : s.heartbeat write = some t) : t.Inv sound := by
  unfold State.heartbeat at ht
  split at ht
  · rename_i w hw
    have hc := h.worker w hw
    split at ht
    · cases ht
    · split at ht
      · cases ht
        exact h.close s sound w.pending
      · have hnext := next_ping s.link
        have hrecorded : Recorded s.link ⟨false, ⟨0, .Ping⟩⟩ s.ledger s.ledger :=
          ⟨fun p n => by rw [if_neg nofun], fun _ _ => rfl, fun _ _ h0 => nomatch h0⟩
        have hlink := h.link.write s.link _ hnext write
        rw [hc.current] at hlink
        have hhelper := fun h' hh => (h.helper h' hh).write s.link sound s.native h' s.generation
          ⟨false, ⟨0, .Ping⟩⟩ write
        have hsafe := fun hs => (h.safe hs).write s.link h.link s.ledger _ s.native.held _ hnext hrecorded
          s.generation write
        cases write with
        | failed delivered =>
          cases ht
          exact inv_close _ sound _ h.queued hlink hhelper hsafe
        | sent =>
          cases ht
          refine ⟨h.queued, hlink, ?_, hhelper, hsafe, ?_, ?_⟩
          · intro w' hw'
            rw [hw] at hw'
            cases hw'
            refine ⟨hc.current, hc.recovered, ?_, ?_, ?_, hc.initial, hc.opening⟩
            · intro e he
              rcases List.mem_append.mp he with he | he
              · exact hc.bound e he
              · rw [List.mem_singleton.mp he]
                exact Nat.zero_le _
            · intro x hx
              obtain ⟨h0, htyped, hg, e, he, heq⟩ := hc.pending x hx
              exact ⟨h0, htyped, hg, e, List.mem_append_left _ he, heq⟩
            · intro hrec
              obtain ⟨e, he, hlookup⟩ := hc.closed hrec
              exact ⟨e, head_append _ _ e he, hlookup⟩
          · intro _ hnone
            rw [hw] at hnone
            cases hnone
          · intro hnone
            rw [hw] at hnone
            cases hnone
  · cases ht

theorem inv_lose (s t : State) (sound : Prop) (h : s.Inv sound) (ht : s.lose = some t) : t.Inv sound := by
  unfold State.lose at ht
  split at ht
  · rename_i w hw
    split at ht
    · cases ht
    · cases ht
      exact h.close s sound w.pending
  · cases ht

theorem Link.Ok.pop (l : Link) (h : l.Ok) (r : UserDesktopResponse)
    (responses : List UserDesktopResponse) (hr : l.responses = r :: responses) :
    Link.Ok { l with responses := responses } :=
  { h with
    answered := fun x hx => h.answered x (hr ▸ List.mem_cons_of_mem r hx)
    opened := fun x hx => h.opened x (hr ▸ List.mem_cons_of_mem r hx) }

theorem Safe.pop (l : Link) (ledger : Ledger) (held : Finset Pressed) (h : Safe l ledger held)
    (r : UserDesktopResponse) (responses : List UserDesktopResponse)
    (hr : l.responses = r :: responses) :
    Safe { l with responses := responses } ledger held :=
  { h with
    settled := fun x hx => h.settled x (hr ▸ List.mem_cons_of_mem r hx)
    cleared := fun hgen hrec x hx => h.cleared hgen hrec x (hr ▸ List.mem_cons_of_mem r hx) }

theorem State.Inv.pop (s : State) (sound : Prop) (h : s.Inv sound) (r : UserDesktopResponse)
    (responses : List UserDesktopResponse) (hr : s.link.responses = r :: responses) :
    State.Inv { s with link := { s.link with responses := responses } } sound where
  queued := h.queued
  link := h.link.pop s.link r responses hr
  worker := fun w hw => { h.worker w hw with }
  helper := fun h' hh => { h.helper h' hh with }
  safe := fun hs => (h.safe hs).pop s.link s.ledger s.native.held r responses hr
  start := h.start
  idle := h.idle

theorem Safe.ack (l : Link) (hl : l.Ok) (ledger : Ledger) (held : Finset Pressed)
    (h : Safe l ledger held) (id : ℕ) (hid : id ≠ 0) (responses : List UserDesktopResponse)
    (hr : l.responses = ⟨id, .Done⟩ :: responses) (command : UserDesktopCommand)
    (hc : command.isRecovery = false)
    (he : ∃ e ∈ l.written, e.2.id = id ∧ e.2.command = command) :
    Safe { l with responses := responses } (ledger.ack command id) held := by
  obtain ⟨e, he, heid, hecommand⟩ := he
  have hhead : (⟨id, .Done⟩ : UserDesktopResponse) ∈ l.responses := hr ▸ List.mem_cons_self
  have hpop := h.pop l ledger held _ responses hr
  refine ⟨?_, ?_, ?_, ?_, hpop.cleared⟩
  · intro p hp
    obtain ⟨n, hn⟩ := h.known p hp
    refine ⟨n, (records_ack ledger command hc id p n).mpr ⟨hn, fun hrel => ?_⟩⟩
    rw [← hecommand] at hrel
    exact h.settled _ hhead rfl e he heid p hp hrel n hn
  · intro e' he' p hp
    obtain ⟨⟨n, hn⟩, hall⟩ := h.unread e' he' p hp
    refine ⟨⟨n, (records_ack ledger command hc id p n).mpr ⟨hn, fun _ => ?_⟩⟩, ?_⟩
    · -- An unread press is newer than everything that was answered.
      obtain ⟨a, ha, haid⟩ := hl.answered _ hhead hid
      have he'0 : e'.2.id ≠ 0 := by
        intro h0
        have hinput := presses_isInput _ p hp
        rw [hl.pings e' (List.mem_of_mem_drop he') h0] at hinput
        cases hinput
      have hlt := hl.before l a e' ha he' (haid ▸ hid) he'0
      have hle := hall n hn
      have haid : a.2.id = id := haid
      omega
    · intro n hn
      exact hall n ((records_ack ledger command hc id p n).mp hn).1
  · intro r hr' hdone e' he' hid' p hp hrel n hn
    exact hpop.settled r hr' hdone e' he' hid' p hp hrel n
      ((records_ack ledger command hc id p n).mp hn).1
  · intro hgen hrec
    -- Before a recovery is acknowledged nothing else is sent.
    have hrecovery := hl.fenced hgen hrec e he (heid ▸ hid)
    rw [hecommand, hc] at hrecovery
    cases hrecovery

theorem Safe.forget (l : Link) (recovered : Bool) (responses : List UserDesktopResponse)
    (held : Finset Pressed) (hheld : held = ∅) (hrec : recovered = true)
    (hunread : ∀ e ∈ l.written.drop l.read, e.2.command.presses = none) :
    Safe { l with responses := responses, recovered := recovered } ⟨[], []⟩ held where
  known := by
    intro p hp
    rw [hheld] at hp
    exact absurd hp (Finset.notMem_empty p)
  unread := by
    intro e he p hp
    rw [hunread e he] at hp
    cases hp
  settled := by
    intro r _ _ e _ _ p hp
    rw [hheld] at hp
    exact absurd hp (Finset.notMem_empty p)
  carried := by
    intro _ hnot
    rw [hrec] at hnot
    cases hnot
  cleared := fun _ _ _ _ _ _ => hheld

section
variable (l : Link) (generation : ℕ) (ready : Bool) (ledger : Ledger) (w : Worker)
  (h : Connected l generation ready ledger w)
include l generation ready ledger w h

/-- A worker whose request `id` was answered. -/
theorem Connected.answer (id : ℕ) :
    Connected l generation ready ledger
      { w with pending := w.pending.filter fun e => decide (e.1 ≠ id) } where
  current := h.current
  recovered := h.recovered
  bound := h.bound
  pending := fun x hx => h.pending x (List.mem_filter.mp hx).1
  closed := by
    intro hrec
    obtain ⟨e, he, hnone⟩ := h.closed hrec
    refine ⟨e, he, ?_⟩
    rw [lookup_none] at hnone ⊢
    exact fun x hx => hnone x (List.mem_filter.mp hx).1
  initial := h.initial
  opening := h.opening

theorem Connected.next_ne_zero (x : ℕ × Call) (hx : x ∈ w.pending) :
    w.next ≠ 0 := by
  obtain ⟨h0, _, _, e, he, heq, _⟩ := h.pending x hx
  have hle := h.bound e he
  omega

end

theorem ack_recovery (l : Ledger) (command : UserDesktopCommand) (id : ℕ)
    (h : command.isRecovery) : l.ack command id = ⟨[], []⟩ := by
  cases command with
  | RecoverInput keys buttons => rfl
  | _ => cases h

theorem Connected.unrecovered (l : Link) (generation : ℕ) (ready : Bool) (ledger : Ledger)
    (w : Worker) (h : Connected l generation ready ledger w) (e : ℕ × Message) (call : Call)
    (he : l.written.head? = some e) (hl : lookup w.pending e.2.id = some call) :
    l.recovered = false := by
  cases hrec : l.recovered with
  | false => rfl
  | true =>
    obtain ⟨e', he', hnone⟩ := h.closed hrec
    rw [he] at he'
    cases he'
    rw [hl] at hnone
    cases hnone

theorem recovery_first (s : State) (w : Worker) (id : ℕ) (call : Call)
    (result : UserDesktopResult) (responses : List UserDesktopResponse) (sound : Prop)
    (h : s.Inv sound) (hw : s.worker = some w)
    (hr : s.link.responses = ⟨id, result⟩ :: responses) (hl : lookup w.pending id = some call)
    (hrec : call.recovery) :
    ∃ e, s.link.written.head? = some e ∧ e.2.id = id ∧ e.2.command = call.command := by
  have hc := h.worker w hw
  obtain ⟨_, htyped, _, e, he, heid, hecommand⟩ := hc.pending _ (lookup_mem w.pending id call hl)
  have herec : e.2.command.isRecovery := by
    rw [hecommand]
    exact htyped.symm.trans hrec
  exact ⟨e, h.link.opened _ (hr ▸ List.mem_cons_self) e he heid herec, heid, hecommand⟩

theorem recovery_empties (s : State) (w : Worker) (id : ℕ) (call : Call)
    (responses : List UserDesktopResponse) (h : s.Inv True) (hw : s.worker = some w)
    (hr : s.link.responses = ⟨id, .Done⟩ :: responses) (hl : lookup w.pending id = some call)
    (hrec : call.recovery) (hb : s.ledger = ⟨[], []⟩ ∨ (s.generation ≠ 0 ∧ id = 1)) :
    s.native.held = ∅ ∧
      ∀ e ∈ s.link.written.drop s.link.read, e.2.command.presses = none := by
  have hc := h.worker w hw
  have hsafe := h.safe trivial
  obtain ⟨e, hfirst, heid, hecommand⟩ := recovery_first s w id call .Done responses True h hw hr hl hrec
  rcases hb with hempty | ⟨hgen, hone⟩
  · have hno : ∀ p n, ¬ s.ledger.Records p n := by
      intro p n hn
      rw [hempty] at hn
      exact records_nil p n hn
    constructor
    · apply Finset.eq_empty_of_forall_notMem
      intro p hp
      obtain ⟨n, hn⟩ := hsafe.known p hp
      exact hno p n hn
    · intro e' he'
      cases hp : e'.2.command.presses with
      | none => rfl
      | some p =>
        obtain ⟨⟨n, hn⟩, _⟩ := hsafe.unread e' he' p hp
        exact absurd hn (hno p n)
  · have hgen' : s.link.generation ≠ 0 := hc.current ▸ hgen
    have hnot := hc.unrecovered s.link s.generation s.ready s.ledger w e call hfirst (heid ▸ hl)
    constructor
    · exact hsafe.cleared hgen' hnot _ (hr ▸ List.mem_cons_self) hone rfl
    · intro e' he'
      cases hp : e'.2.command.presses with
      | none => rfl
      | some p =>
        have hmem := List.mem_of_mem_drop he'
        have h0 : e'.2.id ≠ 0 := by
          intro h0
          have hinput := presses_isInput _ p hp
          rw [h.link.pings e' hmem h0] at hinput
          cases hinput
        have hrecovery := h.link.fenced hgen' hnot e' hmem h0
        rw [presses_not_recovery _ p hp] at hrecovery
        cases hrecovery

theorem State.Inv.sound (s : State) (sound : Prop) (h : s.Inv sound) (hs : sound) : s.Inv True :=
  { h with
    helper := fun h' hh' => { h.helper h' hh' with tracked := fun _ => (h.helper h' hh').tracked hs }
    safe := fun _ => h.safe hs }

theorem inv_acknowledge (s : State) (w : Worker) (id : ℕ) (call : Call)
    (result : UserDesktopResult) (responses : List UserDesktopResponse) (sound : Prop)
    (h : s.Inv sound) (hw : s.worker = some w)
    (hr : s.link.responses = ⟨id, result⟩ :: responses)
    (hl : lookup w.pending id = some call)
    (hdone : call.recovery → result = .Done)
    (hb : sound → call.recovery → s.ledger = ⟨[], []⟩ ∨ (s.generation ≠ 0 ∧ id = 1)) :
    (State.acknowledge
      { s with
        link := { s.link with responses := responses }
        worker := some { w with pending := w.pending.filter fun e => decide (e.1 ≠ id) } }
      id call result).Inv sound := by
  have hc := h.worker w hw
  have hmem := lookup_mem w.pending id call hl
  obtain ⟨hid, htyped, hcurrent, e, he, heid, hecommand⟩ := hc.pending _ hmem
  have hanswer := hc.answer s.link s.generation s.ready s.ledger w id
  have hpop := h.pop s sound _ responses hr
  unfold State.acknowledge
  by_cases hrec : call.recovery
  · obtain ⟨first, hfirst, hfirstid, _⟩ :=
      recovery_first s w id call result responses sound h hw hr hl hrec
    have hempty : sound → _ := fun hs =>
      recovery_empties s w id call responses (h.sound s sound hs) hw (hdone hrec ▸ hr) hl hrec
        (hb hs hrec)
    rw [if_pos (hdone hrec), if_pos hrec]
    rw [ack_recovery s.ledger call.command id (htyped.symm.trans hrec)]
    refine
      { queued := h.queued
        link := { hpop.link with fenced := fun _ hnot => (nomatch hnot) }
        worker := ?_
        helper := ?_
        safe := fun hs =>
          Safe.forget s.link true responses s.native.held (hempty hs).1 rfl (hempty hs).2
        start := fun _ hw => (nomatch hw)
        idle := fun hw => (nomatch hw) }
    · intro w' hw'
      cases hw'
      refine
        { current := hc.current
          recovered := fun _ => rfl
          bound := hc.bound
          pending := hanswer.pending
          closed := ?_
          initial := hanswer.initial
          opening := ?_ }
      · intro _
        refine ⟨first, hfirst, ?_⟩
        rw [lookup_none]
        intro x hx
        have hne := of_decide_eq_true (List.mem_filter.mp hx).2
        rw [hfirstid]
        exact hne
      · intro _ hnext
        exact absurd hnext (hc.next_ne_zero s.link s.generation s.ready s.ledger w _ hmem)
    · intro h' hh'
      refine { h.helper h' hh' with tracked := fun hs _ => ?_ }
      show s.native.held ⊆ s.native.tracked
      rw [(hempty hs).1]
      exact Finset.empty_subset _
  · have hnot : call.command.isRecovery = false := by
      rw [← htyped]
      exact Bool.eq_false_iff.mpr hrec
    rw [if_neg hrec]
    have hconnected : ∀ (ready : Bool) (ledger : Ledger),
        (s.generation ≠ 0 → ready = s.link.recovered) →
        Connected { s.link with responses := responses } s.generation ready ledger
          { w with pending := w.pending.filter fun e => decide (e.1 ≠ id) } := by
      intro ready ledger hready
      exact
        { hanswer with
          recovered := hready
          opening := fun _ hnext =>
            absurd hnext (hc.next_ne_zero s.link s.generation s.ready s.ledger w _ hmem) }
    have hinv : ∀ (ready : Bool) (ledger : Ledger), (s.generation ≠ 0 → ready = s.link.recovered) →
        (sound → Safe { s.link with responses := responses } ledger s.native.held) →
        State.Inv { s with
          link := { s.link with responses := responses }
          worker := some { w with pending := w.pending.filter fun e => decide (e.1 ≠ id) }
          ready := ready
          ledger := ledger } sound := by
      intro ready ledger hready hsafe
      refine ⟨h.queued, hpop.link, ?_, hpop.helper, hsafe, fun _ hw => (nomatch hw),
        fun hw => (nomatch hw)⟩
      intro w' hw'
      cases hw'
      exact hconnected ready ledger hready
    have hready : s.generation ≠ 0 → s.ready = s.link.recovered := hc.recovered
    by_cases hd : result = .Done
    · have hsafe := fun hs => (h.safe hs).ack s.link h.link s.ledger s.native.held id hid responses (hd ▸ hr)
        call.command hnot ⟨e, he, heid, hecommand⟩
      rw [if_pos hd]
      split
      · rename_i hgen
        exact hinv true _ (fun h0 => absurd (hcurrent.symm.trans hgen) h0) hsafe
      · exact hinv s.ready _ hready hsafe
    · rw [if_neg hd]
      split
      · rename_i hgen
        exact hinv true _ (fun h0 => absurd (hcurrent.symm.trans hgen) h0) hpop.safe
      · exact hinv s.ready _ hready hpop.safe

theorem inv_settle (s : State) (w : Worker) (id : ℕ) (call : Call) (result : UserDesktopResult)
    (gone : Bool) (responses : List UserDesktopResponse) (sound : Prop) (h : s.Inv sound)
    (hw : s.worker = some w) (hr : s.link.responses = ⟨id, result⟩ :: responses)
    (hl : lookup w.pending id = some call)
    (hb : sound → call.recovery → result = .Done → s.now < call.deadline →
      s.ledger = ⟨[], []⟩ ∨ (s.generation ≠ 0 ∧ id = 1)) :
    (State.settle { s with link := { s.link with responses := responses } } w id call result
      gone).Inv sound := by
  have hpop := h.pop s sound _ responses hr
  have hanswer : State.Inv
      { s with
        link := { s.link with responses := responses }
        worker := some { w with pending := w.pending.filter fun e => decide (e.1 ≠ id) } } sound := by
    refine { hpop with worker := ?_, start := fun _ hw => (nomatch hw), idle := fun hw => (nomatch hw) }
    intro w' hw'
    cases hw'
    exact (hpop.worker w hw).answer _ s.generation s.ready s.ledger w id
  unfold State.settle
  dsimp only
  split
  · exact inv_close _ sound _ hanswer.queued hanswer.link hanswer.helper hanswer.safe
  · rename_i hdeadline
    split
    · exact { hanswer with }
    · split
      · exact inv_close _ sound _ hanswer.queued hanswer.link hanswer.helper hanswer.safe
      · rename_i hfailed
        have hdone : call.recovery → result = .Done := by
          intro hrec
          by_contra hne
          exact hfailed ⟨hrec, hne⟩
        have hack := inv_acknowledge s w id call result responses sound h hw hr hl hdone
          fun hs hrec => hb hs hrec (hdone hrec) (Nat.lt_of_not_le hdeadline)
        split
        · exact hack.close _ sound _
        · exact { hack with }

theorem Call.frame_same (call call' : Call) (bytes : ℕ) (full : Bool)
    (h : call.frame bytes full = some call') :
    call'.command = call.command ∧ call'.recovery = call.recovery ∧
      call'.generation = call.generation := by
  unfold Call.frame at h
  dsimp only at h
  split at h
  · cases h
  · cases h
    exact ⟨rfl, rfl, rfl⟩

theorem Connected.frame (l : Link) (generation : ℕ) (ready : Bool) (ledger : Ledger) (w : Worker)
    (h : Connected l generation ready ledger w) (id : ℕ) (call call' : Call) (bytes : ℕ)
    (full : Bool) (hl : lookup w.pending id = some call) (hf : call.frame bytes full = some call') :
    Connected l generation ready ledger
      { w with pending := w.pending.map fun e => if e.1 = id then (id, call') else e } where
  current := h.current
  recovered := h.recovered
  bound := h.bound
  pending := by
    intro x hx
    obtain ⟨y, hy, rfl⟩ := List.mem_map.mp hx
    by_cases hid : y.1 = id
    · rw [if_pos hid]
      obtain ⟨hcommand, hrecovery, hgeneration⟩ := Call.frame_same call call' bytes full hf
      obtain ⟨h0, htyped, hcurrent, e, he, heid, hecommand⟩ :=
        h.pending _ (lookup_mem w.pending id call hl)
      refine ⟨h0, ?_, hgeneration.trans hcurrent, e, he, heid, hecommand.trans hcommand.symm⟩
      unfold Call.Typed
      rw [hcommand, hrecovery]
      exact htyped
    · rw [if_neg hid]
      exact h.pending y hy
  closed := by
    intro hrec
    obtain ⟨e, he, hnone⟩ := h.closed hrec
    refine ⟨e, he, ?_⟩
    rw [lookup_none] at hnone ⊢
    intro x hx
    obtain ⟨y, hy, rfl⟩ := List.mem_map.mp hx
    have hne := hnone y hy
    by_cases hid : y.1 = id
    · rw [if_pos hid]
      exact hid ▸ hne
    · rw [if_neg hid]
      exact hne
  initial := h.initial
  opening := h.opening

theorem inv_receive (s t : State) (full gone : Bool) (sound : Prop) (h : s.Inv sound)
    (hb : sound → s.Benign (.receive full gone)) (ht : s.receive full gone = some t) : t.Inv sound := by
  unfold State.receive at ht
  split at ht
  · rename_i w id result responses hw hr
    have hpop := h.pop s sound _ responses hr
    dsimp only at ht
    split at ht
    · cases ht
    · rename_i hinitial
      have hi : w.initial = none := Option.not_isSome_iff_eq_none.mp hinitial
      split at ht
      · cases ht
        split
        · exact hpop
        · exact inv_close _ sound _ hpop.queued hpop.link hpop.helper hpop.safe
      · rename_i hid
        split at ht
        · cases ht
          exact inv_close _ sound _ hpop.queued hpop.link hpop.helper hpop.safe
        · rename_i call bytes hl
          split at ht
          · cases ht
            exact inv_close _ sound _ hpop.queued hpop.link hpop.helper hpop.safe
          · split at ht
            · cases ht
              exact inv_close _ sound _ hpop.queued hpop.link hpop.helper hpop.safe
            · rename_i call' hframe
              cases ht
              refine { hpop with
                worker := ?_, start := fun _ hw => (nomatch hw), idle := fun hw => (nomatch hw) }
              intro w' hw'
              cases hw'
              exact (hpop.worker w hw).frame _ s.generation s.ready s.ledger w id call call' bytes
                full hl hframe
        · rename_i result _ _ call hl _
          cases ht
          apply inv_settle s w id call result gone responses sound h hw hr hl
          intro hs hrec hdone hnow
          exact hb hs id call ⟨⟨full, gone, rfl⟩, w, responses, hw, hi, hdone ▸ hr, hid, hl, hrec, hnow⟩
  · cases ht

end Rieul.Screen.Ipc
