import Rieul.Screen.HelperSteps

/-!
# Recovery of held input

The steps of the helper keep the invariant, and with it the ledger is sound in every run in which
no acknowledgement of a recovery finds records that it did not carry.
-/

namespace Rieul.Screen.Ipc
open System

section
variable (l : Link) (e : ℕ × Message)
include l e

theorem mem_take_succ (he : l.written[l.read]? = some e) :
    e ∈ l.written.take (l.read + 1) := by
  rw [List.take_add_one, he]
  exact List.mem_append_right _ List.mem_cons_self

theorem mem_drop_read (he : l.written[l.read]? = some e) :
    e ∈ l.written.drop l.read := by
  obtain ⟨hlt, rfl⟩ := List.getElem?_eq_some_iff.mp he
  rw [List.drop_eq_getElem_cons hlt]
  exact List.mem_cons_self

theorem take_mono (he : e ∈ l.written.take l.read) :
    e ∈ l.written.take (l.read + 1) := by
  rw [List.take_add_one]
  exact List.mem_append_left _ he

theorem drop_mono (he : e ∈ l.written.drop (l.read + 1)) :
    e ∈ l.written.drop l.read := by
  rw [← List.drop_drop, List.drop_one] at he
  exact List.mem_of_mem_tail he

end

theorem mem_respond (l : Link) (response : Option UserDesktopResponse) (r : UserDesktopResponse) :
    r ∈ (l.respond response).responses ↔ r ∈ l.responses ∨ response = some r := by
  unfold Link.respond
  rw [List.mem_append, Option.mem_toList]

structure Serves (l : Link) (m : Message) (response : Option UserDesktopResponse) : Prop where
  id : ∀ r ∈ response, r.requestId = m.id
  opened : m.command.isRecovery → response = none ∨ l.read = 0

theorem Link.Ok.serve (l : Link) (h : l.Ok) (g : ℕ) (m : Message)
    (hm : l.written[l.read]? = some (g, m)) (response : Option UserDesktopResponse)
    (hs : Serves l m response) :
    Link.Ok (Link.respond { l with read := l.read + 1 } response) where
  labels := h.labels
  pings := h.pings
  order := h.order
  plain := h.plain
  fenced := h.fenced
  answered := by
    intro r hr hid
    rcases (mem_respond _ response r).mp hr with hr | hr
    · obtain ⟨e, he, heq⟩ := h.answered r hr hid
      exact ⟨e, take_mono l e he, heq⟩
    · exact ⟨(g, m), mem_take_succ l _ hm, (hs.id r hr).symm⟩
  opened := by
    intro r hr e he hid hrec
    rcases (mem_respond _ response r).mp hr with hr | hr
    · exact h.opened r hr e he hid hrec
    · have hmem := List.mem_of_getElem? hm
      have h0 : e.2.id ≠ 0 := by
        intro h0
        have hinput := isRecovery_isInput _ hrec
        rw [h.pings e he h0] at hinput
        cases hinput
      have heq := h.unique l e (g, m) he hmem (hid.trans (hs.id r hr)) h0
      subst heq
      rcases hs.opened hrec with hnone | hread
      · rw [hnone] at hr
        cases hr
      · rw [hread] at hm
        rw [List.head?_eq_getElem?]
        exact hm

theorem Link.Ok.input (l : Link) (h : l.Ok) (e : ℕ × Message) (he : e ∈ l.written)
    (hi : e.2.command.isInput) : e.2.id ≠ 0 := by
  intro h0
  rw [h.pings e he h0] at hi
  cases hi

/-- The request `id` was read, and is no input. -/
def Link.Quiet (l : Link) (id : ℕ) : Prop :=
  ∃ e ∈ l.written, e.2.id = id ∧ e.2.command.isInput = false

theorem Link.Quiet.not_input (l : Link) (h : l.Ok) (id : ℕ) (hq : l.Quiet id) (e : ℕ × Message)
    (he : e ∈ l.written) (hid : e.2.id = id) : e.2.command.isInput = false := by
  cases hi : e.2.command.isInput with
  | false => rfl
  | true =>
    obtain ⟨e', he', hid', hi'⟩ := hq
    have h0 := h.input l e he hi
    have heq := h.unique l e e' he he' (hid.trans hid'.symm) h0
    rw [heq, hi'] at hi
    cases hi

theorem Safe.respond_quiet (l : Link) (hl : l.Ok) (ledger : Ledger) (held : Finset Pressed)
    (h : Safe l ledger held) (response : Option UserDesktopResponse)
    (hq : ∀ r ∈ response, l.Quiet r.requestId) (read : ℕ) (hread : ∀ e ∈ l.written.drop read,
      e ∈ l.written.drop l.read) :
    Safe (Link.respond { l with read := read } response) ledger held where
  known := h.known
  unread := fun e he => h.unread e (hread e he)
  settled := by
    intro r hr hdone e he hid p hp hrel
    rcases (mem_respond _ response r).mp hr with hr | hr
    · exact h.settled r hr hdone e he hid p hp hrel
    · have hinput := releases_isInput _ p hrel
      rw [(hq r hr).not_input l hl r.requestId e he hid] at hinput
      cases hinput
  carried := h.carried
  cleared := by
    intro hgen hrec r hr hid hdone
    rcases (mem_respond _ response r).mp hr with hr | hr
    · exact h.cleared hgen hrec r hr hid hdone
    · obtain ⟨e, he, heid, hinput⟩ := hq r hr
      have hrecovery := hl.fenced hgen hrec e he (by omega)
      rw [isRecovery_isInput _ hrecovery] at hinput
      cases hinput

theorem Safe.execute (l : Link) (hl : l.Ok) (ledger : Ledger) (n : Native)
    (h : Safe l ledger n.held) (g : ℕ) (m : Message) (hm : l.written[l.read]? = some (g, m))
    (h0 : m.id ≠ 0) (ht : l.recovered ∨ l.generation = 0 → n.held ⊆ n.tracked)
    (outcome : Outcome) :
    Safe (Link.respond { l with read := l.read + 1 }
        (some ⟨m.id, (Ipc.execute n m.command outcome).2⟩))
      ledger (Ipc.execute n m.command outcome).1.held := by
  have hmem : (g, m) ∈ l.written := List.mem_of_getElem? hm
  have hunread : (g, m) ∈ l.written.drop l.read := mem_drop_read l _ hm
  -- What is down after it was down before, or the request pressed it.
  have hheld := execute_held n m.command outcome
  refine ⟨?_, fun e he => h.unread e (drop_mono l e he), ?_, h.carried, ?_⟩
  · intro p hp
    rcases hheld p hp with hp | hp
    · exact h.known p hp
    · exact (h.unread _ hunread p hp).1
  · intro r hr hdone e he hid p hp hrel id hrecord
    rcases (mem_respond _ _ r).mp hr with hr | hr
    · rcases hheld p hp with hp | hp
      · exact h.settled r hr hdone e he hid p hp hrel id hrecord
      · have he0 := hl.input l e he (releases_isInput _ p hrel)
        obtain ⟨a, ha, haid⟩ := hl.answered r hr (hid ▸ he0)
        have hlt := hl.before l a (g, m) ha hunread (haid ▸ hid ▸ he0) h0
        have hle := (h.unread _ hunread p hp).2 id hrecord
        have hlt : a.2.id < m.id := hlt
        have hle : m.id ≤ id := hle
        omega
    · cases hr
      exfalso
      have heq := hl.unique l e (g, m) he hmem hid (hid ▸ h0)
      subst heq
      have hor : l.recovered ∨ l.generation = 0 := by
        by_contra hnot
        rw [not_or] at hnot
        have hrec := hl.fenced hnot.2 (Bool.eq_false_iff.mpr hnot.1) _ hmem h0
        rw [releases_not_recovery _ p hrel] at hrec
        cases hrec
      exact execute_releases n m.command outcome (ht hor) hdone p hrel hp
  · intro hgen hrec r hr hid hdone
    have hrecovery : m.command.isRecovery := hl.fenced hgen hrec _ hmem h0
    rcases (mem_respond _ _ r).mp hr with hr | hr
    · apply Finset.eq_empty_of_forall_notMem
      intro p hp
      rcases hheld p hp with hp | hp
      · rw [h.cleared hgen hrec r hr hid hdone] at hp
        exact Finset.notMem_empty p hp
      · rw [presses_not_recovery _ p hp] at hrecovery
        cases hrecovery
    · cases hr
      have hcarried : m.command = ledger.recovery := h.carried hgen hrec _ hmem hid
      apply Finset.eq_empty_of_forall_notMem
      intro p hp
      cases hcommand : m.command with
      | RecoverInput keys buttons =>
        rw [hcommand] at hdone hp hcarried
        obtain ⟨hheld, hnot⟩ := execute_recovers n keys buttons outcome hdone p hp
        obtain ⟨id, hrecord⟩ := h.known p hheld
        exact hnot (recovery_recovers ledger p id hrecord keys buttons hcarried.symm)
      | _ =>
        rw [hcommand] at hrecovery
        cases hrecovery

theorem Connected.serve (l : Link) (generation : ℕ) (ready : Bool) (ledger : Ledger) (w : Worker)
    (h : Connected l generation ready ledger w) (read : ℕ)
    (response : Option UserDesktopResponse) :
    Connected (Link.respond { l with read := read } response) generation ready ledger w :=
  { h with }

theorem inv_serve (s t : State) (outcome : Outcome) (sound : Prop) (h : s.Inv sound)
    (ht : s.serve outcome = some t) : t.Inv sound := by
  unfold State.serve at ht
  split at ht
  · rename_i helper g m hh hm
    have hserved := h.helper helper hh
    have hmem : (g, m) ∈ s.link.written := List.mem_of_getElem? hm
    split at ht
    · cases ht
    · rename_i hrunning
      rw [not_or] at hrunning
      have hstopped : helper.stopped = false := Bool.eq_false_iff.mpr hrunning.1
      have howes := receive_owes helper s.native m outcome
      have hfirst := receive_first helper s.native m outcome
      have hcases := receive_cases helper s.native m outcome
      generalize helper.receive s.native m outcome = e at ht howes hfirst hcases
      obtain ⟨helper', n', response⟩ := e
      cases ht
      have hserved' : (sound → s.link.recovered ∨ s.link.generation = 0 → n'.held ⊆ n'.tracked) →
          Served (Link.respond { s.link with read := s.link.read + 1 } response) sound n' helper' := by
        intro htracked
        refine ⟨?_, ?_, htracked⟩
        · intro hs hf
          have hf : helper'.first = true := hf
          rw [hfirst hs] at hf
          cases hf
        · intro id hid
          rcases howes id hid with hid | ⟨hid, h0, hinput⟩
          · obtain ⟨h0, e, he, heq⟩ := hserved.owes id hid
            exact ⟨h0, e, take_mono s.link e he, heq⟩
          · exact ⟨hid ▸ h0, (g, m), mem_take_succ s.link _ hm, hid.symm, hinput⟩
      have hworker := fun w hw =>
        (h.worker w hw).serve s.link s.generation s.ready s.ledger w (s.link.read + 1) response
      rcases hcases with ⟨hn, hharmless⟩ | ⟨h0, hrec, hn, hr⟩
      · have hn : n' = s.native := hn
        subst hn
        refine ⟨h.queued, ?_, hworker, ?_, ?_, h.start, h.idle⟩
        · apply h.link.serve s.link g m hm
          refine ⟨fun r hr => (hharmless r hr).1, fun hrec => ?_⟩
          cases hresponse : response with
          | none => exact .inl rfl
          | some r =>
            have hinput := isRecovery_isInput _ hrec
            rw [(hharmless r hresponse).2] at hinput
            cases hinput
        · intro h' hh'
          cases hh'
          exact hserved' hserved.tracked
        · intro hs
          apply (h.safe hs).respond_quiet s.link h.link s.ledger
          · intro r hr
            obtain ⟨hid, hinput⟩ := hharmless r hr
            exact ⟨(g, m), hmem, hid.symm, hinput⟩
          · exact fun e he => drop_mono s.link e he
      · have hn : n' = (execute s.native m.command outcome).1 := hn
        have hr : response = some ⟨m.id, (execute s.native m.command outcome).2⟩ := hr
        subst hn hr
        refine ⟨h.queued, ?_, hworker, ?_, ?_, h.start, h.idle⟩
        · apply h.link.serve s.link g m hm
          refine ⟨fun r hr => ?_, fun hrecovery => .inr (hserved.first hstopped (hrec hrecovery))⟩
          cases hr
          rfl
        · intro h' hh'
          cases hh'
          exact hserved' fun hs hor =>
            execute_tracked s.native m.command outcome (hserved.tracked hs hor)
        · exact fun hs => (h.safe hs).execute s.link h.link s.ledger s.native g m hm h0
            (hserved.tracked hs) outcome
  · cases ht

theorem inv_work (s t : State) (work : Work) (sound : Prop) (h : s.Inv sound)
    (ht : s.work work = some t) : t.Inv sound := by
  unfold State.work at ht
  split at ht
  · rename_i helper hh
    have hserved := h.helper helper hh
    split at ht
    · rename_i h' n' response hwork
      have hquiet := work_quiet helper s.native work _ hwork
      cases ht
      have howed : ∀ r ∈ response, r.requestId ≠ 0 ∧ ∃ e ∈ s.link.written.take s.link.read,
          e.2.id = r.requestId ∧ e.2.command.isInput = false :=
        fun r hr => hserved.owes r.requestId (hquiet.answers r hr)
      have hq : ∀ r ∈ response, s.link.Quiet r.requestId := by
        intro r hr
        obtain ⟨_, e, he, heq⟩ := howed r hr
        exact ⟨e, List.mem_of_mem_take he, heq⟩
      refine ⟨h.queued, ?_, ?_, ?_, ?_, h.start, h.idle⟩
      · refine { h.link with answered := ?_, opened := ?_ }
        · intro r hr hid
          rcases (mem_respond s.link response r).mp hr with hr | hr
          · exact h.link.answered r hr hid
          · obtain ⟨_, e, he, heid, _⟩ := howed r hr
            exact ⟨e, he, heid⟩
        · intro r hr e he hid hrec
          rcases (mem_respond s.link response r).mp hr with hr | hr
          · exact h.link.opened r hr e he hid hrec
          · have hinput := isRecovery_isInput _ hrec
            rw [(hq r hr).not_input s.link h.link r.requestId e he hid] at hinput
            cases hinput
      · exact fun w hw => (h.worker w hw).serve s.link s.generation s.ready s.ledger w _ _
      · intro x hx
        cases hx
        refine ⟨?_, fun id hid => hserved.owes id (hquiet.owes id hid), ?_⟩
        · intro hs hf
          exact hserved.first (hquiet.stopped hs) (hquiet.first ▸ hf)
        · intro hs hor
          have htracked := hserved.tracked hs hor
          rw [← hquiet.held, ← hquiet.tracked] at htracked
          exact htracked
      · have hheld : n'.held = s.native.held := hquiet.held
        intro hs
        show Safe _ s.ledger n'.held
        rw [hheld]
        exact (h.safe hs).respond_quiet s.link h.link s.ledger s.native.held response hq s.link.read
          fun _ he => he
    · cases ht
  · cases ht

theorem inv_exit (s : State) (n : Native) (sound : Prop) (h : s.Inv sound) (hn : n.held ⊆ s.native.held) :
    State.Inv { s with helper := none, native := n } sound where
  queued := h.queued
  link := h.link
  worker := h.worker
  helper := fun _ hh => (nomatch hh)
  safe := fun hs =>
    { h.safe hs with
      known := fun p hp => (h.safe hs).known p (hn hp)
      settled := fun r hr hdone e he hid p hp =>
        (h.safe hs).settled r hr hdone e he hid p (hn hp)
      cleared := fun hgen hrec r hr hid hdone =>
        Finset.subset_empty.mp ((h.safe hs).cleared hgen hrec r hr hid hdone ▸ hn) }
  start := h.start
  idle := h.idle

theorem inv_retire (s t : State) (outcome : Outcome) (sound : Prop) (h : s.Inv sound)
    (ht : s.retire outcome = some t) : t.Inv sound := by
  unfold State.retire at ht
  split at ht
  · split at ht
    · cases ht
      exact inv_exit s _ sound h fun p hp => (mem_releaseAll s.native p outcome hp).1
    · cases ht
  · cases ht

theorem inv_crash (s t : State) (sound : Prop) (h : s.Inv sound) (ht : s.crash = some t) : t.Inv sound := by
  unfold State.crash at ht
  split at ht
  · cases ht
    exact inv_exit s _ sound h (Finset.Subset.refl _)
  · cases ht

theorem inv_init (sound : Prop) : State.init.Inv sound where
  queued := fun _ hc => absurd hc List.not_mem_nil
  link := link_start 0
  worker := fun _ hw => (nomatch hw)
  helper := fun _ hh => (nomatch hh)
  safe := fun _ => safe_start 0 ⟨[], []⟩ ∅ fun p hp => absurd hp (Finset.notMem_empty p)
  start := fun _ _ => rfl
  idle := fun _ => rfl

theorem inv_step (s t : State) (a : Action) (sound : Prop) (h : s.Inv sound)
    (hb : sound → s.Benign a) (ht : s.step a = some t) : t.Inv sound := by
  cases a with
  | call command generation deadline =>
    simp only [State.step] at ht
    split at ht
    · cases ht
    · rename_i hcommand
      rw [not_or] at hcommand
      have hnot : command.isRecovery = false := Bool.eq_false_iff.mpr hcommand.1
      exact inv_call s t command false 0 generation deadline sound h hnot.symm nofun ht
  | endTrack track minimum generation deadline =>
    simp only [State.step, State.endTrack] at ht
    split at ht
    · cases ht
    · split at ht
      · cases ht
        exact { h with }
      · exact inv_call s t _ false 0 generation deadline sound h rfl nofun ht
  | streamGroup track refresh bitrate minimum generation deadline =>
    simp only [State.step, State.streamGroup] at ht
    split at ht
    · cases ht
    · exact inv_call s t _ false 0 generation deadline sound h rfl nofun ht
  | recover minimum generation deadline =>
    exact inv_call s t _ true minimum generation deadline sound h rfl (fun _ => rfl) ht
  | connect connected => exact inv_connect s t connected sound h ht
  | take => exact inv_take s t sound h ht
  | submit write => exact inv_submit s t write sound h ht
  | receive full gone => exact inv_receive s t full gone sound h hb ht
  | heartbeat write => exact inv_heartbeat s t write sound h ht
  | lose => exact inv_lose s t sound h ht
  | serve outcome => exact inv_serve s t outcome sound h ht
  | work work => exact inv_work s t work sound h ht
  | retire outcome => exact inv_retire s t outcome sound h ht
  | crash => exact inv_crash s t sound h ht
  | wait ms =>
    cases ht
    exact { h with }

def State.Reached (s : State) : Prop :=
  Reachable (· = State.init) (fun s t => ∃ a, s.Benign a ∧ s.step a = some t) s

theorem State.Reached.inv (s : State) (h : s.Reached) : s.Inv True := by
  refine Reachable.invariant (State.Inv · True) ?_ ?_ h
  · intro s hs
    rw [hs]
    exact inv_init True
  · intro s t hinv hstep
    obtain ⟨a, hb, ht⟩ := hstep
    exact inv_step s t a True hinv (fun _ => hb) ht

theorem acknowledged_request (s : State) (sound : Prop) (h : s.Inv sound) (a : Action) (id : ℕ) (call : Call)
    (hack : s.Acknowledges a id call) (e : ℕ × Message) (he : e ∈ s.link.written)
    (hid : e.2.id = id) (hrec : e.2.command.isRecovery) :
    (s.generation = 0 ∨ id ≠ 1) → e.2.command = .RecoverInput [] [] := by
  intro hor
  obtain ⟨_, w, _, hw, _⟩ := hack
  have hc := h.worker w hw
  apply h.link.plain e he hrec
  rw [hc.current, hid]
  exact hor

theorem recovery_nil (l : Ledger) (h : l.recovery = .RecoverInput [] []) : l = ⟨[], []⟩ := by
  have hsort : ∀ entries : List (ℕ × ℕ),
      (entries.map Prod.fst).insertionSort (· ≤ ·) = [] → entries = [] := by
    intro entries hnil
    have hlength := congrArg List.length hnil
    rw [List.length_insertionSort, List.length_map] at hlength
    exact List.eq_nil_of_length_eq_zero hlength
  obtain ⟨keys, buttons⟩ := l
  obtain ⟨hkeys, hbuttons⟩ := UserDesktopCommand.RecoverInput.inj h
  rw [hsort keys hkeys, hsort buttons hbuttons]

theorem acknowledged_ledger (s t : State) (sound : Prop) (h : s.Inv sound) (a : Action) (id : ℕ) (call : Call)
    (hack : s.Acknowledges a id call) (ht : s.step a = some t) : t.ledger = ⟨[], []⟩ := by
  obtain ⟨⟨full, gone, rfl⟩, w, responses, hw, hi, hr, hid, hl, hrec, hnow⟩ := hack
  obtain ⟨_, htyped, _⟩ := (h.worker w hw).pending _ (lookup_mem w.pending id call hl)
  have hrecovery : call.command.isRecovery := htyped.symm.trans hrec
  have hgroup : ¬ call.command.isGroup := by
    intro hgroup
    cases hcommand : call.command with
    | RecoverInput keys buttons =>
      rw [hcommand] at hgroup
      cases hgroup
    | _ =>
      rw [hcommand] at hrecovery
      cases hrecovery
  have hsettle : some (State.settle { s with link := { s.link with responses := responses } } w id
      call .Done gone) = some t := by
    rw [← ht]
    show _ = s.receive full gone
    unfold State.receive
    rw [hw, hr]
    dsimp only
    rw [hi, if_neg (by exact Bool.false_ne_true), if_neg hid, hl]
  cases hsettle
  unfold State.settle State.acknowledge
  dsimp only
  rw [if_neg (Nat.not_le_of_lt hnow), if_neg hgroup, if_neg (fun hfailed => hfailed.2 rfl),
    if_pos rfl, if_pos hrec, ← ack_recovery s.ledger call.command id hrecovery]
  split
  · rfl
  · rfl

/-- In a run whose steps were all benign, what may be down is in the ledger and the connections are
fenced; and the next step is sound if and only if it is benign. -/
theorem recovery_sound_iff (s : State) (h : s.Reached) :
    s.Contained ∧ s.Fenced ∧
      ∀ (a : Action) (t : State), s.step a = some t → (s.Sound a t ↔ s.Benign a) := by
  have hinv := h.inv
  refine ⟨hinv.contained, hinv.fenced s True, ?_⟩
  intro a t ht
  constructor
  · intro hsound id call hack
    obtain ⟨⟨e, hfirst, hrequest⟩, _⟩ := hsound.2.2 id call hack
    by_contra hnot
    rw [not_or] at hnot
    have hor : s.generation = 0 ∨ id ≠ 1 := by
      by_contra hboth
      rw [not_or, not_not] at hboth
      exact hnot.2 hboth
    have hid : e.2.id = id := congrArg UserDesktopRequest.requestId hrequest
    have hcommand : e.2.command = s.ledger.recovery :=
      congrArg UserDesktopRequest.command hrequest
    have hplain := acknowledged_request s True hinv a id call hack e (List.mem_of_mem_head? hfirst) hid
      (by rw [hcommand]; rfl) hor
    exact hnot.1 (recovery_nil s.ledger (hcommand.symm.trans hplain))
  · intro hbenign
    have ht' := inv_step s t a True hinv (fun _ => hbenign) ht
    refine ⟨ht'.contained, ht'.fenced t True, ?_⟩
    intro id call hack
    refine ⟨?_, acknowledged_ledger s t True hinv a id call hack ht⟩
    have hack' := hack
    obtain ⟨_, w, responses, hw, _, hr, _, hl, hrec, _⟩ := hack'
    have hc := hinv.worker w hw
    obtain ⟨_, htyped, _⟩ := hc.pending _ (lookup_mem w.pending id call hl)
    obtain ⟨e, hfirst, hid, hcommand⟩ :=
      recovery_first s w id call .Done responses True hinv hw hr hl hrec
    have hmem := List.mem_of_mem_head? hfirst
    have hrecovery : e.2.command.isRecovery := by
      rw [hcommand]
      exact htyped.symm.trans hrec
    refine ⟨e, hfirst, ?_⟩
    have hcarried : e.2.command = s.ledger.recovery := by
      by_cases hor : s.generation = 0 ∨ id ≠ 1
      · rcases hbenign id call hack with hempty | hboth
        · rw [acknowledged_request s True hinv a id call hack e hmem hid hrecovery hor, hempty]
          rfl
        · exact absurd hor (by rw [not_or, not_not]; exact hboth)
      · rw [not_or, not_not] at hor
        have hnot := hc.unrecovered s.link s.generation s.ready s.ledger w e call hfirst (hid ▸ hl)
        exact (hinv.safe trivial).carried (hc.current ▸ hor.1) hnot e hmem (hid.trans hor.2)
    obtain ⟨g, start, request⟩ := e
    obtain ⟨n, command⟩ := request
    cases hid
    cases hcarried
    rfl

def pressKey : UserDesktopCommand := .Input (.PhysicalKey 4 true false) none

def pressRun : List Action :=
  [.call pressKey 0 3000, .connect (.ok ()), .submit .sent, .serve .done]

def lateRun : List Action :=
  pressRun ++ [.receive false false, .crash, .lose, .recover 1 1 3000, .wait 4000,
    .recover 1 1 7000, .connect (.ok ()), .submit .sent, .take, .submit .sent, .serve .done]

def State.after (run : List Action) : State := (run.foldlM State.step State.init).getD State.init

theorem after_reachable (run : List Action) (s : State)
    (h : run.foldlM State.step State.init = some s) :
    Reachable (· = State.init) (fun s t => ∃ a, s.step a = some t) (State.after run) := by
  unfold State.after
  rw [h]
  exact Reachable.foldlM State.step run (.start _ rfl) h

/-- The second recovery is acknowledged, carried nothing and empties the ledger; the key is down. -/
theorem late_recovery_forgets : ∃ s t : State,
    Reachable (· = State.init) (fun s t => ∃ a, s.step a = some t) s ∧
      s.step (.receive false false) = some t ∧ s.ledger.keys = [(4, 1)] ∧
      s.link.written.map (fun e => e.2.request.requestId) = [2] ∧
      (∃ call, s.Acknowledges (.receive false false) 2 call ∧
        call.command = .RecoverInput [] []) ∧
      t.native.held = {.key 4} ∧ ¬ t.Contained ∧ ¬ s.Sound (.receive false false) t := by
  have hnot : ∀ t : State, t.native.held = {.key 4} → t.ledger = ⟨[], []⟩ → ¬ t.Contained := by
    intro t hheld hledger hcontained
    obtain ⟨id, hid⟩ := hcontained (.key 4) (.inl (by rw [hheld]; exact Finset.mem_singleton_self _))
    rw [hledger] at hid
    exact records_nil (.key 4) id hid
  refine ⟨State.after lateRun, _, after_reachable lateRun _ rfl, rfl, rfl, rfl, ?_, rfl, ?_, ?_⟩
  · exact ⟨_, ⟨⟨false, false, rfl⟩, _, _, rfl, rfl, rfl, by decide, rfl, rfl, by decide⟩, rfl⟩
  · exact hnot _ rfl rfl
  · exact fun hsound => hnot _ rfl rfl hsound.1

def Action.isReceive : Action → Bool
  | .receive .. => true
  | _ => false

theorem reached_of_run (run : List Action) (s t : State) (hs : s.Reached)
    (hrun : run.all (fun a => a.isReceive = false)) (h : run.foldlM State.step s = some t) :
    t.Reached := by
  induction run generalizing s with
  | nil =>
    cases h
    exact hs
  | cons a run ih =>
    rw [List.foldlM_cons] at h
    obtain ⟨u, hu, h⟩ := Option.bind_eq_some_iff.mp h
    rw [List.all_cons, Bool.and_eq_true, decide_eq_true_eq] at hrun
    refine ih u (hs.next s u ⟨a, ?_, hu⟩) hrun.2 h
    intro id call hack
    obtain ⟨⟨full, gone, ha⟩, _⟩ := hack
    rw [ha] at hrun
    cases hrun.1

def recoverRun : List Action :=
  pressRun ++ [.crash, .lose, .recover 1 1 3000, .connect (.ok ()), .submit .sent, .serve .done]

theorem recovery_sound_sample : ∃ t : State,
    (State.after recoverRun).step (.receive false false) = some t ∧
      (State.after recoverRun).ledger.keys = [(4, 1)] ∧
      (State.after recoverRun).Sound (.receive false false) t := by
  have hreached : (State.after recoverRun).Reached :=
    reached_of_run recoverRun State.init _ (.start _ rfl) rfl rfl
  have hiff := (recovery_sound_iff _ hreached).2.2 (.receive false false) _ rfl
  refine ⟨_, rfl, rfl, hiff.mpr ?_⟩
  intro id call hack
  obtain ⟨_, w, responses, _, _, hr, _⟩ := hack
  cases hr
  exact .inr ⟨by decide, rfl⟩

end Rieul.Screen.Ipc
