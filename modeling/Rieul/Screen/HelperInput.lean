import Rieul.Lib.System
import Rieul.Screen.Proxy

/-!
# Held input over the helper's channel

What may be down is in the ledger, as long as no acknowledgement of a recovery makes the ledger
forget what that recovery did not carry.
-/

namespace Rieul.Screen.Ipc
open System

/-- `p` is down, or an unread request presses it. -/
def State.MayHold (s : State) (p : Pressed) : Prop :=
  p ∈ s.native.held ∨ ∃ e ∈ s.link.written.drop s.link.read, e.2.command.presses = some p

def State.Contained (s : State) : Prop :=
  ∀ p, s.MayHold p → ∃ id, s.ledger.Records p id

/-- The calls of a connection are of its generation; after generation 0 only recoveries are written
before one is acknowledged. The request number 0 is the heartbeat's. -/
structure State.Fenced (s : State) : Prop where
  labels : ∀ e ∈ s.link.written, e.1 = s.link.generation
  recovering : s.link.generation ≠ 0 → s.link.recovered = false →
    ∀ e ∈ s.link.written, e.2.id ≠ 0 → e.2.command.isRecovery
  ready : s.ready → s.generation ≠ 0 → s.link.generation = s.generation ∧ s.link.recovered

/-- The step takes the acknowledgement of the recovery `call`, sent as the request `id`. -/
def State.Acknowledges (s : State) (a : Action) (id : ℕ) (call : Call) : Prop :=
  (∃ full gone, a = .receive full gone) ∧ ∃ w responses, s.worker = some w ∧ w.initial = none ∧
    s.link.responses = ⟨id, .Done⟩ :: responses ∧ id ≠ 0 ∧ lookup w.pending id = some call ∧
      call.recovery ∧ s.now < call.deadline

def State.Sound (s : State) (a : Action) (t : State) : Prop :=
  t.Contained ∧ t.Fenced ∧ ∀ id call, s.Acknowledges a id call →
    (∃ e, s.link.written.head? = some e ∧ e.2.request = ⟨id, s.ledger.recovery⟩) ∧
      t.ledger = ⟨[], []⟩

/-- An acknowledged recovery opened the connection, after generation 0, or finds the ledger empty. -/
def State.Benign (s : State) (a : Action) : Prop :=
  ∀ id call, s.Acknowledges a id call →
    s.ledger = ⟨[], []⟩ ∨ (s.generation ≠ 0 ∧ id = 1)

def Call.Typed (c : Call) : Prop := c.recovery = c.command.isRecovery

def Call.Plain (c : Call) : Prop :=
  c.Typed ∧ (c.recovery → c.command = .RecoverInput [] [])

structure Link.Ok (l : Link) : Prop where
  labels : ∀ e ∈ l.written, e.1 = l.generation
  pings : ∀ e ∈ l.written, e.2.id = 0 → e.2.command.isInput = false
  order : l.written.Pairwise fun a b => a.2.id ≠ 0 → b.2.id ≠ 0 → a.2.id < b.2.id
  plain : ∀ e ∈ l.written, e.2.command.isRecovery → l.generation = 0 ∨ e.2.id ≠ 1 →
    e.2.command = .RecoverInput [] []
  fenced : l.generation ≠ 0 → l.recovered = false →
    ∀ e ∈ l.written, e.2.id ≠ 0 → e.2.command.isRecovery
  answered : ∀ r ∈ l.responses, r.requestId ≠ 0 →
    ∃ e ∈ l.written.take l.read, e.2.id = r.requestId
  opened : ∀ r ∈ l.responses, ∀ e ∈ l.written, e.2.id = r.requestId → e.2.command.isRecovery →
    l.written.head? = some e

structure Connected (l : Link) (generation : ℕ) (ready : Bool) (ledger : Ledger) (w : Worker) :
    Prop where
  current : l.generation = generation
  recovered : generation ≠ 0 → ready = l.recovered
  bound : ∀ e ∈ l.written, e.2.id ≤ w.next
  pending : ∀ x ∈ w.pending, x.1 ≠ 0 ∧ x.2.Typed ∧ x.2.generation = generation ∧
    ∃ e ∈ l.written, e.2.id = x.1 ∧ e.2.command = x.2.command
  closed : l.recovered → ∃ e, l.written.head? = some e ∧ lookup w.pending e.2.id = none
  initial : ∀ c, w.initial = some c → c.Typed ∧ (generation = 0 ∨ w.next ≠ 0 → c.Plain)
  opening : generation ≠ 0 → w.next = 0 → ∃ c, w.initial = some c ∧ c.generation = generation ∧
    c.recovery ∧ c.command = ledger.recovery

/-- The helper of a connection; in a `sound` run it knows of everything that is down. -/
structure Served (l : Link) (sound : Prop) (n : Native) (h : Helper) : Prop where
  first : h.stopped = false → h.first → l.read = 0
  owes : ∀ id, h.Owes id → id ≠ 0 ∧
    ∃ e ∈ l.written.take l.read, e.2.id = id ∧ e.2.command.isInput = false
  tracked : sound → l.recovered ∨ l.generation = 0 → n.held ⊆ n.tracked

structure Safe (l : Link) (ledger : Ledger) (held : Finset Pressed) : Prop where
  known : ∀ p ∈ held, ∃ id, ledger.Records p id
  unread : ∀ e ∈ l.written.drop l.read, ∀ p, e.2.command.presses = some p →
    (∃ id, ledger.Records p id) ∧ ∀ id, ledger.Records p id → e.2.id ≤ id
  settled : ∀ r ∈ l.responses, r.result = .Done → ∀ e ∈ l.written, e.2.id = r.requestId →
    ∀ p ∈ held, e.2.command.releases p → ∀ id, ledger.Records p id → r.requestId < id
  carried : l.generation ≠ 0 → l.recovered = false → ∀ e ∈ l.written, e.2.id = 1 →
    e.2.command = ledger.recovery
  cleared : l.generation ≠ 0 → l.recovered = false → ∀ r ∈ l.responses, r.requestId = 1 →
    r.result = .Done → held = ∅

/-- What holds in every run, and of the ledger what holds in a `sound` one. -/
structure State.Inv (s : State) (sound : Prop) : Prop where
  queued : ∀ c ∈ s.calls, c.Plain
  link : s.link.Ok
  worker : ∀ w, s.worker = some w → Connected s.link s.generation s.ready s.ledger w
  helper : ∀ h, s.helper = some h → Served s.link sound s.native h
  safe : sound → Safe s.link s.ledger s.native.held
  start : s.generation = 0 → s.worker = none → s.ledger = ⟨[], []⟩
  idle : s.worker = none → s.ready = false

variable (s : State)

theorem State.Inv.contained (h : s.Inv True) : s.Contained := by
  intro p hp
  rcases hp with hp | ⟨e, he, hp⟩
  · exact (h.safe trivial).known p hp
  · exact ((h.safe trivial).unread e he p hp).1

variable (l : Link) (sound : Prop)

theorem State.Inv.fenced (h : s.Inv sound) : s.Fenced := by
  refine ⟨h.link.labels, h.link.fenced, ?_⟩
  intro hready hgen
  cases hw : s.worker with
  | none =>
    rw [h.idle hw] at hready
    cases hready
  | some w =>
    have hc := h.worker w hw
    exact ⟨hc.current, (hc.recovered hgen) ▸ hready⟩

theorem Link.Ok.unique (h : l.Ok) (a b : ℕ × Message) (ha : a ∈ l.written)
    (hb : b ∈ l.written) (hid : a.2.id = b.2.id) (h0 : a.2.id ≠ 0) : a = b := by
  obtain ⟨i, hi, rfl⟩ := List.getElem_of_mem ha
  obtain ⟨j, hj, rfl⟩ := List.getElem_of_mem hb
  have horder := List.pairwise_iff_getElem.mp h.order
  have h0' : l.written[j].2.id ≠ 0 := hid ▸ h0
  rcases Nat.lt_trichotomy i j with hij | hij | hij
  · have hlt := horder i j hi hj hij h0 h0'
    omega
  · subst hij
    rfl
  · have hlt := horder j i hj hi hij h0' h0
    omega

theorem Link.Ok.before (h : l.Ok) (a b : ℕ × Message) (ha : a ∈ l.written.take l.read)
    (hb : b ∈ l.written.drop l.read) (ha0 : a.2.id ≠ 0) (hb0 : b.2.id ≠ 0) : a.2.id < b.2.id := by
  have horder := h.order
  rw [← List.take_append_drop l.read l.written] at horder
  exact (List.pairwise_append.mp horder).2.2 a ha b hb ha0 hb0

variable (pending : List (ℕ × Call))

theorem lookup_mem (id : ℕ) (c : Call)
    (h : lookup pending id = some c) : (id, c) ∈ pending := by
  unfold lookup at h
  obtain ⟨x, hx, rfl⟩ := Option.map_eq_some_iff.mp h
  have hid := List.find?_some hx
  have hmem := List.mem_of_find?_eq_some hx
  rw [← of_decide_eq_true hid]
  exact hmem

theorem lookup_none (id : ℕ) :
    lookup pending id = none ↔ ∀ x ∈ pending, x.1 ≠ id := by
  unfold lookup
  rw [Option.map_eq_none_iff, List.find?_eq_none]
  simp only [decide_eq_true_eq]

theorem inv_call (s t : State) (command : UserDesktopCommand) (recovery : Bool)
    (minimum generation deadline : ℕ) (sound : Prop) (h : s.Inv sound) (hr : recovery = command.isRecovery)
    (hc : recovery → command = .RecoverInput [] [])
    (ht : s.call command recovery minimum generation deadline = some t) : t.Inv sound := by
  unfold State.call at ht
  split at ht
  · cases ht
    refine { h with queued := ?_ }
    intro c hmem
    rcases List.mem_append.mp hmem with hmem | hmem
    · exact h.queued c hmem
    · cases List.mem_singleton.mp hmem
      exact ⟨hr, hc⟩
  · cases ht

theorem inv_close (hq : ∀ c ∈ s.calls, c.Plain) (hl : s.link.Ok)
    (hh : ∀ h, s.helper = some h → Served s.link sound s.native h)
    (hs : sound → Safe s.link s.ledger s.native.held) : (s.close pending).Inv sound where
  queued := hq
  link := hl
  worker := fun _ hw => nomatch hw
  helper := hh
  safe := hs
  start := fun hgen => absurd hgen (Nat.succ_ne_zero s.generation)
  idle := fun _ => rfl

theorem State.Inv.close (h : s.Inv sound)
    (pending : List (ℕ × Call)) : (s.close pending).Inv sound :=
  inv_close s sound pending h.queued h.link h.helper h.safe

theorem mem_take_append {α : Type} (l : List α) (n : ℕ) (x e : α) (h : e ∈ l.take n) :
    e ∈ (l ++ [x]).take n := by
  rw [List.take_append]
  exact List.mem_append_left _ h

theorem mem_drop_append {α : Type} (l : List α) (n : ℕ) (x e : α) (h : e ∈ (l ++ [x]).drop n) :
    e ∈ l.drop n ∨ e = x := by
  rw [List.drop_append] at h
  rcases List.mem_append.mp h with h | h
  · exact .inl h
  · exact .inr (List.mem_singleton.mp (List.mem_of_mem_drop h))

theorem head_append {α : Type} (l : List α) (x e : α) (h : l.head? = some e) :
    (l ++ [x]).head? = some e := by
  rw [List.head?_append, h]
  rfl

structure Link.Next (l : Link) (m : Message) : Prop where
  fresh : m.id ≠ 0 → ∀ e ∈ l.written, e.2.id < m.id
  ping : m.id = 0 → m.command.isInput = false
  plain : m.command.isRecovery → l.generation = 0 ∨ m.id ≠ 1 → m.command = .RecoverInput [] []
  fenced : l.generation ≠ 0 → l.recovered = false → m.id ≠ 0 → m.command.isRecovery

theorem Link.Next.input (m : Message) (h : l.Next m) (hi : m.command.isInput) :
    m.id ≠ 0 := by
  intro h0
  rw [h.ping h0] at hi
  cases hi

theorem Link.Ok.append (h : l.Ok) (m : Message) (hm : l.Next m) :
    Link.Ok { l with written := l.written ++ [(l.generation, m)] } where
  labels := by
    intro e he
    rcases List.mem_append.mp he with he | he
    · exact h.labels e he
    · rw [List.mem_singleton.mp he]
  pings := by
    intro e he hid
    rcases List.mem_append.mp he with he | he
    · exact h.pings e he hid
    · rw [List.mem_singleton.mp he] at hid ⊢
      exact hm.ping hid
  order := by
    apply List.pairwise_append.mpr
    refine ⟨h.order, List.pairwise_singleton _ _, ?_⟩
    intro a ha b hb _ hb0
    rw [List.mem_singleton.mp hb] at hb0 ⊢
    exact hm.fresh hb0 a ha
  plain := by
    intro e he hrec hid
    rcases List.mem_append.mp he with he | he
    · exact h.plain e he hrec hid
    · rw [List.mem_singleton.mp he] at hrec hid ⊢
      exact hm.plain hrec hid
  fenced := by
    intro hgen hrec e he hid
    rcases List.mem_append.mp he with he | he
    · exact h.fenced hgen hrec e he hid
    · rw [List.mem_singleton.mp he] at hid ⊢
      exact hm.fenced hgen hrec hid
  answered := by
    intro r hr hid
    obtain ⟨e, he, heq⟩ := h.answered r hr hid
    exact ⟨e, mem_take_append l.written l.read _ e he, heq⟩
  opened := by
    intro r hr e he hid hrec
    rcases List.mem_append.mp he with he | he
    · exact head_append l.written _ e (h.opened r hr e he hid hrec)
    · exfalso
      rw [List.mem_singleton.mp he] at hid hrec
      have hid : m.id = r.requestId := hid
      have h0 := hm.input l m (isRecovery_isInput m.command hrec)
      obtain ⟨e', he', hid'⟩ := h.answered r hr (hid ▸ h0)
      have hlt := hm.fresh h0 e' (List.mem_of_mem_take he')
      omega

theorem Link.Ok.write (h : l.Ok) (m : Message) (hm : l.Next m) (write : Write) :
    (l.write l.generation m write).Ok := by
  unfold Link.write
  split
  · exact h.append l m hm
  · exact h

theorem Served.write (n : Native) (h : Helper) (hs : Served l sound n h)
    (generation : ℕ) (m : Message) (write : Write) :
    Served (l.write generation m write) sound n h := by
  unfold Link.write
  split
  · refine ⟨hs.first, ?_, hs.tracked⟩
    intro id hid
    obtain ⟨h0, e, he, heq⟩ := hs.owes id hid
    exact ⟨h0, e, mem_take_append l.written l.read _ e he, heq⟩
  · exact hs

structure Recorded (l : Link) (m : Message) (ledger ledger' : Ledger) : Prop where
  records : ∀ p n, ledger'.Records p n ↔
    if m.command.presses = some p then n = m.id else ledger.Records p n
  same : l.generation ≠ 0 → l.recovered = false → ledger'.recovery = ledger.recovery
  carried : l.generation ≠ 0 → l.recovered = false → m.id = 1 → m.command = ledger.recovery

theorem Recorded.known (m : Message) (ledger ledger' : Ledger)
    (h : Recorded l m ledger ledger') (p : Pressed) (hp : ∃ n, ledger.Records p n) :
    ∃ n, ledger'.Records p n := by
  obtain ⟨n, hn⟩ := hp
  by_cases hpress : m.command.presses = some p
  · exact ⟨m.id, (h.records p m.id).mpr (by rw [if_pos hpress])⟩
  · exact ⟨n, (h.records p n).mpr (by rw [if_neg hpress]; exact hn)⟩

theorem Recorded.cases (m : Message) (ledger ledger' : Ledger)
    (h : Recorded l m ledger ledger') (p : Pressed) (n : ℕ) (hn : ledger'.Records p n) :
    (m.command.presses = some p ∧ n = m.id) ∨ ledger.Records p n := by
  have hn := (h.records p n).mp hn
  split at hn
  · rename_i hpress
    exact .inl ⟨hpress, hn⟩
  · exact .inr hn

theorem Safe.record (ledger ledger' : Ledger) (held : Finset Pressed)
    (h : Safe l ledger held) (m : Message) (hm : l.Next m) (hr : Recorded l m ledger ledger') :
    Safe l ledger' held where
  known := fun p hp => hr.known l m ledger ledger' p (h.known p hp)
  unread := by
    intro e he p hp
    obtain ⟨hex, hall⟩ := h.unread e he p hp
    refine ⟨hr.known l m ledger ledger' p hex, ?_⟩
    intro n hn
    rcases hr.cases l m ledger ledger' p n hn with ⟨hpress, hn⟩ | hn
    · have h0 := hm.input l m (presses_isInput m.command p hpress)
      have hlt := hm.fresh h0 e (List.mem_of_mem_drop he)
      omega
    · exact hall n hn
  settled := by
    intro r hr' hdone e he hid p hp hrel n hn
    rcases hr.cases l m ledger ledger' p n hn with ⟨hpress, hn⟩ | hn
    · have h0 := hm.input l m (presses_isInput m.command p hpress)
      have hlt := hm.fresh h0 e he
      omega
    · exact h.settled r hr' hdone e he hid p hp hrel n hn
  carried := by
    intro hgen hrec e he hid
    rw [hr.same hgen hrec]
    exact h.carried hgen hrec e he hid
  cleared := h.cleared

theorem Safe.write (hl : l.Ok) (ledger ledger' : Ledger) (held : Finset Pressed)
    (h : Safe l ledger held) (m : Message) (hm : l.Next m) (hr : Recorded l m ledger ledger')
    (generation : ℕ) (write : Write) : Safe (l.write generation m write) ledger' held := by
  have h' := h.record l ledger ledger' held m hm hr
  unfold Link.write
  split
  · refine ⟨h'.known, ?_, ?_, ?_, h'.cleared⟩
    · intro e he p hp
      rcases mem_drop_append l.written l.read _ e he with he | he
      · exact h'.unread e he p hp
      · rw [he] at hp ⊢
        refine ⟨⟨m.id, (hr.records p m.id).mpr (by rw [if_pos hp])⟩, ?_⟩
        intro n hn
        have hn := (hr.records p n).mp hn
        rw [if_pos hp] at hn
        exact Nat.le_of_eq hn.symm
    · intro r hr' hdone e he hid p hp hrel n hn
      rcases List.mem_append.mp he with he | he
      · exact h'.settled r hr' hdone e he hid p hp hrel n hn
      · exfalso
        rw [List.mem_singleton.mp he] at hid hrel
        have hid : m.id = r.requestId := hid
        have h0 := hm.input l m (releases_isInput m.command p hrel)
        obtain ⟨e', he', hid'⟩ := hl.answered r hr' (hid ▸ h0)
        have hlt := hm.fresh h0 e' (List.mem_of_mem_take he')
        omega
    · intro hgen hrec e he hid
      rcases List.mem_append.mp he with he | he
      · exact h'.carried hgen hrec e he hid
      · rw [List.mem_singleton.mp he] at hid ⊢
        show m.command = ledger'.recovery
        rw [hr.same hgen hrec]
        exact hr.carried hgen hrec hid
  · exact h'

end Rieul.Screen.Ipc
