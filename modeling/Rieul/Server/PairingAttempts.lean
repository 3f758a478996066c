import Mathlib.Data.List.Nodup
import Mathlib.Logic.Relation
import Rieul.Server.Pairing

/-!
# Pairing attempts over whole runs

The calls of all sessions interleave at every await.
-/

namespace Rieul.Server
open System

namespace Pairing
variable (s : Pairing)

def Completable (id : ℕ) : Prop := ∃ c, s.state.activeChallenge = some c ∧ c.attemptId = id

def Superseded (id : ℕ) : Prop :=
  ∃ a b newer, s.attempts id = some a ∧ s.attempts newer = some b ∧ id < newer ∧ a.key = b.key

def Dead (id : ℕ) : Prop :=
  s.Superseded id ∨ ∃ a, s.attempts id = some a ∧
    (a.phase = .ended .rejected ∨ a.phase = .ended .notNotified)

def Next (s t : Pairing) : Prop := ∃ a, s.step a = some t

def Later : Pairing → Pairing → Prop := Relation.ReflTransGen Next

def Initial : Prop := s = ⟨.initial, fun _ => none, fun _ => none, [], []⟩

def Reached : Prop := Reachable Initial Next s

structure Sound : Prop where
  active (c : ActivePairingChallenge) : s.state.activeChallenge = some c →
    s.state.currentAttempts c.attemptKey = some c.attemptId ∧
      ∃ a, s.attempts c.attemptId = some a ∧ c = a.challenge c.attemptId c.record
  dead (id : ℕ) (t : Pairing) : s.Dead id → Later s t → ¬ t.Completable id
  once : (s.completed.map fun k => k.challenge.attemptId).Nodup
  completed (k : Completion) : k ∈ s.completed →
    ∃ a, s.attempts k.challenge.attemptId = some a ∧ k.session = a.session ∧
      k.now < k.challenge.record.expiresAtUnix
  issued (i : Issue) : i ∈ s.issues → i.completion ∈ s.completed ∧
    ∃ a, s.attempts i.completion.challenge.attemptId = some a ∧ a.confirmed = true ∧
      i.record.label = a.clientLabel
  issuedOnce : (s.issues.map fun i => i.completion.challenge.attemptId).Nodup

end Pairing

def Phase.Live (p : Phase) : Prop := p = .notifying ∨ p = .ended .started

def Phase.Published (p : Phase) : Prop := p.Live ∨ p = .ended .notNotified

/-- Only the local user's confirmation leads on from `confirming`. -/
def Attempt.Asked (a : Attempt) : Prop :=
  a.confirmed = true ∨ a.phase = .confirming ∨ a.phase = .ended .unloaded ∨
    a.phase = .ended .rejected

namespace Pairing

/-- A confirmed attempt in a phase with `P` made the challenge. -/
def Made (s : Pairing) (P : Phase → Prop) (c : ActivePairingChallenge) : Prop :=
  ∃ a, s.attempts c.attemptId = some a ∧ c = a.challenge c.attemptId c.record ∧
    a.confirmed = true ∧ P a.phase

structure Inv (s : Pairing) : Prop where
  bounded (id : ℕ) (a : Attempt) : s.attempts id = some a → id ≤ s.state.nextAttemptId
  asked (id : ℕ) (a : Attempt) : s.attempts id = some a → a.Asked
  newest (key : PairingAttemptKey) (id i : ℕ) (b : Attempt) :
    s.state.currentAttempts key = some id → s.attempts i = some b → b.key = key → i ≤ id
  active (c : ActivePairingChallenge) : s.state.activeChallenge = some c →
    s.state.currentAttempts c.attemptKey = some c.attemptId ∧ s.Made Phase.Live c ∧
      c.attemptId ∉ s.completed.map fun k => k.challenge.attemptId
  completed (k : Completion) : k ∈ s.completed → s.Made Phase.Published k.challenge ∧
    k.session = k.challenge.ownerSessionId ∧ k.now < k.challenge.record.expiresAtUnix
  once : (s.completed.map fun k => k.challenge.attemptId).Nodup
  completing (id : ℕ) (k : Completion) : s.completing id = some k → k ∈ s.completed ∧
    k.challenge.attemptId = id ∧ id ∉ s.issues.map fun i => i.completion.challenge.attemptId
  issued (i : Issue) : i ∈ s.issues → i.completion ∈ s.completed ∧
    i.record.label = i.completion.challenge.clientLabel
  issuedOnce : (s.issues.map fun i => i.completion.challenge.attemptId).Nodup

section
variable {s t : Pairing} {id : ℕ} {a b : Attempt}

theorem inPhase_eq_some (phase : Phase) (h : s.inPhase id phase = some a) :
    s.attempts id = some a ∧ a.phase = phase := by
  simpa [inPhase, Option.filter_eq_some_iff] using h

theorem put_attempts (i : ℕ) :
    (s.put id b).attempts i = if i = id then some b else s.attempts i := by
  simp only [put, Function.update_apply]

structure Advances (a b : Attempt) : Prop where
  same (id : ℕ) (record : PairingRecord) : a.challenge id record = b.challenge id record
  confirmed : a.confirmed = true → b.confirmed = true
  asked : b.Asked
  published : a.phase.Published → b.phase.Published

theorem Advances.key (h : Advances a b) : a.key = b.key :=
  congrArg ActivePairingChallenge.attemptKey (h.same 0 ⟨"", 0⟩)

theorem Made.put {P : Phase → Prop} {c : ActivePairingChallenge} (hm : s.Made P c)
    (ha : s.attempts id = some a) (h : Advances a b)
    (hp : c.attemptId = id → P a.phase → P b.phase) : (s.put id b).Made P c := by
  obtain ⟨d, hd, hc, hconfirmed, hphase⟩ := hm
  unfold Made
  rw [put_attempts]
  by_cases hid : c.attemptId = id
  · have hda : d = a := by
      rw [hid, ha] at hd
      exact (Option.some.inj hd).symm
    rw [hda] at hc hconfirmed hphase
    rw [if_pos hid]
    exact ⟨b, rfl, hc.trans (h.same _ _), h.confirmed hconfirmed, hp hid hphase⟩
  · rw [if_neg hid]
    exact ⟨d, hd, hc, hconfirmed, hphase⟩

theorem Inv.put (hs : s.Inv) (ha : s.attempts id = some a) (h : Advances a b)
    (hlive : ∀ c, s.state.activeChallenge = some c → c.attemptId = id → a.phase.Live →
      b.phase.Live) : (s.put id b).Inv := by
  constructor
  · intro i d hd
    rw [put_attempts] at hd
    split_ifs at hd with hi
    · exact hi ▸ hs.bounded id a ha
    · exact hs.bounded i d hd
  · intro i d hd
    rw [put_attempts] at hd
    split_ifs at hd with hi
    · cases hd
      exact h.asked
    · exact hs.asked i d hd
  · intro key newest i d hn hd hk
    rw [put_attempts] at hd
    split_ifs at hd with hi
    · cases hd
      exact hi ▸ hs.newest key newest id a hn ha (h.key.trans hk)
    · exact hs.newest key newest i d hn hd hk
  · intro c hc
    obtain ⟨hcurrent, hmade, hnew⟩ := hs.active c hc
    exact ⟨hcurrent, hmade.put ha h (hlive c hc), hnew⟩
  · intro k hk
    obtain ⟨hmade, hrest⟩ := hs.completed k hk
    exact ⟨hmade.put ha h fun _ => h.published, hrest⟩
  · exact hs.once
  · exact hs.completing
  · exact hs.issued
  · exact hs.issuedOnce

theorem Inv.register (hs : s.Inv) (key : PairingAttemptKey) (hk : b.key = key)
    (hp : b.phase = .confirming) :
    ((s.putState (s.state.beginAttempt key)).put (s.state.nextAttemptId + 1) b).Inv := by
  have hfresh : ∀ i d, s.attempts i = some d → i ≠ s.state.nextAttemptId + 1 := by
    intro i d hd
    have hle := hs.bounded i d hd
    omega
  have hmade : ∀ (P : Phase → Prop) c, s.Made P c →
      ((s.putState (s.state.beginAttempt key)).put (s.state.nextAttemptId + 1) b).Made P c := by
    intro P c hc
    obtain ⟨d, hd, hrest⟩ := hc
    refine ⟨d, ?_, hrest⟩
    rw [put_attempts, if_neg (hfresh _ d hd)]
    exact hd
  constructor
  · intro i d hd
    rw [put_attempts] at hd
    split_ifs at hd with hi
    · exact Nat.le_of_eq hi
    · exact Nat.le_succ_of_le (hs.bounded i d hd)
  · intro i d hd
    rw [put_attempts] at hd
    split_ifs at hd with hi
    · cases hd
      exact .inr (.inl hp)
    · exact hs.asked i d hd
  · intro other newest i d hn hd hkd
    have hbound : i ≤ s.state.nextAttemptId + 1 := by
      rw [put_attempts] at hd
      split_ifs at hd with hi
      · exact Nat.le_of_eq hi
      · exact Nat.le_succ_of_le (hs.bounded i d hd)
    simp only [putState, PairingState.beginAttempt, Pairing.put, Function.update_apply] at hn
    split_ifs at hn with ho
    · cases hn
      exact hbound
    · rw [put_attempts] at hd
      split_ifs at hd with hi
      · cases hd
        exact absurd (hkd.symm.trans hk) ho
      · exact hs.newest other newest i d hn hd hkd
  · intro c hc
    have hold := Option.filter_eq_some_iff.mp hc
    obtain ⟨hcurrent, hc', hnew⟩ := hs.active c hold.1
    have hne : c.attemptKey ≠ key := of_decide_eq_true hold.2
    refine ⟨?_, hmade _ c hc', hnew⟩
    show Function.update s.state.currentAttempts key _ c.attemptKey = _
    rw [Function.update_of_ne hne]
    exact hcurrent
  · intro k hk'
    obtain ⟨hc, hrest⟩ := hs.completed k hk'
    exact ⟨hmade _ _ hc, hrest⟩
  · exact hs.once
  · exact hs.completing
  · exact hs.issued
  · exact hs.issuedOnce

theorem remove_eq_some (state : PairingState) (key other : PairingAttemptKey)
    (h : (state.remove key).currentAttempts other = some id) :
    state.currentAttempts other = some id := by
  simp only [PairingState.remove, Function.update_apply] at h
  split_ifs at h
  exact h

theorem Inv.clear (hs : s.Inv) (key : PairingAttemptKey) :
    (s.putState { s.state.remove key with activeChallenge := none }).Inv := by
  constructor
  · exact hs.bounded
  · exact hs.asked
  · intro other newest i d hn
    exact hs.newest other newest i d (remove_eq_some s.state key other hn)
  · intro c hc
    cases hc
  · exact hs.completed
  · exact hs.once
  · exact hs.completing
  · exact hs.issued
  · exact hs.issuedOnce

theorem Inv.reject (hs : s.Inv) (ha : s.attempts id = some a) (hp : ¬ a.phase.Live) :
    (s.putState (s.state.reject a.key id)).Inv := by
  unfold PairingState.reject
  split_ifs with hcurrent
  · constructor
    · exact hs.bounded
    · exact hs.asked
    · intro other newest i d hn
      exact hs.newest other newest i d (remove_eq_some s.state a.key other hn)
    · intro c hc
      obtain ⟨hc', hmade, hnew⟩ := hs.active c hc
      refine ⟨?_, hmade, hnew⟩
      have hne : c.attemptKey ≠ a.key := by
        intro he
        -- Then `a` made the challenge, but it is not live.
        have hid : some c.attemptId = some id := by
          rw [← hc', he]
          exact of_decide_eq_true hcurrent
        obtain ⟨d, hd, -, -, hlive⟩ := hmade
        rw [Option.some.inj hid, ha] at hd
        exact hp (Option.some.inj hd ▸ hlive)
      show Function.update s.state.currentAttempts a.key none c.attemptKey = _
      rw [Function.update_of_ne hne]
      exact hc'
    · exact hs.completed
    · exact hs.once
    · exact hs.completing
    · exact hs.issued
    · exact hs.issuedOnce
  · exact hs

theorem Inv.withdraw (hs : s.Inv) (ha : s.attempts id = some a) :
    (s.putState (s.state.withdraw a.key id)).Inv ∧
      ∀ c, (s.state.withdraw a.key id).activeChallenge = some c → c.attemptId ≠ id := by
  unfold PairingState.withdraw
  split_ifs with hactive
  · exact ⟨hs.clear a.key, fun c hc => nomatch hc⟩
  · refine ⟨hs, ?_⟩
    intro c hc hid
    apply hactive
    obtain ⟨-, ⟨d, hd, hmade, -, -⟩, -⟩ := hs.active c hc
    rw [hid, ha] at hd
    have hkey : c.attemptKey = a.key := by
      rw [hmade, Option.some.inj hd]
      rfl
    rw [hc, Option.any_some]
    exact decide_eq_true ⟨hkey, hid⟩

theorem Inv.activate (hs : s.Inv) (record : PairingRecord) (ha : s.attempts id = some a)
    (hp : a.phase = .checked) (hcurrent : s.state.isCurrent a.key id = true) :
    ((s.putState { s.state with activeChallenge := some (a.challenge id record) }).put id
      { a with phase := .notifying }).Inv := by
  have hconfirmed : a.confirmed = true := by
    have hasked := hs.asked id a ha
    simpa [Attempt.Asked, hp] using hasked
  have hput : (s.put id { a with phase := .notifying }).Inv := by
    refine hs.put ha ⟨fun _ _ => rfl, fun h => h, .inl hconfirmed, fun _ => .inl (.inl rfl)⟩ ?_
    exact fun _ _ _ _ => .inl rfl
  have hnew : id ∉ s.completed.map fun k => k.challenge.attemptId := by
    intro hmem
    obtain ⟨k, hk, hid⟩ := List.mem_map.mp hmem
    obtain ⟨⟨d, hd, -, -, hphase⟩, -⟩ := hs.completed k hk
    rw [hid, ha] at hd
    rw [← Option.some.inj hd, hp] at hphase
    simp [Phase.Published, Phase.Live] at hphase
  constructor
  · exact hput.bounded
  · exact hput.asked
  · exact hput.newest
  · intro c hc
    cases hc
    refine ⟨of_decide_eq_true hcurrent, ⟨{ a with phase := .notifying }, ?_⟩, hnew⟩
    rw [put_attempts]
    exact ⟨if_pos rfl, rfl, hconfirmed, .inl rfl⟩
  · exact hput.completed
  · exact hs.once
  · exact hs.completing
  · exact hs.issued
  · exact hs.issuedOnce

/-- What `complete_pairing` leaves: the state as it is, the challenge gone, or the challenge
taken by its owner in time. -/
theorem complete_cases (state : PairingState) (session : ℕ) (codeSha256 : String) (now : ℤ) :
    (∃ e, state.complete session codeSha256 now = (state, .error e)) ∨
    ∃ c, state.activeChallenge = some c ∧ c.ownerSessionId = session ∧
      ((∃ e, state.complete session codeSha256 now =
          ({ state.remove c.attemptKey with activeChallenge := none }, .error e)) ∨
        now < c.record.expiresAtUnix ∧ state.complete session codeSha256 now =
          ({ state.remove c.attemptKey with activeChallenge := none }, .ok c)) := by
  unfold PairingState.complete
  cases hc : state.activeChallenge with
  | none => exact .inl ⟨_, rfl⟩
  | some c =>
    dsimp only
    split_ifs with howner hexpired hcode
    · exact .inl ⟨_, rfl⟩
    · exact .inr ⟨c, rfl, not_not.mp howner, .inl ⟨_, rfl⟩⟩
    · exact .inl ⟨_, rfl⟩
    · exact .inr ⟨c, rfl, not_not.mp howner, .inr ⟨Int.not_le.mp hexpired, rfl⟩⟩

theorem Inv.take (hs : s.Inv) (c : ActivePairingChallenge) (session : ℕ) (now : ℤ)
    (hc : s.state.activeChallenge = some c) (howner : c.ownerSessionId = session)
    (hnow : now < c.record.expiresAtUnix) :
    Pairing.Inv { s with
      state := { s.state.remove c.attemptKey with activeChallenge := none }
      completing := Function.update s.completing c.attemptId (some ⟨c, session, now⟩)
      completed := s.completed ++ [⟨c, session, now⟩] } := by
  obtain ⟨-, ⟨a, ha, hmade, hconfirmed, hlive⟩, hnew⟩ := hs.active c hc
  have hclear := hs.clear c.attemptKey
  constructor
  · exact hs.bounded
  · exact hs.asked
  · exact hclear.newest
  · intro d hd
    cases hd
  · intro k hk
    rcases List.mem_append.mp hk with hk | hk
    · exact hs.completed k hk
    · rw [List.mem_singleton.mp hk]
      exact ⟨⟨a, ha, hmade, hconfirmed, .inl hlive⟩, howner.symm, hnow⟩
  · rw [List.map_append, List.nodup_append]
    refine ⟨hs.once, List.nodup_singleton _, ?_⟩
    intro i hi j hj he
    rw [he, List.mem_singleton.mp hj] at hi
    exact hnew hi
  · intro i k hk
    simp only [Function.update_apply] at hk
    split_ifs at hk with hi
    · cases hk
      refine ⟨List.mem_append_right _ List.mem_cons_self, hi.symm, ?_⟩
      intro hmem
      obtain ⟨j, hj, hid⟩ := List.mem_map.mp hmem
      refine hnew (List.mem_map.mpr ⟨j.completion, (hs.issued j hj).1, ?_⟩)
      exact hid.trans hi
    · obtain ⟨hmem, hrest⟩ := hs.completing i k hk
      exact ⟨List.mem_append_left _ hmem, hrest⟩
  · intro i hi
    obtain ⟨hmem, hlabel⟩ := hs.issued i hi
    exact ⟨List.mem_append_left _ hmem, hlabel⟩
  · exact hs.issuedOnce

theorem completing_clear (i : ℕ) (k : Completion)
    (h : Function.update s.completing id none i = some k) : i ≠ id ∧ s.completing i = some k := by
  simp only [Function.update_apply] at h
  split_ifs at h with hi
  exact ⟨hi, h⟩

theorem issued_label (clients : ClientCredentials) (clientId : Option String)
    (label drawnId secretSha256 : String) (now : ℤ) :
    (issued clients clientId label drawnId secretSha256 now).label = label := by
  unfold Rieul.Server.issued
  cases clientId.bind (lookup clients) <;> rfl

theorem Inv.issue (hs : s.Inv) (k : Completion) (record : ClientCredentialRecord)
    (hk : s.completing id = some k) (hlabel : record.label = k.challenge.clientLabel) :
    Pairing.Inv { s with
      completing := Function.update s.completing id none
      issues := s.issues ++ [⟨k, record⟩] } := by
  obtain ⟨hmem, hid, hnew⟩ := hs.completing id k hk
  constructor
  · exact hs.bounded
  · exact hs.asked
  · exact hs.newest
  · exact hs.active
  · exact hs.completed
  · exact hs.once
  · intro i j hj
    obtain ⟨hne, hold⟩ := completing_clear i j hj
    obtain ⟨hjmem, hjid, hjnew⟩ := hs.completing i j hold
    refine ⟨hjmem, hjid, ?_⟩
    rw [List.map_append, List.mem_append, not_or]
    refine ⟨hjnew, ?_⟩
    intro hi
    exact hne ((List.mem_singleton.mp hi).trans hid)
  · intro i hi
    rcases List.mem_append.mp hi with hi | hi
    · exact hs.issued i hi
    · rw [List.mem_singleton.mp hi]
      exact ⟨hmem, hlabel⟩
  · rw [List.map_append, List.nodup_append]
    refine ⟨hs.issuedOnce, List.nodup_singleton _, ?_⟩
    intro i hi j hj
    rw [List.mem_singleton.mp hj]
    exact fun he => hnew ((he.trans hid) ▸ hi)

theorem Inv.issueFail (hs : s.Inv) :
    Pairing.Inv { s with completing := Function.update s.completing id none } := by
  constructor
  · exact hs.bounded
  · exact hs.asked
  · exact hs.newest
  · exact hs.active
  · exact hs.completed
  · exact hs.once
  · intro i j hj
    exact hs.completing i j (completing_clear i j hj).2
  · exact hs.issued
  · exact hs.issuedOnce

theorem not_published {p : Phase} (h : p = .confirming ∨ p = .confirmed ∨ p = .checked) :
    ¬ p.Published := by
  rcases h with rfl | rfl | rfl <;> simp [Phase.Published, Phase.Live]

theorem Inv.goOn (hs : s.Inv) (ha : s.attempts id = some a)
    (hp : a.phase = .confirming ∨ a.phase = .confirmed ∨ a.phase = .checked) (phase : Phase)
    (hasked : Attempt.Asked { a with phase := phase }) :
    (s.put id { a with phase := phase }).Inv := by
  have hnot := not_published hp
  refine hs.put ha ⟨fun _ _ => rfl, fun h => h, hasked, fun h => absurd h hnot⟩ ?_
  exact fun _ _ _ h => absurd (.inl h) hnot

theorem Inv.confirmed (hs : s.Inv) (ha : s.attempts id = some a)
    (hp : a.phase = .confirmed ∨ a.phase = .checked ∨ a.phase = .notifying) :
    a.confirmed = true := by
  have hasked := hs.asked id a ha
  unfold Attempt.Asked at hasked
  rcases hp with hp | hp | hp <;> simpa [hp] using hasked

theorem Inv.step (hs : s.Inv) (action : PairingAction) (h : s.step action = some t) : t.Inv := by
  cases action with
  | startPairing session request =>
    simp only [Pairing.step] at h
    cases hcode : normalizeConfirmationCode request.confirmationCode with
    | none =>
      rw [hcode] at h
      cases h
      exact hs
    | some code =>
      rw [hcode] at h
      cases h
      exact hs.register _ rfl rfl
  | unload id =>
    obtain ⟨a, ha, rfl⟩ := Option.map_eq_some_iff.mp h
    obtain ⟨ha, hp⟩ := inPhase_eq_some _ ha
    exact hs.goOn ha (.inl hp) (.ended .unloaded) (.inr (.inr (.inl rfl)))
  | confirm id =>
    obtain ⟨a, ha, rfl⟩ := Option.map_eq_some_iff.mp h
    obtain ⟨ha, hp⟩ := inPhase_eq_some _ ha
    have hnot := not_published (.inl hp)
    refine hs.put ha ⟨fun _ _ => rfl, fun _ => rfl, .inl rfl, fun h => absurd h hnot⟩ ?_
    exact fun _ _ _ h => absurd (.inl h) hnot
  | reject id =>
    obtain ⟨a, ha, rfl⟩ := Option.map_eq_some_iff.mp h
    obtain ⟨ha, hp⟩ := inPhase_eq_some _ ha
    have hnot : ¬ a.phase.Live := fun h => not_published (.inl hp) (.inl h)
    exact (hs.reject ha hnot).goOn ha (.inl hp) (.ended .rejected) (.inr (.inr (.inr rfl)))
  | check id =>
    obtain ⟨a, ha, rfl⟩ := Option.map_eq_some_iff.mp h
    obtain ⟨ha, hp⟩ := inPhase_eq_some _ ha
    have hconfirmed := hs.confirmed ha (.inl hp)
    exact hs.goOn ha (.inr (.inl hp)) _ (.inl hconfirmed)
  | activate id codeSha256 now =>
    obtain ⟨a, ha, rfl⟩ := Option.map_eq_some_iff.mp h
    obtain ⟨ha, hp⟩ := inPhase_eq_some _ ha
    have hconfirmed := hs.confirmed ha (.inr (.inl hp))
    split_ifs with hcurrent
    · exact hs.activate _ ha hp hcurrent
    · exact hs.goOn ha (.inr (.inr hp)) _ (.inl hconfirmed)
  | notify id =>
    obtain ⟨a, ha, rfl⟩ := Option.map_eq_some_iff.mp h
    obtain ⟨ha, hp⟩ := inPhase_eq_some _ ha
    have hconfirmed := hs.confirmed ha (.inr (.inr hp))
    refine hs.put ha ⟨fun _ _ => rfl, fun h => h, .inl hconfirmed, fun _ => .inl (.inr rfl)⟩ ?_
    exact fun _ _ _ _ => .inr rfl
  | notifyFail id =>
    obtain ⟨a, ha, rfl⟩ := Option.map_eq_some_iff.mp h
    obtain ⟨ha, hp⟩ := inPhase_eq_some _ ha
    obtain ⟨hwithdrawn, hgone⟩ := hs.withdraw ha
    have hconfirmed := hs.confirmed ha (.inr (.inr hp))
    refine hwithdrawn.put ha ⟨fun _ _ => rfl, fun h => h, .inl hconfirmed, fun _ => .inr rfl⟩ ?_
    exact fun c hc hid => absurd hid (hgone c hc)
  | completePairing session codeSha256 now =>
    simp only [Pairing.step] at h
    rcases complete_cases s.state session codeSha256 now with
      ⟨e, he⟩ | ⟨c, hc, howner, ⟨e, he⟩ | ⟨hnow, he⟩⟩
    · rw [he] at h
      cases h
      exact hs
    · rw [he] at h
      cases h
      exact hs.clear c.attemptKey
    · rw [he] at h
      cases h
      exact hs.take c session now hc howner hnow
  | issue id clients drawnId secretSha256 =>
    obtain ⟨k, hk, rfl⟩ := Option.map_eq_some_iff.mp h
    exact hs.issue k _ hk (issued_label _ _ _ _ _ _)
  | issueFail id =>
    obtain ⟨k, hk, rfl⟩ := Option.map_eq_some_iff.mp h
    exact hs.issueFail

theorem Reached.inv (h : s.Reached) : s.Inv := by
  refine h.invariant Inv ?_ ?_
  · intro s hs
    rw [hs]
    constructor <;> simp [PairingState.initial]
  · intro s t hs hnext
    obtain ⟨action, hstep⟩ := hnext
    exact hs.step action hstep

theorem step_attempts (action : PairingAction) (h : s.step action = some t) :
    t.attempts = s.attempts ∨
      (∃ b, t.attempts = Function.update s.attempts (s.state.nextAttemptId + 1) (some b)) ∨
      ∃ id a b, t.attempts = Function.update s.attempts id (some b) ∧ s.attempts id = some a ∧
        (∀ outcome, a.phase ≠ .ended outcome) ∧ a.key = b.key := by
  cases action with
  | startPairing session request =>
    simp only [Pairing.step] at h
    cases hcode : normalizeConfirmationCode request.confirmationCode with
    | none =>
      rw [hcode] at h
      cases h
      exact .inl rfl
    | some code =>
      rw [hcode] at h
      cases h
      exact .inr (.inl ⟨_, rfl⟩)
  | unload id | confirm id | reject id | check id | notify id | notifyFail id =>
    obtain ⟨a, ha, rfl⟩ := Option.map_eq_some_iff.mp h
    obtain ⟨ha, hp⟩ := inPhase_eq_some _ ha
    exact .inr (.inr ⟨id, a, _, rfl, ha, by simp [hp], rfl⟩)
  | activate id codeSha256 now =>
    obtain ⟨a, ha, rfl⟩ := Option.map_eq_some_iff.mp h
    obtain ⟨ha, hp⟩ := inPhase_eq_some _ ha
    split_ifs with hcurrent
    · exact .inr (.inr ⟨id, a, _, rfl, ha, by simp [hp], rfl⟩)
    · exact .inr (.inr ⟨id, a, _, rfl, ha, by simp [hp], rfl⟩)
  | completePairing session codeSha256 now =>
    simp only [Pairing.step] at h
    cases hc : s.state.complete session codeSha256 now with
    | mk state result =>
      rw [hc] at h
      cases result with
      | error e | ok c =>
        cases h
        exact .inl rfl
  | issue id clients drawnId secretSha256 | issueFail id =>
    obtain ⟨k, hk, rfl⟩ := Option.map_eq_some_iff.mp h
    exact .inl rfl

theorem step_keeps (hs : s.Inv) (action : PairingAction) (h : s.step action = some t) (i : ℕ)
    (d : Attempt) (hd : s.attempts i = some d) : ∃ e, t.attempts i = some e ∧ d.key = e.key ∧
      ∀ outcome, d.phase = .ended outcome → e.phase = .ended outcome := by
  rcases step_attempts action h with he | ⟨b, he⟩ | ⟨id, a, b, he, ha, hp, hk⟩
  · exact ⟨d, he ▸ hd, rfl, fun _ h => h⟩
  · have hbound := hs.bounded i d hd
    have hne : i ≠ s.state.nextAttemptId + 1 := by omega
    rw [he, Function.update_of_ne hne]
    exact ⟨d, hd, rfl, fun _ h => h⟩
  · rw [he]
    by_cases hi : i = id
    · subst hi
      rw [ha] at hd
      rw [Function.update_self, ← Option.some.inj hd]
      exact ⟨b, rfl, hk, fun outcome h => absurd h (hp outcome)⟩
    · rw [Function.update_of_ne hi]
      exact ⟨d, hd, rfl, fun _ h => h⟩

theorem Dead.step (hs : s.Inv) (action : PairingAction) (h : s.step action = some t)
    (hd : s.Dead id) : t.Dead id := by
  rcases hd with ⟨a, b, newer, ha, hb, hlt, hk⟩ | ⟨a, ha, hp⟩
  · obtain ⟨a', ha', hka, -⟩ := step_keeps hs action h id a ha
    obtain ⟨b', hb', hkb, -⟩ := step_keeps hs action h newer b hb
    exact .inl ⟨a', b', newer, ha', hb', hlt, hka.symm.trans (hk.trans hkb)⟩
  · obtain ⟨a', ha', -, hended⟩ := step_keeps hs action h id a ha
    exact .inr ⟨a', ha', hp.imp (hended .rejected) (hended .notNotified)⟩

theorem Inv.dead (hs : s.Inv) (hd : s.Dead id) : ¬ s.Completable id := by
  intro hc
  obtain ⟨c, hc, rfl⟩ := hc
  obtain ⟨hcurrent, ⟨a, ha, hmade, -, hlive⟩, -⟩ := hs.active c hc
  rcases hd with ⟨a', b, newer, ha', hb, hlt, hk⟩ | ⟨a', ha', hp⟩
  · have haa : a' = a := Option.some.inj (ha'.symm.trans ha)
    have hkey : c.attemptKey = a.key := by
      rw [hmade]
      rfl
    have hle := hs.newest c.attemptKey c.attemptId newer b hcurrent hb
      (hk.symm.trans (haa ▸ hkey.symm))
    omega
  · have haa : a' = a := Option.some.inj (ha'.symm.trans ha)
    rw [haa] at hp
    rcases hp with hp | hp <;> simp [hp, Phase.Live] at hlive

theorem Dead.later (hs : s.Inv) (hd : s.Dead id) (h : Later s t) : t.Inv ∧ t.Dead id := by
  induction h with
  | refl => exact ⟨hs, hd⟩
  | tail _ hnext ih =>
    obtain ⟨action, hstep⟩ := hnext
    exact ⟨ih.1.step action hstep, Dead.step ih.1 action hstep ih.2⟩

theorem challenges_sound (s : Pairing) (h : s.Reached) : s.Sound := by
  have hs := h.inv
  constructor
  · intro c hc
    obtain ⟨hcurrent, ⟨a, ha, hmade, -, -⟩, -⟩ := hs.active c hc
    exact ⟨hcurrent, a, ha, hmade⟩
  · intro id t hd hlater
    obtain ⟨ht, hdead⟩ := hd.later hs hlater
    exact ht.dead hdead
  · exact hs.once
  · intro k hk
    obtain ⟨⟨a, ha, hmade, -, -⟩, howner, hnow⟩ := hs.completed k hk
    refine ⟨a, ha, ?_, hnow⟩
    rw [howner, hmade]
    rfl
  · intro i hi
    obtain ⟨hmem, hlabel⟩ := hs.issued i hi
    obtain ⟨⟨a, ha, hmade, hconfirmed, -⟩, -⟩ := hs.completed i.completion hmem
    refine ⟨hmem, a, ha, hconfirmed, ?_⟩
    rw [hlabel, hmade]
    rfl
  · exact hs.issuedOnce

end

def replacedRun : List PairingAction :=
  [.startPairing 7 ⟨"42", "first", none⟩, .startPairing 8 ⟨" 17", "", none⟩, .confirm 1, .check 1,
    .confirm 2, .check 2, .activate 2 "code" 0, .completePairing 7 "code" 5, .notify 2,
    .completePairing 8 "code" 5, .issue 2 [] "drawn" "secret"]

theorem challenges_sound_sample : ∃ s : Pairing, s.Sound ∧ s.Dead 1 ∧
    s.issues.map (fun i => i.completion.session) = [8] ∧
      s.issues.map (fun i => i.record.label) = ["browser"] := by
  have hrun : ∃ s, replacedRun.foldlM step ⟨.initial, fun _ => none, fun _ => none, [], []⟩ = some s ∧
      s.Superseded 1 ∧ s.issues.map (fun i => i.completion.session) = [8] ∧
        s.issues.map (fun i => i.record.label) = ["browser"] :=
    ⟨_, rfl, ⟨_, _, 2, rfl, rfl, by decide, rfl⟩, rfl, rfl⟩
  obtain ⟨s, hs, hdead, hsession, hlabel⟩ := hrun
  have hreached : s.Reached := Reachable.foldlM step replacedRun (.start _ rfl) hs
  exact ⟨s, challenges_sound s hreached, .inl hdead, hsession, hlabel⟩

end Pairing

end Rieul.Server
