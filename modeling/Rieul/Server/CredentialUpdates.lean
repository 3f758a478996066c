import Mathlib.Logic.Function.Basic
import Rieul.Lib.Replay
import Rieul.Lib.System
import Rieul.Server.Credentials

/-!
# Credential updates (daemon/host/src/server.rs)

A handler that changes the credentials copies the list out of the file, releases
the lock, and later writes its whole changed copy back. Handlers of different
connections interleave between the two steps.
-/

namespace Rieul.Server
open System

inductive Request where
  | removeClient (clientId : String)
  | renewClientCredential (clientId : String) (now : ℤ)
  | completePairing (clientId : Option String) (label drawnId secretSha256 : String) (now : ℤ)

inductive Answer where
  | removed (clientId : String)
  | renewed (clientId : String) (expiresAtUnix : ℤ)
  /-- The answer has the secret of the issued record. -/
  | paired (record : ClientCredentialRecord)

def Answer.clientId : Answer → String
  | .removed clientId => clientId
  | .renewed clientId _ => clientId
  | .paired record => record.clientId

/-- Only the expiry may differ. -/
def ClientCredentialRecord.Renewed (record r : ClientCredentialRecord) : Prop :=
  ∃ e, r = { record with expiresAtUnix := e }

/-- The record that `complete_pairing` issues. -/
def issued (clients : ClientCredentials) (clientId : Option String)
    (label drawnId secretSha256 : String) (now : ℤ) : ClientCredentialRecord :=
  match clientId.bind (lookup clients) with
  | some record => reissueClientSecret record label secretSha256 now
  | none => issueClientSecret drawnId label secretSha256 now

/-- What a handler makes of its copy: the answer that it will give and the list that it will
store. Without a result it answers an error at once. -/
def Request.update (clients : ClientCredentials) : Request → Option (Answer × ClientCredentials)
  | .removeClient clientId =>
    if (without clients clientId).length = clients.length then none
    else some (.removed clientId, without clients clientId)
  | .renewClientCredential clientId now =>
    if (lookup clients clientId).isSome then
      some (.renewed clientId (now + clientCredentialTtlSeconds), renewIn clientId now clients)
    else none
  | .completePairing clientId label drawnId secretSha256 now =>
    let record := issued clients clientId label drawnId secretSha256 now
    some (.paired record, without clients record.clientId ++ [record])

structure Handler where
  loaded : ClientCredentials
  answer : Answer
  state : ClientCredentials

section
variable {ι : Type} [DecidableEq ι]

/-- The file, the copy in memory, the handler of each connection and the successes answered so
far, in the order of their stores. -/
structure Credentials (ι : Type) where
  file : ClientCredentials
  memory : ClientCredentials
  running : ι → Option Handler
  answered : List Answer

inductive Action (ι : Type) where
  | load (i : ι) (request : Request)
  | store (i : ι)
  /-- The store fails before it has touched the file. -/
  | fail (i : ι)
  /-- `load_runtime_client_credentials` of another handler. -/
  | reload

def Credentials.step (s : Credentials ι) : Action ι → Option (Credentials ι)
  | .load i request =>
    if (s.running i).isSome then none
    else match request.update s.file with
      | none => some { s with memory := s.file }
      | some (answer, state) => some { s with
          memory := s.file
          running := Function.update s.running i (some ⟨s.file, answer, state⟩) }
  | .store i =>
    match s.running i with
    | none => none
    | some h => some {
        file := h.state
        memory := h.state
        running := Function.update s.running i none
        answered := s.answered ++ [h.answer] }
  | .fail i =>
    match s.running i with
    | none => none
    | some _ => some { s with running := Function.update s.running i none }
  | .reload => some { s with memory := s.file }

def Credentials.Initial (clients : ClientCredentials) (s : Credentials ι) : Prop :=
  s = ⟨clients, clients, fun _ => none, []⟩

def Credentials.Quiet (s : Credentials ι) : Prop := ∀ i, s.running i = none

def Pairs (clientId : String) (answers : List Answer) : Prop :=
  ∃ record : ClientCredentialRecord, record.clientId = clientId ∧ .paired record ∈ answers

structure Credentials.NoneLost (clients : ClientCredentials) (s : Credentials ι) : Prop where
  same : s.memory = s.file
  removed (clientId : String) (before after : List Answer) :
    s.answered = before ++ .removed clientId :: after → ¬ Pairs clientId after →
      lookup s.file clientId = none
  /-- The client is there, with the record that its last pairing issued. -/
  paired (record : ClientCredentialRecord) (before after : List Answer) :
    s.answered = before ++ .paired record :: after → .removed record.clientId ∉ after →
      ∃ r, lookup s.file record.clientId = some r ∧
        (¬ Pairs record.clientId after → record.Renewed r)
  kept (record : ClientCredentialRecord) : lookup clients record.clientId = some record →
    .removed record.clientId ∉ s.answered → ∃ r, lookup s.file record.clientId = some r ∧
      (¬ Pairs record.clientId s.answered → record.Renewed r)
  renewed (clientId : String) (e : ℤ) (before after : List Answer) :
    s.answered = before ++ .renewed clientId e :: after → (∀ a ∈ after, a.clientId ≠ clientId) →
      ∃ record, lookup s.file clientId = some record ∧ record.expiresAtUnix = e

/-- What a handler copied is still true of every other client, and of a client to renew but for
its expiry. -/
def Handler.Settled (h : Handler) (file : ClientCredentials) : Prop :=
  (∀ other, other ≠ h.answer.clientId → lookup h.loaded other = lookup file other) ∧
    ∀ clientId e, h.answer = .renewed clientId e → ∀ record, lookup h.loaded clientId = some record →
      ∃ r, lookup file clientId = some r ∧ record.Renewed r

def Credentials.Settled (s : Credentials ι) : Action ι → Prop
  | .store i => ∀ h, s.running i = some h → h.Settled s.file
  | _ => True

def Credentials.Reached (clients : ClientCredentials) (s : Credentials ι) : Prop :=
  Reachable (Credentials.Initial clients)
    (fun s t => ∃ a, s.step a = some t ∧ s.Settled a) s

end

abbrev Records := String → Option ClientCredentialRecord

def Answer.outcome (m : Records) : Answer → Option ClientCredentialRecord
  | .removed _ => none
  | .renewed clientId e => (m clientId).map fun record => { record with expiresAtUnix := e }
  | .paired record => some record

def Answer.Allowed (m : Records) (a : Answer) : Prop :=
  ∀ clientId e, a = .renewed clientId e → (m clientId).isSome

noncomputable def Answer.apply (m : Records) (a : Answer) : Except Unit Records := by
  classical
  exact if a.Allowed m then .ok (Function.update m a.clientId (a.outcome m)) else .error ()

theorem Answer.apply_eq_ok (m n : Records) (a : Answer) :
    a.apply m = .ok n ↔ a.Allowed m ∧ n = Function.update m a.clientId (a.outcome m) := by
  classical
  unfold Answer.apply
  by_cases h : a.Allowed m
  · simp [h, eq_comm]
  · simp [h]

theorem Answer.apply_other (m n : Records) (a : Answer) (h : a.apply m = .ok n) (other : String)
    (ho : other ≠ a.clientId) : n other = m other := by
  rw [((a.apply_eq_ok m n).mp h).2, Function.update_of_ne ho]

theorem Answer.apply_own (m n : Records) (a : Answer) (h : a.apply m = .ok n) :
    n a.clientId = a.outcome m := by
  rw [((a.apply_eq_ok m n).mp h).2, Function.update_self]

structure Handler.Good (h : Handler) : Prop where
  others (other : String) : other ≠ h.answer.clientId → lookup h.state other = lookup h.loaded other
  own : lookup h.state h.answer.clientId = h.answer.outcome (lookup h.loaded)
  renews (clientId : String) (e : ℤ) : h.answer = .renewed clientId e →
    (lookup h.loaded clientId).isSome

theorem update_good (request : Request) (clients state : ClientCredentials) (answer : Answer)
    (h : request.update clients = some (answer, state)) : Handler.Good ⟨clients, answer, state⟩ := by
  cases request with
  | removeClient clientId =>
    simp only [Request.update, Option.ite_none_left_eq_some, Option.some.injEq, Prod.mk.injEq] at h
    obtain ⟨-, rfl, rfl⟩ := h
    refine ⟨?_, ?_, fun _ _ he => nomatch he⟩
    · intro other ho
      have hne : other ≠ clientId := ho
      simp only [lookup_without, if_neg hne]
    · simp [Answer.clientId, Answer.outcome, lookup_without]
  | renewClientCredential clientId now =>
    simp only [Request.update, Option.ite_none_right_eq_some, Option.some.injEq, Prod.mk.injEq] at h
    obtain ⟨hsome, rfl, rfl⟩ := h
    refine ⟨?_, ?_, ?_⟩
    · intro other ho
      have hne : other ≠ clientId := ho
      simp only [lookup_renewIn, if_neg hne]
    · simp [Answer.clientId, Answer.outcome, lookup_renewIn, renewClientCredential]
    · intro other e he
      cases he
      exact hsome
  | completePairing clientId label drawnId secretSha256 now =>
    simp only [Request.update, Option.some.injEq, Prod.mk.injEq] at h
    obtain ⟨rfl, rfl⟩ := h
    refine ⟨?_, ?_, fun _ _ he => nomatch he⟩
    · intro other ho
      have hne : other ≠ (issued clients clientId label drawnId secretSha256 now).clientId := ho
      simp only [lookup_push, if_neg hne]
    · simp [Answer.clientId, Answer.outcome, lookup_push]

section
variable {ι : Type} [DecidableEq ι]

structure Credentials.Inv (clients : ClientCredentials) (s : Credentials ι) : Prop where
  same : s.memory = s.file
  good (i : ι) (h : Handler) : s.running i = some h → h.Good
  answered : Replay.replay Answer.apply (lookup clients) s.answered = .ok (lookup s.file)

theorem Handler.Good.outcome_eq {h : Handler} {file : ClientCredentials} (hg : h.Good)
    (hs : h.Settled file) : h.answer.outcome (lookup file) = h.answer.outcome (lookup h.loaded) := by
  cases ha : h.answer with
  | removed clientId | paired record => rfl
  | renewed clientId e =>
    obtain ⟨record, hrecord⟩ := Option.isSome_iff_exists.mp (hg.renews clientId e ha)
    obtain ⟨r, hr, e', rfl⟩ := hs.2 clientId e ha record hrecord
    simp [Answer.outcome, hrecord, hr]

theorem Handler.Good.apply {h : Handler} {file : ClientCredentials} (hg : h.Good)
    (hs : h.Settled file) : h.answer.apply (lookup file) = .ok (lookup h.state) := by
  rw [Answer.apply_eq_ok]
  constructor
  · intro clientId e he
    obtain ⟨record, hrecord⟩ := Option.isSome_iff_exists.mp (hg.renews clientId e he)
    obtain ⟨r, hr, -⟩ := hs.2 clientId e he record hrecord
    exact Option.isSome_iff_exists.mpr ⟨r, hr⟩
  · funext other
    by_cases ho : other = h.answer.clientId
    · rw [ho, Function.update_self, hg.own, hg.outcome_eq hs]
    · rw [Function.update_of_ne ho, hg.others other ho, hs.1 other ho]

theorem running_clear (s : Credentials ι) (i j : ι) (h : Handler)
    (hj : Function.update s.running i none j = some h) : s.running j = some h := by
  by_cases hji : j = i
  · rw [hji, Function.update_self] at hj
    cases hj
  · rwa [Function.update_of_ne hji] at hj

theorem Credentials.Inv.step {clients : ClientCredentials} {s t : Credentials ι}
    (hi : s.Inv clients) (a : Action ι) (h : s.step a = some t) (hs : s.Settled a) :
    t.Inv clients := by
  cases a with
  | load i request =>
    simp only [Credentials.step] at h
    split_ifs at h with hrun
    cases hu : request.update s.file with
    | none =>
      rw [hu] at h
      cases h
      exact ⟨rfl, hi.good, hi.answered⟩
    | some result =>
      rw [hu] at h
      cases h
      refine ⟨rfl, ?_, hi.answered⟩
      intro j handler hj
      by_cases hji : j = i
      · subst hji
        simp only [Function.update_self] at hj
        cases hj
        exact update_good request s.file _ _ hu
      · simp only [Function.update_of_ne hji] at hj
        exact hi.good j handler hj
  | store i =>
    simp only [Credentials.step] at h
    cases hrun : s.running i with
    | none =>
      rw [hrun] at h
      cases h
    | some handler =>
      rw [hrun] at h
      cases h
      have happly := (hi.good i handler hrun).apply (hs handler hrun)
      exact ⟨rfl, fun j other hj => hi.good j other (running_clear s i j other hj),
        (Replay.replay_snoc_eq_ok _ _ _ _ _).mpr ⟨_, hi.answered, happly⟩⟩
  | fail i =>
    simp only [Credentials.step] at h
    cases hrun : s.running i with
    | none =>
      rw [hrun] at h
      cases h
    | some handler =>
      rw [hrun] at h
      cases h
      exact ⟨hi.same, fun j other hj => hi.good j other (running_clear s i j other hj), hi.answered⟩
  | reload =>
    cases h
    exact ⟨rfl, hi.good, hi.answered⟩

theorem Credentials.Reached.inv {clients : ClientCredentials} {s : Credentials ι}
    (h : s.Reached clients) : s.Inv clients := by
  refine h.invariant (Credentials.Inv clients) ?_ ?_
  · intro t ht
    rw [ht]
    exact ⟨rfl, fun i h hi => (nomatch hi), rfl⟩
  · intro t u ht hstep
    obtain ⟨a, ha, hs⟩ := hstep
    exact ht.step a ha hs

omit [DecidableEq ι] in
/-- After the answer `a`, what the later answers keep of its client. -/
theorem Credentials.Inv.after {clients : ClientCredentials} {s : Credentials ι}
    (hi : s.Inv clients) (a : Answer) (before after : List Answer)
    (h : s.answered = before ++ a :: after) (P : Option ClientCredentialRecord → Prop)
    (ha : ∀ m : Records, a.Allowed m → P (a.outcome m))
    (hkeep : ∀ b ∈ after, ∀ m : Records, b.Allowed m → b.clientId = a.clientId →
      P (m a.clientId) → P (b.outcome m)) : P (lookup s.file a.clientId) := by
  have hr := hi.answered
  rw [h] at hr
  obtain ⟨m, n, -, hn, hafter⟩ := Replay.replay_at _ _ _ _ _ _ hr
  refine Replay.replay_keeps Answer.apply (fun m => P (m a.clientId)) after ?_ n _ ?_ hafter
  · intro b hb m n hm hbn
    by_cases hid : b.clientId = a.clientId
    · have hown := b.apply_own m n hbn
      rw [hid] at hown
      rw [hown]
      exact hkeep b hb m ((b.apply_eq_ok m n).mp hbn).1 hid hm
    · rw [b.apply_other m n hbn a.clientId fun he => hid he.symm]
      exact hm
  · rw [a.apply_own m n hn]
    exact ha m ((a.apply_eq_ok m n).mp hn).1

/-- There, and but for its expiry the record while no pairing replaces it. -/
def Stays (record : ClientCredentialRecord) (answers : List Answer)
    (x : Option ClientCredentialRecord) : Prop :=
  ∃ r, x = some r ∧ (¬ Pairs record.clientId answers → record.Renewed r)

theorem Stays.outcome {record : ClientCredentialRecord} {answers : List Answer} {m : Records}
    {b : Answer} (h : Stays record answers (m record.clientId)) (hb : b ∈ answers)
    (hid : b.clientId = record.clientId) (hr : .removed record.clientId ∉ answers) :
    Stays record answers (b.outcome m) := by
  obtain ⟨r, hr', hrenewed⟩ := h
  cases b with
  | removed other =>
    have hother : other = record.clientId := hid
    exact absurd (hother ▸ hb) hr
  | renewed other e =>
    have hother : other = record.clientId := hid
    refine ⟨{ r with expiresAtUnix := e }, by simp [Answer.outcome, hother, hr'], fun hp => ?_⟩
    obtain ⟨e', rfl⟩ := hrenewed hp
    exact ⟨e, rfl⟩
  | paired other => exact ⟨other, rfl, fun hp => absurd ⟨other, hid, hb⟩ hp⟩

omit [DecidableEq ι] in
theorem Credentials.Inv.noneLost {clients : ClientCredentials} {s : Credentials ι}
    (hi : s.Inv clients) : s.NoneLost clients := by
  refine ⟨hi.same, ?_, ?_, ?_, ?_⟩
  · intro clientId before after h hnew
    refine hi.after (.removed clientId) before after h (fun x => x = none) (fun _ _ => rfl) ?_
    intro b hb m hallowed hid hm
    cases b with
    | removed other => rfl
    | renewed other e =>
      have hsome := hallowed other e rfl
      have hother : other = clientId := hid
      have hnone : m clientId = none := hm
      rw [hother, hnone] at hsome
      cases hsome
    | paired other => exact absurd ⟨other, hid, hb⟩ hnew
  · intro record before after h hnew
    refine hi.after (.paired record) before after h (Stays record after) ?_ ?_
    · intro m _
      exact ⟨record, rfl, fun _ => ⟨_, rfl⟩⟩
    · intro b hb m _ hid hm
      exact hm.outcome hb hid hnew
  · intro record hrecord hnew
    refine Replay.replay_keeps Answer.apply (fun m => Stays record s.answered (m record.clientId))
      s.answered ?_ _ _ ⟨record, hrecord, fun _ => ⟨_, rfl⟩⟩ hi.answered
    intro b hb m n hm hbn
    by_cases hid : b.clientId = record.clientId
    · have hown := b.apply_own m n hbn
      rw [hid] at hown
      rw [hown]
      exact hm.outcome hb hid hnew
    · rw [b.apply_other m n hbn _ fun he => hid he.symm]
      exact hm
  · intro clientId e before after h hlast
    refine hi.after (.renewed clientId e) before after h
      (fun x => ∃ record, x = some record ∧ record.expiresAtUnix = e) ?_
      (fun b hb _ _ hid _ => absurd hid (hlast b hb))
    intro m hallowed
    obtain ⟨record, hrecord⟩ := Option.isSome_iff_exists.mp (hallowed clientId e rfl)
    exact ⟨{ record with expiresAtUnix := e }, by simp [Answer.outcome, hrecord], rfl⟩

theorem none_lost (clients : ClientCredentials) (s : Credentials ι) (h : s.Reached clients) :
    s.NoneLost clients :=
  h.inv.noneLost

def Credentials.run (s : Credentials ι) : List (Action ι) → Option (Credentials ι)
  | [] => some s
  | a :: as => (s.step a).bind fun t => t.run as

end

def sampleRecord : ClientCredentialRecord := ⟨"a", "browser", "secret", 0, 100⟩

def sampleCredentials : Credentials Bool := ⟨[sampleRecord], [sampleRecord], fun _ => none, []⟩

def revokeOverwritten : List (Action Bool) :=
  [.load false (.renewClientCredential "a" 7), .load true (.removeClient "a"), .store true,
    .store false]

theorem revoke_overwritten : ∃ s : Credentials Bool,
    sampleCredentials.Initial [sampleRecord] ∧ sampleCredentials.run revokeOverwritten = some s ∧
      s.Quiet ∧ s.answered = [.removed "a", .renewed "a" 2592007] ∧
        lookup s.file "a" ≠ none ∧ lookup s.memory "a" ≠ none ∧ ¬ s.NoneLost [sampleRecord] := by
  refine ⟨_, rfl, rfl, ?_, rfl, by decide, by decide, ?_⟩
  · intro i
    cases i <;> rfl
  · intro h
    refine absurd (h.removed "a" [] [.renewed "a" 2592007] rfl ?_) (by decide)
    rintro ⟨record, -, hp⟩
    simp at hp

theorem sampleHandler_settled (h : Handler) (file : ClientCredentials) (e : ℤ)
    (hl : h.loaded = [sampleRecord]) (ha : h.answer.clientId = "a")
    (hf : file = [{ sampleRecord with expiresAtUnix := e }]) : h.Settled file := by
  subst hf
  refine ⟨fun other ho => ?_, fun clientId _ he record hr => ?_⟩
  · have hne : "a" ≠ other := fun heq => ho (heq.symm.trans ha.symm)
    simp [hl, lookup, sampleRecord, hne]
  · have hid : clientId = "a" := by rw [← ha, he]; rfl
    subst hid
    rw [hl] at hr
    cases hr
    exact ⟨_, rfl, e, rfl⟩

/-- Two renewals that overlap. -/
theorem none_lost_sample : ∃ s : Credentials Bool,
    s.answered = [.renewed "a" 2592009, .renewed "a" 2592007] ∧ s.NoneLost [sampleRecord] := by
  have h0 : Credentials.Reached [sampleRecord] sampleCredentials := .start _ rfl
  have h1 := h0.next _ _ ⟨.load false (.renewClientCredential "a" 7), rfl, True.intro⟩
  have h2 := h1.next _ _ ⟨.load true (.renewClientCredential "a" 9), rfl, True.intro⟩
  have h3 := h2.next _ _ ⟨.store true, rfl, ?_⟩
  · refine ⟨_, ?_, none_lost [sampleRecord] _ (h3.next _ _ ⟨.store false, rfl, ?_⟩)⟩
    · rfl
    · intro h hh
      cases hh
      exact sampleHandler_settled _ _ 2592009 rfl rfl rfl
  · intro h hh
    cases hh
    exact sampleHandler_settled _ _ 100 rfl rfl rfl

end Rieul.Server
