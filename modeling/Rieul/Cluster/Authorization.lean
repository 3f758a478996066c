import Rieul.Cluster.Authentication
import Rieul.Cluster.Revalidation

/-!
# A grant is pinned, and its revocation is final

Whoever is authorized for a grant is so by the journal that the check has read.
-/

namespace Rieul.Cluster
open Bytes Fallible Cbor System

section
variable [Platform]

theorem authenticate_ok {n : Node} {tx : Database} {r : AuthenticateClusterClientReq} {now : Int64}
    {p : Principal} {history : ClusterHistory} (h : authenticate n tx r now = .ok (p, history)) :
    ∃ es, load tx.tables n.g.cluster = .ok es ∧ r.principal = .ok p ∧ p.node = n.admission ∧
      Pinned n.g es r.knownHead ∧ Granted n.g es p.grant p.client now := by
  simp only [authenticate, bind_eq_ok, exists_unit_iff, liftError_eq_ok, ensure_eq_ok,
    pure_eq_ok] at h
  obtain ⟨es, hes, s, hs, q, hq, hcheck, hle, pinned, hpinned, hhead, _, _, _, _, _, heq⟩ := h
  cases heq
  obtain ⟨_, ⟨_, hnode, _⟩, _⟩ := (Principal.check_eq_ok p n s now).mp hcheck
  refine ⟨es, hes, hq, hnode, ?_, Principal.granted hs hcheck⟩
  have hlength : (es.take p.sequence.toNat).length = p.sequence.toNat := by
    rw [List.length_take]
    omega
  refine ⟨_, pinned, List.take_prefix _ es, hpinned, hhead, ?_, ?_⟩
  · have hsequence : p.sequence = r.knownHead.sequence.toUInt64 := by
      simp only [AuthenticateClusterClientReq.principal, bind_eq_ok, exists_unit_iff, ensure_eq_ok,
        pure_eq_ok] at hq
      obtain ⟨_, _, _, _, _, _, _, _, _, _, _, _, _, rfl⟩ := hq
      rfl
    rw [← hsequence, hlength]
  · rw [hhead, ← replay_head n.g _ pinned hpinned]
    rfl

theorem validate_ok {db : Database} {p : Principal} {now expires : Int64}
    (h : validate db p now = .ok expires) :
    ∃ n es, loadNode db = .ok (some n) ∧ load db.tables n.g.cluster = .ok es ∧
      p.node = n.admission ∧ p.cluster = n.g.cluster ∧ Granted n.g es p.grant p.client now := by
  simp only [validate, authorizationSnapshot, journalState, bind_eq_ok, exists_unit_iff,
    liftError_eq_ok, ensure_eq_ok, require_eq_ok, pure_eq_ok] at h
  obtain ⟨q, ⟨n, hn, _, _, _, s, ⟨es, hes, hs⟩, rfl⟩, hcheck, _⟩ := h
  obtain ⟨_, ⟨hcluster, hnode, _⟩, _⟩ := (Principal.check_eq_ok p n s now).mp hcheck
  exact ⟨n, es, (currentNode_eq_ok db n).mp hn, hes, hnode, hcluster, Principal.granted hs hcheck⟩

theorem authorizeTransaction_ok {tx : Database} {n : Node} {auth : Authorized} {now : Int64}
    {p : Principal} (hp : auth.grant = some p) (h : authorizeTransaction tx n auth now = .ok ()) :
    ∃ es, load tx.tables n.g.cluster = .ok es ∧ Granted n.g es p.grant p.client now := by
  simp only [authorizeTransaction, checkGrant, hp, journalState, bind_eq_ok, exists_unit_iff,
    liftError_eq_ok] at h
  obtain ⟨_, ⟨s, ⟨es, hes, hs⟩, hcheck⟩, _⟩ := h
  exact ⟨es, hes, Principal.granted hs hcheck⟩

theorem authenticatePeer_ok {n : Node} {members proof tx : Database} {r : ClusterPeerRequest}
    {now : Int64} {auth : Authorized} {clusterId grantId clientPublicKey : Str}
    (hr : r.originalPrincipal = .ClusterGrant clusterId grantId clientPublicKey)
    (h : authenticatePeer n members proof tx r now = .ok auth) :
    ∃ es p, load tx.tables n.g.cluster = .ok es ∧ auth.grant = some p ∧
      readId grantId = .ok p.grant ∧ p.cluster = n.g.cluster ∧ p.sequence = 0 ∧
      Granted n.g es p.grant p.client now := by
  simp only [authenticatePeer, hr, originalGrant, journalState, bind_eq_ok, exists_unit_iff,
    liftError_eq_ok, ensure_eq_ok, pure_eq_ok] at h
  obtain ⟨_, _, _, _, _, _, _, _, _, _, _, _, _, _, _, ⟨cluster, _, grant, hgrant, client, _, s,
    ⟨es, hes, hs⟩, hcheck, rfl⟩, rfl⟩ := h
  obtain ⟨_, ⟨hcluster, _⟩, _⟩ := (Principal.check_eq_ok _ n s now).mp hcheck
  exact ⟨es, _, hes, rfl, hgrant, hcluster, rfl, Principal.granted hs hcheck⟩

theorem Pinned.mono {g : Genesis} {es es' : List Entry} {w : ClusterHead} (h : Pinned g es w)
    (hes : es <+: es') : Pinned g es' w := by
  obtain ⟨first, s, hfirst, hrest⟩ := h
  exact ⟨first, s, hfirst.trans hes, hrest⟩

/-- `authenticated` pins and grants, and so do all later checks of what it has returned. A peer
pins the genesis. Where an entry revokes the grant, every check fails. -/
structure Authorizes : Prop where
  authenticated : ∀ (n : Node) (tx : Database) (r : AuthenticateClusterClientReq) (now : Int64)
    (p : Principal) (history : ClusterHistory), authenticate n tx r now = .ok (p, history) →
    ∃ es, load tx.tables n.g.cluster = .ok es ∧ readId r.grantId = .ok p.grant ∧
      Pinned n.g es r.knownHead ∧ Granted n.g es p.grant p.client now
  later : ∀ (m m' : Machine) (q : Node × State) (r : AuthenticateClusterClientReq) (now now' : Int64)
    (p : Principal) (history : ClusterHistory) (expires : Int64), m.Reached → q ∈ m.snapshots →
    authenticate q.1 m.db r now = .ok (p, history) → Reachable (· = m) Machine.Step m' →
    validate m'.db p now' = .ok expires →
    ∃ n es, loadNode m'.db = .ok (some n) ∧ load m'.db.tables n.g.cluster = .ok es ∧
      Pinned n.g es r.knownHead ∧ Granted n.g es p.grant p.client now'
  validated : ∀ (db : Database) (p : Principal) (now expires : Int64),
    validate db p now = .ok expires →
    ∃ n es, loadNode db = .ok (some n) ∧ load db.tables n.g.cluster = .ok es ∧
      Granted n.g es p.grant p.client now
  transacted : ∀ (tx : Database) (n : Node) (auth : Authorized) (now : Int64) (p : Principal),
    auth.grant = some p → authorizeTransaction tx n auth now = .ok () →
    ∃ es, load tx.tables n.g.cluster = .ok es ∧ Granted n.g es p.grant p.client now
  forwarded : ∀ (n : Node) (members proof tx : Database) (r : ClusterPeerRequest) (now : Int64)
    (auth : Authorized) (clusterId grantId clientPublicKey : Str),
    r.originalPrincipal = .ClusterGrant clusterId grantId clientPublicKey →
    authenticatePeer n members proof tx r now = .ok auth →
    ∃ es p, load tx.tables n.g.cluster = .ok es ∧ auth.grant = some p ∧
      readId grantId = .ok p.grant ∧ p.cluster = n.g.cluster ∧ p.sequence = 0 ∧
      Granted n.g es p.grant p.client now
  revoked : ∀ (n : Node) (tx : Database) (es more : List Entry) (grant : Id),
    (∃ e ∈ es, e.mutation = .Revoke grant) → load tx.tables n.g.cluster = .ok (es ++ more) →
    (∀ r now answer, readId r.grantId = .ok grant → authenticate n tx r now ≠ .ok answer) ∧
    (∀ (p : Principal) (now expires : Int64), p.grant = grant → loadNode tx = .ok (some n) →
      validate tx p now ≠ .ok expires) ∧
    (∀ (auth : Authorized) (p : Principal) (now : Int64), auth.grant = some p → p.grant = grant →
      authorizeTransaction tx n auth now ≠ .ok ()) ∧
    ∀ (members proof : Database) (r : ClusterPeerRequest) (now : Int64) (auth : Authorized)
      (clusterId grantId clientPublicKey : Str),
      r.originalPrincipal = .ClusterGrant clusterId grantId clientPublicKey →
      readId grantId = .ok grant → authenticatePeer n members proof tx r now ≠ .ok auth

/-- `machine` is in the life that a head was pinned in, or in one with another admission. -/
structure Machine.Since (g : Genesis) (admission : Id) (w : ClusterHead) (m : Machine) : Prop where
  lived : ∃ l ∈ m.lives, l.2 = admission
  living : ∃ n es s, m.Living n es s ∧ (n.admission = admission → n.g = g ∧ Pinned g es w)

variable [LawfulPlatform]

theorem Machine.Since.step {g : Genesis} {admission : Id} {w : ClusterHead} {m m' : Machine}
    (h : m.Since g admission w) (hstep : m.Step m') : m'.Since g admission w := by
  obtain ⟨⟨l, hl, hadmission⟩, n, es, s, hlive, hpinned⟩ := h
  obtain ⟨n', es', s', hlive', hgrows⟩ := hlive.step hstep
  rcases hgrows with ⟨hcont, hlives⟩ | ⟨hfresh, hlives⟩
  · refine ⟨⟨l, hlives ▸ hl, hadmission⟩, n', es', s', hlive', ?_⟩
    intro hsame
    obtain ⟨hg, hpin⟩ := hpinned (hcont.admission.symm.trans hsame)
    exact ⟨hcont.g.trans hg, hpin.mono hcont.journal⟩
  · refine ⟨⟨l, ?_, hadmission⟩, n', es', s', hlive', ?_⟩
    · rw [hlives]
      exact List.mem_append_left _ hl
    · intro hsame
      exact absurd (hadmission.trans hsame.symm) (hfresh l hl)

theorem authenticate_since {m : Machine} {q : Node × State} {r : AuthenticateClusterClientReq}
    {now : Int64} {p : Principal} {history : ClusterHistory} (hm : m.Reached)
    (hq : q ∈ m.snapshots) (h : authenticate q.1 m.db r now = .ok (p, history)) :
    m.Since q.1.g p.node r.knownHead := by
  obtain ⟨es, hes, _, hnode, hpinned, _⟩ := authenticate_ok h
  rcases hm.inv with hp | ⟨n, es', s, hlive⟩
  · rw [hp.snapshots] at hq
    exact absurd hq List.not_mem_nil
  · obtain ⟨hmem, _⟩ := hlive.snapshots q hq
    refine ⟨⟨_, hmem, hnode.symm⟩, n, es', s, hlive, ?_⟩
    intro hsame
    have hg : q.1.g = n.g := hlive.latest.admission_inj _ hmem (hnode.symm.trans hsame.symm)
    have hload := hlive.life.holds.load
    rw [← hg, hes] at hload
    cases hload
    exact ⟨hg.symm, hpinned⟩

theorem validate_later {m m' : Machine} {q : Node × State} {r : AuthenticateClusterClientReq}
    {now now' : Int64} {p : Principal} {history : ClusterHistory} {expires : Int64}
    (hm : m.Reached) (hq : q ∈ m.snapshots) (h : authenticate q.1 m.db r now = .ok (p, history))
    (hrun : Reachable (· = m) Machine.Step m') (hvalid : validate m'.db p now' = .ok expires) :
    ∃ n es, loadNode m'.db = .ok (some n) ∧ load m'.db.tables n.g.cluster = .ok es ∧
      Pinned n.g es r.knownHead ∧ Granted n.g es p.grant p.client now' := by
  have hsince : m'.Since q.1.g p.node r.knownHead := by
    refine Reachable.invariant (Machine.Since q.1.g p.node r.knownHead) ?_ ?_ hrun
    · rintro _ rfl
      exact authenticate_since hm hq h
    · intro s t hs hstep
      exact hs.step hstep
  obtain ⟨n, es, hn, hes, hnode, _, hgranted⟩ := validate_ok hvalid
  obtain ⟨_, n', es', s', hlive, hpinned⟩ := hsince
  cases hn.symm.trans hlive.life.loaded
  cases hes.symm.trans hlive.life.holds.load
  obtain ⟨hg, hpin⟩ := hpinned hnode.symm
  exact ⟨n, es, hn, hes, hg ▸ hpin, hgranted⟩

theorem grants_authorized : Authorizes := by
  have hgrant : ∀ {r : AuthenticateClusterClientReq} {p : Principal}, r.principal = .ok p →
      readId r.grantId = .ok p.grant := by
    intro r p hp
    simp only [AuthenticateClusterClientReq.principal, bind_eq_ok, exists_unit_iff, ensure_eq_ok,
      pure_eq_ok] at hp
    obtain ⟨_, _, _, _, _, _, _, hgrant, _, _, _, _, _, rfl⟩ := hp
    exact hgrant
  refine ⟨?_, ?_, ?_, ?_, ?_, ?_⟩
  · intro n tx r now p history h
    obtain ⟨es, hes, hp, _, hpinned, hgranted⟩ := authenticate_ok h
    exact ⟨es, hes, hgrant hp, hpinned, hgranted⟩
  · intro m m' q r now now' p history expires hm hq h hrun hvalid
    exact validate_later hm hq h hrun hvalid
  · intro db p now expires h
    obtain ⟨n, es, hn, hes, _, _, hgranted⟩ := validate_ok h
    exact ⟨n, es, hn, hes, hgranted⟩
  · intro tx n auth now p hp h
    exact authorizeTransaction_ok hp h
  · intro n members proof tx r now auth clusterId grantId clientPublicKey hr h
    exact authenticatePeer_ok hr h
  · rintro n tx es more grant ⟨e, he, hm⟩ hload
    -- whoever is granted, the journal that was read has no such entry
    have hnever : ∀ {es' client now}, load tx.tables n.g.cluster = .ok es' →
        ¬ Granted n.g es' grant client now := by
      intro es' client now hload' hgranted
      cases hload.symm.trans hload'
      exact hgranted.unrevoked e (List.mem_append_left more he) hm
    refine ⟨?_, ?_, ?_, ?_⟩
    · rintro r now ⟨p, history⟩ hr h
      obtain ⟨es', hes', hp, _, _, hgranted⟩ := authenticate_ok h
      cases hr.symm.trans (hgrant hp)
      exact hnever hes' hgranted
    · rintro p now expires rfl hn h
      obtain ⟨n', es', hn', hes', _, _, hgranted⟩ := validate_ok h
      cases hn.symm.trans hn'
      exact hnever hes' hgranted
    · rintro auth p now hp rfl h
      obtain ⟨es', hes', hgranted⟩ := authorizeTransaction_ok hp h
      exact hnever hes' hgranted
    · intro members proof r now auth clusterId grantId clientPublicKey hr hread h
      obtain ⟨es', p, hes', _, hp, _, _, hgranted⟩ := authenticatePeer_ok hr h
      cases hread.symm.trans hp
      exact hnever hes' hgranted

end

section
attribute [local instance] residuePlatform residuePlatform_lawful

def sampleGrant : Mutation :=
  let cluster := sampleGenesis.cluster
  let clientProof := @Platform.sign residuePlatform (3 : UInt8)
    (clientAdoptionBody cluster (Fixed.fill 32 70) (Fixed.fill 32 1) (Fixed.fill 32 3) 1000)
  .Adopt (Fixed.fill 32 70) (Fixed.fill 32 1) (Fixed.fill 32 3) 1000 clientProof
    (@Platform.sign residuePlatform (1 : UInt8) (issuerAdoptionBody cluster (Fixed.fill 32 70)
      (Fixed.fill 32 1) (Fixed.fill 32 3) 1000 clientProof))

def sampleAdopted : List Entry :=
  sampleJournal (State.genesis sampleGenesis) [(1, fun _ => sampleGrant)]

def sampleHolder : Node :=
  ⟨sampleGenesis, (1 : UInt8), Fixed.fill 32 1, Fixed.fill 32 60, .member, "root", 0⟩

def sampleClient : AuthenticateClusterClientReq :=
  let r : AuthenticateClusterClientReq := {
    knownHead := head (State.genesis sampleGenesis)
    serverAdmissionId := (Fixed.fill 32 1).data
    serverPublicKey := (Fixed.fill 32 1).data
    grantId := (Fixed.fill 32 70).data
    clientPublicKey := (Fixed.fill 32 3).data
    nonce := (Fixed.fill 32 4).data
    connectionId := 1
    signature := [] }
  { r with signature := match r.proofBody with
    | .ok body => (@Platform.sign residuePlatform (3 : UInt8) body).data
    | .error _ => [] }

theorem grants_authorized_sample : ∃ p history es,
    authenticate sampleHolder { Database.empty with
      tables := { Tables.empty with log := sampleAdopted.map Entry.row } } sampleClient 0 =
      .ok (p, history) ∧
    Pinned sampleGenesis es sampleClient.knownHead ∧ Granted sampleGenesis es p.grant p.client 0 := by
  obtain ⟨⟨p, history⟩, h⟩ := Fallible.exists_of_toBool (authenticate sampleHolder
    { Database.empty with tables := { Tables.empty with log := sampleAdopted.map Entry.row } }
    sampleClient 0) (by decide +kernel)
  obtain ⟨es, -, -, hpinned, hgranted⟩ :=
    grants_authorized.authenticated sampleHolder _ sampleClient 0 p history h
  exact ⟨p, history, es, h, hpinned, hgranted⟩

end

end Rieul.Cluster
