import Mathlib.Logic.Function.Basic
import Rieul.Lib.System
import Rieul.Server.Sessions

/-!
# Access after a revocation

Sessions, credentials and the cluster journal change in any order.
-/

namespace Rieul.Server
open Bytes Fallible System Rieul.Cluster

def PairedId (clientId : String) : Prop := ':' ∉ clientId.toList

section
variable [Platform] {σ : Type} [DecidableEq σ]

/-- The tick of `run_rpc_session`: the session of a grant that is no longer valid ends. -/
def Daemon.tick (d : Daemon σ) (i : σ) : Daemon σ :=
  match d.sessions i with
  | some st =>
    if st.clusterPrincipal.isSome && !d.isAuthenticated st then
      { d with sessions := Function.update d.sessions i none }
    else d
  | none => d

inductive Daemon.Step (d : Daemon σ) : Daemon σ → Prop where
  | connect (i : σ) (h : d.sessions i = none) :
      Step d { d with sessions := Function.update d.sessions i (some ⟨none, none⟩) }
  | authenticate (i : σ) (st st' : RpcSessionState) (credentialId secretSha256 : String)
      (h : d.sessions i = some st)
      (ha : d.authenticateSession st credentialId secretSha256 = some st') :
      Step d { d with sessions := Function.update d.sessions i (some st') }
  | authenticateCluster (i : σ) (st st' : RpcSessionState) (r : AuthenticateClusterClientReq)
      (p : Principal) (h : d.sessions i = some st)
      (hp : clientAuthenticate d.cluster r d.now = .ok p) (ha : authenticateGrant st p = some st') :
      Step d { d with sessions := Function.update d.sessions i (some st') }
  | tick (i : σ) : Step d (d.tick i)
  | close (i : σ) : Step d { d with sessions := Function.update d.sessions i none }
  /-- A pairing, a renewal or a removal stores the credentials. -/
  | store (clients : ClientCredentials) (h : ∀ record ∈ clients, PairedId record.clientId) :
      Step d { d with credentials := clients }
  | journal (cluster : Database) : Step d { d with cluster := cluster }
  | pass (now : Int64) (h : d.now ≤ now) : Step d { d with now := now }

def Daemon.Initial (d : Daemon σ) : Prop :=
  (∀ i, d.sessions i = none) ∧ ∀ record ∈ d.credentials, PairedId record.clientId

def Daemon.Reached (d : Daemon σ) : Prop := Reachable Daemon.Initial Daemon.Step d

def RpcSessionState.Sound (st : RpcSessionState) : Prop :=
  match st.clusterPrincipal with
  | some p => st.authenticatedClientId = some (subject p)
  | none => ∀ clientId, st.authenticatedClientId = some clientId → PairedId clientId

structure Daemon.Inv (d : Daemon σ) : Prop where
  drawn : ∀ record ∈ d.credentials, PairedId record.clientId
  sound (i : σ) (st : RpcSessionState) : d.sessions i = some st → st.Sound

theorem sound_update (d : Daemon σ) (i : σ) (new : Option RpcSessionState)
    (hd : ∀ j st, d.sessions j = some st → st.Sound) (hnew : ∀ st, new = some st → st.Sound)
    (j : σ) (st : RpcSessionState) (h : Function.update d.sessions i new j = some st) : st.Sound := by
  by_cases hji : j = i
  · rw [hji, Function.update_self] at h
    exact hnew st h
  · rw [Function.update_of_ne hji] at h
    exact hd j st h

omit [DecidableEq σ] in
theorem authenticateSession_eq_some (d : Daemon σ) (st st' : RpcSessionState)
    (credentialId secretSha256 : String)
    (h : d.authenticateSession st credentialId secretSha256 = some st') :
    d.live credentialId = true ∧ st.clusterPrincipal = none ∧
      st' = ⟨some credentialId, none⟩ := by
  unfold Daemon.authenticateSession at h
  split_ifs at h with h1 h2 h3
  · rw [Bool.or_eq_true, not_or, Bool.not_eq_true, Bool.not_eq_true, Option.isSome_eq_false_iff,
      Option.isSome_eq_false_iff, Option.isNone_iff_eq_none, Option.isNone_iff_eq_none] at h3
    have hst : st' = ⟨some credentialId, none⟩ := by
      rw [← Option.some.inj h, h3.2]
    refine ⟨?_, h3.2, hst⟩
    simp only [List.any_eq_true, decide_eq_true_eq, verifyClientCredential] at h2
    obtain ⟨record, hrecord, hid, hlive, -⟩ := h2
    simp only [Daemon.live, List.any_eq_true, decide_eq_true_eq]
    exact ⟨record, hrecord, hid, hlive⟩

omit [Platform] in
theorem authenticateGrant_eq_some (st st' : RpcSessionState) (p : Principal)
    (h : authenticateGrant st p = some st') : st' = ⟨some (subject p), some p⟩ := by
  unfold authenticateGrant at h
  split_ifs at h
  exact (Option.some.inj h).symm

theorem Daemon.Inv.step {d t : Daemon σ} (hd : d.Inv) (h : d.Step t) : t.Inv := by
  cases h with
  | connect i h =>
    refine ⟨hd.drawn, sound_update d i (some ⟨none, none⟩) hd.sound ?_⟩
    intro st hst
    cases hst
    exact fun clientId he => nomatch he
  | authenticate i st st' credentialId secretSha256 h ha =>
    obtain ⟨hlive, -, rfl⟩ := authenticateSession_eq_some d st st' credentialId secretSha256 ha
    refine ⟨hd.drawn, sound_update d i (some ⟨some credentialId, none⟩) hd.sound ?_⟩
    intro st hst
    cases hst
    intro clientId he
    cases he
    simp only [Daemon.live, List.any_eq_true, decide_eq_true_eq] at hlive
    obtain ⟨record, hrecord, hid, -⟩ := hlive
    exact hid ▸ hd.drawn record hrecord
  | authenticateCluster i st st' r p h hp ha =>
    have hst' := authenticateGrant_eq_some st st' p ha
    refine ⟨hd.drawn, sound_update d i (some st') hd.sound ?_⟩
    intro st hst
    cases hst
    rw [hst']
    rfl
  | tick i =>
    unfold Daemon.tick
    split
    · split
      · exact ⟨hd.drawn, sound_update d i none hd.sound fun st hst => nomatch hst⟩
      · exact hd
    · exact hd
  | close i => exact ⟨hd.drawn, sound_update d i none hd.sound fun st hst => nomatch hst⟩
  | store clients h => exact ⟨h, hd.sound⟩
  | journal cluster | pass now h => exact ⟨hd.drawn, hd.sound⟩

theorem Daemon.Reached.inv {d : Daemon σ} (h : d.Reached) : d.Inv := by
  refine h.invariant Daemon.Inv ?_ ?_
  · intro t ht
    exact ⟨ht.2, fun i st hst => nomatch (ht.1 i).symm.trans hst⟩
  · intro t u ht hstep
    exact ht.step hstep

omit [Platform] in
theorem not_pairedId_subject (p : Principal) : ¬ PairedId (subject p) := by
  intro h
  apply h
  simp [subject]

theorem not_mem_subjects (db : Database) (now : Int64) (clientId : String) (h : PairedId clientId) :
    clientId ∉ subjects db now := by
  intro hmem
  unfold subjects at hmem
  cases hs : authorizationSnapshot db with
  | error e =>
    rw [hs] at hmem
    cases hmem
  | ok result =>
    rw [hs] at hmem
    obtain ⟨g, -, hg⟩ := List.mem_filterMap.mp hmem
    simp only at hg
    split_ifs at hg
    exact not_pairedId_subject _ (Option.some.inj hg ▸ h)

def looksUp (proc : ProcId) : Bool := isClusterCall proc || isUpdateCall proc || isDesktopCall proc

section
variable {d : Daemon σ} {st : RpcSessionState} {clientId : String}

section
omit [DecidableEq σ]

theorem paired_isAuthenticated (hp : st.clusterPrincipal = none)
    (hid : st.authenticatedClientId = some clientId) :
    d.isAuthenticated st = true ∧ d.authenticatedClientId st = some clientId := by
  have hauth : d.isAuthenticated st = true := by
    simp [Daemon.isAuthenticated, hp, hid]
  exact ⟨hauth, by simp [Daemon.authenticatedClientId, hauth, hid]⟩

theorem handler_refuses (hp : st.clusterPrincipal = none)
    (hid : st.authenticatedClientId = some clientId) (hdrawn : PairedId clientId)
    (hlive : d.live clientId = false) (proc : ProcId) (h : looksUp proc = true) :
    d.handlerAdmits st proc = false := by
  have hauth := (paired_isAuthenticated (d := d) hp hid).2
  have hcluster : d.clusterCall st = false := by
    simp [Daemon.clusterCall, hauth, hp, hlive]
  have hupdate : d.updaterAuthorized st = false := by
    simp [Daemon.updaterAuthorized, hauth, hp, hlive]
  have hdesktop : d.desktopAuth st = false := by
    simp [Daemon.desktopAuth, hid, not_mem_subjects _ _ _ hdrawn, hlive]
  unfold Daemon.handlerAdmits
  split_ifs with h1 h2 h3
  · exact hcluster
  · exact hupdate
  · exact hdesktop
  · simp [looksUp, h1, h2, h3] at h
  · simp [looksUp, h1, h2, h3] at h
  · simp [looksUp, h1, h2, h3] at h

theorem handler_keeps (hp : st.clusterPrincipal = none)
    (hid : st.authenticatedClientId = some clientId) (proc : ProcId) (h : looksUp proc = false)
    (hne : proc ≠ .RenewClientCredential) : d.admits st proc = true := by
  obtain ⟨hauth, hclient⟩ := paired_isAuthenticated (d := d) hp hid
  simp only [looksUp, Bool.or_eq_false_iff] at h
  simp [Daemon.admits, hauth, Daemon.handlerAdmits, h.1.1, h.1.2, h.2, hne, hclient]

theorem renewal_refuses (hp : st.clusterPrincipal = none)
    (hid : st.authenticatedClientId = some clientId) (hgone : lookup d.credentials clientId = none) :
    d.admits st .RenewClientCredential = false := by
  obtain ⟨-, hclient⟩ := paired_isAuthenticated (d := d) hp hid
  simp [Daemon.admits, Daemon.handlerAdmits, isClusterCall, isUpdateCall, isDesktopCall,
    Daemon.renews, hclient, hgone]

end

end

def GrantOver (db : Database) (now : Int64) (p : Principal) : Prop :=
  ∀ n s, authorizationSnapshot db = .ok (n, s) → p.grant ∈ s.revoked ∨
    ∀ g, s.grants.lookup p.grant = some g → g.expires ≤ now.toUInt64

theorem validate_grantOver (db : Database) (now : Int64) (p : Principal)
    (h : GrantOver db now p) : (validate db p now).toBool = false := by
  cases hv : validate db p now with
  | error e => rfl
  | ok u =>
    simp only [validate, bind_eq_ok, Prod.exists] at hv
    obtain ⟨n, s, hs, hcheck⟩ := hv
    simp only [Principal.check, bind_eq_ok, exists_unit_iff, ensure_eq_ok, require_eq_ok,
      not_or, not_not] at hcheck
    obtain ⟨-, ⟨-, -, -, -, -, -, hrevoked⟩, g, hg, -, hexpires⟩ := hcheck
    rcases h n s hs with hin | hexp
    · exact absurd hin hrevoked
    · exact absurd (hexp g hg) hexpires

omit [DecidableEq σ] in
theorem grant_refuses (d : Daemon σ) (st : RpcSessionState) (p : Principal)
    (hp : st.clusterPrincipal = some p) (hover : GrantOver d.cluster d.now p) :
    d.isAuthenticated st = false ∧
      ∀ proc, requiresAuthentication proc = true → d.admits st proc = false := by
  have hauth : d.isAuthenticated st = false := by
    simp [Daemon.isAuthenticated, hp, validate_grantOver d.cluster d.now p hover]
  refine ⟨hauth, ?_⟩
  intro proc hproc
  simp [Daemon.admits, hproc, hauth]

/-- After a paired client's record is gone or expired nobody authenticates as the client, and on
its older sessions every handler that looks the record up refuses. After a grant is revoked or
expired its sessions call nothing protected, and the next tick closes them. -/
theorem revoked_access (d : Daemon σ) (h : d.Reached) :
    (∀ clientId, d.live clientId = false →
      (∀ st secretSha256, d.authenticateSession st clientId secretSha256 = none) ∧
      ∀ i st, d.sessions i = some st → st.clusterPrincipal = none →
        st.authenticatedClientId = some clientId →
        (∀ proc, looksUp proc = true → d.admits st proc = false) ∧
        (lookup d.credentials clientId = none → d.admits st .RenewClientCredential = false) ∧
        ∀ proc, looksUp proc = false → proc ≠ .RenewClientCredential → d.admits st proc = true) ∧
    ∀ i st p, d.sessions i = some st → st.clusterPrincipal = some p →
      GrantOver d.cluster d.now p →
        d.isAuthenticated st = false ∧
        (∀ proc, requiresAuthentication proc = true → d.admits st proc = false) ∧
        (d.tick i).sessions i = none := by
  have hinv := h.inv
  constructor
  · intro clientId hlive
    constructor
    · intro st secretSha256
      cases ha : d.authenticateSession st clientId secretSha256 with
      | none => rfl
      | some st' =>
        have hnow := (authenticateSession_eq_some d st st' clientId secretSha256 ha).1
        rw [hlive] at hnow
        cases hnow
    · intro i st hst hp hid
      have hsound := hinv.sound i st hst
      rw [RpcSessionState.Sound, hp] at hsound
      refine ⟨?_, renewal_refuses hp hid, handler_keeps hp hid⟩
      intro proc hproc
      rw [Daemon.admits, handler_refuses hp hid (hsound clientId hid) hlive proc hproc, Bool.and_false]
  · intro i st p hst hp hover
    obtain ⟨hauth, hcalls⟩ := grant_refuses d st p hp hover
    refine ⟨hauth, hcalls, ?_⟩
    simp [Daemon.tick, hst, hp, hauth]

end

section
attribute [local instance] residuePlatform

def sampleClient : ClientCredentialRecord := ⟨"a", "browser", "secret", 0, 100⟩

theorem pairedId_a : PairedId sampleClient.clientId := by
  unfold PairedId
  decide

def sampleDaemon : Daemon Unit := ⟨[sampleClient], Database.empty, 0, fun _ => none⟩

theorem sampleDaemon_reached (credentials : ClientCredentials)
    (h : credentials = [] ∨ credentials = [sampleClient]) :
    Daemon.Reached { sampleDaemon with
      credentials := credentials
      sessions := Function.update (Function.update sampleDaemon.sessions () (some ⟨none, none⟩)) ()
        (some ⟨some "a", none⟩) } := by
  have hstart : Daemon.Initial sampleDaemon := by
    refine ⟨fun _ => rfl, ?_⟩
    intro record hrecord
    rw [List.mem_singleton.mp hrecord]
    exact pairedId_a
  have hopen := Reachable.next _ _ (.start _ hstart) (Daemon.Step.connect () rfl)
  have hauth := hopen.next _ _ (.authenticate () ⟨none, none⟩ ⟨some "a", none⟩ "a" "secret" rfl rfl)
  refine hauth.next _ _ (.store credentials ?_)
  intro record hrecord
  rcases h with rfl | rfl
  · cases hrecord
  · rw [List.mem_singleton.mp hrecord]
    exact pairedId_a

theorem removed_client_calls : ∃ (d : Daemon Unit) (st : RpcSessionState), d.Reached ∧
    d.sessions () = some st ∧ st.authenticatedClientId = some "a" ∧
      lookup d.credentials "a" = none ∧ d.live "a" = false ∧
        requiresAuthentication .KillProcess = true ∧ d.admits st .KillProcess = true :=
  ⟨_, ⟨some "a", none⟩, sampleDaemon_reached [] (.inl rfl), rfl, rfl, rfl, rfl, rfl, rfl⟩

theorem revoked_access_sample : ∃ (d : Daemon Unit) (st : RpcSessionState),
    d.sessions () = some st ∧ st.authenticatedClientId = some "a" ∧ d.live "a" = false ∧
      d.admits st .AdmitClusterMember = false := by
  have hreach := sampleDaemon_reached [] (.inl rfl)
  have hrefused := ((revoked_access _ hreach).1 "a" rfl).2 () ⟨some "a", none⟩ rfl rfl rfl
  exact ⟨_, ⟨some "a", none⟩, rfl, rfl, rfl, hrefused.1 .AdmitClusterMember rfl⟩

end

end Rieul.Server
