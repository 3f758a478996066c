import Rieul.Web.ClusterStore
import Rieul.Web.Transcripts
import Rieul.Cluster.Authorization

/-!
# What the browser's cluster store keeps

Any order of the calls of any number of tabs keeps the key pair and only extends
the saved history. A freshly accepted grant is kept when its history extends the
saved one; another tab may have saved a longer history, and then it is dropped.
-/

namespace Rieul.Web
open Bytes Fallible System Rieul.Cluster
section
variable [Platform]

theorem verifyHistory_none (h : ClusterHistory) : verifyHistory h none = verifyJournal h := by
  unfold verifyHistory
  cases verifyJournal h with
  | error e | ok v => rfl

omit [Platform] in
theorem checkSaved_eq_ok (v : VerifiedCluster) (old : Head) (u : Unit) :
    checkSaved v old = .ok u ↔ v.hashes[old.sequence.toNat]? = some old.entryHash := by
  simp only [checkSaved, bind_eq_ok, require_eq_ok, ensure_eq_ok, same_iff]
  constructor
  · intro h
    obtain ⟨entryHash, hget, rfl⟩ := h
    exact hget
  · intro h
    exact ⟨_, h, rfl⟩

/-- The test of `storeHistory` is whether the history extends the saved one. -/
theorem extends_iff {known : Set ClusterHistory} (hfree : CollisionFree known)
    {saved history : ClusterHistory} (hs : saved ∈ known) (hh : history ∈ known)
    {v w : VerifiedCluster} (hv : verifyJournal saved = .ok v) (hw : verifyJournal history = .ok w) :
    Extends saved history ↔ ¬ w.head.sequence < v.head.sequence ∧ checkSaved w v.head = .ok () := by
  rw [checkSaved_eq_ok, not_lt]
  constructor
  · intro h
    obtain ⟨hlen, p, hp, hcut⟩ := h
    obtain ⟨cluster, s, hp', _, hhead, _⟩ := verifyJournal_ok saved v hv
    obtain ⟨cluster', t, ht, _, hhead', _, _, hhashes⟩ := verifyJournal_ok history w hw
    cases hp'.symm.trans hp
    obtain ⟨_, hrun⟩ := (progress_eq_ok saved _).mp hp
    obtain ⟨hc', hrun'⟩ := (progress_eq_ok history _).mp ht
    obtain ⟨hc, hcut⟩ := (progress_eq_ok _ _).mp hcut
    have hcluster : cluster' = cluster := Except.ok.inj (hc'.symm.trans hc)
    subst hcluster
    have hloop : Looped cluster' _ _ s := looped _ _ _ _ hrun
    have hloop' : Looped cluster' _ _ t := looped _ _ _ _ hrun'
    obtain ⟨u, hu, hget⟩ := hloop'.hashes saved.entries.length hlen
    have hus : u = s := Except.ok.inj (hu.symm.trans hcut)
    subst hus
    simp only [hhead, hhead', hhashes, hloop.sequence, hloop'.sequence, Int.toNat_natCast]
    exact ⟨by omega, hget⟩
  · intro h
    exact extends_of_hash hfree hs hh hv hw h.1 h.2

theorem validate_eq_ok (r r' : ClusterRecord) (h : validate r = .ok r') : r = r' := by
  simp only [validate, bind_eq_ok, pure_eq_ok] at h
  obtain ⟨_, _, h⟩ := h
  exact h

inductive Task.Writes (records : Records) (now : ℤ) : Task → ClusterRecord → Prop where
  | clusterKey (candidate : ClusterRecord) (hnone : records candidate.id = none) :
      Writes records now (.clusterKey candidate) candidate
  | storeHistory (history : ClusterHistory) (v : VerifiedCluster) (grantId : Option Str)
      (r : ClusterRecord) (hr : records (hex v.head.clusterId) = some r)
      (hsaved : ∀ saved ∈ r.history, ¬ v.head.sequence < (Head.ofWire saved.head).sequence ∧
        checkSaved v (.ofWire saved.head) = .ok ()) :
      Writes records now (.storeHistory history v grantId)
        { r with history := some history, grantId := grantId.or r.grantId }
  | resetGrantAfterPairing (id : String) (expected : Str) (r : ClusterRecord)
      (hr : records id = some r) :
      Writes records now (.resetGrantAfterPairing id expected) { r with grantId := none }
  | resetExpiredGrant (expected : ClusterRecord) (v : VerifiedCluster) (r : ClusterRecord)
      (saved : ClusterHistory) (g : Str) (hr : records expected.id = some r)
      (hsaved : r.history = some saved) (hg : r.grantId = some g) (hexpected : expected.grantId = some g)
      (hhead : Head.ofWire saved.head = v.head) :
      Writes records now (.resetExpiredGrant expected v) { r with grantId := none }

theorem transaction_writes {α : Type} (records records' : Records) (id : String) (update : Update α)
    (h : Prod.fst <$> transaction records id update = .ok records') : records' = records ∨
      ∃ r a, update (records id) = .ok (some r, a) ∧
        records' = Function.update records r.id (some r) := by
  simp only [transaction, map_eq_ok, bind_eq_ok] at h
  obtain ⟨x, ⟨⟨next, value⟩, hu, h⟩, rfl⟩ := h
  cases next with
  | none =>
    cases h
    exact .inl rfl
  | some r =>
    cases h
    exact .inr ⟨r, value, hu, rfl⟩

theorem replaceHistory_eq_ok (history : ClusterHistory) (v : VerifiedCluster) (grantId : Option Str)
    (now : ℤ) (r : ClusterRecord) (x : Option ClusterRecord × ClusterRecord) :
    replaceHistory history v grantId now r = .ok x ↔ checkGrantId v r now grantId = .ok () ∧
      x = (some { r with history := some history, grantId := grantId.or r.grantId },
        { r with history := some history, grantId := grantId.or r.grantId }) := by
  simp only [replaceHistory, bind_eq_ok, exists_unit_iff, pure_eq_ok, eq_comm (a := x)]

theorem storeHistory_writes (history : ClusterHistory) (v : VerifiedCluster) (grantId : Option Str)
    (now : ℤ) (current : Option ClusterRecord) (r : ClusterRecord) (value : ClusterRecord)
    (h : storeHistory history v grantId now current = .ok (some r, value)) : ∃ old,
      current = some old ∧
      (∀ saved ∈ old.history, ¬ v.head.sequence < (Head.ofWire saved.head).sequence ∧
        checkSaved v (.ofWire saved.head) = .ok ()) ∧
      r = { old with history := some history, grantId := grantId.or old.grantId } := by
  cases current with
  | none => cases h
  | some old =>
    simp only [storeHistory, bind_eq_ok] at h
    obtain ⟨current, hvalid, h⟩ := h
    obtain rfl := validate_eq_ok _ _ hvalid
    refine ⟨old, rfl, ?_⟩
    cases hh : old.history with
    | none =>
      simp only [hh, replaceHistory_eq_ok, Prod.mk.injEq, Option.some.injEq] at h
      refine ⟨?_, h.2.1⟩
      intro saved hs
      cases hs
    | some saved =>
      simp only [hh] at h
      split at h
      · cases h
      · rename_i hle
        simp only [bind_eq_ok, exists_unit_iff, replaceHistory_eq_ok, Prod.mk.injEq,
          Option.some.injEq] at h
        refine ⟨?_, h.2.2.1⟩
        intro s hs
        cases hs
        exact ⟨hle, h.1⟩

theorem commit_writes (task : Task) (records : Records) (now : ℤ) :
    task.commit records now = records ∨ ∃ r, task.Writes records now r ∧
      task.commit records now = Function.update records r.id (some r) := by
  unfold Task.commit
  cases hrun : task.run records now with
  | error e => exact .inl rfl
  | ok records' =>
    cases task with
    | clusterKey candidate =>
      obtain hsame | ⟨r, a, hu, hnext⟩ := transaction_writes _ _ _ _ hrun
      · exact .inl hsame
      · refine .inr ⟨r, ?_, hnext⟩
        cases hc : records candidate.id with
        | some current =>
          simp only [hc, Web.clusterKey, bind_eq_ok, pure_eq_ok, Prod.mk.injEq] at hu
          obtain ⟨_, _, hu, _⟩ := hu
          cases hu
        | none =>
          simp only [hc, Web.clusterKey, pure_eq_ok, Prod.mk.injEq, Option.some.injEq] at hu
          obtain ⟨rfl, _⟩ := hu
          exact .clusterKey candidate hc
    | storeHistory history v grantId =>
      obtain hsame | ⟨r, a, hu, hnext⟩ := transaction_writes _ _ _ _ hrun
      · exact .inl hsame
      · obtain ⟨old, hold, hsaved, rfl⟩ := storeHistory_writes _ _ _ _ _ _ _ hu
        exact .inr ⟨_, .storeHistory history v grantId old hold hsaved, hnext⟩
    | resetGrantAfterPairing id expected =>
      obtain hsame | ⟨r, a, hu, hnext⟩ := transaction_writes _ _ _ _ hrun
      · exact .inl hsame
      · refine .inr ⟨r, ?_, hnext⟩
        cases hc : records id with
        | none =>
          rw [hc] at hu
          cases hu
        | some current =>
          rw [hc, Web.resetGrantAfterPairing] at hu
          split at hu
          · cases hu
            exact .resetGrantAfterPairing id expected current hc
          · cases hu
    | resetExpiredGrant expected v =>
      obtain hsame | ⟨r, a, hu, hnext⟩ := transaction_writes _ _ _ _ hrun
      · exact .inl hsame
      · refine .inr ⟨r, ?_, hnext⟩
        cases hc : records expected.id with
        | none =>
          rw [hc] at hu
          cases hu
        | some current =>
          simp only [hc, Web.resetExpiredGrant] at hu
          split at hu
          · rename_i saved g hsaved hg
            split at hu
            · rename_i hcond
              obtain ⟨rfl, _⟩ := hu
              obtain ⟨⟨g', hg', hsame⟩, hhead⟩ := hcond
              obtain rfl := (same_iff _ _).mp hsame
              exact .resetExpiredGrant expected v current saved _ hc hsaved hg hg'
                ((equalHead_iff _ _).mp hhead)
            · cases hu
          · cases hu

def Verified (known : Set ClusterHistory) (id : String) (h : ClusterHistory) : Prop :=
  h ∈ known ∧ ∃ v, verifyJournal h = .ok v ∧ hex v.head.clusterId = id

def Task.Checked (known : Set ClusterHistory) : Task → Prop
  | .clusterKey candidate =>
    validate candidate = .ok candidate ∧ candidate.history = none ∧ candidate.grantId = none
  | .storeHistory history v _ => history ∈ known ∧ verifyJournal history = .ok v
  | .resetGrantAfterPairing _ _ => True
  | .resetExpiredGrant expected v =>
    ∃ history ∈ known, ∃ g, expected.grantId = some g ∧ verifyJournal history = .ok v ∧
      hex g ∈ v.grants

structure Browser.Sound (known : Set ClusterHistory) (b : Browser) : Prop where
  stored : ∀ id r, b.records id = some r →
    r.id = id ∧ validate r = .ok r ∧ ∀ h ∈ r.history, Verified known id h
  checked : ∀ task ∈ b.tasks, task.Checked known

def Kept (r next : ClusterRecord) : Prop :=
  next.privateKey = r.privateKey ∧ next.publicKey = r.publicKey ∧
    ∀ h, r.history = some h → ∃ h', next.history = some h' ∧
      (Head.ofWire h.head).sequence ≤ (Head.ofWire h'.head).sequence ∧ Extends h h'

theorem extends_refl (h : ClusterHistory) (v : VerifiedCluster) (hv : verifyJournal h = .ok v) :
    Extends h h := by
  obtain ⟨cluster, s, hp, _⟩ := verifyJournal_ok h v hv
  refine ⟨le_rfl, _, hp, ?_⟩
  simpa only [cut, List.take_length] using hp

variable {known : Set ClusterHistory} {b : Browser}

theorem Browser.Sound.kept (hb : b.Sound known) (id : String) (r next : ClusterRecord)
    (hr : b.records id = some r) (hprivate : next.privateKey = r.privateKey)
    (hpublic : next.publicKey = r.publicKey) (hhistory : next.history = r.history) :
    Kept r next := by
  refine ⟨hprivate, hpublic, ?_⟩
  intro h hh
  obtain ⟨_, v, hv, _⟩ := (hb.stored id r hr).2.2 h hh
  exact ⟨h, hhistory.trans hh, le_rfl, extends_refl h v hv⟩

section
variable (hfree : CollisionFree known) (hb : b.Sound known) (task : Task) (hc : task.Checked known)
  (now : ℤ)
include hfree hb task hc now

theorem Browser.Sound.writes (next : ClusterRecord)
    (hw : task.Writes b.records now next) :
    (validate next = .ok next ∧ ∀ h ∈ next.history, Verified known next.id h) ∧
      ∀ r, b.records next.id = some r → Kept r next := by
  cases hw with
  | clusterKey _ hnone =>
    obtain ⟨hvalid, hhistory, _⟩ := hc
    refine ⟨⟨hvalid, ?_⟩, ?_⟩
    · intro h hh
      rw [hhistory] at hh
      cases hh
    · intro r hr
      cases hnone.symm.trans hr
  | storeHistory history v grantId old hold hsaved =>
    obtain ⟨hknown, hv⟩ := hc
    obtain ⟨hid, hvalid, hold'⟩ := hb.stored _ old hold
    refine ⟨⟨?_, ?_⟩, ?_⟩
    · simpa only [validate, bind_eq_ok, exists_unit_iff, ensure_eq_ok, pure_eq_ok, and_true]
        using hvalid
    · intro h hh
      cases hh
      exact ⟨hknown, v, hv, hid.symm⟩
    · intro r hr
      have hr' : b.records old.id = some r := hr
      rw [hid] at hr'
      cases hold.symm.trans hr'
      refine ⟨rfl, rfl, ?_⟩
      intro saved hs
      obtain ⟨hk, w, hw, _⟩ := hold' saved hs
      obtain ⟨_, _, _, hhead, _⟩ := verifyJournal_ok saved w hw
      obtain ⟨_, _, _, hhead', _⟩ := verifyJournal_ok history v hv
      obtain ⟨hle, hcheck⟩ := hsaved saved hs
      refine ⟨history, rfl, ?_, ?_⟩
      · rw [hhead'] at hle
        exact not_lt.mp hle
      · rw [← hhead] at hle hcheck
        exact (extends_iff hfree hk hknown hw hv).mpr ⟨hle, hcheck⟩
  | resetGrantAfterPairing id expected old hold
  | resetExpiredGrant expected v old saved g hold hs hg hexpected hhead =>
    obtain ⟨hid, hvalid, hold'⟩ := hb.stored _ old hold
    refine ⟨⟨?_, ?_⟩, ?_⟩
    · simpa only [validate, bind_eq_ok, exists_unit_iff, ensure_eq_ok, pure_eq_ok, and_true]
        using hvalid
    · rw [← hid] at hold'
      exact hold'
    · intro r hr
      have hr' : b.records old.id = some r := hr
      rw [hid] at hr'
      cases hold.symm.trans hr'
      exact hb.kept _ old _ hold rfl rfl rfl

theorem Browser.Sound.commit :
    (∀ id r, task.commit b.records now id = some r →
      r.id = id ∧ validate r = .ok r ∧ ∀ h ∈ r.history, Verified known id h) ∧
      ∀ id r, b.records id = some r → ∃ next, task.commit b.records now id = some next ∧ Kept r next := by
  obtain hsame | ⟨next, hw, hnext⟩ := commit_writes task b.records now
  · rw [hsame]
    exact ⟨hb.stored, fun id r hr => ⟨r, hr, hb.kept id r r hr rfl rfl rfl⟩⟩
  · obtain ⟨⟨hvalid, hhistory⟩, hkept⟩ := hb.writes hfree task hc now next hw
    rw [hnext]
    constructor
    · intro id r hr
      by_cases hid : id = next.id
      · subst hid
        rw [Function.update_self] at hr
        cases hr
        exact ⟨rfl, hvalid, hhistory⟩
      · rw [Function.update_of_ne hid] at hr
        exact hb.stored id r hr
    · intro id r hr
      by_cases hid : id = next.id
      · subst hid
        exact ⟨next, Function.update_self _ _ _, hkept r hr⟩
      · refine ⟨r, ?_, hb.kept id r r hr rfl rfl rfl⟩
        rw [Function.update_of_ne hid]
        exact hr

end

/-- What `resetExpiredGrant` has found out before its transaction. -/
theorem expiredGrant_eq_some (expected : ClusterRecord) (now : ℤ) (v : VerifiedCluster)
    (h : expiredGrant expected now = .ok (some v)) : ∃ history g, expected.history = some history ∧
      expected.grantId = some g ∧ verifyJournal history = .ok v ∧ hex g ∈ v.grants := by
  unfold expiredGrant at h
  split at h
  · rename_i history g hh hg
    simp only [bind_eq_ok, verifyHistory_none] at h
    obtain ⟨w, hw, h⟩ := h
    split at h
    · rename_i grant hgrant
      split at h
      · cases h
      · cases h
        refine ⟨history, g, hh, hg, hw, ?_⟩
        rw [← AList.lookup_isSome, hgrant]
        rfl
    · cases h
  · cases h

theorem Browser.Sound.queue {b : Browser} (hb : b.Sound known) (task : Task)
    (hc : task.Checked known) : Browser.Sound known { b with tasks := b.tasks ++ [task] } := by
  refine ⟨hb.stored, fun t ht => ?_⟩
  rcases List.mem_append.mp ht with ht | ht
  · exact hb.checked t ht
  · exact List.mem_singleton.mp ht ▸ hc

section
variable (hfree : CollisionFree known)
include hfree

theorem Browser.Step.sound (b b' : Browser) (hb : b.Sound known)
    (h : Browser.Step known b b') : b'.Sound known := by
  cases h with
  | clusterKey candidate hid hread hkeys hhistory hgrant =>
    exact hb.queue _ ⟨hkeys, hhistory, hgrant⟩
  | storeHistory history v grantId hknown hv =>
    exact hb.queue _ ⟨hknown, (verifyHistory_none history).symm.trans hv⟩
  | resetGrantAfterPairing id expected => exact hb.queue _ trivial
  | resetExpiredGrant expected v now hknown hexpired =>
    obtain ⟨history, g, hh, hg, hv, hmem⟩ := expiredGrant_eq_some expected now v hexpired
    exact hb.queue _ ⟨history, hknown history hh, g, hg, hv, hmem⟩
  | commit before after task now htasks =>
    have hchecked := hb.checked
    rw [htasks] at hchecked
    refine ⟨(hb.commit hfree task (hchecked task (by simp)) now).1, ?_⟩
    intro t ht
    refine hchecked t ?_
    rcases List.mem_append.mp ht with ht | ht
    · exact List.mem_append_left _ ht
    · exact List.mem_append_right _ (List.mem_cons_of_mem _ ht)

theorem Browser.Reached.sound (hb : b.Reached known) :
    b.Sound known := by
  refine hb.invariant (Browser.Sound known) ?_ (Browser.Step.sound hfree)
  intro b h
  subst h
  refine ⟨?_, ?_⟩
  · intro id r hr
    cases hr
  · intro task ht
    cases ht

theorem Browser.Sound.step (hb : b.Sound known) (b' : Browser)
    (h : Browser.Step known b b') (id : String) (r : ClusterRecord) (hr : b.records id = some r) :
    ∃ next, b'.records id = some next ∧ Kept r next := by
  have hsame := hb.kept id r r hr rfl rfl rfl
  cases h with
  | clusterKey candidate _ _ _ _ _ | storeHistory history v grantId _ _
  | resetGrantAfterPairing id' expected | resetExpiredGrant expected v now _ _ =>
    exact ⟨r, hr, hsame⟩
  | commit before after task now htasks =>
    have hchecked := hb.checked
    rw [htasks] at hchecked
    exact (hb.commit hfree task (hchecked task (by simp)) now).2 id r hr

theorem Browser.Sound.renewal (hb : b.Sound known)
    (expected : ClusterRecord) (v : VerifiedCluster) (now : ℤ)
    (hc : (Task.resetExpiredGrant expected v).Checked known) (r next : ClusterRecord) (g : Str)
    (saved : ClusterHistory) (hr : b.records expected.id = some r) (hg : r.grantId = some g)
    (hs : r.history = some saved) (hrevoked : Revoked saved g)
    (hnext : (Task.resetExpiredGrant expected v).commit b.records now expected.id = some next) :
    next.grantId = some g := by
  obtain hsame | ⟨w, hw, hcommit⟩ := commit_writes (.resetExpiredGrant expected v) b.records now
  · rw [hsame] at hnext
    cases hr.symm.trans hnext
    exact hg
  · cases hw with
    | resetExpiredGrant _ _ old saved' g' hold hs' hg' hexpected hhead =>
      cases hr.symm.trans hold
      cases hs.symm.trans hs'
      cases hg.symm.trans hg'
      obtain ⟨history, hknown, g', hexpected', hv, hmem⟩ := hc
      cases hexpected.symm.trans hexpected'
      obtain ⟨hk, u, hu, _⟩ := (hb.stored _ r hr).2.2 saved hs
      obtain ⟨_, _, _, hu', _⟩ := verifyJournal_ok saved u hu
      have hequal := progress_of_head hfree hk hknown hu hv (hu'.trans hhead)
      obtain ⟨p, hp, hp'⟩ := hrevoked
      rw [hequal] at hp
      exact absurd ⟨p, hp, hp'⟩ (not_revoked history v hv g hmem)

theorem Browser.Sound.names_iff (hb : b.Sound known)
    (history : ClusterHistory) (v : VerifiedCluster) (g : Str) (now : ℤ)
    (hc : (Task.storeHistory history v (some g)).Checked known) (r : ClusterRecord)
    (hr : b.records (hex v.head.clusterId) = some r) (grant : VerifiedGrant)
    (hgrant : v.grants.lookup (hex g) = some grant) (hvalid : grant.Valid r now) :
    (∃ next, (Task.storeHistory history v (some g)).commit b.records now (hex v.head.clusterId) =
      some next ∧ next.grantId = some g) ↔
      r.grantId = some g ∨ ∀ saved, r.history = some saved → Extends saved history := by
  obtain ⟨hknown, hv⟩ := hc
  obtain ⟨hid, hr', hsaved⟩ := hb.stored _ r hr
  have hgood : checkGrantId v r now (some g) = .ok () := by
    simp only [checkGrantId, bind_eq_ok, require_eq_ok, ensure_eq_ok]
    exact ⟨grant, hgrant, hvalid⟩
  have hreplace := (replaceHistory_eq_ok history v (some g) now r _).mpr ⟨hgood, rfl⟩
  have hkeep : (∃ next, b.records (hex v.head.clusterId) = some next ∧ next.grantId = some g) ↔
      r.grantId = some g := by
    simp only [hr, Option.some.injEq, exists_eq_left']
  have hwrite : ∃ next, Function.update b.records r.id
      (some { r with history := some history, grantId := (some g).or r.grantId })
      (hex v.head.clusterId) = some next ∧ next.grantId = some g := by
    rw [hid, Function.update_self]
    exact ⟨_, rfl, rfl⟩
  cases hs : r.history with
  | none =>
    have hrun : (Task.storeHistory history v (some g)).commit b.records now =
        Function.update b.records r.id
          (some { r with history := some history, grantId := (some g).or r.grantId }) := by
      simp only [Task.commit, Task.run, transaction, hr, Web.storeHistory, hr', hs, ok_bind,
        hreplace]
      rfl
    rw [hrun]
    exact ⟨fun _ => .inr (by simp), fun _ => hwrite⟩
  | some saved =>
    obtain ⟨hk, w, hw, _⟩ := hsaved saved hs
    obtain ⟨_, _, _, hhead, _⟩ := verifyJournal_ok saved w hw
    have hextends := extends_iff hfree hk hknown hw hv
    rw [hhead] at hextends
    simp only [Option.some.injEq, forall_eq']
    rw [hextends]
    by_cases hlt : v.head.sequence < (Head.ofWire saved.head).sequence
    · have hrun : (Task.storeHistory history v (some g)).commit b.records now = b.records := by
        simp only [Task.commit, Task.run, transaction, hr, Web.storeHistory, hr', hs, ok_bind,
          if_pos hlt]
        rfl
      rw [hrun, hkeep]
      exact ⟨.inl, fun h => h.elim id fun h => absurd hlt h.1⟩
    · cases hcheck : checkSaved v (.ofWire saved.head) with
      | ok u =>
        have hrun : (Task.storeHistory history v (some g)).commit b.records now =
            Function.update b.records r.id
              (some { r with history := some history, grantId := (some g).or r.grantId }) := by
          simp only [Task.commit, Task.run, transaction, hr, Web.storeHistory, hr', hs, ok_bind,
            if_neg hlt, hcheck, hreplace]
          rfl
        rw [hrun]
        exact ⟨fun _ => .inr ⟨hlt, rfl⟩, fun _ => hwrite⟩
      | error e =>
        have hrun : (Task.storeHistory history v (some g)).commit b.records now = b.records := by
          simp only [Task.commit, Task.run, transaction, hr, Web.storeHistory, hr', hs, ok_bind,
            if_neg hlt, hcheck]
          rfl
        rw [hrun, hkeep]
        exact ⟨.inl, fun h => h.elim id fun h => by cases h.2⟩

end

/-- Whatever the tabs do, each record keeps its keys and its history only grows, renewal clears
no revoked grant, and a valid grant is stored exactly when it is there already or its history
extends the saved one. -/
theorem cluster_store_keeps (known : Set ClusterHistory) (hfree : CollisionFree known) (b : Browser)
    (hb : b.Reached known) :
    (∀ b', Browser.Step known b b' → ∀ id r, b.records id = some r →
      ∃ next, b'.records id = some next ∧ Kept r next) ∧
    (∀ expected v now, Task.resetExpiredGrant expected v ∈ b.tasks →
      ∀ r g saved, b.records expected.id = some r → r.grantId = some g → r.history = some saved →
        Revoked saved g → ∀ next,
          (Task.resetExpiredGrant expected v).commit b.records now expected.id = some next →
            next.grantId = some g) ∧
    (∀ history v g now, Task.storeHistory history v (some g) ∈ b.tasks →
      ∀ r grant, b.records (hex v.head.clusterId) = some r →
        v.grants.lookup (hex g) = some grant → grant.Valid r now →
          ((∃ next, (Task.storeHistory history v (some g)).commit b.records now
              (hex v.head.clusterId) = some next ∧ next.grantId = some g) ↔
            r.grantId = some g ∨ ∀ saved, r.history = some saved → Extends saved history)) := by
  have hsound := hb.sound hfree
  refine ⟨hsound.step hfree, ?_, ?_⟩
  · intro expected v now ht r g saved hr hg hs hrevoked next hnext
    exact hsound.renewal hfree expected v now (hsound.checked _ ht) r next g saved hr hg hs hrevoked
      hnext
  · intro history v g now ht r grant hr hgrant hvalid
    exact hsound.names_iff hfree history v g now (hsound.checked _ ht) r hr grant hgrant hvalid

def transcripts (h : ClusterHistory) : List Str :=
  let entry (k : ℕ) : Checked Str := do
    let cluster ← clusterId h.genesis
    let s ← Replay.replay (verifyEntry cluster) (start cluster h.genesis) (h.entries.take k)
    let e ← require .invalid h.entries[k]?
    entryTranscript cluster s e
  (genesisTranscript h.genesis :: (List.range h.entries.length).map entry).filterMap Except.toOption

theorem Hashed.mem {h : ClusterHistory} {t : Str} (ht : Hashed h t) : t ∈ transcripts h := by
  cases ht with
  | genesis _ hb =>
    refine List.mem_filterMap.mpr ⟨_, List.mem_cons_self, ?_⟩
    rw [hb]
    rfl
  | entry cluster as e s _ hp hc hs hb =>
    obtain ⟨rest, hrest⟩ := hp
    refine List.mem_filterMap.mpr ⟨_, List.mem_cons_of_mem _
      (List.mem_map.mpr ⟨as.length, List.mem_range.mpr ?_, rfl⟩), ?_⟩
    · rw [← hrest]
      simp only [List.length_append, List.length_singleton]
      omega
    · have htake : h.entries.take as.length = as := by
        rw [← hrest, List.append_assoc, List.take_left]
      have hget : h.entries[as.length]? = some e := by
        rw [← hrest, List.append_assoc, List.getElem?_append_right le_rfl, Nat.sub_self]
        rfl
      simp only [hc, ok_bind, htake, hs, hget, require_some, hb]
      rfl

theorem Hashed.mono {h h' : ClusterHistory} {t : Str} (hgenesis : h.genesis = h'.genesis)
    (hentries : h.entries <+: h'.entries) (ht : Hashed h t) : Hashed h' t := by
  cases ht with
  | genesis _ hb =>
    rw [hgenesis] at hb
    exact .genesis t hb
  | entry cluster as e s _ hp hc hs hb =>
    rw [hgenesis] at hc hs
    exact .entry cluster as e s t (hp.trans hentries) hc hs hb

theorem collisionFree_pair {h later : ClusterHistory} (hgenesis : h.genesis = later.genesis)
    (hentries : h.entries <+: later.entries)
    (hnodup : ((transcripts later).map fun b => Platform.hash b).Nodup) :
    CollisionFree {h, later} := by
  have hall : ∀ x ∈ ({h, later} : Set ClusterHistory), ∀ b, Hashed x b → b ∈ transcripts later := by
    intro x hx b hb
    rcases hx with rfl | rfl
    · exact (hb.mono hgenesis hentries).mem
    · exact hb.mem
  intro x hx y hy b b' hb hb' heq
  exact List.inj_on_of_nodup_map hnodup (hall x hx b hb) (hall y hy b' hb') heq

def offers (h : ClusterHistory) (r : ClusterRecord) (g : Str) (now : ℤ) : Bool :=
  (verifyHistory h none).toOption.any fun v => hex v.head.clusterId = r.id ∧
    (v.grants.lookup (hex g)).any fun grant => grant.Valid r now

theorem offers_iff (h : ClusterHistory) (r : ClusterRecord) (g : Str) (now : ℤ)
    (ho : offers h r g now = true) : ∃ v grant, verifyHistory h none = .ok v ∧
      hex v.head.clusterId = r.id ∧ v.grants.lookup (hex g) = some grant ∧ grant.Valid r now := by
  obtain ⟨v, hv, hcheck⟩ := exists_of_any _ _ ho
  obtain ⟨hid, hcheck⟩ := of_decide_eq_true hcheck
  obtain ⟨grant, hgrant, hvalid⟩ := exists_of_any _ _ hcheck
  exact ⟨v, grant, eq_ok_of_toOption hv, hid, hgrant, of_decide_eq_true hvalid⟩

theorem stored_self (records : Records) (id : String) (r : ClusterRecord) :
    Function.update records id (some r) id = some r := Function.update_self _ _ _

section
variable (candidate : ClusterRecord) (hid : isClusterId candidate.id)
  (hkeys : validate candidate = .ok candidate) (hhistory : candidate.history = none)
  (hgrant : candidate.grantId = none)
include candidate hid hkeys hhistory hgrant

theorem pending (h : ClusterHistory) (v : VerifiedCluster) (g : Str)
    (hknown : h ∈ known) (hv : verifyHistory h none = .ok v) :
    Browser.Reached known ⟨Function.update (fun _ => none) candidate.id (some candidate),
      [.storeHistory h v (some g)]⟩ := by
  have h0 : Browser.Reached known ⟨fun _ => none, []⟩ := .start _ rfl
  have h1 := h0.next _ _ (.clusterKey candidate hid rfl hkeys hhistory hgrant)
  have h2 := h1.next _ _ (.commit [] [] (.clusterKey candidate) 0 rfl)
  exact h2.next _ _ (.storeHistory h v (some g) hknown hv)

theorem pending_offers (h : ClusterHistory) (v : VerifiedCluster) (g : Str)
    (now : ℤ) (hknown : h ∈ known) (hv : verifyHistory h none = .ok v)
    (hcluster : hex v.head.clusterId = candidate.id) (grant : VerifiedGrant)
    (hvalid : grant.Valid candidate now) : ∃ (b : Browser) (r : ClusterRecord), b.Reached known ∧
      Task.storeHistory h v (some g) ∈ b.tasks ∧ b.records (hex v.head.clusterId) = some r ∧
      grant.Valid r now ∧ r.history = none := by
  have hr : Function.update (fun _ => none) candidate.id (some candidate) (hex v.head.clusterId) =
      some candidate := by
    rw [hcluster, stored_self]
  exact ⟨_, candidate, pending candidate hid hkeys hhistory hgrant h v g hknown hv,
    List.mem_singleton_self _, hr, hvalid, hhistory⟩

theorem overtaken (h later : ClusterHistory) (v w : VerifiedCluster) (g : Str)
    (hknown : h ∈ known) (hv : verifyHistory h none = .ok v) (hlater : later ∈ known)
    (hw : verifyHistory later none = .ok w) (hcluster : hex w.head.clusterId = candidate.id) :
    Browser.Reached known ⟨Function.update (fun _ => none) candidate.id
      (some { candidate with history := some later, grantId := none }),
      [.storeHistory h v (some g)]⟩ := by
  have h1 : Browser.Reached known ⟨Function.update (fun _ => none) candidate.id (some candidate),
      [.storeHistory h v (some g)]⟩ :=
    pending candidate hid hkeys hhistory hgrant h v g hknown hv
  have h2 := h1.next _ _ (.storeHistory later w none hlater hw)
  have h3 := h2.next _ _ (.commit [.storeHistory h v (some g)] [] (.storeHistory later w none) 0 rfl)
  have hcommit : (Task.storeHistory later w none).commit
      (Function.update (fun _ => none) candidate.id (some candidate)) 0 =
      Function.update (fun _ => none) candidate.id
        (some { candidate with history := some later, grantId := none }) := by
    simp only [Task.commit, Task.run, transaction, hcluster, Function.update_self, Web.storeHistory,
      hkeys, ok_bind, hhistory, replaceHistory, checkGrantId, hgrant, Option.or_none]
    exact Function.update_idem _ _ _
  rw [hcommit] at h3
  exact h3

end

theorem overtaken_drops (hfree : CollisionFree known) (candidate : ClusterRecord)
    (hid : isClusterId candidate.id) (hkeys : validate candidate = .ok candidate)
    (hhistory : candidate.history = none) (hgrant : candidate.grantId = none)
    (h later : ClusterHistory) (v w : VerifiedCluster) (g : Str) (now : ℤ) (hknown : h ∈ known)
    (hv : verifyHistory h none = .ok v) (hlater : later ∈ known)
    (hw : verifyHistory later none = .ok w) (hcluster : hex w.head.clusterId = candidate.id)
    (hcluster' : hex v.head.clusterId = candidate.id) (hlength : h.entries.length < later.entries.length)
    (grant : VerifiedGrant) (hlookup : v.grants.lookup (hex g) = some grant)
    (hvalid : grant.Valid candidate now) (other : VerifiedGrant)
    (hother : w.grants.lookup (hex g) = some other) : ∃ (b : Browser) (r : ClusterRecord),
      b.Reached known ∧ Task.storeHistory h v (some g) ∈ b.tasks ∧
      b.records (hex v.head.clusterId) = some r ∧ grant.Valid r now ∧
      (∀ saved ∈ r.history, ¬ Revoked saved g) ∧
      ¬ ∃ next, (Task.storeHistory h v (some g)).commit b.records now (hex v.head.clusterId) =
        some next ∧ next.grantId = some g := by
  have hb := overtaken candidate hid hkeys hhistory hgrant h later v w g hknown hv hlater hw hcluster
  have hr : Function.update (fun _ => none) candidate.id
      (some { candidate with history := some later, grantId := none }) (hex v.head.clusterId) =
      some { candidate with history := some later, grantId := none } := by
    rw [hcluster', stored_self]
  refine ⟨_, _, hb, List.mem_singleton_self _, hr, hvalid, ?_, ?_⟩
  · intro saved hs
    cases hs
    refine not_revoked later w ((verifyHistory_none _).symm.trans hw) g ?_
    rw [← AList.lookup_isSome, hother]
    rfl
  · intro hnames
    have hiff := (hb.sound hfree).names_iff hfree h v g now
      ⟨hknown, (verifyHistory_none _).symm.trans hv⟩ _ hr grant hlookup hvalid
    rcases hiff.mp hnames with hsome | hextends
    · cases hsome
    · have hle := (hextends later rfl).1
      omega

end

section
attribute [local instance] residuePlatform residuePlatform_lawful

def sampleRevoked : List Entry :=
  sampleJournal (State.genesis sampleGenesis)
    [(1, fun _ => sampleGrant), (1, fun _ => .Revoke (Fixed.fill 32 71))]

def sampleHistory (es : List Entry) : ClusterHistory :=
  wireHistory sampleGenesis es (match replay sampleGenesis es with
    | .ok s => s
    | .error _ => State.genesis sampleGenesis)

def sampleRecord : ClusterRecord where
  id := hex sampleGenesis.cluster.data
  privateKey := ⟨"private", false, "Ed25519", ["sign"], (3 : UInt8)⟩
  publicKey := (Fixed.fill 32 3).data
  history := none
  grantId := none

theorem digitChar_hex (n : ℕ) (h : n < 16) :
    'a' ≤ Nat.digitChar n ∧ Nat.digitChar n ≤ 'f' ∨ '0' ≤ Nat.digitChar n ∧ Nat.digitChar n ≤ '9' := by
  revert n
  decide

theorem length_flatMap_hexByte (bytes : Str) : (bytes.flatMap hexByte).length = 2 * bytes.length := by
  induction bytes with
  | nil => rfl
  | cons b bytes ih =>
    simp only [List.flatMap_cons, List.length_append, ih, List.length_cons, hexByte, List.length_nil]
    omega

theorem isClusterId_hex (id : Id) : isClusterId (hex id.data) := by
  unfold isClusterId hex
  rw [String.toList_ofList]
  constructor
  · rw [length_flatMap_hexByte, id.size]
  · intro c hc
    obtain ⟨b, -, hb⟩ := List.mem_flatMap.mp hc
    have hlt := b.toNat_lt
    rcases List.mem_cons.mp hb with rfl | hb
    · exact digitChar_hex _ (by omega)
    · rw [List.mem_singleton.mp hb]
      exact digitChar_hex _ (by omega)

theorem sample_offers : offers (sampleHistory sampleAdopted) sampleRecord (Fixed.fill 32 70).data 0 =
    true ∧ offers (sampleHistory sampleRevoked) sampleRecord (Fixed.fill 32 70).data 0 = true ∧
    validate sampleRecord = .ok sampleRecord ∧ isClusterId sampleRecord.id := by
  exact ⟨by decide +kernel, by decide +kernel, rfl, isClusterId_hex _⟩

theorem sample_collisionFree :
    CollisionFree {sampleHistory sampleAdopted, sampleHistory sampleRevoked} :=
  collisionFree_pair rfl ⟨[_], rfl⟩ (by decide +kernel)

theorem cluster_store_keeps_sample : ∃ b v, Browser.Reached
    {sampleHistory sampleAdopted, sampleHistory sampleRevoked} b ∧
    Task.storeHistory (sampleHistory sampleAdopted) v (some (Fixed.fill 32 70).data) ∈ b.tasks ∧
    ∃ next, (Task.storeHistory (sampleHistory sampleAdopted) v
      (some (Fixed.fill 32 70).data)).commit b.records 0 (hex v.head.clusterId) = some next ∧
        next.grantId = some (Fixed.fill 32 70).data := by
  obtain ⟨hadopted, _, hkeys, hid⟩ := sample_offers
  obtain ⟨v, grant, hv, hcluster, hgrant, hvalid⟩ := offers_iff _ _ _ _ hadopted
  have hmem := Set.mem_insert (sampleHistory sampleAdopted) {sampleHistory sampleRevoked}
  obtain ⟨b, r, hb, ht, hr, hvalid, hnone⟩ := pending_offers sampleRecord hid hkeys rfl rfl _ v
    (Fixed.fill 32 70).data 0 hmem hv hcluster grant hvalid
  refine ⟨b, v, hb, ht, ?_⟩
  refine ((cluster_store_keeps _ sample_collisionFree b hb).2.2 _ v _ 0 ht r grant hr hgrant
    hvalid).mpr (.inr ?_)
  intro saved hs
  cases hnone.symm.trans hs

theorem accepted_grant_dropped : ¬ ∀ known : Set ClusterHistory, CollisionFree known →
    ∀ b : Browser, b.Reached known → ∀ history v g now,
      Task.storeHistory history v (some g) ∈ b.tasks →
        ∀ r grant, b.records (hex v.head.clusterId) = some r → v.grants.lookup (hex g) = some grant →
          grant.Valid r now → (∀ saved ∈ r.history, ¬ Revoked saved g) →
            ∃ next, (Task.storeHistory history v (some g)).commit b.records now
              (hex v.head.clusterId) = some next ∧ next.grantId = some g := by
  intro hclaim
  obtain ⟨hadopted, hrevoked, hkeys, hid⟩ := sample_offers
  obtain ⟨v, grant, hv, hcluster, hgrant, hvalid⟩ := offers_iff _ _ _ _ hadopted
  obtain ⟨w, other, hw, hcluster', hother, _⟩ := offers_iff _ _ _ _ hrevoked
  have hmem := Set.mem_insert (sampleHistory sampleAdopted) {sampleHistory sampleRevoked}
  have hmem' := Set.mem_insert_of_mem (sampleHistory sampleAdopted)
    (Set.mem_singleton (sampleHistory sampleRevoked))
  obtain ⟨b, r, hb, ht, hr, hvalid, hlive, hdropped⟩ := overtaken_drops sample_collisionFree
    sampleRecord hid hkeys rfl rfl _ (sampleHistory sampleRevoked) v w (Fixed.fill 32 70).data 0 hmem
    hv hmem' hw hcluster' hcluster (by decide) grant hgrant hvalid other hother
  exact hdropped (hclaim _ sample_collisionFree b hb _ v _ 0 ht r grant hr hgrant hvalid hlive)

end
end Rieul.Web
