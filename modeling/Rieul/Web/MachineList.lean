import Rieul.Web.MachineStore
import Rieul.Web.GrantKept

/-!
# The machine list follows the newest history

Records of several clusters are applied in any order.
-/

namespace Rieul.Web
open Bytes Fallible System Rieul.Cluster
section
variable [Platform]

def Reachables (members : HexMap ClusterMember) : Prop :=
  ∀ key x, members.lookup key = some x → key = hex x.admissionId ∧ ∃ o, endpoint x.endpoint = .ok o

theorem Reachables.insert {members : HexMap ClusterMember} (h : Reachables members)
    (x : ClusterMember) (o : String) (ho : endpoint x.endpoint = .ok o) :
    Reachables (members.insert (hex x.admissionId) x) := by
  intro key y hy
  rw [HexMap.lookup_insert] at hy
  split at hy
  · rename_i hkey
    cases hy
    exact ⟨hkey, o, ho⟩
  · exact h key y hy

theorem Reachables.erase {members : HexMap ClusterMember} (h : Reachables members) (key : String) :
    Reachables (members.erase key) := by
  intro key' y hy
  rw [HexMap.lookup_erase] at hy
  split at hy
  · cases hy
  · exact h key' y hy

theorem transition_reachables (cluster : Str) (s u : Progress) (e : ClusterJournalEntry)
    (m : List CborValue) (hs : Reachables s.members) (h : transition cluster s e m = .ok u) :
    Reachables u.members := by
  unfold transition at h
  split at h
  · simp only [bind_eq_ok, pure_eq_ok] at h
    obtain ⟨o, ho, _, _, rfl⟩ := h
    exact hs.insert ⟨_, _, _⟩ o ho
  · simp only [bind_eq_ok, pure_eq_ok] at h
    obtain ⟨_, _, rfl⟩ := h
    exact hs.erase _
  · simp only [bind_eq_ok, pure_eq_ok] at h
    obtain ⟨_, _, _, _, _, _, rfl⟩ := h
    exact hs
  · simp only [bind_eq_ok, pure_eq_ok] at h
    obtain ⟨_, _, _, _, _, _, _, _, _, _, _, _, rfl⟩ := h
    exact hs
  · cases h
    exact hs
  · cases h
    exact hs

theorem verified_reachables (h : ClusterHistory) (v : VerifiedCluster)
    (hv : verifyHistory h none = .ok v) : Reachables v.members := by
  rw [verifyHistory_none] at hv
  simp only [verifyJournal, bind_eq_ok, exists_unit_iff, pure_eq_ok] at hv
  obtain ⟨_, o, ho, cluster, _, s, hs, _, rfl⟩ := hv
  refine Replay.replay_induction _ _ (fun _ s => Reachables s.members) ?_ ?_ h.entries s hs
  · refine Reachables.insert ?_ ⟨h.genesis.rootAdmissionId, h.genesis.rootPublicKey, _⟩ o ho
    intro key x hx
    cases hx
  · intro as t u e _ ht ha
    obtain ⟨m, w, b, _, htrans, _, _, rfl⟩ := verifyEntry_ok cluster t u e ha
    exact transition_reachables cluster t w e m ht htrans

omit [Platform] in
theorem mem_values (v : VerifiedCluster) (member : ClusterMember) (h : member ∈ v.values) :
    ∃ key, v.members.lookup key = some member := by
  obtain ⟨⟨key, x⟩, hx, rfl⟩ := List.mem_map.mp (List.mem_reverse.mp h)
  exact ⟨key, AList.mem_lookup_iff.mpr hx⟩

variable (call : ApplyCluster) (v : VerifiedCluster)

def boundTo (id admissionId : String) (machines : List Machine) : ℕ :=
  machines.countP fun m => m.Bound id admissionId

def Rebound (m m' : Machine) : Prop :=
  m' = m ∨ ∃ a, call.sourceAdmission = some a ∧ call.sourceId = some m.id ∧ a ∈ v.members ∧
    (∀ c ∈ m.cluster, c.id = call.record.id) ∧ m' = { m with cluster := some ⟨call.record.id, a⟩ }

theorem bindSource_ok (m m' : Machine) (h : bindSource call v m = .ok m') : Rebound call v m m' := by
  unfold bindSource at h
  split at h
  · rename_i a ha
    split at h
    · rename_i hsource
      simp only [bind_eq_ok] at h
      obtain ⟨url, _, h⟩ := h
      split at h
      · simp only [bind_eq_ok] at h
        obtain ⟨member, _, origin, _, h⟩ := h
        split at h
        · rename_i hbind
          cases h
          exact .inr ⟨a, ha, hsource.1, hsource.2.2, hbind.2.1, rfl⟩
        · cases h
          exact .inl rfl
      · cases h
        exact .inl rfl
    · cases h
      exact .inl rfl
  · cases h
    exact .inl rfl

theorem bindSource_error (hv : Reachables v.members) (m : Machine) (e : Thrown)
    (h : bindSource call v m = .error e) :
    call.sourceId = some m.id ∧ Platform.parseUrl m.baseUrl = none := by
  unfold bindSource at h
  split at h
  · rename_i a ha
    split at h
    · rename_i hsource
      refine ⟨hsource.1, ?_⟩
      cases hurl : Platform.parseUrl m.baseUrl with
      | none => rfl
      | some url =>
        obtain ⟨member, hmember⟩ := Option.isSome_iff_exists.mp
          (AList.lookup_isSome.mpr hsource.2.2)
        obtain ⟨_, o, ho⟩ := hv a member hmember
        simp only [hurl, hmember, ho, require_some, ok_bind] at h
        split at h
        · split at h
          · cases h
          · cases h
        · cases h
    · cases h
  · cases h

omit [Platform] in
theorem mapM_ok {α β ε : Type} (f : α → Except ε β) (as : List α) (bs : List β)
    (h : as.mapM f = .ok bs) : List.Forall₂ (fun a b => f a = .ok b) as bs := by
  induction as generalizing bs with
  | nil =>
    cases h
    exact .nil
  | cons a as ih =>
    simp only [List.mapM_cons, bind_eq_ok, pure_eq_ok] at h
    obtain ⟨b, hb, rest, hrest, rfl⟩ := h
    exact .cons hb (ih rest hrest)

omit [Platform] in
theorem mapM_error {α β ε : Type} (f : α → Except ε β) (as : List α) (e : ε)
    (h : as.mapM f = .error e) : ∃ a ∈ as, f a = .error e := by
  induction as with
  | nil => cases h
  | cons a as ih =>
    rw [List.mapM_cons] at h
    cases ha : f a with
    | error e' =>
      rw [ha] at h
      cases h
      exact ⟨a, List.mem_cons_self, ha⟩
    | ok b =>
      rw [ha, ok_bind] at h
      cases hrest : as.mapM f with
      | error e' =>
        rw [hrest] at h
        cases h
        obtain ⟨x, hx, hfx⟩ := ih hrest
        exact ⟨x, List.mem_cons_of_mem a hx, hfx⟩
      | ok bs =>
        rw [hrest] at h
        cases h

def Discovered (m : Machine) : Prop :=
  ∃ member ∈ v.values, ∃ o, endpoint member.endpoint = .ok o ∧ m = discovered call member o

theorem discover_ok (next next' : List Machine) (member : ClusterMember)
    (h : discover call next member = .ok next') : next' = next ∨
      ∃ o, endpoint member.endpoint = .ok o ∧ next' = next ++ [discovered call member o] ∧
        boundTo call.record.id (hex member.admissionId) next = 0 := by
  simp only [discover, bind_eq_ok] at h
  obtain ⟨o, ho, h⟩ := h
  split at h
  · cases h
    exact .inl rfl
  · rename_i hnone
    cases h
    refine .inr ⟨o, ho, rfl, ?_⟩
    rw [boundTo, List.countP_eq_zero]
    intro m hm hb
    exact hnone ⟨m, hm, of_decide_eq_true hb⟩

theorem discovered_bound (member : ClusterMember) (o c a : String) :
    (discovered call member o).Bound c a ↔ c = call.record.id ∧ a = hex member.admissionId := by
  simp only [Machine.Bound, discovered, Option.some.injEq, Binding.mk.injEq]
  exact ⟨fun h => ⟨h.1.symm, h.2.symm⟩, fun h => ⟨h.1.symm, h.2.symm⟩⟩

theorem discover_all (members : List ClusterMember) (next next' : List Machine)
    (h : members.foldlM (discover call) next = .ok next') : ∃ added, next' = next ++ added ∧
      (∀ m ∈ added, ∃ member ∈ members, ∃ o, endpoint member.endpoint = .ok o ∧
        m = discovered call member o) ∧
      ∀ c a, boundTo c a next' ≤ max 1 (boundTo c a next) := by
  induction members generalizing next with
  | nil =>
    cases h
    refine ⟨[], (List.append_nil _).symm, ?_, fun c a => le_max_right _ _⟩
    intro m hm
    cases hm
  | cons member members ih =>
    rw [List.foldlM_cons, bind_eq_ok] at h
    obtain ⟨mid, hmid, h⟩ := h
    obtain ⟨added, rfl, hadded, hcount⟩ := ih mid h
    obtain rfl | ⟨o, ho, rfl, hzero⟩ := discover_ok call next mid member hmid
    · refine ⟨added, rfl, ?_, hcount⟩
      intro m hm
      obtain ⟨x, hx, hm⟩ := hadded m hm
      exact ⟨x, List.mem_cons_of_mem member hx, hm⟩
    · refine ⟨discovered call member o :: added, by simp, ?_, ?_⟩
      · intro m hm
        rcases List.mem_cons.mp hm with rfl | hm
        · exact ⟨member, List.mem_cons_self, o, ho, rfl⟩
        · obtain ⟨x, hx, hm⟩ := hadded m hm
          exact ⟨x, List.mem_cons_of_mem member hx, hm⟩
      · intro c a
        have hone : boundTo c a (next ++ [discovered call member o]) ≤ max 1 (boundTo c a next) := by
          by_cases hb : (discovered call member o).Bound c a
          · obtain ⟨rfl, rfl⟩ := (discovered_bound call member o c a).mp hb
            simp only [boundTo] at hzero
            simp only [boundTo, List.countP_append, hzero, List.countP_singleton]
            split <;> omega
          · simp [boundTo, hb]
        have hrest := hcount c a
        omega

theorem discover_all_ok (members : List ClusterMember)
    (hm : ∀ x ∈ members, ∃ o, endpoint x.endpoint = .ok o) (next : List Machine) :
    ∃ next', members.foldlM (discover call) next = .ok next' := by
  induction members generalizing next with
  | nil => exact ⟨next, rfl⟩
  | cons member members ih =>
    obtain ⟨o, ho⟩ := hm member List.mem_cons_self
    have hrest := ih fun x hx => hm x (List.mem_cons_of_mem member hx)
    simp only [List.foldlM_cons, discover, ho, ok_bind]
    split
    · exact hrest next
    · exact hrest _

def bindsTo (id admissionId : String) (m : Machine) : Bool :=
  match bindSource call v m with
  | .ok m' => ¬ m.Bound id admissionId ∧ m'.Bound id admissionId
  | .error _ => false

theorem boundTo_bind (c a : String) (before bound : List Machine)
    (h : List.Forall₂ (fun m m' => bindSource call v m = .ok m') before bound) :
    boundTo c a bound ≤ boundTo c a before + before.countP (bindsTo call v c a) := by
  induction h with
  | nil => exact Nat.zero_le _
  | @cons m m' before bound hm _ ih =>
    simp only [boundTo] at ih ⊢
    simp only [List.countP_cons, bindsTo, hm, decide_eq_true_eq]
    by_cases h1 : m.Bound c a <;> by_cases h2 : m'.Bound c a <;> simp [h1, h2] <;> omega

theorem nextMachines_ok (before after : List Machine) (h : nextMachines call v before = .ok after) :
    ∃ bound added, List.Forall₂ (fun m m' => bindSource call v m = .ok m') before bound ∧
      after = (bound.filter fun m => keeps call v m) ++ added ∧
      (∀ m ∈ added, authorized call v ∧ Discovered call v m) ∧
      ∀ c a, boundTo c a after ≤ max 1 (boundTo c a before + before.countP (bindsTo call v c a)) := by
  simp only [nextMachines, bind_eq_ok] at h
  obtain ⟨bound, hbound, h⟩ := h
  have hall := mapM_ok _ _ _ hbound
  have hcount : ∀ c a, boundTo c a (bound.filter fun m => keeps call v m) ≤
      boundTo c a before + before.countP (bindsTo call v c a) := by
    intro c a
    have hfilter : boundTo c a (bound.filter fun m => keeps call v m) ≤ boundTo c a bound :=
      List.filter_sublist.countP_le
    have hbind := boundTo_bind call v c a before bound hall
    omega
  split at h
  · rename_i hauth
    obtain ⟨added, rfl, hadded, hmax⟩ := discover_all call v.values _ after h
    refine ⟨bound, added, hall, rfl, fun m hm => ⟨hauth, hadded m hm⟩, ?_⟩
    intro c a
    have hc := hcount c a
    have hm := hmax c a
    omega
  · cases h
    refine ⟨bound, [], hall, (List.append_nil _).symm, ?_, ?_⟩
    · intro m hm
      cases hm
    · intro c a
      have hc := hcount c a
      omega

theorem nextMachines_error (hv : Reachables v.members) (before : List Machine) (e : Thrown)
    (h : nextMachines call v before = .error e) :
    ∃ m ∈ before, call.sourceId = some m.id ∧ Platform.parseUrl m.baseUrl = none := by
  unfold nextMachines at h
  cases hmap : before.mapM (bindSource call v) with
  | error e' =>
    obtain ⟨m, hm, he⟩ := mapM_error _ _ _ hmap
    exact ⟨m, hm, bindSource_error call v hv m e' he⟩
  | ok bound =>
    rw [hmap, ok_bind] at h
    split at h
    · obtain ⟨next, hnext⟩ := discover_all_ok call v.values (fun x hx => by
        obtain ⟨key, hkey⟩ := mem_values v x hx
        exact (hv key x hkey).2) (bound.filter fun m => keeps call v m)
      rw [hnext] at h
      cases h
    · cases h

def Untouched (m : Machine) : Prop :=
  match m.cluster with
  | some c => c.id ≠ call.record.id
  | none => call.sourceId ≠ some m.id

instance (m : Machine) : Decidable (Untouched call m) :=
  match h : m.cluster with
  | some c => decidable_of_iff (c.id ≠ call.record.id) (by simp only [Untouched, h])
  | none => decidable_of_iff (call.sourceId ≠ some m.id) (by simp only [Untouched, h])

def Machine.unbound (m : Machine) : Machine := { m with cluster := none }

structure Unchanged (before after : List Machine) : Prop where
  untouched : (after.filter fun m => Untouched call m) = before.filter fun m => Untouched call m
  kept : ∃ kept added, after = kept ++ added ∧
    (kept.map Machine.unbound).Sublist (before.map Machine.unbound) ∧
    ∀ m ∈ added, ¬ m.Paired ∧ ∃ a, m.Bound call.record.id a

theorem unchanged_refl (machines : List Machine) : Unchanged call machines machines := by
  refine ⟨rfl, machines, [], (List.append_nil _).symm, List.Sublist.refl _, ?_⟩
  intro m hm
  cases hm

theorem Rebound.unbound {m m' : Machine} (h : Rebound call v m m') : m'.unbound = m.unbound := by
  obtain rfl | ⟨a, _, _, _, _, rfl⟩ := h
  · rfl
  · rfl

theorem Rebound.untouched {m m' : Machine} (h : Rebound call v m m') :
    Untouched call m ∧ m' = m ∧ keeps call v m' ∨ ¬ Untouched call m ∧ ¬ Untouched call m' := by
  obtain rfl | ⟨a, _, hid, _, hc, rfl⟩ := h
  · by_cases hu : Untouched call m'
    · refine .inl ⟨hu, rfl, ?_⟩
      cases hm : m'.cluster with
      | none => simp only [keeps, hm]
      | some c =>
        simp only [Untouched, hm] at hu
        simp only [keeps, hm]
        exact .inl hu
    · exact .inr ⟨hu, hu⟩
  · refine .inr ⟨?_, ?_⟩
    · unfold Untouched
      split
      · rename_i c hm
        exact fun hne => hne (hc c hm)
      · exact fun hne => hne hid
    · simp only [Untouched, ne_eq, not_not]

theorem unchanged_filter (before bound : List Machine) (h : List.Forall₂ (Rebound call v) before bound) :
    ((bound.filter fun m => keeps call v m).filter fun m => Untouched call m) =
      before.filter fun m => Untouched call m := by
  induction h with
  | nil => rfl
  | @cons m m' before bound hm _ ih =>
    rw [List.filter_filter] at ih ⊢
    obtain ⟨hu, rfl, hk⟩ | ⟨hu, hu'⟩ := hm.untouched
    · simp [hu, hk, ih]
    · simp [hu, hu', ih]

theorem sublist_filter (before bound : List Machine) (h : List.Forall₂ (Rebound call v) before bound) :
    ((bound.filter fun m => keeps call v m).map Machine.unbound).Sublist
      (before.map Machine.unbound) := by
  have hsame : bound.map Machine.unbound = before.map Machine.unbound := by
    induction h with
    | nil => rfl
    | cons hm _ ih => rw [List.map_cons, List.map_cons, hm.unbound, ih]
  rw [← hsame]
  exact List.filter_sublist.map _

theorem nextMachines_unchanged (before after : List Machine)
    (h : nextMachines call v before = .ok after) : Unchanged call before after := by
  obtain ⟨bound, added, hall, rfl, hadded, _⟩ := nextMachines_ok call v before after h
  have hre : List.Forall₂ (Rebound call v) before bound := hall.imp fun m m' => bindSource_ok call v m m'
  constructor
  · have hnone : (added.filter fun m => Untouched call m) = [] := by
      rw [List.filter_eq_nil_iff]
      intro m hm
      obtain ⟨_, member, _, o, _, rfl⟩ := hadded m hm
      simp [Untouched, discovered]
    rw [List.filter_append, hnone, List.append_nil]
    exact unchanged_filter call v before bound hre
  · refine ⟨_, added, rfl, sublist_filter call v before bound hre, ?_⟩
    intro m hm
    obtain ⟨_, member, _, o, _, rfl⟩ := hadded m hm
    refine ⟨?_, _, rfl⟩
    intro hpaired
    obtain ⟨secret, hs, _⟩ := hpaired
    cases hs

theorem nextMachines_members (hv : Reachables v.members) (before after : List Machine)
    (h : nextMachines call v before = .ok after) (m : Machine) (hm : m ∈ after) (a : String)
    (hb : m.Bound call.record.id a) (hp : ¬ m.Paired) : authorized call v ∧ a ∈ v.members := by
  obtain ⟨bound, added, _, rfl, hadded, _⟩ := nextMachines_ok call v before after h
  rcases List.mem_append.mp hm with hm | hm
  · have hk : keeps call v m := of_decide_eq_true (List.mem_filter.mp hm).2
    rw [Machine.Bound] at hb
    simp only [keeps, hb] at hk
    obtain hk | hk | hk := hk
    · exact absurd rfl hk
    · exact hk
    · exact absurd hk hp
  · obtain ⟨hauth, member, hmember, o, _, rfl⟩ := hadded m hm
    obtain ⟨_, rfl⟩ := (discovered_bound call member o _ a).mp hb
    obtain ⟨key, hkey⟩ := mem_values v member hmember
    refine ⟨hauth, ?_⟩
    rw [← (hv key member hkey).1, ← AList.lookup_isSome, hkey]
    rfl

structure Session where
  store : MachineStore
  applied : List (ApplyCluster × VerifiedCluster)

def Session.apply (x : Session) (call : ApplyCluster) : Session :=
  match applyCluster call x.store with
  | (store, .applied v) => ⟨store, (call, v) :: x.applied⟩
  | (store, _) => ⟨store, x.applied⟩

def Session.latest (x : Session) (id : String) : Option (ApplyCluster × VerifiedCluster) :=
  x.applied.find? fun p => p.1.record.id = id

def Session.start (machines : List Machine) (selectedId : Option String) : Session :=
  ⟨⟨machines, selectedId, fun _ => none⟩, []⟩

def bindings (c a : String) (machines : List Machine) : ℕ :=
  match call.record.history with
  | some h =>
    match verifyHistory h none with
    | .ok v => machines.countP (bindsTo call v c a)
    | .error _ => 0
  | none => 0

/-- The sources that the call binds beside another machine. -/
def besideBindings (c a : String) (machines : List Machine) : ℕ :=
  if boundTo c a machines = 0 then bindings call c a machines - 1 else bindings call c a machines

def totalBindings (c a : String) (x : Session) : List ApplyCluster → ℕ
  | [] => 0
  | call :: calls => besideBindings call c a x.store.machines + totalBindings c a (x.apply call) calls

inductive CallResult (x : Session) : Session → Prop where
  | ignored : CallResult x x
  | thrown (heads : String → Option AppliedHead) (h : ClusterHistory) (v : VerifiedCluster)
      (hh : call.record.history = some h) (hv : verifyHistory h none = .ok v)
      (hfresh : ¬ stale call v x.store)
      (hheads : heads = Function.update x.store.appliedClusterHeads call.record.id
        (some ⟨v.head.sequence, hex v.head.entryHash⟩))
      (hsource : ∃ m ∈ x.store.machines, call.sourceId = some m.id ∧
        Platform.parseUrl m.baseUrl = none) :
      CallResult x ⟨⟨x.store.machines, x.store.selectedId, heads⟩, x.applied⟩
  | applied (heads : String → Option AppliedHead) (h : ClusterHistory) (v : VerifiedCluster)
      (next : List Machine) (hh : call.record.history = some h)
      (hv : verifyHistory h none = .ok v) (hfresh : ¬ stale call v x.store)
      (hheads : heads = Function.update x.store.appliedClusterHeads call.record.id
        (some ⟨v.head.sequence, hex v.head.entryHash⟩))
      (hnext : nextMachines call v x.store.machines = .ok next) :
      CallResult x ⟨⟨next, reselect next x.store.selectedId, heads⟩, (call, v) :: x.applied⟩

theorem apply_result (x : Session) : CallResult call x (x.apply call) := by
  unfold Session.apply applyCluster
  cases hh : call.record.history with
  | none => exact .ignored
  | some h =>
    cases hg : call.record.grantId with
    | none => exact .ignored
    | some g =>
      cases hv : verifyHistory h none with
      | error e =>
        simp only [hv]
        exact .ignored
      | ok v =>
        simp only [hv, update]
        by_cases hfresh : stale call v x.store
        · rw [if_pos hfresh]
          exact .ignored
        · rw [if_neg hfresh]
          cases hnext : nextMachines call v x.store.machines with
          | ok next => exact .applied _ h v next hh hv hfresh rfl hnext
          | error e =>
            exact .thrown _ h v hh hv hfresh rfl
              (nextMachines_error call v (verified_reachables h v hv) _ e hnext)

structure Session.Follows (x : Session) : Prop where
  heads : ∀ p ∈ x.applied, ∃ prior, x.store.appliedClusterHeads p.1.record.id = some prior ∧
    p.2.head.sequence ≤ prior.sequence
  verified : ∀ p ∈ x.applied, ∃ h ∈ p.1.record.history, verifyHistory h none = .ok p.2
  newest : ∀ c p, x.latest c = some p → ∀ q ∈ x.applied, q.1.record.id = c →
    q.2.head.sequence ≤ p.2.head.sequence
  members : ∀ c p, x.latest c = some p → ∀ m ∈ x.store.machines, ∀ a, m.Bound c a → ¬ m.Paired →
    authorized p.1 p.2 ∧ a ∈ p.2.members

theorem follows_start (machines : List Machine) (selectedId : Option String) :
    (Session.start machines selectedId).Follows := by
  refine ⟨?_, ?_, ?_, ?_⟩
  · intro p hp
    cases hp
  · intro p hp
    cases hp
  · intro c p hp
    cases hp
  · intro c p hp
    cases hp

theorem fresh_le {s : MachineStore} (hfresh : ¬ stale call v s) (prior : AppliedHead)
    (hprior : s.appliedClusterHeads call.record.id = some prior) :
    prior.sequence ≤ v.head.sequence := by
  by_contra hlt
  exact hfresh ⟨prior, hprior, .inl (not_le.mp hlt)⟩

theorem Session.Follows.heads_update {x : Session} (hx : x.Follows)
    (hfresh : ¬ stale call v x.store) (p : ApplyCluster × VerifiedCluster) (hp : p ∈ x.applied) :
    ∃ prior, Function.update x.store.appliedClusterHeads call.record.id
      (some ⟨v.head.sequence, hex v.head.entryHash⟩) p.1.record.id = some prior ∧
        p.2.head.sequence ≤ prior.sequence := by
  obtain ⟨prior, hprior, hle⟩ := hx.heads p hp
  by_cases hid : p.1.record.id = call.record.id
  · rw [hid] at hprior ⊢
    rw [Function.update_self]
    exact ⟨_, rfl, hle.trans (fresh_le call v hfresh prior hprior)⟩
  · rw [Function.update_of_ne hid]
    exact ⟨prior, hprior, hle⟩

theorem Session.Follows.apply {x : Session} (hx : x.Follows) : (x.apply call).Follows := by
  generalize hy : x.apply call = y
  have hresult := apply_result call x
  rw [hy] at hresult
  cases hresult with
  | ignored => exact hx
  | thrown heads h v hh hv hfresh hheads hsource =>
    subst hheads
    exact ⟨hx.heads_update call v hfresh, hx.verified, hx.newest, hx.members⟩
  | applied heads h v next hh hv hfresh hheads hnext =>
    subst hheads
    have hle : ∀ q ∈ x.applied, q.1.record.id = call.record.id →
        q.2.head.sequence ≤ v.head.sequence := by
      intro q hq hid
      obtain ⟨prior, hprior, hle⟩ := hx.heads q hq
      rw [hid] at hprior
      exact hle.trans (fresh_le call v hfresh prior hprior)
    refine ⟨?_, ?_, ?_, ?_⟩
    · intro p hp
      rcases List.mem_cons.mp hp with rfl | hp
      · exact ⟨_, Function.update_self _ _ _, le_rfl⟩
      · exact hx.heads_update call v hfresh p hp
    · intro p hp
      rcases List.mem_cons.mp hp with rfl | hp
      · exact ⟨h, hh, hv⟩
      · exact hx.verified p hp
    · intro c p hp q hq hid
      simp only [Session.latest, List.find?_cons] at hp
      split at hp
      · rename_i hc
        cases hp
        rcases List.mem_cons.mp hq with rfl | hq
        · exact le_rfl
        · exact hle q hq (hid.trans (of_decide_eq_true hc).symm)
      · rename_i hc
        rcases List.mem_cons.mp hq with rfl | hq
        · exact absurd hid (of_decide_eq_false hc)
        · exact hx.newest c p hp q hq hid
    · intro c p hp m hm a hb hpaired
      simp only [Session.latest, List.find?_cons] at hp
      split at hp
      · rename_i hc
        cases hp
        obtain rfl := of_decide_eq_true hc
        exact nextMachines_members call v (verified_reachables h v hv) _ next hnext m hm a hb hpaired
      · rename_i hc
        have hne : c ≠ call.record.id := fun hid => of_decide_eq_false hc hid.symm
        have huntouched : m ∈ next.filter fun m => Untouched call m := by
          refine List.mem_filter.mpr ⟨hm, decide_eq_true ?_⟩
          simp only [Untouched, Machine.Bound] at hb ⊢
          rw [hb]
          exact hne
        rw [(nextMachines_unchanged call v _ next hnext).untouched] at huntouched
        exact hx.members c p hp m (List.mem_filter.mp huntouched).1 a hb hpaired

theorem bindings_of_verified (c a : String) (h : ClusterHistory) (hh : call.record.history = some h)
    (hv : verifyHistory h none = .ok v) (machines : List Machine) :
    bindings call c a machines = machines.countP (bindsTo call v c a) := by
  simp only [bindings, hh, hv]

theorem boundTo_apply (c a : String) (x : Session) : boundTo c a (x.apply call).store.machines ≤
    max 1 (boundTo c a x.store.machines) + besideBindings call c a x.store.machines := by
  unfold besideBindings
  generalize hy : x.apply call = y
  have hresult := apply_result call x
  rw [hy] at hresult
  cases hresult with
  | ignored => omega
  | thrown heads h v hh hv hfresh hheads hsource =>
    dsimp only
    omega
  | applied heads h v next hh hv hfresh hheads hnext =>
    obtain ⟨_, _, _, _, _, hcount⟩ := nextMachines_ok call v _ next hnext
    have hca := hcount c a
    rw [bindings_of_verified call v c a h hh hv]
    dsimp only
    split <;> omega

theorem boundTo_run (c a : String) (calls : List ApplyCluster) (x : Session) :
    boundTo c a (calls.foldl Session.apply x).store.machines ≤
      max 1 (boundTo c a x.store.machines) + totalBindings c a x calls := by
  induction calls generalizing x with
  | nil =>
    simp only [List.foldl_nil, totalBindings]
    omega
  | cons call calls ih =>
    have hrest := ih (x.apply call)
    have hfirst := boundTo_apply call c a x
    simp only [List.foldl_cons, totalBindings]
    omega

theorem follows_run (calls : List ApplyCluster) (x : Session) (hx : x.Follows) :
    (calls.foldl Session.apply x).Follows := by
  induction calls generalizing x with
  | nil => exact hx
  | cons call calls ih => exact ih (x.apply call) (hx.apply call)

def Session.Selected (x : Session) : Prop :=
  ∀ id ∈ x.store.selectedId, id ≠ "" → ∃ m ∈ x.store.machines, m.id = id

omit [Platform] in
theorem reselect_of_mem (next : List Machine) (selectedId : Option String)
    (h : ∀ id ∈ selectedId, id ≠ "" → ∃ m ∈ next, m.id = id) : reselect next selectedId = selectedId := by
  cases selectedId with
  | none => rfl
  | some id => exact if_neg fun hno => hno.2 (h id rfl hno.1)

omit [Platform] in
theorem reselect_mem (next : List Machine) (selectedId : Option String) (id : String)
    (h : id ∈ reselect next selectedId) (hid : id ≠ "") : ∃ m ∈ next, m.id = id := by
  cases selectedId with
  | none => cases h
  | some old =>
    simp only [reselect] at h
    split at h
    · obtain ⟨m, hm, rfl⟩ := Option.mem_map.mp h
      exact ⟨m, List.mem_of_mem_head? hm, rfl⟩
    · rename_i hkeep
      cases h
      by_contra hno
      exact hkeep ⟨hid, hno⟩

theorem Session.Selected.apply {x : Session} (hx : x.Selected) : (x.apply call).Selected ∧
    (x.apply call).store.selectedId = reselect (x.apply call).store.machines x.store.selectedId := by
  generalize hy : x.apply call = y
  have hresult := apply_result call x
  rw [hy] at hresult
  cases hresult with
  | ignored | thrown heads h v hh hv hfresh hheads hsource =>
    exact ⟨hx, (reselect_of_mem _ _ hx).symm⟩
  | applied heads h v next hh hv hfresh hheads hnext => exact ⟨reselect_mem next _, rfl⟩

theorem selected_run (calls : List ApplyCluster) (x : Session) (hx : x.Selected) :
    (calls.foldl Session.apply x).Selected := by
  induction calls generalizing x with
  | nil => exact hx
  | cons call calls ih => exact ih (x.apply call) (hx.apply call).1

theorem apply_unchanged (x : Session) :
    Unchanged call x.store.machines (x.apply call).store.machines := by
  generalize hy : x.apply call = y
  have hresult := apply_result call x
  rw [hy] at hresult
  cases hresult with
  | ignored | thrown heads h v hh hv hfresh hheads hsource => exact unchanged_refl call _
  | applied heads h v next hh hv hfresh hheads hnext =>
    exact nextMachines_unchanged call v _ _ hnext

theorem Session.Follows.stale {x : Session} (hx : x.Follows) (h : ClusterHistory)
    (hh : call.record.history = some h) (hv : verifyHistory h none = .ok v)
    (q : ApplyCluster × VerifiedCluster) (hq : q ∈ x.applied)
    (hid : q.1.record.id = call.record.id) (hlt : v.head.sequence < q.2.head.sequence) :
    x.apply call = x := by
  have hstale : Web.stale call v x.store := by
    obtain ⟨prior, hprior, hle⟩ := hx.heads q hq
    rw [hid] at hprior
    exact ⟨prior, hprior, .inl (hlt.trans_le hle)⟩
  generalize hy : x.apply call = y
  have hresult := apply_result call x
  rw [hy] at hresult
  cases hresult with
  | ignored => rfl
  | thrown heads h' w hh' hv' hfresh hheads hsource
  | applied heads h' w next hh' hv' hfresh hheads hnext =>
    cases hh.symm.trans hh'
    cases hv.symm.trans hv'
    exact absurd hstale hfresh

/-- After any calls: an admission has one machine, but for those that were bound before and the
sources that a call has bound beside another one; a machine without a secret is a member by the
newest history; and a further call changes nothing when it is stale and leaves alone what is not
its own. -/
theorem machines_follow_histories (machines : List Machine) (selectedId : Option String)
    (calls : List ApplyCluster) :
    (∀ c a, boundTo c a (calls.foldl Session.apply (.start machines selectedId)).store.machines ≤
      max 1 (boundTo c a machines) + totalBindings c a (.start machines selectedId) calls) ∧
    (calls.foldl Session.apply (.start machines selectedId)).Follows ∧
    ((Session.start machines selectedId).Selected →
      (calls.foldl Session.apply (.start machines selectedId)).Selected) ∧
    ∀ x, x = calls.foldl Session.apply (.start machines selectedId) → ∀ call : ApplyCluster,
      (∀ h v, call.record.history = some h → verifyHistory h none = .ok v →
        ∀ q ∈ x.applied, q.1.record.id = call.record.id → v.head.sequence < q.2.head.sequence →
          x.apply call = x) ∧
      (∀ c a, boundTo c a (x.apply call).store.machines ≤
        max 1 (boundTo c a x.store.machines) + besideBindings call c a x.store.machines) ∧
      Unchanged call x.store.machines (x.apply call).store.machines ∧
      (x.Selected → (x.apply call).store.selectedId =
        reselect (x.apply call).store.machines x.store.selectedId) ∧
      CallResult call x (x.apply call) := by
  have hfollows := follows_run calls _ (follows_start machines selectedId)
  refine ⟨fun c a => boundTo_run c a calls _, hfollows, selected_run calls _, ?_⟩
  intro x hx call
  rw [← hx] at hfollows
  refine ⟨?_, fun c a => boundTo_apply call c a x, apply_unchanged call x,
    fun hs => (hs.apply call).2, apply_result call x⟩
  intro h v hh hv q hq hid hlt
  exact hfollows.stale call v h hh hv q hq hid hlt

end

abbrev machinePlatform : Platform :=
  { residuePlatform with
    parseUrl := fun t =>
      if t = "https://host" then
        some ⟨"https://host", "https", some "host", "", none, none, none, "/"⟩
      else residuePlatform.parseUrl t }

section
attribute [local instance] machinePlatform

def sampleShared : ClusterRecord where
  id := hex sampleGenesis.cluster.data
  privateKey := ⟨"private", false, "Ed25519", ["sign"], (3 : UInt8)⟩
  publicKey := (Fixed.fill 32 3).data
  history := some (sampleHistory sampleAdopted)
  grantId := some (Fixed.fill 32 70).data

def sampleMachine : Machine where
  id := "second"
  name := "Second"
  baseUrl := "https://host"
  clientSecret := some "secret"

def sampleCalls : List ApplyCluster :=
  [⟨sampleShared, none, none, 0⟩,
    ⟨sampleShared, some "second", some (hex (Fixed.fill 32 1).data), 0⟩]

theorem machines_follow_histories_sample : ∃ p,
    (sampleCalls.foldl Session.apply (.start [sampleMachine] none)).latest sampleShared.id = some p ∧
    ∀ m ∈ (sampleCalls.foldl Session.apply (.start [sampleMachine] none)).store.machines, ∀ a,
      m.Bound sampleShared.id a → ¬ m.Paired → authorized p.1 p.2 ∧ a ∈ p.2.members := by
  have hsome : ((sampleCalls.foldl Session.apply (.start [sampleMachine] none)).latest
      sampleShared.id).isSome := by decide +kernel
  obtain ⟨p, hp⟩ := Option.isSome_iff_exists.mp hsome
  exact ⟨p, hp, (machines_follow_histories [sampleMachine] none sampleCalls).2.1.members _ p hp⟩

theorem source_bound_beside_discovered :
    boundTo sampleShared.id (hex (Fixed.fill 32 1).data) [sampleMachine] = 0 ∧
      boundTo sampleShared.id (hex (Fixed.fill 32 1).data)
        (sampleCalls.foldl Session.apply (.start [sampleMachine] none)).store.machines = 2 := by
  decide +kernel

end
end Rieul.Web
