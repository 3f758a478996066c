import Rieul.Cluster.AdoptionRuns

/-!
# Acceptances in a journal

Where the grants of a state come from, and why a removed issuer's requests are
accepted no more.
-/

namespace Rieul.Cluster
open Bytes Fallible

section
variable [Platform]

omit [Platform] in
theorem loadRows_mem (cluster : Id) (rows : List Row) (es : List Entry)
    (h : loadRows cluster rows = .ok es) (e : Entry) (he : e ∈ es) :
    ∃ r ∈ rows, Mutation.load r.payload = .ok e.mutation := by
  induction rows generalizing es with
  | nil =>
    cases h
    exact absurd he List.not_mem_nil
  | cons r rows ih =>
    simp only [loadRows, bind_eq_ok, pure_eq_ok] at h
    obtain ⟨e', he', es', hes', rfl⟩ := h
    rcases List.mem_cons.mp he with rfl | he
    · simp only [Row.load, bind_eq_ok, pure_eq_ok] at he'
      obtain ⟨_, _, _, _, _, _, m, hm, _, _, rfl⟩ := he'
      exact ⟨r, List.mem_cons_self, hm⟩
    · obtain ⟨r', hr', hm⟩ := ih es' hes' he
      exact ⟨r', List.mem_cons_of_mem r hr', hm⟩

omit [Platform] in
theorem load_mem (t : Tables) (cluster : Id) (es : List Entry) (h : load t cluster = .ok es)
    (e : Entry) (he : e ∈ es) : ∃ r ∈ t.log, Mutation.load r.payload = .ok e.mutation := by
  simp only [load, bind_eq_ok, exists_unit_iff] at h
  exact loadRows_mem cluster t.log es h.2 e he

omit [Platform] in
theorem loadRows_of_mem (cluster : Id) (rows : List Row) (es : List Entry)
    (h : loadRows cluster rows = .ok es) (r : Row) (hr : r ∈ rows) (m : Mutation)
    (hm : Mutation.load r.payload = .ok m) : ∃ e ∈ es, e.mutation = m := by
  induction rows generalizing es with
  | nil => exact absurd hr List.not_mem_nil
  | cons r' rows ih =>
    simp only [loadRows, bind_eq_ok, pure_eq_ok] at h
    obtain ⟨e', he', es', hes', rfl⟩ := h
    rcases List.mem_cons.mp hr with rfl | hr
    · simp only [Row.load, bind_eq_ok, pure_eq_ok] at he'
      obtain ⟨_, _, _, _, _, _, m', hm', _, _, rfl⟩ := he'
      exact ⟨_, List.mem_cons_self, Except.ok.inj (hm'.symm.trans hm)⟩
    · obtain ⟨e, he, hem⟩ := ih es' hes' hr
      exact ⟨e, List.mem_cons_of_mem _ he, hem⟩

theorem grants_origin (g : Genesis) (es : List Entry) (s : State) (h : replay g es = .ok s)
    (grant : Id) (hg : grant ∈ s.grants) : ∃ e ∈ es, ∃ issuer, e.mutation.Adopts grant issuer := by
  revert hg
  refine Replay.replay_induction State.apply _ (fun es (s : State) => grant ∈ s.grants →
    ∃ e ∈ es, ∃ issuer, e.mutation.Adopts grant issuer) ?_ ?_ es s h
  · intro hg
    exact absurd hg (AList.notMem_empty grant)
  · intro as t u e _ ih ha hg
    have hold : grant ∈ t.grants → ∃ e' ∈ as ++ [e], ∃ issuer, e'.mutation.Adopts grant issuer := by
      intro hg
      obtain ⟨e', he', hadopts⟩ := ih hg
      exact ⟨e', List.mem_append_left _ he', hadopts⟩
    obtain ⟨_, v, hv, rfl⟩ := (State.apply_eq_ok t u e).mp ha
    cases hv with
    | admits | removes | transfers => exact hold hg
    | adopts grant' issuer client expires clientProof issuerProof issuerKey hm =>
      rcases AList.mem_insert _ |>.mp hg with rfl | hg
      · exact ⟨e, List.mem_append_right _ List.mem_cons_self, issuer, client, expires, clientProof,
          issuerProof, hm⟩
      · exact hold hg
    | revokes grant' hm =>
      obtain ⟨_, hg⟩ := AList.mem_erase.mp hg
      exact hold hg

theorem revoked_origin (g : Genesis) (es : List Entry) (s : State) (h : replay g es = .ok s)
    (grant : Id) (hg : grant ∈ s.revoked) : ∃ e ∈ es, e.mutation = .Revoke grant := by
  revert hg
  refine Replay.replay_induction State.apply _ (fun es (s : State) => grant ∈ s.revoked →
    ∃ e ∈ es, e.mutation = .Revoke grant) ?_ ?_ es s h
  · intro hg
    exact absurd hg (Finset.notMem_empty grant)
  · intro as t u e _ ih ha hg
    have hold : grant ∈ t.revoked → ∃ e' ∈ as ++ [e], e'.mutation = .Revoke grant := by
      intro hg
      obtain ⟨e', he', hrevokes⟩ := ih hg
      exact ⟨e', List.mem_append_left _ he', hrevokes⟩
    obtain ⟨_, v, hv, rfl⟩ := (State.apply_eq_ok t u e).mp ha
    cases hv with
    | admits | removes | adopts | transfers => exact hold hg
    | revokes grant' hm =>
      rcases Finset.mem_insert.mp hg with rfl | hg
      · exact ⟨e, List.mem_append_right _ List.mem_cons_self, hm⟩
      · exact hold hg

theorem journalState_origin (db : Database) (g : Genesis) (s : State)
    (h : journalState db g = .ok s) (grant : Id) :
    (grant ∈ s.grants → db.tables.Adopts grant) ∧ (grant ∈ s.revoked → db.tables.Revokes grant) := by
  simp only [journalState, bind_eq_ok, liftError_eq_ok] at h
  obtain ⟨es, hload, hreplay⟩ := h
  constructor
  · intro hg
    obtain ⟨e, he, issuer, hadopts⟩ := grants_origin g es s hreplay grant hg
    obtain ⟨r, hr, hm⟩ := load_mem db.tables g.cluster es hload e he
    exact ⟨r, hr, e.mutation, issuer, hm, hadopts⟩
  · intro hg
    obtain ⟨e, he, hrevokes⟩ := revoked_origin g es s hreplay grant hg
    obtain ⟨r, hr, hm⟩ := load_mem db.tables g.cluster es hload e he
    rw [hrevokes] at hm
    exact ⟨r, hr, hm⟩

theorem adopts_before (g : Genesis) (es es' : List Entry) (s s' : State) (issuer grant : Id)
    (hs : replay g es = .ok s) (hs' : replay g es' = .ok s') (hp : es <+: es')
    (ht : s.Tombstoned issuer) (e : Entry) (he : e ∈ es') (ha : e.mutation.Adopts grant issuer) :
    e ∈ es := by
  obtain ⟨more, rfl⟩ := hp
  rcases List.mem_append.mp he with he | he
  · exact he
  · obtain ⟨t, ht', hmore⟩ := (Replay.replay_append_eq_ok _ _ s' es more).mp hs'
    cases hs.symm.trans ht'
    obtain ⟨as, bs, rfl⟩ := List.append_of_mem he
    obtain ⟨u, v, hu, hv, _⟩ := Replay.replay_at State.apply s s' as bs e hmore
    have htu : u.Tombstoned issuer := Replay.replay_invariant State.apply
      (fun u => u.Tombstoned issuer) (fun _ _ _ h ha => h.apply ha) as s u ht hu
    obtain ⟨client, expires, clientProof, issuerProof, hm⟩ := ha
    obtain ⟨_, x, hx, _⟩ := (State.apply_eq_ok u v e).mp hv
    cases hx with
    | adopts grant' issuer' client' expires' clientProof' issuerProof' issuerKey hm' hissuer =>
      cases hm.symm.trans hm'
      exact absurd ((IdMap.mem_iff _ _).mpr ⟨issuerKey, hissuer⟩) htu.2
    | admits id key consent endpoint hm' | removes id hm' | revokes grant' hm'
    | transfers id key acceptance hm' => cases hm.symm.trans hm'

theorem Tables.Holds.adopts [LawfulPlatform] {t : Tables} {g : Genesis} {es : List Entry} {s : State}
    (h : t.Holds g es s) (grant : Id) :
    t.Adopts grant ↔ ∃ e ∈ es, ∃ issuer, e.mutation.Adopts grant issuer := by
  constructor
  · intro ha
    obtain ⟨r, hr, m, issuer, hm, hadopts⟩ := ha
    have hrows := h.load
    simp only [Cluster.load, bind_eq_ok, exists_unit_iff] at hrows
    obtain ⟨e, he, rfl⟩ := loadRows_of_mem g.cluster t.log es hrows.2 r hr m hm
    exact ⟨e, he, issuer, hadopts⟩
  · intro ha
    obtain ⟨e, he, issuer, hadopts⟩ := ha
    obtain ⟨r, hr, hm⟩ := load_mem t g.cluster es h.load e he
    exact ⟨r, hr, e.mutation, issuer, hm, hadopts⟩

theorem appendTransaction_adopts [LawfulPlatform] {n m : Node} {tx tx' : Database} {epoch : UInt64}
    {operation : Id} {mutation : Mutation} {e : Entry} {es : List Entry} {s : State}
    (hl : Life tx n es s) (hn : m = n)
    (h : appendTransaction m tx epoch operation mutation = .ok (e, tx')) (grant : Id)
    (ha : tx'.tables.Adopts grant) :
    tx.tables.Adopts grant ∨ ∃ issuer, mutation.Adopts grant issuer := by
  subst hn
  simp only [appendTransaction, bind_eq_ok, liftError_eq_ok, pure_eq_ok] at h
  obtain ⟨⟨e', t⟩, happ, heq⟩ := h
  cases heq
  obtain ⟨_, _, hcase⟩ := (append_eq_ok _ _ _ _ _ _ _ _ es s _ hl.holds).mp happ
  rcases hcase with ⟨_, _, rfl⟩ | happended
  · exact .inl ha
  · obtain ⟨u, _, hholds⟩ := hl.holds.of_append happended
    obtain ⟨b, hb, issuer, hadopts⟩ := (hholds.adopts grant).mp ha
    rcases List.mem_append.mp hb with hb | hb
    · exact .inl ((hl.holds.adopts grant).mpr ⟨b, hb, issuer, hadopts⟩)
    · rw [List.mem_singleton.mp hb, happended.signed] at hadopts
      exact .inr ⟨issuer, hadopts⟩

variable {ι : Type} [DecidableEq ι]

theorem Fleet.Step.life [LawfulPlatform] {w w' : Fleet ι} (h : w.Step w') {i : ι} {n : Node}
    {es : List Entry} {s : State} (hl : Life (w.node i) n es s) :
    (∃ n' es' s', Life (w'.node i) n' es' s' ∧ n'.g = n.g ∧ n'.admission = n.admission) ∨
      s.Tombstoned n.admission := by
  cases h with
  | start j operation wire target endpoint now random old db m htarget hold hop hinit hm hfresh =>
    by_cases hj : i = j
    · subst hj
      right
      cases hold.symm.trans hl.loaded
      have hroot : ∀ g, target = some g → validateEndpoint g.rootEndpoint = .ok () := by
        intro g hg
        subst hg
        exact readTarget_root htarget
      obtain ⟨_, _, hcase⟩ :=
        initializeNode_begins _ db _ operation target endpoint now random hold hop hroot hinit
      rcases hcase with ⟨hnone, _⟩ | ⟨o, ho, hphase, _⟩
      · cases hnone
      · cases ho
        exact hl.removed hphase
    · left
      refine ⟨n, es, s, ?_, rfl, rfl⟩
      simp only [Function.update_of_ne hj]
      exact hl
  | read j =>
    left
    refine ⟨n, es, s, ?_, rfl, rfl⟩
    by_cases hj : i = j
    · subst hj
      simp only [Function.update_self]
      exact hl.opens
    · simp only [Function.update_of_ne hj]
      exact hl
  | call j c now m before db hopen hg hrun =>
    left
    by_cases hj : i = j
    · subst hj
      have ho := hl.opens
      cases ho.opened hopen
      have hself : Snapshot n es (n, s) :=
        ⟨rfl, ho.member, fun _ => ⟨id, es, List.prefix_rfl, ho.holds.replayed⟩⟩
      obtain ⟨n', es', s', hl', hc⟩ := ho.ran hself (fun _ => rfl) (c.run_ran hrun)
      refine ⟨n', es', s', ?_, hc.g, hc.admission⟩
      simp only [Function.update_self]
      exact hl'
    · refine ⟨n, es, s, ?_, rfl, rfl⟩
      simp only [Function.update_of_ne hj]
      exact hl

theorem Fleet.Called.revokes [LawfulPlatform] {w w' : Fleet ι} {i : ι} {auth : Authorized}
    {operation : Str} {epoch : Int64} {revoked : Str} {n : Node} {es : List Entry} {s : State}
    (hl : Life (w.node i) n es s) (h : w.Called i (.revokeGrant auth operation epoch revoked) w')
    (grant : Id) (ha : (w'.node i).tables.Adopts grant) : (w.node i).tables.Adopts grant := by
  obtain ⟨now, m, before, db, hopen, _, hrun, rfl⟩ := h
  have ho := hl.opens
  cases ho.opened hopen
  simp only [Function.update_self] at ha
  simp only [Call.run, map_eq_ok, revokeClusterClientGrant, commitAuthorized, bind_eq_ok] at hrun
  obtain ⟨⟨e, t⟩, ⟨_, _, _, _, _, _, _, _, _, _, happ⟩, rfl⟩ := hrun
  have hold : ∀ grant, (openDatabase (w.node i)).tables.Adopts grant →
      (w.node i).tables.Adopts grant := by
    intro grant h
    rw [openDatabase_of _ n hl.loaded] at h
    exact h
  rcases appendTransaction_adopts ho rfl happ grant ha with ha | ⟨issuer, _, _, _, _, hm⟩
  · exact hold grant ha
  · cases hm

/-- `get` accepts at most the grant of its intent. -/
theorem Fleet.Called.adopts [LawfulPlatform] {w w' : Fleet ι} {i : ι} {epoch : UInt64}
    {operation : Id} {intent : ClusterPairingIntent} {n : Node} {es : List Entry} {s : State}
    (hl : Life (w.node i) n es s) (h : w.Called i (.getAdoption epoch operation intent) w')
    (grant : Id) (ha : (w'.node i).tables.Adopts grant) :
    (w.node i).tables.Adopts grant ∨ grant.data = intent.challenge.grantId := by
  obtain ⟨now, m, before, db, hopen, _, hrun, rfl⟩ := h
  have ho := hl.opens
  cases ho.opened hopen
  simp only [Function.update_self] at ha
  have hold : ∀ grant, (openDatabase (w.node i)).tables.Adopts grant →
      (w.node i).tables.Adopts grant := by
    intro grant h
    rw [openDatabase_of _ n hl.loaded] at h
    exact h
  simp only [Call.run, Cluster.getAdoption, bind_eq_ok] at hrun
  obtain ⟨_, _, hrun⟩ := hrun
  split at hrun
  · cases hrun
    exact .inl (hold grant ha)
  split at hrun
  · cases hrun
    exact .inl (hold grant ha)
  simp only [bind_eq_ok] at hrun
  obtain ⟨_, _, hrun⟩ := hrun
  split at hrun
  · cases hrun
    exact .inl (hold grant ha)
  split at hrun
  · simp only [bind_eq_ok, pure_eq_ok] at hrun
    obtain ⟨mutation, hmut, ⟨e, t⟩, happ, rfl⟩ := hrun
    rcases appendTransaction_adopts ho rfl happ grant ha with ha | ⟨issuer, _, _, _, _, hm⟩
    · exact .inl (hold grant ha)
    · right
      simp only [adoptionMutation, bind_eq_ok, pure_eq_ok] at hmut
      obtain ⟨g, hg, _, _, _, _, _, _, _, _, _, _, rfl⟩ := hmut
      cases hm
      simp only [readId, require_eq_ok] at hg
      exact (Fixed.ofStr_eq_some.mp hg).symm
  · cases hrun
    exact .inl (hold grant ha)

end
end Rieul.Cluster
