import Rieul.Cluster.Transport
import Rieul.Cluster.Handoff

/-!
# Removal proofs (daemon/host/src/cluster/primary/runtime.rs)

A node that was removed may no longer read the history. It is given the prefix that
ends with its removal, and installs it as it would any longer journal.
-/

namespace Rieul.Cluster
open Bytes Fallible

section
variable [Platform]

def RemovedMember (g : Genesis) (es : List Entry) (admission key : Id) : Prop :=
  ∃ as bs s, es = as ++ bs ∧ replay g as = .ok s ∧ s.members.lookup admission = some key ∧
    ∃ e ∈ bs, e.mutation = .Remove admission

/-- `e` is the first entry of `es` that removes the admission, and `as` is before it. -/
structure FirstRemoval (es : List Entry) (admission : Id) (as : List Entry) (e : Entry) : Prop where
  journal : as ++ [e] <+: es
  removal : e.mutation = .Remove admission
  first : ∀ a ∈ as, a.mutation ≠ .Remove admission

/-- `apply_removal_proof`, from the opening of the database. -/
def proofOutcome (db : Database) (proof : ClusterHistory) (now : Int64) :
    Except RuntimeError Database := do
  let (n, before) ← opened (openDatabase db)
  applyRemovalProof n before (openDatabase db) proof now

def afterProof (db : Database) (proof : ClusterHistory) (now : Int64) : Database :=
  (proofOutcome db proof now).toOption.getD (openDatabase db)

omit [Platform] in
theorem removes_eq_true (admission : Id) (e : Entry) :
    removes admission e = true ↔ e.mutation = .Remove admission := by
  unfold removes
  split
  · rename_i id hm
    simp [hm]
  · rename_i hm
    exact ⟨fun h => absurd h Bool.false_ne_true, fun h => (hm _ h).elim⟩

omit [Platform] in
theorem findIdx_removes (es : List Entry) (admission : Id) (i : ℕ) :
    es.findIdx? (removes admission) = some i ↔
      ∃ e, FirstRemoval es admission (es.take i) e ∧ es.take (i + 1) = es.take i ++ [e] ∧
        i < es.length := by
  rw [List.findIdx?_eq_some_iff_getElem]
  constructor
  · rintro ⟨hi, hremoves, hfirst⟩
    have htake := List.take_succ_eq_append_getElem hi
    refine ⟨es[i], ⟨htake ▸ List.take_prefix _ _, (removes_eq_true _ _).mp hremoves, ?_⟩, htake, hi⟩
    intro a ha hm
    obtain ⟨j, hj, rfl⟩ := List.getElem_of_mem ha
    rw [List.length_take] at hj
    rw [List.getElem_take] at hm
    exact hfirst j (by omega) ((removes_eq_true _ _).mpr hm)
  · rintro ⟨e, ⟨-, hm, hfirst⟩, htake, hi⟩
    have hget : es[i] = e := by
      rw [List.take_succ_eq_append_getElem hi] at htake
      exact List.singleton_inj.mp (List.append_cancel_left htake)
    refine ⟨hi, (removes_eq_true _ _).mpr (hget ▸ hm), fun j hj hremoves => ?_⟩
    refine hfirst es[j] ?_ ((removes_eq_true _ _).mp hremoves)
    rw [← List.getElem_take (j := i) (h := by rw [List.length_take]; omega)]
    exact List.getElem_mem _

variable [LawfulPlatform]

theorem removalProof_iff {tx : Tables} {g : Genesis} {es : List Entry} {s : State}
    (hold : tx.Holds g es s) (admission key : Id) (proof : ClusterHistory) :
    removalProof tx g admission key = .ok proof ↔
      ∃ as e t u, FirstRemoval es admission as e ∧ replay g as = .ok t ∧
        t.members.lookup admission = some key ∧ replay g (as ++ [e]) = .ok u ∧
        proof = wireHistory g (as ++ [e]) u := by
  simp only [removalProof, bind_eq_ok, liftError_eq_ok, hold.load, Except.ok.injEq, exists_eq_left',
    require_eq_ok, findIdx_removes, exists_unit_iff, ensure_eq_ok, pure_eq_ok]
  constructor
  · rintro ⟨i, ⟨e, hfirst, htake, -⟩, t, ht, hkey, u, hu, rfl⟩
    rw [htake] at hu ⊢
    exact ⟨es.take i, e, t, u, hfirst, ht, hkey, hu, rfl⟩
  · rintro ⟨as, e, t, u, hfirst, ht, hkey, hu, rfl⟩
    obtain ⟨bs, rfl⟩ := hfirst.journal
    have htake : (as ++ [e] ++ bs).take as.length = as := by
      rw [List.append_assoc, List.take_left]
    have htake' : (as ++ [e] ++ bs).take (as.length + 1) = as ++ [e] :=
      List.take_left' (by simp)
    refine ⟨as.length, ⟨e, ?_, ?_, ?_⟩, t, ?_, hkey, u, ?_, ?_⟩
    · rw [htake]
      exact hfirst
    · rw [htake, htake']
    · simp
    · rw [htake]
      exact ht
    · rw [htake']
      exact hu
    · rw [htake']

omit [LawfulPlatform] in
theorem not_member_of_mem (g : Genesis) (es : List Entry) (s : State) (h : replay g es = .ok s)
    {admission : Id} {e : Entry} (he : e ∈ es) (hm : e.mutation = .Remove admission) :
    s.members.lookup admission = none := by
  have htomb := (tombstoned_of_mem g es s h e he admission hm).2
  rw [IdMap.mem_iff] at htomb
  exact Option.eq_none_iff_forall_ne_some.mpr fun key hkey => htomb ⟨key, hkey⟩

omit [LawfulPlatform] in
theorem member_kept (g : Genesis) (as cs : List Entry) (t v : State) {admission key : Id}
    (ht : replay g as = .ok t) (hv : replay g (as ++ cs) = .ok v)
    (hkey : t.members.lookup admission = some key)
    (hcs : ∀ c ∈ cs, c.mutation ≠ .Remove admission) : v.members.lookup admission = some key := by
  induction cs generalizing as t with
  | nil =>
    rw [List.append_nil] at hv
    cases ht.symm.trans hv
    exact hkey
  | cons c cs ih =>
    rw [List.append_cons] at hv
    obtain ⟨u, hu⟩ := Replay.replay_prefix State.apply _ v _ _ (List.prefix_append _ cs) hv
    obtain ⟨t', ht', hc⟩ := (Replay.replay_snoc_eq_ok _ _ u as c).mp hu
    cases ht.symm.trans ht'
    refine ih (as ++ [c]) u hu hv ?_ fun d hd => hcs d (List.mem_cons_of_mem c hd)
    rcases State.member_apply (replay_wellFormed g as t ht) hkey hc with hmember | ⟨hremove, -⟩
    · exact hmember
    · exact absurd hremove (hcs c List.mem_cons_self)

theorem removalProof_exists_iff {tx : Tables} {g : Genesis} {es : List Entry} {s : State}
    (hold : tx.Holds g es s) (admission key : Id) :
    (∃ proof, removalProof tx g admission key = .ok proof) ↔ RemovedMember g es admission key := by
  constructor
  · rintro ⟨proof, hproof⟩
    obtain ⟨as, e, t, u, ⟨⟨bs, rfl⟩, hm, -⟩, ht, hkey, -, -⟩ :=
      (removalProof_iff hold admission key proof).mp hproof
    refine ⟨as, [e] ++ bs, t, List.append_assoc as [e] bs, ht, hkey, e, by simp, hm⟩
  · rintro ⟨as, bs, t, rfl, ht, hkey, e, he, hm⟩
    obtain ⟨i, hi⟩ : ∃ i, (as ++ bs).findIdx? (removes admission) = some i := by
      refine Option.ne_none_iff_exists'.mp fun hnone => ?_
      rw [List.findIdx?_eq_none_iff] at hnone
      have hremoves := hnone e (List.mem_append_right as he)
      rw [(removes_eq_true admission e).mpr hm] at hremoves
      cases hremoves
    obtain ⟨d, hfirst, htake, hlt⟩ := (findIdx_removes _ _ _).mp hi
    -- the removal is behind the membership, which it ends
    have hle : as.length ≤ i := by
      by_contra hlt'
      have hd : d ∈ as := by
        have hpre : (as ++ bs).take (i + 1) <+: as := by
          rw [List.take_append_of_le_length (by omega)]
          exact List.take_prefix _ _
        rw [htake] at hpre
        exact hpre.subset (by simp)
      have hgone := not_member_of_mem g as t ht hd hfirst.removal
      rw [hkey] at hgone
      cases hgone
    obtain ⟨cs, hcs⟩ : as <+: (as ++ bs).take i :=
      List.prefix_of_prefix_length_le (List.prefix_append as bs) (List.take_prefix i _)
        (by rw [List.length_take]; omega)
    obtain ⟨v, hv⟩ := Replay.replay_prefix State.apply _ s _ _ (List.take_prefix i _) hold.replayed
    obtain ⟨u, hu⟩ := Replay.replay_prefix State.apply _ s _ _ hfirst.journal hold.replayed
    have hmember : v.members.lookup admission = some key := by
      refine member_kept g as cs t v ht (hcs ▸ hv) hkey fun c hc => hfirst.first c ?_
      rw [← hcs]
      exact List.mem_append_right as hc
    exact ⟨_, (removalProof_iff hold admission key _).mpr
      ⟨_, d, v, u, hfirst, hv, hmember, hu, rfl⟩⟩

omit [LawfulPlatform] in
theorem genesis_wire_eq {g g' : Genesis} (h : genesis (wireGenesis g) = .ok g') : g' = g := by
  simp only [genesis, wireGenesis, readId, Fixed.ofStr_data, bind_eq_ok, require_eq_ok,
    exists_unit_iff, pure_eq_ok, Option.some.injEq, exists_eq_left'] at h
  exact h.2.symm

theorem decodedHistory_wire_eq {g g' : Genesis} {es entries : List Entry} {s : State}
    (hs : replay g es = .ok s) (h : decodedHistory (wireHistory g es s) g' = .ok entries) :
    g' = g ∧ entries = es := by
  obtain ⟨-, hg, hread, -⟩ := decodedHistory_ok _ _ _ h
  have hes := readEntries_map es fun e he => replay_entry_wire g es s hs e he
  exact ⟨genesis_wire_eq hg, Except.ok.inj (hread.symm.trans hes)⟩

theorem applyRemovalProof_node {g : Genesis} {as : List Entry} {e : Entry} {t u : State}
    {admission key : Id} (hm : e.mutation = .Remove admission) (ht : replay g as = .ok t)
    (hkey : t.members.lookup admission = some key) (hu : replay g (as ++ [e]) = .ok u) {n : Node}
    {before : State} {tx tx' : Database} {now : Int64}
    (h : applyRemovalProof n before tx (wireHistory g (as ++ [e]) u) now = .ok tx') :
    n.g = g ∧ n.admission = admission ∧ n.key = key := by
  simp only [applyRemovalProof, bind_eq_ok, exists_unit_iff, require_eq_ok, ensure_eq_ok,
    liftError_eq_ok] at h
  obtain ⟨entries, hdec, last, hlast, hremoved, earlier, hearlier, hlookup, -⟩ := h
  obtain ⟨hg, rfl⟩ := decodedHistory_wire_eq hu hdec
  rw [List.getLast?_concat, Option.some.injEq] at hlast
  rw [List.dropLast_concat, hg, ht, Except.ok.injEq] at hearlier
  rw [← hlast, hm, Mutation.Remove.injEq] at hremoved
  rw [← hearlier, ← hremoved, hkey, Option.some.injEq] at hlookup
  exact ⟨hg, hremoved.symm, hlookup.symm⟩

omit [LawfulPlatform] in
theorem Life.checkIdentity_opens {db : Database} {n : Node} {es : List Entry} {s : State}
    (h : Life db n es s) : checkIdentity (openDatabase db).tables n.g n.key = .ok () := by
  have hopens := h.opens.identity
  rw [openDatabase_of db n h.loaded] at hopens ⊢
  have hown := hopens _ rfl
  simp only [checkIdentity, createIdentity, bind_eq_ok, require_eq_ok, ensure_eq_ok,
    Option.some.injEq, exists_eq_left']
  exact hown

theorem proofOutcome_iff {db : Database} {n : Node} {own : List Entry} {s₀ : State}
    (h : Life db n own s₀) {as : List Entry} {e : Entry} {t u : State}
    (hm : e.mutation = .Remove n.admission) (ht : replay n.g as = .ok t)
    (hkey : t.members.lookup n.admission = some n.key) (hu : replay n.g (as ++ [e]) = .ok u)
    (hlen : (as ++ [e]).length ≤ maxHistory) (now : Int64) (db' : Database) :
    proofOutcome db (wireHistory n.g (as ++ [e]) u) now = .ok db' ↔
      n.phase ≠ .joining ∧ ∃ tables,
        install (openDatabase db).tables n.g n.key (as ++ [e]) = .ok tables ∧
          db' = setPhase { openDatabase db with tables := tables } .removed := by
  have hdecoded := decodedHistory_wireHistory n.g (as ++ [e]) u (loadNode_root db n h.loaded) hlen hu
  have hcurrent := (currentNode_eq_ok (openDatabase db) n).mpr h.opens.loaded
  have hlast : e ∈ as ++ [e] := by simp
  have htomb := tombstoned_of_mem n.g (as ++ [e]) u hu e hlast n.admission hm
  have hgone := not_member_of_mem n.g (as ++ [e]) u hu hlast hm
  have hprimary : u.primary ≠ n.admission := by
    intro heq
    have hmember := (replay_wellFormed n.g (as ++ [e]) u hu).primary_member
    rw [heq] at hmember
    exact htomb.2 hmember
  have hphase : importedPhase n n.key n.admission u = .removed := by
    simp [importedPhase, hgone, htomb.1, htomb.2]
  simp only [proofOutcome, h.opens.opened_eq h.checkIdentity_opens, applyRemovalProof, hdecoded,
    List.getLast?_concat, List.dropLast_concat, hm, ht, hkey, importHistory, hu, checkMember_none,
    hcurrent, authorizeExternal, hphase, bind_eq_ok, exists_unit_iff, ensure_eq_ok, liftError_eq_ok,
    require_eq_ok, Except.ok.injEq, exists_eq_left', pure_eq_ok, Option.some.injEq,
    checkFinish_none, checkActivation_none, hprimary]
  simp [eq_comm]

def Retires (db : Database) (n : Node) (proof : ClusterHistory) (now : Int64) : Prop :=
  loadNode (afterProof db proof now) = .ok (some { n with phase := .removed })

def Refused (db : Database) (proof : ClusterHistory) (now : Int64) : Prop :=
  (∃ error, proofOutcome db proof now = .error error) ∧ afterProof db proof now = openDatabase db

omit [LawfulPlatform] in
theorem refused_of_not_ok {db : Database} {proof : ClusterHistory} {now : Int64}
    (h : ∀ db', proofOutcome db proof now ≠ .ok db') : Refused db proof now := by
  unfold Refused afterProof
  cases ho : proofOutcome db proof now with
  | ok db' => exact absurd ho (h db')
  | error error => exact ⟨⟨error, rfl⟩, rfl⟩

theorem refused_of_other {g : Genesis} {as : List Entry} {e : Entry} {t u : State}
    {admission key : Id} (hm : e.mutation = .Remove admission) (ht : replay g as = .ok t)
    (hkey : t.members.lookup admission = some key) (hu : replay g (as ++ [e]) = .ok u)
    {db : Database} {n : Node} (hn : loadNode db = .ok (some n)) (now : Int64)
    (hother : ¬ (n.g = g ∧ n.admission = admission ∧ n.key = key)) :
    Refused db (wireHistory g (as ++ [e]) u) now := by
  refine refused_of_not_ok fun db' ho => hother ?_
  simp only [proofOutcome, bind_eq_ok] at ho
  obtain ⟨q, hq, ho⟩ := ho
  have hnode : q.1 = n := by
    simp only [opened, bind_eq_ok, require_eq_ok, pure_eq_ok, loadNode_openDatabase, hn,
      Except.ok.injEq, exists_eq_left', Option.some.injEq] at hq
    obtain ⟨_, -, rfl⟩ := hq
    rfl
  rw [← hnode]
  exact applyRemovalProof_node hm ht hkey hu ho

section
variable {db : Database} {n : Node} {own : List Entry} {s₀ : State} (h : Life db n own s₀)
  {as : List Entry} {e : Entry} {t u : State} (hm : e.mutation = .Remove n.admission)
  (ht : replay n.g as = .ok t) (hkey : t.members.lookup n.admission = some n.key)
  (hu : replay n.g (as ++ [e]) = .ok u) (hlen : (as ++ [e]).length ≤ maxHistory)
include db n own s₀ h as e t u hm ht hkey hu hlen

/-- The node installs the proof when its journal ends before the removal and it has accepted the
transfers to its key that it lacks. -/
theorem installs_proof (hsize : size (as ++ [e]) ≤ maxSize) (now : Int64)
    (hphase : n.phase ≠ .joining) (hown : own <+: as ++ [e])
    (hreceipts : ∀ a ∈ (as ++ [e]).drop own.length, Receipt db.tables.prepared n.key a) :
    Retires db n (wireHistory n.g (as ++ [e]) u) now := by
  have hinstall := install_eq_ok (openDatabase db).tables
    ((openDatabase db).tables.installed n.key (as ++ [e]) ((as ++ [e]).drop own.length)) n.g n.key
    own (as ++ [e]) s₀ h.opens.holds
  have hprepared : (openDatabase db).tables.prepared = db.tables.prepared := by
    rw [openDatabase_of db n h.loaded]
    rfl
  rw [hprepared] at hinstall
  have hok := (proofOutcome_iff h hm ht hkey hu hlen now _).mpr ⟨hphase, _, hinstall.mpr
    ⟨h.checkIdentity_opens, hlen, hown, hsize, ⟨u, hu⟩, hreceipts, rfl⟩, rfl⟩
  rw [Retires, afterProof, hok]
  exact loadNode_setPhase _ n .removed h.opens.loaded

theorem retired_stays (hremoved : n.phase = .removed) (now : Int64) :
    Retires db n (wireHistory n.g (as ++ [e]) u) now := by
  have houtcome := proofOutcome_iff h hm ht hkey hu hlen now
  unfold Retires afterProof
  cases ho : proofOutcome db (wireHistory n.g (as ++ [e]) u) now with
  | error error =>
    have hn : { n with phase := Phase.removed } = n := by
      rw [← hremoved]
    rw [hn]
    exact h.opens.loaded
  | ok db' =>
    obtain ⟨-, tables, -, rfl⟩ := (houtcome db').mp ho
    exact loadNode_setPhase _ n .removed h.opens.loaded

end

omit [LawfulPlatform] in
theorem own_prefix {db : Database} {n : Node} {own : List Entry} {s₀ : State}
    (h : Life db n own s₀) (hmember : n.phase = .member) {as cs : List Entry} {e : Entry}
    (hm : e.mutation = .Remove n.admission) (hown : own <+: cs) (hjournal : as ++ [e] <+: cs) :
    own <+: as ++ [e] := by
  by_contra hnot
  have hle : as ++ [e] <+: own := by
    rcases List.prefix_or_prefix_of_prefix hown hjournal with hp | hp
    · exact absurd hp hnot
    · exact hp
  have hgone := not_member_of_mem n.g own s₀ h.holds.replayed (hle.subset (by simp)) hm
  rw [h.member hmember] at hgone
  cases hgone

variable {ι : Type} [DecidableEq ι] {w : Fleet ι} {chain : Genesis → List Entry}

omit [Platform] [LawfulPlatform] in
theorem receipt_of_not_activates {prepared : List Prepared} {key : Id} {a : Entry}
    (h : a.activates key = false) : Receipt prepared key a := by
  intro id sequence head acceptance hm
  simp [Entry.activates, hm] at h

omit [DecidableEq ι] in
theorem Fleet.Inv.no_transfer (hw : w.Inv chain) {i : ι} {n : Node} {own : List Entry} {s₀ : State}
    (h : Life (w.node i) n own s₀) (hmember : n.phase = .member) {as : List Entry} {e : Entry}
    (hm : e.mutation = .Remove n.admission) (hfirst : ∀ a ∈ as, a.mutation ≠ .Remove n.admission)
    (hjournal : as ++ [e] <+: chain n.g) (hown : own <+: as ++ [e]) :
    ∀ a ∈ (as ++ [e]).drop own.length, a.activates n.key = false := by
  obtain ⟨rest, hrest⟩ := hown
  intro a ha
  rw [← hrest, List.drop_left] at ha
  obtain ⟨xs, ys, rfl⟩ := List.append_of_mem ha
  by_contra hact
  obtain ⟨id, sequence, head, acceptance, htransfer⟩ :
      ∃ id sequence head acceptance, a.mutation = .Transfer id n.key sequence head acceptance := by
    unfold Entry.activates at hact
    split at hact
    · rename_i id key sequence head acceptance heq
      simp only [Bool.not_eq_false, decide_eq_true_eq] at hact
      exact ⟨id, sequence, head, acceptance, hact ▸ heq⟩
    · simp at hact
  have hsplit : as ++ [e] = (own ++ xs ++ [a]) ++ ys := by simp [← hrest]
  -- the transfer is not the last entry, which removes
  have hstrict : own ++ xs ++ [a] <+: as := by
    rcases List.eq_nil_or_concat ys with rfl | ⟨zs, z, rfl⟩
    · rw [List.append_nil] at hsplit
      have hlast := List.append_inj_right' hsplit rfl
      rw [List.singleton_inj.mp hlast, htransfer] at hm
      cases hm
    · rw [List.concat_eq_append, ← List.append_assoc] at hsplit
      rw [List.append_inj_left' hsplit rfl]
      exact List.prefix_append _ _
  have hchain : own ++ xs ++ [a] <+: chain n.g :=
    (hstrict.trans (List.prefix_append as [e])).trans hjournal
  have hne : own ++ xs ++ [a] ≠ chain n.g := by
    intro heq
    have hlen := hjournal.length_le
    have hlt := hstrict.length_le
    rw [← heq, List.length_append, List.length_singleton] at hlen
    omega
  obtain ⟨v, hv⟩ := hw.replays n.g
  obtain ⟨t', ht'⟩ := Replay.replay_prefix State.apply _ v _ _ hchain hv
  have hprimary := primary_of_transfer n.g (own ++ xs) a t' ht' htransfer
  obtain ⟨t, ht, happly⟩ := (Replay.replay_snoc_eq_ok _ _ t' (own ++ xs) a).mp ht'
  have hstill : t.members.lookup n.admission = some n.key := by
    refine member_kept n.g own xs s₀ t h.holds.replayed ht (h.member hmember) fun x hx => ?_
    exact hfirst x (hstrict.subset (by simp [hx]))
  have hid : id = n.admission := by
    obtain ⟨-, u, hu, -⟩ := (State.apply_eq_ok t t' a).mp happly
    cases hu with
    | transfers id' key' acceptance' heq hne' hlookup =>
      cases heq.symm.trans htransfer
      exact (replay_wellFormed n.g _ t ht).keys_inj _ _ _ hlookup hstill
    | admits id' key' consent endpoint heq | removes id' heq | revokes grant heq =>
      cases heq.symm.trans htransfer
    | adopts grant issuer client expires clientProof issuerProof issuerKey heq =>
      cases heq.symm.trans htransfer
  have hpast := (hw.follows h).past _ t' hchain hne ht' (hprimary.trans hid)
  simp at hpast

theorem Fleet.Reached.retires (hw : w.Reached) {i j : ι} {n m : Node} {es as : List Entry}
    {e : Entry} {t u : State} {now : Int64} (hj : loadNode (w.node j) = .ok (some m))
    (hg : m.g = n.g) (hes : load (w.node j).tables n.g.cluster = .ok es)
    (hn : loadNode (w.node i) = .ok (some n)) (hmember : n.phase = .member)
    (hfirst : FirstRemoval es n.admission as e) (ht : replay n.g as = .ok t)
    (hkey : t.members.lookup n.admission = some n.key) (hu : replay n.g (as ++ [e]) = .ok u) :
    Retires (w.node i) n (wireHistory n.g (as ++ [e]) u) now := by
  obtain ⟨chain, hinv⟩ := hw.explained
  have hfound : ∀ k b, loadNode (w.node k) = .ok (some b) →
      ∃ own s₀, Life (w.node k) b own s₀ ∧ own <+: chain b.g := by
    intro k b hb
    rcases hinv.nodes k with ⟨hnone, -⟩ | ⟨b', own, s₀, hl, hf⟩
    · simp [loadNode, hnone] at hb
    · cases hb.symm.trans hl.loaded
      exact ⟨own, s₀, hl, hf.journal⟩
  obtain ⟨own, s₀, hl, hown⟩ := hfound i n hn
  obtain ⟨es', s', hl', hes'⟩ := hfound j m hj
  rw [hg] at hes'
  cases hes.symm.trans (hg ▸ hl'.holds.load)
  have hchain := hfirst.journal.trans hes'
  have hprefix := own_prefix hl hmember hfirst.removal hown hchain
  obtain ⟨hlen, hsize⟩ := hinv.bounded n.g
  refine installs_proof hl hfirst.removal ht hkey hu (hchain.length_le.trans hlen)
    ((size_mono _ _ hchain).trans hsize) now (by simp [hmember]) hprefix fun a ha => ?_
  exact receipt_of_not_activates
    (hinv.no_transfer hl hmember hfirst.removal hfirst.first hchain hprefix a ha)

/-- A proof exists exactly for a removed member, and ends at its removal. Nobody else can use it; the
removed node is retired by it, whatever part of the history it holds, unless it is still joining. -/
theorem removal_proof_retires {tx : Tables} {g : Genesis} {es : List Entry} {s : State}
    (hold : tx.Holds g es s) (admission key : Id) :
    ((∃ proof, removalProof tx g admission key = .ok proof) ↔ RemovedMember g es admission key) ∧
    ∀ proof, removalProof tx g admission key = .ok proof →
      (∃ as e u, FirstRemoval es admission as e ∧ replay g (as ++ [e]) = .ok u ∧
        proof = wireHistory g (as ++ [e]) u ∧
        ∀ db n own s₀ now, Life db n own s₀ → n.g = g → n.admission = admission → n.key = key →
          (n.phase = .joining → Refused db proof now) ∧
          (n.phase = .removed → Retires db n proof now) ∧
          (n.phase ≠ .joining → size es ≤ maxSize → own <+: as ++ [e] →
            (∀ a ∈ (as ++ [e]).drop own.length, Receipt db.tables.prepared n.key a) →
              Retires db n proof now)) ∧
      (∀ db n now, loadNode db = .ok (some n) →
        ¬ (n.g = g ∧ n.admission = admission ∧ n.key = key) → Refused db proof now) ∧
      ∀ (w : Fleet ι) i j n m now, w.Reached → loadNode (w.node j) = .ok (some m) → m.g = g →
        load (w.node j).tables g.cluster = .ok es → loadNode (w.node i) = .ok (some n) → n.g = g →
        n.admission = admission → n.key = key → n.phase = .member →
          Retires (w.node i) n proof now := by
  refine ⟨removalProof_exists_iff hold admission key, fun proof hproof => ?_⟩
  obtain ⟨as, e, t, u, hfirst, ht, hkey, hu, rfl⟩ :=
    (removalProof_iff hold admission key proof).mp hproof
  have hlen : (as ++ [e]).length ≤ maxHistory := hfirst.journal.length_le.trans hold.bounded
  refine ⟨⟨as, e, u, hfirst, hu, rfl, ?_⟩, ?_, ?_⟩
  · rintro db n own s₀ now hl rfl rfl rfl
    refine ⟨fun hjoining => ?_, fun hremoved => ?_, fun hphase hsize hown hreceipts => ?_⟩
    · refine refused_of_not_ok fun db' ho => ?_
      exact ((proofOutcome_iff hl hfirst.removal ht hkey hu hlen now db').mp ho).1 hjoining
    · exact retired_stays hl hfirst.removal ht hkey hu hlen hremoved now
    · exact installs_proof hl hfirst.removal ht hkey hu hlen
        ((size_mono _ _ hfirst.journal).trans hsize) now hphase hown hreceipts
  · intro db n now hn hother
    exact refused_of_other hfirst.removal ht hkey hu hn now hother
  · rintro w i j n m now hw hj hg hes hn rfl rfl rfl hmember
    exact hw.retires hj hg hes hn hmember hfirst ht hkey hu

end

section
attribute [local instance] residuePlatform residuePlatform_lawful

def targetRemoved : List Entry := sampleJournal (State.genesis sampleGenesis)
  [(1, sampleAdmit 2 2), (1, fun _ => .Remove (Fixed.fill 32 2))]

def storedJournal (es : List Entry) : Tables := { Tables.empty with log := es.map Entry.row }

theorem storedJournal_holds {g : Genesis} {es : List Entry} (hlen : es.length ≤ maxHistory)
    (h : (replay g es).toBool = true) : ∃ s, (storedJournal es).Holds g es s := by
  obtain ⟨s, hs⟩ := exists_of_toBool _ h
  exact ⟨s, rfl, hlen, hs⟩

def membersAfter (es : List Entry) (id : Id) : Option Id :=
  (replay sampleGenesis es).toOption.bind fun s => s.members.lookup id

theorem replay_of_membersAfter {es : List Entry} {id key : Id}
    (h : membersAfter es id = some key) :
    ∃ s, replay sampleGenesis es = .ok s ∧ s.members.lookup id = some key := by
  simp only [membersAfter, Option.bind_eq_some_iff] at h
  obtain ⟨s, hs, hkey⟩ := h
  exact ⟨s, eq_ok_of_toOption hs, hkey⟩

theorem removals_run :
    (replay sampleGenesis targetRemoved).toBool = true ∧
    (replay sampleGenesis rootRemoved).toBool = true ∧
    membersAfter (targetRemoved.take 1) (Fixed.fill 32 2) = some (Fixed.fill 32 2) ∧
    membersAfter (rootRemoved.take 2) (Fixed.fill 32 1) = some (Fixed.fill 32 1) ∧
    targetRemoved.length ≤ maxHistory ∧ rootRemoved.length ≤ maxHistory ∧
    rootRemoved.all (fun e => e.activates (Fixed.fill 32 1) = false) = true ∧
    size rootRemoved ≤ maxSize := by decide +kernel

theorem removedMember_of_last {es as : List Entry} {e : Entry} {id key : Id}
    (hes : es = as ++ [e]) (hm : e.mutation = .Remove id) (h : membersAfter as id = some key) :
    RemovedMember sampleGenesis es id key := by
  obtain ⟨s, hs, hkey⟩ := replay_of_membersAfter h
  exact ⟨as, [e], s, hes, hs, hkey, e, List.mem_singleton_self e, hm⟩

theorem created_tables {operation : Id} {target : Option Genesis} {endpoint : String}
    {random : Randomness} {db : Database}
    (hroot : ∀ g, target = some g → validateEndpoint g.rootEndpoint = .ok ())
    (h : initializeNode Database.empty operation target endpoint 700 random = .ok db) :
    db.tables = Tables.empty := by
  obtain ⟨pair, -, ⟨-, -, htables⟩ | ⟨n, hn, -⟩⟩ := initializeNode_begins Database.empty db none
    operation target endpoint 700 random rfl (by simp) hroot h
  · exact htables
  · contradiction

theorem target_begins : ∃ n, Life targetDatabase n [] (State.genesis n.g) ∧
    n.g = sampleGenesis ∧ n.admission = Fixed.fill 32 2 ∧ n.key = Fixed.fill 32 2 ∧
    n.phase = .joining := by
  have htables := created_tables (by
    rintro g ⟨⟩
    exact readTarget_root sampleTarget_read) targetDatabase_created
  exact ⟨_, Life.begins targetDatabase_loads htables, rfl, rfl, rfl, rfl⟩

theorem root_begins : ∃ n, Life rootDatabase n [] (State.genesis n.g) ∧
    n.g = sampleGenesis ∧ n.admission = Fixed.fill 32 1 ∧ n.key = Fixed.fill 32 1 ∧
    n.phase = .member :=
  ⟨_, Life.begins rootDatabase_loads (created_tables (by simp) rootDatabase_created), rfl, rfl, rfl,
    rfl⟩

theorem joining_refuses_removal : ∃ tx es s proof n,
    tx.Holds sampleGenesis es s ∧
    removalProof tx sampleGenesis n.admission n.key = .ok proof ∧
    Life targetDatabase n [] (State.genesis n.g) ∧ n.g = sampleGenesis ∧
    ¬ Retires targetDatabase n proof 700 := by
  obtain ⟨hreplay, -, hmember, -, hlen, -⟩ := removals_run
  obtain ⟨s, hold⟩ := storedJournal_holds hlen hreplay
  obtain ⟨n, hlife, hg, hadmission, hk, hjoining⟩ := target_begins
  have hremoved : RemovedMember sampleGenesis targetRemoved n.admission n.key := by
    rw [hadmission, hk]
    exact removedMember_of_last rfl rfl hmember
  obtain ⟨proof, hproof⟩ := (removalProof_exists_iff hold _ _).mpr hremoved
  refine ⟨_, _, s, proof, n, hold, hproof, hlife, hg, fun hretires => ?_⟩
  obtain ⟨as, e, t, u, hfirst, ht, hkey, hu, rfl⟩ := (removalProof_iff hold _ _ proof).mp hproof
  rw [← hg] at ht hu hretires
  obtain ⟨-, hsame⟩ := refused_of_not_ok fun db' ho => ((proofOutcome_iff hlife hfirst.removal ht hkey
    hu (hfirst.journal.length_le.trans hold.bounded) 700 db').mp ho).1 hjoining
  rw [Retires, hsame, loadNode_openDatabase, hlife.loaded, Except.ok.injEq, Option.some.injEq]
    at hretires
  rw [hretires] at hjoining
  cases hjoining

theorem removal_proof_retires_sample : ∃ s proof n,
    (storedJournal rootRemoved).Holds sampleGenesis rootRemoved s ∧
    removalProof (storedJournal rootRemoved) sampleGenesis (Fixed.fill 32 1) (Fixed.fill 32 1) =
      .ok proof ∧
    loadNode rootDatabase = .ok (some n) ∧
    n.phase = .member ∧ Retires rootDatabase n proof 700 := by
  obtain ⟨-, hreplay, -, hmember, -, hlen, hactivates, hsize⟩ := removals_run
  obtain ⟨s, hold⟩ := storedJournal_holds hlen hreplay
  obtain ⟨n, hlife, hg, hadmission, hk, hphase⟩ := root_begins
  have hremoved : RemovedMember sampleGenesis rootRemoved (Fixed.fill 32 1) (Fixed.fill 32 1) :=
    removedMember_of_last rfl rfl hmember
  obtain ⟨hexists, hproofs⟩ := @removal_proof_retires residuePlatform residuePlatform_lawful Bool _
    _ _ _ _ hold (Fixed.fill 32 1) (Fixed.fill 32 1)
  obtain ⟨proof, hproof⟩ := hexists.mpr hremoved
  obtain ⟨⟨as, e, u, hfirst, -, rfl, hnode⟩, -⟩ := hproofs proof hproof
  refine ⟨s, _, n, hold, hproof, hlife.loaded, hphase, ?_⟩
  refine (hnode rootDatabase n [] _ 700 hlife hg hadmission hk).2.2 (by simp [hphase]) hsize
    List.nil_prefix fun a ha => receipt_of_not_activates ?_
  rw [hk]
  exact of_decide_eq_true (List.all_eq_true.mp hactivates a (hfirst.journal.subset ha))

end

end Rieul.Cluster
