import Rieul.Lib.Chain
import Rieul.Lib.System
import Rieul.Cluster.StoreSpec

/-!
# One history for all nodes

Any number of nodes append, prepare and install on databases of their own.
-/

namespace Rieul.Cluster
open Bytes Fallible System

section
variable [Platform] {ι : Type} [DecidableEq ι]

structure World (ι : Type) where
  node : ι → Tables
  issued : Set (Id × Str × Signature)

variable (g : Genesis) (secret : ι → Platform.Secret)

abbrev nodeKey (i : ι) : Id := Platform.publicKey (secret i)

def World.Initial (w : World ι) : Prop :=
  (∀ i, w.node i = createIdentity Tables.empty g (nodeKey secret i)) ∧ w.issued = ∅

def World.Unforged (w : World ι) (entries : List Entry) : Prop :=
  ∀ e ∈ entries, ∀ k, Platform.verify k e.body e.signature = true →
    (k, e.body, e.signature) ∈ w.issued

inductive World.Step (w : World ι) : World ι → Prop where
  /-- A receipt repeats an old signature; only a commit issues one. -/
  | append (i : ι) (epoch : UInt64) (operation : Id) (mutation : Mutation) (e : Entry) (t : Tables)
      (h : append (w.node i) g (nodeKey secret i) (secret i) epoch operation mutation = .ok (e, t)) :
      Step w ⟨Function.update w.node i t, w.issued ∪
        {x | t.log ≠ (w.node i).log ∧ x = (nodeKey secret i, e.body, e.signature)}⟩
  | prepare (i : ι) (operation : Id) (mutation : Mutation) (t : Tables)
      (h : prepare (w.node i) g (nodeKey secret i) (secret i) operation = .ok (mutation, t)) :
      Step w ⟨Function.update w.node i t, w.issued ∪
        {x | ∃ epoch target sequence head acceptance,
          mutation = .Transfer target (nodeKey secret i) sequence head acceptance ∧
          x = (nodeKey secret i, acceptanceBody g.cluster epoch operation target
            (nodeKey secret i) sequence head, acceptance)}⟩
  | install (i : ι) (entries : List Entry) (t : Tables) (hforge : w.Unforged entries)
      (h : install (w.node i) g (nodeKey secret i) entries = .ok t) :
      Step w ⟨Function.update w.node i t, w.issued⟩
  /-- The process of node `i` restarts. -/
  | reopen (i : ι) :
      Step w ⟨Function.update w.node i (openStore (w.node i) g (nodeKey secret i)).1, w.issued⟩

/-- `i` would sign a new entry: not sealed, and its key is the key of the replayed primary. -/
def World.CanAppend (w : World ι) (i : ι) : Prop :=
  ∃ es s, load (w.node i) g.cluster = .ok es ∧ replay g es = .ok s ∧
    s.members.lookup s.primary = some (nodeKey secret i) ∧
    ∀ identity, (w.node i).identity = some identity → identity.sealed = false

/-- `e` was signed with the key of the primary of `p`, at the sequence number after `p`. -/
def World.Next (w : World ι) (p : List Entry) (e : Entry) : Prop :=
  ∃ s k, replay g p = .ok s ∧ s.members.lookup s.primary = some k ∧
    (k, e.body, e.signature) ∈ w.issued ∧ e.sequence.toNat = p.length + 1 ∧ e.mutation.Storable

def World.Kept (w : World ι) : Prop :=
  ∀ k body signature, (k, body, signature) ∈ w.issued → ∃ i, k = nodeKey secret i ∧
    ((∃ es s, (w.node i).Holds g es s ∧ ∃ e ∈ es, body = e.body ∧ signature = e.signature) ∨
      ∃ cluster epoch operation target key sequence head,
        body = acceptanceBody cluster epoch operation target key sequence head)

structure World.Inv (w : World ι) : Prop where
  chains : ∀ i, ∃ es s, (w.node i).Holds g es s ∧ Chain.IsChain (w.Next g) es
  kept : w.Kept g secret

variable [LawfulPlatform]

omit [DecidableEq ι] in
/-- A signature of node `i` on an entry body belongs to an entry of its log. -/
theorem World.Kept.entry {g : Genesis} {secret : ι → Platform.Secret} {w : World ι}
    (hw : w.Kept g secret) (hkeys : Function.Injective (nodeKey secret)) {i : ι} {e : Entry}
    (he : e.mutation.Storable) (h : (nodeKey secret i, e.body, e.signature) ∈ w.issued) :
    ∃ es s, (w.node i).Holds g es s ∧ e ∈ es := by
  obtain ⟨j, hj, hcase⟩ := hw _ _ _ h
  cases hkeys hj
  rcases hcase with ⟨es, s, hold, a, ha, hbody, hsig⟩ | ⟨c, ep, op, t, k, n, hd, hbody⟩
  · have hstor := replay_storable g es a s hold.replayed ha
    cases Entry.eq_of_body he.encodable hstor.encodable hbody hsig
    exact ⟨es, s, hold, ha⟩
  · exact absurd hbody (e.body_ne_acceptanceBody c ep op t k n hd)

omit [DecidableEq ι] in
theorem World.Kept.functional {g : Genesis} {secret : ι → Platform.Secret} {w : World ι}
    (hw : w.Kept g secret) (hkeys : Function.Injective (nodeKey secret)) :
    Chain.Functional (w.Next g) := by
  rintro p a b ⟨s, k, hs, hk, hia, hna, hsa⟩ ⟨s', k', hs', hk', hib, hnb, hsb⟩
  cases hs.symm.trans hs'
  cases hk.symm.trans hk'
  obtain ⟨i, rfl, -⟩ := hw _ _ _ hia
  obtain ⟨es, u, hold, ha⟩ := hw.entry hkeys hsa hia
  obtain ⟨es', u', hold', hb⟩ := hw.entry hkeys hsb hib
  obtain ⟨rfl, rfl⟩ := hold.unique hold'
  exact replay_sequence_inj g es u hold.replayed a b ha hb (hna.trans hnb.symm)

omit [DecidableEq ι] [LawfulPlatform] in
theorem World.Next.mono {g : Genesis} {w w' : World ι} (h : w.issued ⊆ w'.issued) (p : List Entry)
    (e : Entry) (hn : w.Next g p e) : w'.Next g p e := by
  obtain ⟨s, k, hs, hk, hi, hrest⟩ := hn
  exact ⟨s, k, hs, hk, h hi, hrest⟩

omit [DecidableEq ι] in
theorem World.Unforged.isChain {g : Genesis} {w : World ι} {es : List Entry} {s : State}
    (hw : w.Unforged es) (h : replay g es = .ok s) : Chain.IsChain (w.Next g) es := by
  rintro p e ⟨r, hr⟩
  have hsplit : es = p ++ e :: r := by rw [← hr, List.append_assoc, List.singleton_append]
  rw [hsplit] at h hw
  have he : e ∈ p ++ e :: r := List.mem_append_right p List.mem_cons_self
  obtain ⟨t, u, ht, hu, -⟩ := replay_at g p r e s h
  obtain ⟨k, hk, hv⟩ := (State.Accepts.of_apply hu).signed
  exact ⟨t, k, ht, hk, hw e he k hv, replay_sequence g p r e s h,
    replay_storable g _ e s h he⟩

omit [LawfulPlatform] in
theorem World.Inv.update {g : Genesis} {secret : ι → Platform.Secret} {w : World ι}
    (hw : w.Inv g secret) (i : ι) (t : Tables) (es es' : List Entry) (s s' : State)
    (more : Set (Id × Str × Signature)) (hold : (w.node i).Holds g es s) (hold' : t.Holds g es' s')
    (hsub : es ⊆ es') (huniq : ∀ a u, (w.node i).Holds g a u → a = es)
    (hchain : Chain.IsChain ((⟨Function.update w.node i t, w.issued ∪ more⟩ : World ι).Next g) es')
    (hmore : ∀ k body signature, (k, body, signature) ∈ more → k = nodeKey secret i ∧
      ((∃ e ∈ es', body = e.body ∧ signature = e.signature) ∨
        ∃ c ep op tg key n hd, body = acceptanceBody c ep op tg key n hd)) :
    (⟨Function.update w.node i t, w.issued ∪ more⟩ : World ι).Inv g secret := by
  have hgrow : w.issued ⊆ w.issued ∪ more := Set.subset_union_left
  refine ⟨fun j => ?_, fun k body signature hmem => ?_⟩
  · by_cases hj : j = i
    · subst hj
      exact ⟨es', s', by simpa using hold', hchain⟩
    · obtain ⟨a, u, ha, hc⟩ := hw.chains j
      exact ⟨a, u, by simpa [Function.update_of_ne hj] using ha,
        hc.mono (World.Next.mono hgrow)⟩
  · rcases hmem with hmem | hmem
    · obtain ⟨j, hk, hcase⟩ := hw.kept k body signature hmem
      refine ⟨j, hk, hcase.imp_left ?_⟩
      rintro ⟨a, u, ha, e, he, hbody⟩
      by_cases hj : j = i
      · subst hj
        cases huniq a u ha
        exact ⟨es', s', by simpa using hold', e, hsub he, hbody⟩
      · exact ⟨a, u, by simpa [Function.update_of_ne hj] using ha, e, he, hbody⟩
    · obtain ⟨hk, hcase⟩ := hmore k body signature hmem
      refine ⟨i, hk, hcase.imp_left ?_⟩
      rintro ⟨e, he, hbody⟩
      exact ⟨es', s', by simpa using hold', e, he, hbody⟩

theorem World.Inv.step {g : Genesis} {secret : ι → Platform.Secret} {w w' : World ι}
    (hw : w.Inv g secret) (h : w.Step g secret w') : w'.Inv g secret := by
  cases h with
  | append i epoch operation mutation e t h =>
    obtain ⟨es, s, hold, hchain⟩ := hw.chains i
    have huniq := fun a u (ha : (w.node i).Holds g a u) => (ha.unique hold).1
    obtain ⟨-, -, hcase⟩ := (append_eq_ok _ _ _ _ _ _ _ _ es s e hold).mp h
    rcases hcase with ⟨-, -, rfl⟩ | hnew
    · refine hw.update i _ es es s s _ hold hold (List.Subset.refl es) huniq ?_ ?_
      · exact hchain.mono (World.Next.mono Set.subset_union_left)
      · rintro k body signature ⟨hne, -⟩
        exact absurd rfl hne
    · obtain ⟨u, hu, hold'⟩ := hold.of_append hnew
      have hlen : t.log ≠ (w.node i).log := by
        rw [hold'.rows, hold.rows]
        intro hl
        have := congrArg List.length hl
        simp at this
      refine hw.update i _ es (es ++ [e]) s u _ hold hold' (List.subset_append_left es [e]) huniq ?_ ?_
      · refine (hchain.mono (World.Next.mono Set.subset_union_left)).snoc ?_
        refine ⟨s, nodeKey secret i, hold.replayed, hnew.primary, Or.inr ⟨hlen, rfl⟩, ?_, ?_⟩
        · rw [hnew.sequence, (replay_counts g es s hold.replayed).sequence]
        · exact replay_storable g _ e u hold'.replayed (by simp)
      · rintro k body signature ⟨-, hx⟩
        cases hx
        exact ⟨rfl, Or.inl ⟨e, by simp, rfl, rfl⟩⟩
  | prepare i operation mutation t h =>
    obtain ⟨es, s, hold, hchain⟩ := hw.chains i
    have huniq := fun a u (ha : (w.node i).Holds g a u) => (ha.unique hold).1
    refine hw.update i t es es s s _ hold (hold.of_prepare h) (List.Subset.refl es) huniq ?_ ?_
    · exact hchain.mono (World.Next.mono Set.subset_union_left)
    · rintro k body signature ⟨ep, tg, n, hd, acc, -, hx⟩
      cases hx
      exact ⟨rfl, Or.inr ⟨_, _, _, _, _, _, _, rfl⟩⟩
  | install i entries t hforge h =>
    obtain ⟨es, s, hold, -⟩ := hw.chains i
    have huniq := fun a u (ha : (w.node i).Holds g a u) => (ha.unique hold).1
    obtain ⟨hp, s', hold'⟩ := hold.of_install h
    have hinv := hw.update i t es entries s s' ∅ hold hold' hp.subset huniq
      (((hforge.isChain hold'.replayed)).mono (World.Next.mono Set.subset_union_left))
      (fun _ _ _ hx => absurd hx (Set.notMem_empty _))
    simpa using hinv
  | reopen i =>
    obtain ⟨es, s, hold, hchain⟩ := hw.chains i
    have huniq := fun a u (ha : (w.node i).Holds g a u) => (ha.unique hold).1
    have hinv := hw.update i (openStore (w.node i) g (nodeKey secret i)).1 es es s s ∅ hold
      ⟨hold.rows, hold.bounded, hold.replayed⟩ (List.Subset.refl es) huniq
      (hchain.mono (World.Next.mono Set.subset_union_left))
      (fun _ _ _ hx => absurd hx (Set.notMem_empty _))
    simpa using hinv

omit [DecidableEq ι] [LawfulPlatform] in
theorem World.Initial.inv {g : Genesis} {secret : ι → Platform.Secret} {w : World ι}
    (h : w.Initial g secret) : w.Inv g secret := by
  refine ⟨fun i => ⟨[], State.genesis g, ?_, Chain.isChain_nil _⟩, fun k body signature hmem => ?_⟩
  · rw [h.1 i]
    exact ⟨rfl, Nat.zero_le _, rfl⟩
  · rw [h.2] at hmem
    exact absurd hmem (Set.notMem_empty _)

structure World.OneHistory (w : World ι) : Prop where
  logs : ∀ i, ∃ es s, load (w.node i) g.cluster = .ok es ∧ replay g es = .ok s
  comparable : ∀ i j es es', load (w.node i) g.cluster = .ok es →
    load (w.node j) g.cluster = .ok es' → es <+: es' ∨ es' <+: es
  sequences : ∀ i j es es' e e', load (w.node i) g.cluster = .ok es →
    load (w.node j) g.cluster = .ok es' → e ∈ es → e' ∈ es' → e.sequence = e'.sequence → e = e'
  /-- Whoever adds an entry was able to. -/
  writers : ∀ i epoch operation mutation e t,
    append (w.node i) g (nodeKey secret i) (secret i) epoch operation mutation = .ok (e, t) →
    t.log ≠ (w.node i).log → w.CanAppend g secret i
  longest : ∀ i j es es', w.CanAppend g secret i → load (w.node i) g.cluster = .ok es →
    load (w.node j) g.cluster = .ok es' → es' <+: es
  unique : ∀ i j, w.CanAppend g secret i → w.CanAppend g secret j → i = j

omit [DecidableEq ι] in
theorem World.Inv.comparable {g : Genesis} {secret : ι → Platform.Secret} {w : World ι}
    (hw : w.Inv g secret) (hkeys : Function.Injective (nodeKey secret)) {i j : ι}
    {es es' : List Entry} (hi : load (w.node i) g.cluster = .ok es)
    (hj : load (w.node j) g.cluster = .ok es') : Chain.Comparable es es' := by
  obtain ⟨a, s, ha, hca⟩ := hw.chains i
  obtain ⟨b, u, hb, hcb⟩ := hw.chains j
  cases ha.load.symm.trans hi
  cases hb.load.symm.trans hj
  exact Chain.comparable_of_isChain (hw.kept.functional hkeys) hca hcb

omit [DecidableEq ι] in
/-- No log goes beyond the log of a node that holds the primary's key: the next entry would be
one this node signed, and it keeps those. -/
theorem World.Inv.longest {g : Genesis} {secret : ι → Platform.Secret} {w : World ι}
    (hw : w.Inv g secret) (hkeys : Function.Injective (nodeKey secret)) {i j : ι}
    {es es' : List Entry} (hcan : w.CanAppend g secret i) (hi : load (w.node i) g.cluster = .ok es)
    (hj : load (w.node j) g.cluster = .ok es') : es' <+: es := by
  obtain ⟨b, u, hb, hcb⟩ := hw.chains j
  cases hb.load.symm.trans hj
  rcases hw.comparable hkeys hi hj with ⟨r, hr⟩ | h
  · cases r with
    | nil =>
      rw [List.append_nil] at hr
      exact hr ▸ List.prefix_refl es
    | cons e r =>
      obtain ⟨a, s, ha, hs, hprimary, -⟩ := hcan
      cases ha.symm.trans hi
      have hnext : es ++ [e] <+: es' := ⟨r, by rw [← hr]; simp⟩
      obtain ⟨s', k, hs', hk, hissued, hseq, hstor⟩ := hcb es e hnext
      cases hs.symm.trans hs'
      cases hprimary.symm.trans hk
      obtain ⟨a, v, hold, he⟩ := hw.kept.entry hkeys hstor hissued
      cases hold.load.symm.trans hi
      have hle := replay_sequence_le g es v hold.replayed e he
      omega
  · exact h

theorem single_history (hkeys : Function.Injective (nodeKey secret)) (w : World ι)
    (h : Reachable (World.Initial g secret) (World.Step g secret) w) : w.OneHistory g secret := by
  have hw : w.Inv g secret := h.invariant _ (fun _ h0 => h0.inv) (fun _ _ hs ht => hs.step ht)
  have hlongest := fun i j es es' => @World.Inv.longest _ _ _ g secret w hw hkeys i j es es'
  refine ⟨fun i => ?_, ?_, ?_, ?_, hlongest, ?_⟩
  · obtain ⟨es, s, hold, -⟩ := hw.chains i
    exact ⟨es, s, hold.load, hold.replayed⟩
  · intro i j es es' hi hj
    exact hw.comparable hkeys hi hj
  · intro i j es es' e e' hi hj he he' hseq
    obtain ⟨a, s, ha, -⟩ := hw.chains i
    obtain ⟨b, u, hb, -⟩ := hw.chains j
    cases ha.load.symm.trans hi
    cases hb.load.symm.trans hj
    -- the shorter log is a part of the longer one, where sequence numbers tell entries apart
    rcases hw.comparable hkeys hi hj with hp | hp
    · exact replay_sequence_inj g es' u hb.replayed e e' (hp.subset he) he' (congrArg _ hseq)
    · exact replay_sequence_inj g es s ha.replayed e e' he (hp.subset he') (congrArg _ hseq)
  · intro i epoch operation mutation e t happ hlog
    obtain ⟨es, s, hold, -⟩ := hw.chains i
    obtain ⟨-, -, hcase⟩ := (append_eq_ok _ _ _ _ _ _ _ _ es s e hold).mp happ
    rcases hcase with ⟨-, -, rfl⟩ | hnew
    · exact absurd rfl hlog
    · exact ⟨es, s, hold.load, hold.replayed, hnew.primary, hnew.unsealed⟩
  · intro i j hi hj
    obtain ⟨es, s, hes, hs, hki, -⟩ := id hi
    obtain ⟨es', s', hes', hs', hkj, -⟩ := id hj
    have h1 := hlongest i j es es' hi hes hes'
    have h2 := hlongest j i es' es hj hes' hes
    cases h1.eq_of_length_le h2.length_le
    cases hs.symm.trans hs'
    exact hkeys (Option.some.inj (hki.symm.trans hkj))

/-- A log is only extended. -/
theorem World.Step.extends {g : Genesis} {secret : ι → Platform.Secret} {w w' : World ι}
    (h : w.Step g secret w') (j : ι) {es : List Entry} {s : State}
    (hold : (w.node j).Holds g es s) : ∃ es' s', (w'.node j).Holds g es' s' ∧ es <+: es' := by
  have hsame : ∃ es' s', (w.node j).Holds g es' s' ∧ es <+: es' := ⟨es, s, hold, es.prefix_refl⟩
  have hupdate (i : ι) (t : Tables) (hnode : j = i → ∃ es' s', t.Holds g es' s' ∧ es <+: es') :
      ∃ es' s', (Function.update w.node i t j).Holds g es' s' ∧ es <+: es' := by
    by_cases hj : j = i
    · subst hj
      simpa using hnode rfl
    · simpa [Function.update_of_ne hj] using hsame
  cases h with
  | append i epoch operation mutation e t h =>
    apply hupdate
    rintro rfl
    obtain ⟨-, -, ⟨-, -, rfl⟩ | hnew⟩ := (append_eq_ok _ _ _ _ _ _ _ _ es s e hold).mp h
    · exact hsame
    · obtain ⟨u, -, hold'⟩ := hold.of_append hnew
      exact ⟨_, u, hold', es.prefix_append [e]⟩
  | prepare i operation mutation t h =>
    apply hupdate
    rintro rfl
    exact ⟨es, s, hold.of_prepare h, es.prefix_refl⟩
  | install i entries t hforge h =>
    apply hupdate
    rintro rfl
    obtain ⟨hp, s', hold'⟩ := hold.of_install h
    exact ⟨entries, s', hold', hp⟩
  | reopen i =>
    apply hupdate
    rintro rfl
    exact ⟨es, s, ⟨hold.rows, hold.bounded, hold.replayed⟩, es.prefix_refl⟩

/-- Whatever happens later, no node that has caught up takes back what one has recorded. -/
theorem history_is_final (hkeys : Function.Injective (nodeKey secret)) {w w' : World ι}
    (h : Reachable (World.Initial g secret) (World.Step g secret) w)
    (hlater : Reachable (· = w) (World.Step g secret) w') {i j : ι} {es es' : List Entry}
    {s' : State} (hi : load (w.node i) g.cluster = .ok es)
    (hj : load (w'.node j) g.cluster = .ok es') (hs' : replay g es' = .ok s')
    (hcaught : i = j ∨ es.length ≤ es'.length) : es <+: es' ∧ ∀ e ∈ es,
      (∀ id, e.mutation = .Remove id → s'.Tombstoned id) ∧
      ∀ grant, e.mutation = .Revoke grant → grant ∈ s'.revoked := by
  have hw : w.Inv g secret := h.invariant _ (fun _ h0 => h0.inv) (fun _ _ hs ht => hs.step ht)
  obtain ⟨a, s, ha, -⟩ := hw.chains i
  cases ha.load.symm.trans hi
  obtain ⟨hw', b, u, hb, hp⟩ := hlater.invariant
    (fun u => u.Inv g secret ∧ ∃ b v, (u.node i).Holds g b v ∧ es <+: b)
    (by rintro u rfl; exact ⟨hw, es, s, ha, es.prefix_refl⟩)
    (by
      rintro u v ⟨hu, b, t, hb, hp⟩ hstep
      obtain ⟨b', t', hb', hp'⟩ := hstep.extends i hb
      exact ⟨hu.step hstep, b', t', hb', hp.trans hp'⟩)
  have hkept : es <+: es' := by
    rcases hcaught with rfl | hle
    · cases hb.load.symm.trans hj
      exact hp
    · rcases hw'.comparable hkeys hb.load hj with h | h
      · exact hp.trans h
      · exact List.prefix_of_prefix_length_le hp h hle
  exact ⟨hkept, fun e he => ⟨fun id => tombstoned_of_mem g es' s' hs' e (hkept.subset he) id,
    fun grant => revoked_of_mem g es' s' hs' e (hkept.subset he) grant⟩⟩

end

section
attribute [local instance] residuePlatform residuePlatform_lawful

def sampleSecret (b : Bool) : UInt8 := if b then 1 else 2

def sampleWorld : World Bool where
  node b := createIdentity Tables.empty sampleGenesis (Fixed.fill 32 (sampleSecret b))
  issued := ∅

theorem sampleSecret_injective :
    Function.Injective (nodeKey (ι := Bool) sampleSecret) := by decide +kernel

theorem single_history_sample : ∃ w : World Bool,
    (∃ e, load (w.node true) sampleGenesis.cluster = .ok [e]) ∧
      w.OneHistory sampleGenesis sampleSecret := by
  obtain ⟨⟨e, t⟩, h⟩ := exists_of_toBool (append (sampleWorld.node true) sampleGenesis
    (nodeKey sampleSecret true) (sampleSecret true) 1 (Fixed.fill 32 20) (.Remove (Fixed.fill 32 2)))
    (by decide +kernel)
  have hold : (sampleWorld.node true).Holds sampleGenesis [] (State.genesis sampleGenesis) :=
    ⟨rfl, Nat.zero_le _, rfl⟩
  obtain ⟨-, -, ⟨hfind, -⟩ | hnew⟩ := (append_eq_ok _ _ _ _ _ _ _ _ [] _ e hold).mp h
  · cases hfind
  obtain ⟨u, -, hold'⟩ := hold.of_append hnew
  refine ⟨_, ⟨e, ?_⟩, single_history sampleGenesis sampleSecret sampleSecret_injective _
    (.next sampleWorld _ (.start _ ⟨fun _ => rfl, rfl⟩) (.append true 1 _ _ e t h))⟩
  simpa only [Function.update_self, List.nil_append] using hold'.load

/-- Node `true` appends twice. -/
def sampleExtended : Except Error (Entry × Tables × Entry × Tables) := do
  let (e, t) ← append (sampleWorld.node true) sampleGenesis (nodeKey sampleSecret true)
    (sampleSecret true) 1 (Fixed.fill 32 20) (.Remove (Fixed.fill 32 2))
  let (e', t') ← append t sampleGenesis (nodeKey sampleSecret true) (sampleSecret true) 1
    (Fixed.fill 32 21) (.Revoke (Fixed.fill 32 5))
  pure (e, t, e', t')

theorem history_is_final_sample : ∃ (w w' : World Bool) (es es' : List Entry) (s' : State),
    Reachable (· = w) (World.Step sampleGenesis sampleSecret) w' ∧
    load (w.node true) sampleGenesis.cluster = .ok es ∧
    load (w'.node true) sampleGenesis.cluster = .ok es' ∧ es.length = 1 ∧ es'.length = 2 ∧
    es <+: es' ∧ ∀ e ∈ es, (∀ id, e.mutation = .Remove id → s'.Tombstoned id) ∧
      ∀ grant, e.mutation = .Revoke grant → grant ∈ s'.revoked := by
  obtain ⟨⟨e, t, e', t'⟩, hrun⟩ := exists_of_toBool sampleExtended (by decide +kernel)
  simp only [sampleExtended, bind_eq_ok, pure_eq_ok, Prod.mk.injEq, Prod.exists] at hrun
  obtain ⟨e, t, h1, e', t', h2, rfl, rfl, rfl, rfl⟩ := hrun
  have hold : (sampleWorld.node true).Holds sampleGenesis [] (State.genesis sampleGenesis) :=
    ⟨rfl, Nat.zero_le _, rfl⟩
  obtain ⟨-, -, ⟨hfind, -⟩ | hnew⟩ := (append_eq_ok _ _ _ _ _ _ _ _ [] _ e hold).mp h1
  · cases hfind
  obtain ⟨s1, -, hold1⟩ := hold.of_append hnew
  obtain ⟨-, -, ⟨hfind, -⟩ | hnew'⟩ := (append_eq_ok _ _ _ _ _ _ _ _ _ s1 e' hold1).mp h2
  · have hop := List.find?_some hfind
    cases List.mem_singleton.mp (List.mem_of_find?_eq_some hfind)
    rw [hnew.signed] at hop
    have hne : (Fixed.fill 32 20 : Id) ≠ Fixed.fill 32 21 := by decide
    exact absurd (of_decide_eq_true hop) hne
  obtain ⟨s2, -, hold2⟩ := hold1.of_append hnew'
  obtain ⟨w, hw, ht⟩ : ∃ w, World.Step sampleGenesis sampleSecret sampleWorld w ∧ w.node true = t :=
    ⟨_, .append true 1 _ _ e t h1, by simp⟩
  obtain ⟨w', hw', ht'⟩ : ∃ w', World.Step sampleGenesis sampleSecret w w' ∧ w'.node true = t' :=
    ⟨_, .append true 1 _ _ e' t' (ht.symm ▸ h2), by simp⟩
  have hes : load (w.node true) sampleGenesis.cluster = .ok [e] := ht ▸ hold1.load
  have hes' : load (w'.node true) sampleGenesis.cluster = .ok [e, e'] := ht' ▸ hold2.load
  have hlater : Reachable (· = w) (World.Step sampleGenesis sampleSecret) w' :=
    .next w w' (.start w rfl) hw'
  exact ⟨w, w', [e], [e, e'], s2, hlater, hes, hes', rfl, rfl,
    history_is_final sampleGenesis sampleSecret sampleSecret_injective
      (.next sampleWorld w (.start _ ⟨fun _ => rfl, rfl⟩) hw) hlater hes hes' hold2.replayed (.inl rfl)⟩

end

end Rieul.Cluster
