import Rieul.Cluster.Store

/-!
# What the journal operations do

A database that holds a replayed journal is read back exactly.
-/

namespace Rieul.Cluster
open Bytes Fallible

section
variable [Platform]

/-- The log table holds `es`, which replays to `s`. -/
structure Tables.Holds (db : Tables) (g : Genesis) (es : List Entry) (s : State) : Prop where
  rows : db.log = es.map Entry.row
  bounded : es.length ≤ maxHistory
  replayed : replay g es = .ok s

theorem replay_at (g : Genesis) (as bs : List Entry) (e : Entry) (s : State)
    (h : replay g (as ++ e :: bs) = .ok s) :
    ∃ t u, replay g as = .ok t ∧ t.apply e = .ok u ∧ replay g (as ++ [e]) = .ok u := by
  obtain ⟨t, u, ht, hu, -⟩ := Replay.replay_at _ _ _ as bs e h
  exact ⟨t, u, ht, hu, (Replay.replay_snoc_eq_ok _ _ _ as e).mpr ⟨t, ht, hu⟩⟩

theorem replay_mem (g : Genesis) (es : List Entry) (e : Entry) (s : State)
    (h : replay g es = .ok s) (he : e ∈ es) :
    ∃ as bs t u, es = as ++ e :: bs ∧ replay g as = .ok t ∧ t.apply e = .ok u := by
  obtain ⟨as, bs, rfl⟩ := List.append_of_mem he
  obtain ⟨t, u, ht, hu, -⟩ := replay_at g as bs e s h
  exact ⟨as, bs, t, u, rfl, ht, hu⟩

theorem State.Accepts.of_apply {s t : State} {e : Entry} (h : s.apply e = .ok t) : s.Accepts e :=
  ((State.apply_eq_ok s t e).mp h).1

theorem replay_sequence (g : Genesis) (as bs : List Entry) (e : Entry) (s : State)
    (h : replay g (as ++ e :: bs) = .ok s) : e.sequence.toNat = as.length + 1 := by
  obtain ⟨t, u, ht, hu, -⟩ := replay_at g as bs e s h
  rw [(State.Accepts.of_apply hu).sequence, (replay_counts g as t ht).sequence]

theorem replay_getElem (g : Genesis) (es : List Entry) (s : State) (h : replay g es = .ok s) (n : ℕ)
    (e : Entry) (hn : es[n]? = some e) : e.sequence.toNat = n + 1 := by
  obtain ⟨hlt, he⟩ := List.getElem?_eq_some_iff.mp hn
  have hsplit : es = es.take n ++ e :: es.drop (n + 1) := by
    rw [← he, List.cons_getElem_drop_succ, List.take_append_drop]
  rw [hsplit] at h
  rw [replay_sequence g _ _ e s h, List.length_take, Nat.min_eq_left hlt.le]

theorem replay_sequence_inj (g : Genesis) (es : List Entry) (s : State) (h : replay g es = .ok s)
    (a b : Entry) (ha : a ∈ es) (hb : b ∈ es) (hab : a.sequence.toNat = b.sequence.toNat) : a = b := by
  obtain ⟨n, hn⟩ := List.mem_iff_getElem?.mp ha
  obtain ⟨m, hm⟩ := List.mem_iff_getElem?.mp hb
  have han := replay_getElem g es s h n a hn
  have hbm := replay_getElem g es s h m b hm
  obtain rfl : n = m := by omega
  exact Option.some.inj (hn.symm.trans hm)

theorem replay_prefix_of_subset (g : Genesis) (as bs : List Entry) (s t : State)
    (has : replay g as = .ok s) (hbs : replay g bs = .ok t) (hsub : ∀ e ∈ as, e ∈ bs) :
    as <+: bs := by
  rw [List.prefix_iff_getElem?]
  intro n hn
  have he : as[n]? = some as[n] := List.getElem?_eq_getElem hn
  obtain ⟨m, hm⟩ := List.mem_iff_getElem?.mp (hsub as[n] (List.getElem_mem hn))
  have hseq := replay_getElem g as s has n as[n] he
  have hseq' := replay_getElem g bs t hbs m as[n] hm
  obtain rfl : m = n := by omega
  exact hm

theorem replay_sequence_le (g : Genesis) (es : List Entry) (s : State) (h : replay g es = .ok s)
    (e : Entry) (he : e ∈ es) : e.sequence.toNat ≤ es.length := by
  obtain ⟨n, hn⟩ := List.mem_iff_getElem?.mp he
  have hlt := (List.getElem?_eq_some_iff.mp hn).1
  rw [replay_getElem g es s h n e hn]
  exact hlt

theorem replay_entry_cluster (g : Genesis) (es : List Entry) (e : Entry) (s : State)
    (h : replay g es = .ok s) (he : e ∈ es) : e.cluster = g.cluster := by
  obtain ⟨as, bs, t, u, -, ht, hu⟩ := replay_mem g es e s h he
  rw [(State.Accepts.of_apply hu).cluster, replay_cluster g as t ht]

theorem State.Effect.storable [LawfulPlatform] {s t : State} {e : Entry} (h : Effect s e t) :
    e.mutation.Storable := by
  cases h with
  | admits id key consent endpoint hm hend hseen hkey =>
    rw [hm]
    exact ⟨validateEndpoint_nonempty endpoint hend, ((validateEndpoint_eq_ok endpoint ()).mp hend).1⟩
  | removes id hm | adopts grant issuer client expires clientProof issuerProof issuerKey hm
  | revokes grant hm | transfers id key acceptance hm => rw [hm]; trivial

theorem replay_storable [LawfulPlatform] (g : Genesis) (es : List Entry) (e : Entry) (s : State)
    (h : replay g es = .ok s) (he : e ∈ es) : e.mutation.Storable := by
  obtain ⟨as, bs, t, u, -, -, hu⟩ := replay_mem g es e s h he
  obtain ⟨-, v, hv, -⟩ := (State.apply_eq_ok t u e).mp hu
  exact hv.storable

theorem replay_operations (g : Genesis) (es : List Entry) (s : State) (h : replay g es = .ok s)
    (operation : Id) : operation ∈ s.operations ↔ ∃ e ∈ es, e.operation = operation := by
  refine Replay.replay_induction State.apply _
    (fun es s => operation ∈ s.operations ↔ ∃ e ∈ es, e.operation = operation) ?_ ?_ es s h
  · simp [State.genesis]
  · intro as t u e _ ih ha
    obtain ⟨-, v, hv, rfl⟩ := (State.apply_eq_ok t u e).mp ha
    simp only [State.advance, hv.frame.2.2.2.1, Finset.mem_insert, ih, List.mem_append,
      List.mem_singleton, or_and_right, exists_or, exists_eq_left]
    constructor
    · rintro (rfl | h)
      · exact Or.inr rfl
      · exact Or.inl h
    · rintro (h | rfl)
      · exact Or.inr h
      · exact Or.inl rfl

omit [Platform] in
theorem Entry.row_load (e : Entry) (h : e.mutation.Storable) : e.row.load e.cluster = .ok e := by
  simp [Row.load, Entry.row, Mutation.load_storage h]

omit [Platform] in
theorem loadRows_map (cluster : Id) (es : List Entry)
    (h : ∀ e ∈ es, e.cluster = cluster ∧ e.mutation.Storable) :
    loadRows cluster (es.map Entry.row) = .ok es := by
  induction es with
  | nil => rfl
  | cons e es ih =>
    obtain ⟨hc, hs⟩ := h e List.mem_cons_self
    have he : e.row.load cluster = .ok e := hc ▸ Entry.row_load e hs
    have hes := ih fun a ha => h a (List.mem_cons_of_mem e ha)
    simp [loadRows, he, hes]

variable [LawfulPlatform]

theorem load_of_replayed (db : Tables) (g : Genesis) (es : List Entry) (s : State)
    (hrows : db.log = es.map Entry.row) (hb : es.length ≤ maxHistory) (hr : replay g es = .ok s) :
    load db g.cluster = .ok es := by
  have hes := loadRows_map g.cluster es fun e he =>
    ⟨replay_entry_cluster g es e s hr he, replay_storable g es e s hr he⟩
  simp [load, hrows, hes, hb]

theorem Tables.Holds.load {db : Tables} {g : Genesis} {es : List Entry} {s : State}
    (h : db.Holds g es s) : load db g.cluster = .ok es :=
  load_of_replayed db g es s h.rows h.bounded h.replayed

omit [Platform] [LawfulPlatform] in
theorem orderedInsert_last (rows : List Row) (r : Row) (h : ∀ a ∈ rows, a.sequence < r.sequence) :
    rows.orderedInsert (fun a b => a.sequence ≤ b.sequence) r = rows ++ [r] := by
  induction rows with
  | nil => rfl
  | cons a rows ih =>
    have ha := h a List.mem_cons_self
    have hr := ih fun b hb => h b (List.mem_cons_of_mem a hb)
    simp only [List.orderedInsert, UInt64.not_le.mpr ha, if_false, hr, List.cons_append]

omit [LawfulPlatform] in
theorem insertEntry_next (tx : Tables) (g : Genesis) (es : List Entry) (e : Entry) (s : State)
    (hrows : tx.log = es.map Entry.row) (hr : replay g (es ++ [e]) = .ok s) :
    insertEntry tx e = .ok { tx with log := (es ++ [e]).map Entry.row } := by
  have hlt : ∀ a ∈ es, a.sequence < e.sequence := by
    intro a ha
    obtain ⟨as, bs, rfl⟩ := List.append_of_mem ha
    have hs := replay_sequence g as (bs ++ [e]) a s (by simpa using hr)
    have he := replay_sequence g (as ++ a :: bs) [] e s hr
    apply UInt64.lt_iff_toNat_lt.mpr
    rw [hs, he]
    simp
  have hop : ∀ a ∈ es, a.operation ≠ e.operation := by
    intro a ha heq
    obtain ⟨t, ht, hu⟩ := (Replay.replay_snoc_eq_ok _ _ _ es e).mp hr
    exact (State.Accepts.of_apply hu).operation
      ((replay_operations g es t ht e.operation).mpr ⟨a, ha, heq⟩)
  have hnew : ∀ r ∈ tx.log, r.sequence ≠ e.sequence ∧ r.operation ≠ e.operation.data := by
    rw [hrows]
    intro r hmem
    obtain ⟨a, ha, rfl⟩ := List.mem_map.mp hmem
    exact ⟨fun hs => absurd (hlt a ha) (hs ▸ UInt64.lt_irrefl _),
      fun ho => hop a ha (Fixed.ext' ho)⟩
  have hins := orderedInsert_last (es.map Entry.row) e.row fun r hmem => by
    obtain ⟨a, ha, rfl⟩ := List.mem_map.mp hmem
    exact hlt a ha
  unfold insertEntry
  rw [ensure_of _ _ hnew, ok_bind, hrows, hins]
  simp

def Entry.activates (localKey : Id) (e : Entry) : Bool :=
  match e.mutation with
  | .Transfer _ key _ _ _ => key = localKey
  | _ => false

/-- The `prepared` row that a Transfer to the local key must match. -/
def Receipt (prepared : List Prepared) (localKey : Id) (e : Entry) : Prop :=
  ∀ id sequence head acceptance, e.mutation = .Transfer id localKey sequence head acceptance →
    (prepared.find? fun p => p.operation = e.operation.data).map
      (fun p => (p.epoch, p.target, p.acceptance)) = some (e.epoch, id.data, acceptance.data)

/-- The tables once `entries` are the log: an activation clears the seal. -/
def Tables.installed (tx : Tables) (localKey : Id) (entries suffix : List Entry) : Tables where
  identity := if suffix.any (·.activates localKey) then (setSealed tx false).identity else tx.identity
  log := entries.map Entry.row
  prepared := tx.prepared

omit [LawfulPlatform] in
theorem installEntry_next (tx t : Tables) (g : Genesis) (localKey : Id) (es : List Entry) (e : Entry)
    (s : State) (hrows : tx.log = es.map Entry.row) (hr : replay g (es ++ [e]) = .ok s) :
    installEntry localKey tx e = .ok t ↔
      Receipt tx.prepared localKey e ∧ t = tx.installed localKey (es ++ [e]) [e] := by
  have hins := insertEntry_next tx g es e s hrows hr
  have hclear := insertEntry_next (setSealed tx false) g es e s hrows hr
  unfold installEntry
  cases hm : e.mutation with
  | Transfer id key sequence head acceptance =>
    by_cases hk : key = localKey
    · subst hk
      simp only [if_true, bind_unit_eq_ok, ensure_eq_ok, hclear, Receipt, hm, Tables.installed,
        Entry.activates, List.any_cons, List.any_nil, decide_true, Bool.true_or]
      constructor
      · rintro ⟨hp, h⟩
        refine ⟨?_, (Except.ok.inj h).symm⟩
        rintro id' sequence' head' acceptance' ⟨⟩
        exact hp
      · rintro ⟨hp, rfl⟩
        exact ⟨hp id sequence head acceptance rfl, rfl⟩
    · simp only [if_neg hk, hins, Receipt, hm, Tables.installed, Entry.activates, List.any_cons,
        List.any_nil, decide_eq_false hk]
      exact ⟨fun h => ⟨fun _ _ _ _ heq => absurd (Mutation.Transfer.inj heq).2.1 hk,
        (Except.ok.inj h).symm⟩, fun h => congrArg _ h.2.symm⟩
  | _ => simp [hins, Receipt, hm, Tables.installed, Entry.activates, eq_comm]

omit [Platform] [LawfulPlatform] in
omit [Platform] [LawfulPlatform] in
theorem Tables.installed_installed (tx : Tables) (localKey : Id) (es es' suffix : List Entry)
    (e : Entry) : (tx.installed localKey es [e]).installed localKey es' suffix =
      tx.installed localKey es' (e :: suffix) := by
  cases he : e.activates localKey <;> cases hs : suffix.any (·.activates localKey) <;>
    cases hi : tx.identity <;> simp [Tables.installed, he, hs, hi, setSealed]

omit [LawfulPlatform] in
/-- The loop of `install`: every receipt is checked and every entry inserted. -/
theorem installEntries (g : Genesis) (localKey : Id) (suffix : List Entry) :
    ∀ (tx t : Tables) (es : List Entry) (s : State), tx.log = es.map Entry.row →
      replay g (es ++ suffix) = .ok s →
      (Replay.replay (installEntry localKey) tx suffix = .ok t ↔
        (∀ e ∈ suffix, Receipt tx.prepared localKey e) ∧
          t = tx.installed localKey (es ++ suffix) suffix) := by
  induction suffix with
  | nil =>
    intro tx t es s hrows _
    simp only [Replay.replay_nil, List.not_mem_nil, false_imp_iff, implies_true, true_and,
      List.append_nil, Tables.installed, List.any_nil, ← hrows]
    exact ⟨fun h => (Except.ok.inj h).symm, fun h => congrArg _ h.symm⟩
  | cons e suffix ih =>
    intro tx t es s hrows hr
    obtain ⟨u, v, -, -, he⟩ := replay_at g es suffix e s hr
    have hstep := fun w => installEntry_next tx w g localKey es e v hrows he
    have hassoc : es ++ e :: suffix = (es ++ [e]) ++ suffix := by simp
    rw [Replay.replay, bind_eq_ok]
    constructor
    · rintro ⟨w, hw, ht⟩
      obtain ⟨hrec, rfl⟩ := (hstep w).mp hw
      obtain ⟨hall, rfl⟩ := (ih _ t (es ++ [e]) s rfl (hassoc ▸ hr)).mp ht
      rw [Tables.installed_installed, List.append_assoc, List.singleton_append]
      refine ⟨fun a ha => ?_, rfl⟩
      rcases List.mem_cons.mp ha with rfl | ha
      · exact hrec
      · exact hall a ha
    · rintro ⟨hall, rfl⟩
      refine ⟨_, (hstep _).mpr ⟨hall e List.mem_cons_self, rfl⟩, ?_⟩
      refine (ih _ _ (es ++ [e]) s rfl (hassoc ▸ hr)).mpr
        ⟨fun a ha => hall a (List.mem_cons_of_mem e ha), ?_⟩
      rw [Tables.installed_installed, List.append_assoc, List.singleton_append]

/-- `install` accepts exactly the longer journals it can check and whose activations it prepared. -/
theorem install_eq_ok (tx t : Tables) (g : Genesis) (localKey : Id) (es entries : List Entry)
    (s : State) (hold : tx.Holds g es s) :
    install tx g localKey entries = .ok t ↔
      checkIdentity tx g localKey = .ok () ∧ entries.length ≤ maxHistory ∧ es <+: entries ∧
        size entries ≤ maxSize ∧ (∃ s', replay g entries = .ok s') ∧
        (∀ e ∈ entries.drop es.length, Receipt tx.prepared localKey e) ∧
        t = tx.installed localKey entries (entries.drop es.length) := by
  have hprefix : ¬ (entries.length < es.length ∨ entries.take es.length ≠ es) ↔ es <+: entries := by
    rw [not_or, not_lt, not_not, List.prefix_iff_eq_take, eq_comm]
    exact ⟨fun h => h.2, fun h => ⟨(List.prefix_iff_eq_take.mpr h).length_le, h⟩⟩
  simp only [install, bind_eq_ok, exists_unit_iff, ensure_eq_ok, hold.load, Except.ok.injEq,
    exists_eq_left', hprefix]
  constructor
  · rintro ⟨hid, hlen, hp, hsize, s', hs', ht⟩
    obtain ⟨suffix, rfl⟩ := hp
    rw [List.drop_left] at ht ⊢
    obtain ⟨hall, rfl⟩ := (installEntries g localKey suffix tx t es s' hold.rows hs').mp ht
    exact ⟨hid, hlen, List.prefix_append es suffix, hsize, ⟨s', hs'⟩, hall, rfl⟩
  · rintro ⟨hid, hlen, hp, hsize, ⟨s', hs'⟩, hall, ht⟩
    obtain ⟨suffix, rfl⟩ := hp
    rw [List.drop_left] at ht hall ⊢
    exact ⟨hid, hlen, List.prefix_append es suffix, hsize, s', hs',
      (installEntries g localKey suffix tx t es s' hold.rows hs').mpr ⟨hall, ht⟩⟩

omit [Platform] [LawfulPlatform] in
theorem receipt_nil (localKey : Id) (e : Entry) :
    Receipt [] localKey e ↔ e.activates localKey = false := by
  cases hm : e.mutation with
  | Transfer id key sequence head acceptance =>
    by_cases hk : key = localKey <;> simp [Receipt, Entry.activates, hm, hk]
  | _ => simp [Receipt, Entry.activates, hm]

omit [LawfulPlatform] in
theorem checkIdentity_installed (tx : Tables) (g : Genesis) (localKey key : Id)
    (es suffix : List Entry) (h : checkIdentity tx g localKey = .ok ()) :
    checkIdentity (tx.installed key es suffix) g localKey = .ok () := by
  cases hi : tx.identity with
  | none => simp [checkIdentity, hi] at h
  | some i =>
    simp only [checkIdentity, hi] at h
    cases hs : suffix.any (·.activates key) <;>
      simpa [checkIdentity, Tables.installed, hs, setSealed, hi] using h

omit [LawfulPlatform] in
theorem createIdentity_of_check (db : Tables) (g : Genesis) (key : Id)
    (h : checkIdentity db g key = .ok ()) : createIdentity db g key = db := by
  simp only [checkIdentity, bind_eq_ok, require_eq_ok] at h
  obtain ⟨i, hi, -⟩ := h
  cases db
  simp_all [createIdentity]

structure Appended (tx : Tables) (g : Genesis) (localKey : Id) (pair : Platform.Secret)
    (epoch : UInt64) (operation : Id) (mutation : Mutation) (es : List Entry) (s : State)
    (e : Entry) (t : Tables) : Prop where
  fresh : ∀ a ∈ es, a.operation ≠ operation
  unsealed : ∀ i, tx.identity = some i → i.sealed = false
  primary : s.members.lookup s.primary = some localKey
  epoch_eq : s.epoch = epoch
  room : es.length < maxHistory
  sequence : e.sequence.toNat = s.sequence.toNat + 1
  signed : e = signEntry g s pair epoch operation mutation e.sequence
  accepted : ∃ u, s.apply e = .ok u
  size_le : size (es ++ [e]) ≤ maxSize
  tables : t = if mutation.isTransfer then
      setSealed { tx with log := (es ++ [e]).map Entry.row } true
    else { tx with log := (es ++ [e]).map Entry.row }

omit [Platform] [LawfulPlatform] in
theorem size_snoc (es : List Entry) (e : Entry) :
    size (es ++ [e]) = size es + (e.body.length + 128) := by
  simp [size]

omit [Platform] [LawfulPlatform] in
theorem next_sequence (a n : UInt64) :
    (checkedAdd a 1).filter (· ≤ maxCounter) = some n ↔ n.toNat = a.toNat + 1 ∧ n ≤ maxCounter := by
  rw [Option.filter_eq_some_iff]
  constructor
  · rintro ⟨h, hmax⟩
    exact ⟨checkedAdd_eq_some a 1 n h, of_decide_eq_true hmax⟩
  · rintro ⟨h, hmax⟩
    exact ⟨checkedAdd_one_of_toNat a n h, decide_eq_true hmax⟩

section
variable (tx t : Tables) (g : Genesis) (localKey : Id) (pair : Platform.Secret) (epoch : UInt64)
  (operation : Id) (mutation : Mutation) (es : List Entry) (s : State) (e : Entry)
  (hold : tx.Holds g es s)
include tx t g localKey pair epoch operation mutation es s e hold

theorem append_fresh (hid : checkIdentity tx g localKey = .ok ())
    (hpair : Platform.publicKey pair = localKey)
    (hfind : es.find? (fun a => a.operation = operation) = none) :
    append tx g localKey pair epoch operation mutation = .ok (e, t) ↔
      Appended tx g localKey pair epoch operation mutation es s e t := by
  have hnew : ∀ a ∈ es, a.operation ≠ operation := by simpa using hfind
  obtain ⟨i, hi, -⟩ : ∃ i, tx.identity = some i ∧ True := by
    simp only [checkIdentity, bind_eq_ok, require_eq_ok] at hid
    exact ⟨hid.choose, hid.choose_spec.1, trivial⟩
  simp only [append, bind_eq_ok, exists_unit_iff, hid, true_and, ensure_eq_ok, hpair, hold.load,
    Except.ok.injEq, exists_eq_left', hold.replayed, hfind, require_eq_ok, hi, Option.some.injEq,
    next_sequence, pure_eq_ok, Prod.mk.injEq, not_or, ne_eq, not_not, Bool.not_eq_true]
  constructor
  · rintro ⟨⟨hsealed, hprimary, hepoch⟩, hroom, n, ⟨hn, -⟩, u, hu, hsize, tx', hins, rfl, rfl⟩
    have hr : replay g (es ++ [signEntry g s pair epoch operation mutation n]) = .ok u :=
      (Replay.replay_snoc_eq_ok _ _ _ es _).mpr ⟨s, hold.replayed, hu⟩
    rw [insertEntry_next tx g es _ u hold.rows hr] at hins
    cases hins
    refine ⟨hnew, fun j hj => ?_, hprimary, hepoch, hroom, hn, rfl, ⟨u, hu⟩, ?_, rfl⟩
    · cases hi.symm.trans hj
      exact hsealed
    · rw [size_snoc]
      exact hsize
  · intro h
    obtain ⟨u, hu⟩ := h.accepted
    have hr : replay g (es ++ [e]) = .ok u :=
      (Replay.replay_snoc_eq_ok _ _ _ es e).mpr ⟨s, hold.replayed, hu⟩
    refine ⟨⟨h.unsealed i hi, h.primary, h.epoch_eq⟩, h.room, e.sequence, ⟨h.sequence, ?_⟩, ?_⟩
    · exact (State.Accepts.of_apply hu).bound
    rw [← h.signed]
    exact ⟨u, hu, (size_snoc es e).symm.trans_le h.size_le, _,
      insertEntry_next tx g es e u hold.rows hr, rfl, h.tables.symm⟩

/-- `append` either repeats the receipt of the operation or adds one signed entry. -/
theorem append_eq_ok :
    append tx g localKey pair epoch operation mutation = .ok (e, t) ↔
      checkIdentity tx g localKey = .ok () ∧ Platform.publicKey pair = localKey ∧
        ((es.find? (fun a => a.operation = operation) = some e ∧
            e.request = requestHash g.cluster epoch operation mutation ∧ t = tx) ∨
          Appended tx g localKey pair epoch operation mutation es s e t) := by
  by_cases hid : checkIdentity tx g localKey = .ok () ∧ Platform.publicKey pair = localKey
  · obtain ⟨hid, hpair⟩ := hid
    cases hfind : es.find? fun a => a.operation = operation with
    | none =>
      rw [append_fresh tx t g localKey pair epoch operation mutation es s e hold hid hpair hfind]
      simp [hid, hpair]
    | some a =>
      have hop : a.operation = operation := by simpa using List.find?_some hfind
      have hused : ¬ Appended tx g localKey pair epoch operation mutation es s e t := fun h =>
        h.fresh a (List.mem_of_find?_eq_some hfind) hop
      simp only [append, bind_eq_ok, exists_unit_iff, hid, true_and, ensure_eq_ok, hpair, hold.load,
        Except.ok.injEq, exists_eq_left', hold.replayed, hfind, pure_eq_ok, Prod.mk.injEq,
        Option.some.injEq, hused, or_false]
      constructor
      · rintro ⟨hreq, rfl, rfl⟩
        exact ⟨rfl, hreq, rfl⟩
      · rintro ⟨rfl, hreq, rfl⟩
        exact ⟨hreq, rfl, rfl⟩
  · constructor
    · intro h
      simp only [append, bind_eq_ok, exists_unit_iff, ensure_eq_ok] at h
      exact absurd ⟨h.1, h.2.1⟩ hid
    · rintro ⟨h1, h2, -⟩
      exact absurd ⟨h1, h2⟩ hid

end

/-- The `prepared` row of `operation` for the state `s`. -/
def preparedRow (s : State) (localKey : Id) (pair : Platform.Secret) (operation target : Id) :
    Prepared :=
  ⟨operation.data, s.epoch, target.data, (Platform.sign pair (acceptanceBody s.cluster s.epoch
    operation target localKey s.sequence s.head)).data, s.sequence, s.head.data⟩

/-- The Transfer mutation that `prepare` answers. -/
def transferTo (s : State) (localKey : Id) (pair : Platform.Secret) (operation target : Id) :
    Mutation :=
  .Transfer target localKey s.sequence s.head (Platform.sign pair (acceptanceBody s.cluster s.epoch
    operation target localKey s.sequence s.head))

omit [Platform] [LawfulPlatform] in
theorem find_member (s : State) (localKey : Id) (p : Sigma fun _ : Id => Id)
    (h : s.members.entries.find? (fun p => p.2 = localKey) = some p) :
    s.members.lookup p.1 = some localKey := by
  have hk : p.2 = localKey := by simpa using List.find?_some h
  have hmem := List.mem_of_find?_eq_some h
  rw [← hk]
  exact AList.mem_lookup_iff.mpr hmem

/-- What a successful `prepare` has checked, and the row it leaves. -/
theorem prepare_ok (tx t : Tables) (g : Genesis) (localKey : Id) (pair : Platform.Secret)
    (operation : Id) (m : Mutation) (es : List Entry) (s : State) (hold : tx.Holds g es s)
    (h : prepare tx g localKey pair operation = .ok (m, t)) :
    Platform.publicKey pair = localKey ∧ ∃ target, s.members.lookup target = some localKey ∧
      target ≠ s.primary ∧ s.epoch < maxCounter ∧
      m = transferTo s localKey pair operation target ∧
      ((t = tx ∧ ∃ old, tx.prepared.find? (fun p => p.operation = operation.data) = some old ∧
          old.epoch = s.epoch ∧ old.target = target.data ∧
          old.acceptance = (preparedRow s localKey pair operation target).acceptance) ∨
        (tx.prepared.find? (fun p => p.operation = operation.data) = none ∧
          t = { tx with
            prepared := tx.prepared ++ [preparedRow s localKey pair operation target] })) := by
  simp only [prepare, bind_eq_ok, exists_unit_iff, ensure_eq_ok, hold.load, Except.ok.injEq,
    exists_eq_left', hold.replayed, require_eq_ok, not_or, ge_iff_le, UInt64.not_le] at h
  obtain ⟨-, hpair, p, hp, ⟨hprimary, hepoch⟩, h⟩ := h
  refine ⟨hpair, p.1, find_member s localKey p hp, hprimary, hepoch, ?_⟩
  split at h
  · simp only [bind_eq_ok, exists_unit_iff, ensure_eq_ok, pure_eq_ok, Prod.mk.injEq] at h
    obtain ⟨⟨hold1, hold2, hold3⟩, rfl, rfl⟩ := h
    exact ⟨rfl, Or.inl ⟨rfl, _, by assumption, hold1, hold2, hold3⟩⟩
  · simp only [bind_eq_ok, exists_unit_iff, ensure_eq_ok, pure_eq_ok, Prod.mk.injEq] at h
    obtain ⟨-, rfl, rfl⟩ := h
    exact ⟨rfl, Or.inr ⟨by assumption, rfl⟩⟩

theorem Tables.Holds.unique {db : Tables} {g : Genesis} {es es' : List Entry} {s s' : State}
    (h : db.Holds g es s) (h' : db.Holds g es' s') : es = es' ∧ s = s' := by
  have hes : es = es' := Except.ok.inj (h.load.symm.trans h'.load)
  subst hes
  exact ⟨rfl, Except.ok.inj (h.replayed.symm.trans h'.replayed)⟩

omit [LawfulPlatform] in
theorem Tables.Holds.of_append {tx t : Tables} {g : Genesis} {localKey : Id}
    {pair : Platform.Secret} {epoch : UInt64} {operation : Id} {mutation : Mutation}
    {es : List Entry} {s : State} {e : Entry} (hold : tx.Holds g es s)
    (h : Appended tx g localKey pair epoch operation mutation es s e t) :
    ∃ u, s.apply e = .ok u ∧ t.Holds g (es ++ [e]) u := by
  obtain ⟨u, hu⟩ := h.accepted
  have hroom := h.room
  refine ⟨u, hu, ?_, ?_, (Replay.replay_snoc_eq_ok _ _ _ es e).mpr ⟨s, hold.replayed, hu⟩⟩
  · rw [h.tables]
    split <;> rfl
  · rw [List.length_append, List.length_singleton]
    exact hroom

theorem Tables.Holds.of_install {tx t : Tables} {g : Genesis} {localKey : Id}
    {es entries : List Entry} {s : State} (hold : tx.Holds g es s)
    (h : install tx g localKey entries = .ok t) :
    es <+: entries ∧ ∃ s', t.Holds g entries s' := by
  obtain ⟨-, hlen, hp, -, ⟨s', hs'⟩, -, rfl⟩ :=
    (install_eq_ok tx t g localKey es entries s hold).mp h
  exact ⟨hp, s', rfl, hlen, hs'⟩

theorem Tables.Holds.of_prepare {tx t : Tables} {g : Genesis} {localKey : Id}
    {pair : Platform.Secret} {operation : Id} {m : Mutation} {es : List Entry} {s : State}
    (hold : tx.Holds g es s) (h : prepare tx g localKey pair operation = .ok (m, t)) :
    t.Holds g es s := by
  obtain ⟨-, target, -, -, -, -, ht⟩ := prepare_ok tx t g localKey pair operation m es s hold h
  rcases ht with ⟨rfl, -⟩ | ⟨-, rfl⟩
  · exact hold
  · exact ⟨hold.rows, hold.bounded, hold.replayed⟩

end

section
attribute [local instance] residuePlatform

def sampleOperation (s : State) : Id := ⟨beBytes 32 (s.sequence.toNat + 100), beBytes_length 32 _⟩

/-- The journal in which key `n` signs the mutation that follows the state so far, step by step. -/
def sampleJournal : State → List (UInt8 × (State → Mutation)) → List Entry
  | _, [] => []
  | s, (n, m) :: rest =>
    let e := sampleEntry n s (sampleOperation s) (m s)
    e :: sampleJournal (match s.apply e with | .ok t => t | .error _ => s) rest

def sampleAdmit (admission key : UInt8) (_ : State) : Mutation :=
  .Admit (Fixed.fill 32 admission) (Fixed.fill 32 key) (Fixed.fill 32 0) "endpoint"

def sampleTransfer (admission key : UInt8) (s : State) : Mutation :=
  transferTo s (Fixed.fill 32 key) key (sampleOperation s) (Fixed.fill 32 admission)

end

end Rieul.Cluster
