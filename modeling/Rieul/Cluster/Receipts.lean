import Rieul.Cluster.Runtime
import Rieul.Lib.System

/-!
# Idempotent receipts (daemon/host/src/cluster/primary.rs)

The log never drops an entry, and `append` looks an operation up before it
refuses anything that a retry could meet: the seal, the epoch, the primary, the
limits. A repeated operation answers its entry for good, and another request
under its id is a conflict for good.
-/

namespace Rieul.Cluster
open Bytes Fallible Cbor System
open Mutation (blob)

/-- The transcript that `request_hash` hashes. -/
def requestBody (cluster : Id) (epoch : UInt64) (operation : Id) (mutation : Mutation) : Str :=
  (Value.array [.text "rieul.cluster.management-request.v1", blob cluster, .u64 epoch,
    blob operation, mutation.values]).encode

theorem text_last_inj {t t' : String}
    (h : encodeItems [.text t] = encodeItems [.text t']) : t = t' := by
  simp only [encodeItems, Value.encode, List.append_nil] at h
  obtain ⟨-, -, hb⟩ := encodeTypeValue_append_inj 3 3 _ _ _ _ (by omega) (by omega) h
  exact textBytes_inj hb

theorem Mutation.items_last_inj {m m' : Mutation} (h : encodeItems m.items = encodeItems m'.items) :
    m = m' := by
  have h0 : encodeItems m.items ++ [] = encodeItems m'.items ++ [] := by rw [h]
  have h32 : 32 < 2 ^ 64 := by norm_num
  cases m with
  | Admit id key consent endpoint =>
    cases m' with
    | Admit id' key' consent' endpoint' =>
      obtain ⟨-, h0⟩ := u64_items_inj h0
      obtain ⟨hid, h0⟩ := blob_items_inj h32 h0
      obtain ⟨hkey, h0⟩ := blob_items_inj h32 h0
      obtain ⟨hconsent, h0⟩ := blob_items_inj h32 h0
      rw [List.append_nil, List.append_nil] at h0
      rw [hid, hkey, hconsent, text_last_inj h0]
    | _ => exact absurd (u64_items_inj h0).1 (by decide)
  | _ =>
    cases m' with
    | Admit id' key' consent' endpoint' => exact absurd (u64_items_inj h0).1 (by decide)
    | _ => refine (items_inj ?_ ?_ h0).1 <;> trivial

theorem requestBody_inj {cluster operation : Id} {epoch epoch' : UInt64} {m m' : Mutation}
    (h : requestBody cluster epoch operation m = requestBody cluster epoch' operation m') :
    epoch = epoch' ∧ m = m' := by
  have h32 : 32 < 2 ^ 64 := by norm_num
  have h0 : requestBody cluster epoch operation m ++ [] =
      requestBody cluster epoch' operation m' ++ [] := by rw [h]
  obtain ⟨-, h1⟩ := array_append_inj (by simp) (by simp) h0
  obtain ⟨-, h1⟩ := text_items_inj (by decide) (by decide) h1
  obtain ⟨-, h1⟩ := Mutation.blob_items_inj h32 h1
  obtain ⟨hepoch, h1⟩ := u64_items_inj h1
  obtain ⟨-, h1⟩ := Mutation.blob_items_inj h32 h1
  obtain ⟨-, h1⟩ := array_items_inj m.items_length_lt m'.items_length_lt h1
  simp only [encodeItems, List.append_nil] at h1
  exact ⟨hepoch, Mutation.items_last_inj h1⟩

section
variable [Platform]

/-- The hash tells the transcript `body` from the request that `e` stores. -/
def Separates (e : Entry) (body : Str) : Prop :=
  Platform.hash body = e.request → body = requestBody e.cluster e.epoch e.operation e.mutation

section
variable (g : Genesis) (es : List Entry) (s : State) (h : replay g es = .ok s)
include g es s h

theorem replay_operations_nodup : (es.map Entry.operation).Nodup := by
  refine Replay.replay_induction State.apply _ (fun es _ => (es.map Entry.operation).Nodup)
    List.nodup_nil ?_ es s h
  intro as t u e hr ih ha
  have hfresh := (State.Accepts.of_apply ha).operation
  rw [replay_operations g as t hr] at hfresh
  rw [List.map_append, List.map_singleton, List.nodup_append]
  refine ⟨ih, List.nodup_singleton _, ?_⟩
  intro op hop op' hop' heq
  obtain ⟨a, ha, hao⟩ := List.mem_map.mp hop
  rw [List.mem_singleton] at hop'
  exact hfresh ⟨a, ha, hao.trans (heq.trans hop')⟩

theorem replay_find (e : Entry)
    (he : e ∈ es) : es.find? (fun a => a.operation = e.operation) = some e := by
  cases hf : es.find? fun a => a.operation = e.operation with
  | none =>
    have hno := List.find?_eq_none.mp hf e he
    simp at hno
  | some a =>
    have hop : a.operation = e.operation := by simpa using List.find?_some hf
    have hmem := List.mem_of_find?_eq_some hf
    rw [List.inj_on_of_nodup_map (replay_operations_nodup g es s h) hmem he hop]

theorem replay_request (e : Entry) (he : e ∈ es) :
    e.request = requestHash g.cluster e.epoch e.operation e.mutation := by
  have hc := replay_entry_cluster g es e s h he
  obtain ⟨as, bs, t, u, -, -, hu⟩ := replay_mem g es e s h he
  rw [← hc]
  exact (State.Accepts.of_apply hu).request

end

variable [LawfulPlatform]

theorem append_receipt (tx : Tables) (g : Genesis) (pair : Platform.Secret) (es : List Entry)
    (s : State) (e : Entry) (epoch : UInt64) (mutation : Mutation) (hold : tx.Holds g es s)
    (hid : checkIdentity tx g (Platform.publicKey pair) = .ok ()) (he : e ∈ es) :
    append tx g (Platform.publicKey pair) pair epoch e.operation mutation =
      if e.request = requestHash g.cluster epoch e.operation mutation then .ok (e, tx)
      else .error .conflict := by
  have hfind := replay_find g es s hold.replayed e he
  rw [append, hid, ok_bind, ensure_of _ _ rfl, ok_bind, hold.load, ok_bind, hold.replayed, ok_bind]
  simp only [hfind]
  split
  · next h => rw [ensure_of _ _ h]; rfl
  · next h => simp [ensure, h, bind, Except.bind]

def SameRequest (e : Entry) (epoch : UInt64) (mutation : Mutation) : Prop :=
  epoch = e.epoch ∧ mutation = e.mutation

omit [LawfulPlatform] in
theorem request_eq_iff (g : Genesis) (es : List Entry) (s : State) (h : replay g es = .ok s)
    (e : Entry) (he : e ∈ es) (epoch : UInt64) (mutation : Mutation)
    (hsep : Separates e (requestBody g.cluster epoch e.operation mutation)) :
    e.request = requestHash g.cluster epoch e.operation mutation ↔ SameRequest e epoch mutation := by
  constructor
  · intro hreq
    have hbody := hsep hreq.symm
    rw [replay_entry_cluster g es e s h he] at hbody
    exact requestBody_inj hbody
  · intro hsame
    rw [hsame.1, hsame.2]
    exact replay_request g es s h e he

section
variable (g : Genesis) (pair : Platform.Secret)

inductive Store.Step (tx : Tables) : Tables → Prop where
  | commit (epoch : UInt64) (operation : Id) (mutation : Mutation) (e : Entry) (t : Tables)
      (h : append tx g (Platform.publicKey pair) pair epoch operation mutation = .ok (e, t)) :
      Step tx t
  | prepare (operation : Id) (mutation : Mutation) (t : Tables)
      (h : prepare tx g (Platform.publicKey pair) pair operation = .ok (mutation, t)) : Step tx t
  | install (entries : List Entry) (t : Tables)
      (h : install tx g (Platform.publicKey pair) entries = .ok t) : Step tx t
  | reopen : Step tx (openStore tx g (Platform.publicKey pair)).1

/-- The tables that `Store::open` creates. -/
def Store.Initial (tx : Tables) : Prop :=
  tx = createIdentity Tables.empty g (Platform.publicKey pair)

def Store.Reached (tx : Tables) : Prop :=
  Reachable (Store.Initial g pair) (Store.Step g pair) tx

/-- `tx'` is a later state of the node that has the tables `tx`. -/
def Store.Later (tx tx' : Tables) : Prop := Reachable (fun t => t = tx) (Store.Step g pair) tx'

end

section
variable {g : Genesis} {pair : Platform.Secret}

omit [LawfulPlatform] in
theorem checkIdentity_setSealed (tx : Tables) (key : Id) (flag : Bool)
    (h : checkIdentity tx g key = .ok ()) : checkIdentity (setSealed tx flag) g key = .ok () := by
  simp only [checkIdentity, bind_eq_ok, require_eq_ok, ensure_eq_ok] at h ⊢
  obtain ⟨i, hi, hkeys⟩ := h
  exact ⟨{ i with sealed := flag }, by rw [setSealed, hi]; rfl, hkeys⟩

theorem Store.Step.grows {tx t : Tables} (h : Store.Step g pair tx t) (es : List Entry) (s : State)
    (hold : tx.Holds g es s) (hid : checkIdentity tx g (Platform.publicKey pair) = .ok ()) :
    checkIdentity t g (Platform.publicKey pair) = .ok () ∧
      ∃ es' s', t.Holds g es' s' ∧ es <+: es' := by
  cases h with
  | commit epoch operation mutation e t happ =>
    obtain ⟨-, -, hcase⟩ := (append_eq_ok tx t g _ pair epoch operation mutation es s e hold).mp happ
    rcases hcase with ⟨-, -, rfl⟩ | hnew
    · exact ⟨hid, es, s, hold, List.prefix_rfl⟩
    · obtain ⟨u, -, hold'⟩ := hold.of_append hnew
      refine ⟨?_, es ++ [e], u, hold', List.prefix_append es [e]⟩
      rw [hnew.tables]
      split
      · exact checkIdentity_setSealed _ _ _ hid
      · exact hid
  | prepare operation mutation t hprep =>
    obtain ⟨-, target, -, -, -, -, ht⟩ := prepare_ok tx t g _ pair operation mutation es s hold hprep
    rcases ht with ⟨rfl, -⟩ | ⟨-, rfl⟩
    · exact ⟨hid, es, s, hold, List.prefix_rfl⟩
    · exact ⟨hid, es, s, ⟨hold.rows, hold.bounded, hold.replayed⟩, List.prefix_rfl⟩
  | install entries t hinst =>
    obtain ⟨hp, s', hold'⟩ := hold.of_install hinst
    obtain ⟨-, -, -, -, -, -, rfl⟩ := (install_eq_ok tx t g _ es entries s hold).mp hinst
    exact ⟨checkIdentity_installed _ _ _ _ _ _ hid, entries, s', hold', hp⟩
  | reopen =>
    have hopen : (openStore tx g (Platform.publicKey pair)).1 = tx :=
      createIdentity_of_check tx g _ hid
    rw [hopen]
    exact ⟨hid, es, s, hold, List.prefix_rfl⟩

theorem Store.Later.grows {tx tx' : Tables} (h : Store.Later g pair tx tx') (es : List Entry)
    (s : State) (hold : tx.Holds g es s)
    (hid : checkIdentity tx g (Platform.publicKey pair) = .ok ()) :
    checkIdentity tx' g (Platform.publicKey pair) = .ok () ∧
      ∃ es' s', tx'.Holds g es' s' ∧ es <+: es' := by
  refine h.invariant (fun t => checkIdentity t g (Platform.publicKey pair) = .ok () ∧
    ∃ es' s', t.Holds g es' s' ∧ es <+: es') ?_ ?_
  · intro t ht
    rw [ht]
    exact ⟨hid, es, s, hold, List.prefix_rfl⟩
  · intro t u ht hstep
    obtain ⟨hidt, es', s', hold', hp⟩ := ht
    obtain ⟨hidu, es'', s'', hold'', hp'⟩ := hstep.grows es' s' hold' hidt
    exact ⟨hidu, es'', s'', hold'', hp.trans hp'⟩

theorem Store.Reached.holds {tx : Tables} (h : Store.Reached g pair tx) :
    checkIdentity tx g (Platform.publicKey pair) = .ok () ∧ ∃ es s, tx.Holds g es s := by
  refine h.invariant (fun t => checkIdentity t g (Platform.publicKey pair) = .ok () ∧
    ∃ es s, t.Holds g es s) ?_ ?_
  · intro t ht
    rw [ht]
    exact ⟨by simp [checkIdentity, createIdentity, Tables.empty], [], State.genesis g, rfl,
      Nat.zero_le _, rfl⟩
  · intro t u ht hstep
    obtain ⟨hid, es, s, hold⟩ := ht
    obtain ⟨hidu, es', s', hold', -⟩ := hstep.grows es s hold hid
    exact ⟨hidu, es', s', hold'⟩

end

/-- What a commit under the operation of `e` does to the tables `tx`: the same request answers
`e`, another one is a conflict. The handlers ask for authorization first, and `commit_admission`
for nothing else that could fail. -/
structure Answers (g : Genesis) (pair : Platform.Secret) (e : Entry) (tx : Tables) : Prop where
  same : append tx g (Platform.publicKey pair) pair e.epoch e.operation e.mutation = .ok (e, tx)
  other : ∀ epoch mutation, ¬ SameRequest e epoch mutation →
    Separates e (requestBody g.cluster epoch e.operation mutation) →
      append tx g (Platform.publicKey pair) pair epoch e.operation mutation = .error .conflict
  authorized : ∀ (n : Node) (db : Database) (auth : Authorized) (now expires : Int64), n.g = g →
    n.pair = pair → db.tables = tx → authorizeTransaction db n auth now = .ok () →
      commitAuthorized n db auth now e.epoch e.operation e.mutation = .ok (e, db) ∧
      commitAdmission n db auth now e.epoch e.operation e.mutation expires = .ok (e, db) ∧
      ∀ epoch mutation, ¬ SameRequest e epoch mutation →
        Separates e (requestBody g.cluster epoch e.operation mutation) →
          commitAuthorized n db auth now epoch e.operation mutation = .error .conflict ∧
          commitAdmission n db auth now epoch e.operation mutation expires = .error .conflict

theorem Answers.of_holds {g : Genesis} {pair : Platform.Secret} {tx : Tables} {es : List Entry}
    {s : State} {e : Entry} (hold : tx.Holds g es s)
    (hid : checkIdentity tx g (Platform.publicKey pair) = .ok ()) (he : e ∈ es) :
    Answers g pair e tx := by
  have hreq := replay_request g es s hold.replayed e he
  have hsame : append tx g (Platform.publicKey pair) pair e.epoch e.operation e.mutation =
      .ok (e, tx) := by
    rw [append_receipt tx g pair es s e _ _ hold hid he, if_pos hreq]
  have hdiffer : ∀ epoch mutation, ¬ SameRequest e epoch mutation →
      Separates e (requestBody g.cluster epoch e.operation mutation) →
        e.request ≠ requestHash g.cluster epoch e.operation mutation := by
    intro epoch mutation hne hsep
    exact fun heq => hne ((request_eq_iff g es s hold.replayed e he epoch mutation hsep).mp heq)
  have hother : ∀ epoch mutation, ¬ SameRequest e epoch mutation →
      Separates e (requestBody g.cluster epoch e.operation mutation) →
        append tx g (Platform.publicKey pair) pair epoch e.operation mutation = .error .conflict := by
    intro epoch mutation hne hsep
    rw [append_receipt tx g pair es s e _ _ hold hid he, if_neg (hdiffer epoch mutation hne hsep)]
  refine ⟨hsame, hother, ?_⟩
  intro n db auth now expires hg hpair htables hauth
  have hkey : n.key = Platform.publicKey pair := by rw [Node.key, hpair]
  subst hg htables
  rw [← hpair] at hsame hother hid
  have hfind := replay_find n.g es s hold.replayed e he
  have hcommit : appendTransaction n db e.epoch e.operation e.mutation = .ok (e, db) := by
    rw [appendTransaction, Node.key, hsame]
    rfl
  have hrefuse : ∀ epoch mutation, ¬ SameRequest e epoch mutation →
      Separates e (requestBody n.g.cluster epoch e.operation mutation) →
        appendTransaction n db epoch e.operation mutation = .error .conflict := by
    intro epoch mutation hne hsep
    rw [appendTransaction, Node.key, hother epoch mutation hne hsep]
    rfl
  -- the receipt is checked before the consent's expiry
  have hcommission : ∀ epoch mutation, commitAdmission n db auth now epoch e.operation mutation expires =
      (checkReceipt n es epoch e.operation mutation expires now >>= fun _ =>
        appendTransaction n db epoch e.operation mutation) := by
    intro epoch mutation
    rw [commitAdmission, hauth, ok_bind, Node.key, hid, hold.load]
    rfl
  refine ⟨?_, ?_, fun epoch mutation hne hsep => ⟨?_, ?_⟩⟩
  · rw [commitAuthorized, hauth, ok_bind, hcommit]
  · simp only [hcommission, checkReceipt, hfind]
    rw [ensure_of _ _ hreq, ok_bind, hcommit]
  · rw [commitAuthorized, hauth, ok_bind, hrefuse epoch mutation hne hsep]
  · simp only [hcommission, checkReceipt, hfind]
    rw [ensure, if_neg (hdiffer epoch mutation hne hsep)]
    rfl

theorem idempotent_receipts (g : Genesis) (pair : Platform.Secret) :
    (∀ (tx tx' : Tables) (es : List Entry) (e : Entry), Store.Reached g pair tx →
      load tx g.cluster = .ok es → e ∈ es → Store.Later g pair tx tx' → Answers g pair e tx') ∧
    ∀ tx, Store.Reached g pair tx → (tx.log.map Row.operation).Nodup := by
  constructor
  · intro tx tx' es e hreach hes he hlater
    obtain ⟨hid, es0, s, hold⟩ := hreach.holds
    obtain rfl := Except.ok.inj (hes.symm.trans hold.load)
    obtain ⟨hid', es', s', hold', hp⟩ := hlater.grows es s hold hid
    exact Answers.of_holds hold' hid' (hp.subset he)
  · intro tx hreach
    obtain ⟨-, es, s, hold⟩ := hreach.holds
    have hnodup := replay_operations_nodup g es s hold.replayed
    have hrows : tx.log.map Row.operation = (es.map Entry.operation).map Fixed.data := by
      rw [hold.rows, List.map_map, List.map_map]
      rfl
    rw [hrows]
    exact hnodup.map fun a b hab => Fixed.ext' hab

end

section
attribute [local instance] residuePlatform residuePlatform_lawful

def sampleStore : Tables := createIdentity Tables.empty sampleGenesis (Fixed.fill 32 1)

def sampleCommits : Except Error (Tables × Tables) := do
  let (_, t) ← append sampleStore sampleGenesis (Fixed.fill 32 1) (1 : UInt8) 1 (Fixed.fill 32 20)
    (.Remove (Fixed.fill 32 2))
  let (_, t') ← append t sampleGenesis (Fixed.fill 32 1) (1 : UInt8) 1 (Fixed.fill 32 21)
    (.Revoke (Fixed.fill 32 5))
  pure (t, t')

theorem idempotent_receipts_sample : ∃ e tx tx', load tx sampleGenesis.cluster = .ok [e] ∧
    tx'.log.length = 2 ∧ Answers sampleGenesis (1 : UInt8) e tx' := by
  obtain ⟨⟨t, t'⟩, hrun, hlen⟩ := exists_of_any sampleCommits.toOption
    (fun p => p.2.log.length == 2) (by decide +kernel)
  have hrun' := eq_ok_of_toOption hrun
  simp only [sampleCommits, bind_eq_ok, pure_eq_ok, Prod.mk.injEq, Prod.exists] at hrun'
  obtain ⟨e, t1, h1, e', t2, h2, rfl, rfl⟩ := hrun'
  have hold : sampleStore.Holds sampleGenesis [] (State.genesis sampleGenesis) :=
    ⟨rfl, Nat.zero_le _, rfl⟩
  obtain ⟨-, -, hcase⟩ := (append_eq_ok _ _ _ _ _ _ _ _ [] _ e hold).mp h1
  rcases hcase with ⟨hfind, -⟩ | hnew
  · cases hfind
  obtain ⟨u, -, hold'⟩ := hold.of_append hnew
  have hreach : Store.Reached sampleGenesis (1 : UInt8) t1 :=
    .next _ _ (.start _ rfl) (.commit 1 _ _ e t1 h1)
  exact ⟨e, t1, t2, hold'.load, by simpa using hlen,
    (idempotent_receipts sampleGenesis (1 : UInt8)).1 t1 t2 [e] e hreach hold'.load
      List.mem_cons_self (.next _ _ (.start _ rfl) (.commit 1 _ _ e' t2 h2))⟩

end

end Rieul.Cluster
