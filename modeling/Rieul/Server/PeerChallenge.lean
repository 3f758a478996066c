import Mathlib.Data.List.Induction
import Mathlib.Tactic.ByContra
import Mathlib.Data.List.Nodup
import Rieul.Lib.Bytes
import Rieul.Lib.Trace

/-!
# Cluster challenges (daemon/host/src/server/cluster_rpc.rs)

One table holds the challenge of each connection. `GetClusterPeerChallenge` puts a
nonce into it, three procedures take one out of use before they check anything else,
and the end of a connection removes its entry. Instants are nanoseconds.
-/

namespace Rieul.Server.PeerChallenge
open Bytes

def second : ℕ := 1000000000

structure PendingPeerChallenge where
  connection : UInt64
  nonce : Fixed 32
  issued : ℕ
  used : Bool

inductive Procedure where
  | executeClusterPeerRequest
  | readClusterJoinHistory
  | authenticateClusterClient
  deriving DecidableEq

inductive Event where
  | issued (connection : UInt64) (nonce : Str) (instant : ℕ)
  | accepted (procedure : Procedure) (connection : UInt64) (nonce : Str) (instant : ℕ)
  | cleaned (connection : UInt64)
  deriving DecidableEq

structure Host where
  now : ℕ := 0
  challenges : List PendingPeerChallenge := []
  history : List Event := []

/-- What a procedure answers; `done` is the answer of the code that follows the challenge. -/
inductive Response where
  | challenge (nonce : Fixed 32)
  | limitExceeded
  | unauthorized
  | done (ok : Bool)

namespace Host

def has (h : Host) (connection : UInt64) : Bool := h.challenges.any (·.connection = connection)

/-- `ConnectionCleanup::drop`. -/
def cleanup (h : Host) (connection : UInt64) : Host :=
  { h with
    challenges := h.challenges.filter (·.connection ≠ connection)
    history := .cleaned connection :: h.history }

/-- The challenges that `fresh_peer_challenge` retains. -/
def retain (h : Host) : Host :=
  { h with challenges := h.challenges.filter (h.now - ·.issued < 5 * second) }

def insert (h : Host) (connection : UInt64) (nonce : Fixed 32) : Host :=
  { h with
    challenges := ⟨connection, nonce, h.now, false⟩ :: h.challenges.filter (·.connection ≠ connection)
    history := .issued connection nonce.data h.now :: h.history }

/-- `fill` is what the random source gives. -/
def freshPeerChallenge (h : Host) (connection : UInt64) (fill : Option (Fixed 32)) :
    Host × Option (Fixed 32) :=
  let h := h.retain
  if h.challenges.any (fun c => c.connection = connection && h.now - c.issued < second) ||
      h.challenges.length ≥ 128 && !h.has connection then (h, none)
  else
    match fill with
    | none => (h, none)
    | some nonce => (h.insert connection nonce, some nonce)

def use (h : Host) (procedure : Procedure) (connection : UInt64) (nonce : Str) : Host :=
  { h with
    challenges := h.challenges.map fun c => if c.connection = connection then { c with used := true } else c
    history := .accepted procedure connection nonce h.now :: h.history }

def consumePeerChallenge (h : Host) (procedure : Procedure) (connection : UInt64) (nonce : Str) :
    Host × Bool :=
  match h.challenges.find? (·.connection = connection) with
  | none => (h, false)
  | some c =>
    if c.used || h.now - c.issued ≥ 5 * second || c.nonce.data ≠ nonce then (h, false)
    else (h.use procedure connection nonce, true)

/-- `described` says that the challenge of the runtime could be made. -/
def getClusterPeerChallenge (h : Host) (connection : UInt64) (fill : Option (Fixed 32))
    (described : Bool) : Host × Response :=
  match h.freshPeerChallenge connection fill with
  | (h, none) => (h, .limitExceeded)
  | (h, some nonce) => (h, if described then .challenge nonce else .unauthorized)

/-- A request that is for the connection consumes the challenge; `rest` is what follows. -/
def challenged (h : Host) (procedure : Procedure) (connection : UInt64) (addressed : Bool)
    (nonce : Str) (rest : Bool) : Host × Response :=
  if addressed then
    match h.consumePeerChallenge procedure connection nonce with
    | (h, false) => (h, .unauthorized)
    | (h, true) => (h, .done rest)
  else (h, .unauthorized)

def executeClusterPeerRequest (h : Host) (connection : UInt64) (connectionId : Int64) (nonce : Str)
    (rest : Bool) : Host × Response :=
  h.challenged .executeClusterPeerRequest connection
    (!(connectionId ≤ 0 || connectionId.toUInt64 ≠ connection)) nonce rest

def readClusterJoinHistory (h : Host) (connection : UInt64) (connectionId : Int64) (nonce : Str)
    (rest : Bool) : Host × Response :=
  h.challenged .readClusterJoinHistory connection (connectionId = connection.toInt64) nonce rest

def authenticateClusterClient (h : Host) (connection : UInt64) (connectionId : Int64) (nonce : Str)
    (rest : Bool) : Host × Response :=
  h.challenged .authenticateClusterClient connection (connectionId = connection.toInt64) nonce rest

end Host

inductive Step where
  | wait (nanoseconds : ℕ)
  | challenge (connection : UInt64) (fill : Option (Fixed 32)) (described : Bool)
  | execute (connection : UInt64) (connectionId : Int64) (nonce : Str) (rest : Bool)
  | readHistory (connection : UInt64) (connectionId : Int64) (nonce : Str) (rest : Bool)
  | authenticate (connection : UInt64) (connectionId : Int64) (nonce : Str) (rest : Bool)
  | disconnect (connection : UInt64)

def Host.step (h : Host) : Step → Host
  | .wait nanoseconds => { h with now := h.now + nanoseconds }
  | .challenge connection fill described => (h.getClusterPeerChallenge connection fill described).1
  | .execute connection connectionId nonce rest =>
    (h.executeClusterPeerRequest connection connectionId nonce rest).1
  | .readHistory connection connectionId nonce rest =>
    (h.readClusterJoinHistory connection connectionId nonce rest).1
  | .authenticate connection connectionId nonce rest =>
    (h.authenticateClusterClient connection connectionId nonce rest).1
  | .disconnect connection => h.cleanup connection

def Host.run (h : Host) (steps : List Step) : Host := steps.foldl Host.step h

def Event.Spares (connection : UInt64) : Event → Prop
  | issued other _ _ => other ≠ connection
  | accepted _ other _ _ => other ≠ connection
  | cleaned other => other ≠ connection

/-- A nonce is issued a second after the last one, unless the connection ended in between. It
is accepted on the connection it was the last one for, within five seconds, and once. -/
def Justified (event : Event) (before : List Event) : Prop :=
  match event with
  | .issued connection _ instant => ∀ between nonce earlier old,
      before = between ++ .issued connection nonce earlier :: old → .cleaned connection ∉ between →
        earlier + second ≤ instant
  | .accepted _ connection nonce instant => ∃ between earlier old,
      before = between ++ .issued connection nonce earlier :: old ∧
        (∀ e ∈ between, e.Spares connection) ∧ earlier ≤ instant ∧ instant < earlier + 5 * second
  | .cleaned _ => True

def Event.issues (nonce : Str) : Event → Bool
  | issued _ other _ => other = nonce
  | _ => false

def Event.accepts (nonce : Str) : Event → Bool
  | accepted _ _ other _ => other = nonce
  | _ => false

def nonces (history : List Event) : List Str :=
  history.filterMap fun
    | .issued _ nonce _ => some nonce
    | _ => none

structure Host.Entered (h : Host) (c : PendingPeerChallenge) : Prop where
  issued : ∃ between old, h.history = between ++ .issued c.connection c.nonce.data c.issued :: old ∧
    (∀ e ∈ between, (c.used = true ∧ ∃ p n t, e = .accepted p c.connection n t) ∨ e.Spares c.connection)
  past : c.issued ≤ h.now

structure Host.Kept (h : Host) : Prop where
  bound : h.challenges.length ≤ 128
  unique : (h.challenges.map PendingPeerChallenge.connection).Nodup
  entered : ∀ c ∈ h.challenges, h.Entered c
  recent : ∀ connection between nonce earlier old,
    h.history = between ++ .issued connection nonce earlier :: old → .cleaned connection ∉ between →
      h.now < earlier + second → ∃ c ∈ h.challenges, c.connection = connection ∧ earlier ≤ c.issued
  counted : ∀ nonce, h.history.countP (Event.accepts nonce) +
    h.challenges.countP (fun c => !c.used && c.nonce.data = nonce) ≤ h.history.countP (Event.issues nonce)
  sound : Trace.Sound Justified h.history

namespace Host
variable {h : Host}

theorem Kept.wait (hk : h.Kept) (nanoseconds : ℕ) : { h with now := h.now + nanoseconds }.Kept := by
  refine ⟨hk.bound, hk.unique, ?_, ?_, hk.counted, hk.sound⟩
  · intro c hc
    exact ⟨(hk.entered c hc).issued, le_trans (hk.entered c hc).past (Nat.le_add_right _ _)⟩
  · intro connection between nonce earlier old hhistory hclean hnow
    exact hk.recent connection between nonce earlier old hhistory hclean
      (lt_of_le_of_lt (Nat.le_add_right _ _) hnow)

theorem Kept.retain (hk : h.Kept) : h.retain.Kept := by
  refine ⟨?_, ?_, ?_, ?_, ?_, hk.sound⟩
  · exact le_trans (List.length_filter_le _ _) hk.bound
  · exact hk.unique.sublist (List.filter_sublist.map _)
  · intro c hc
    have hentered := hk.entered c (List.mem_filter.mp hc).1
    exact ⟨hentered.issued, hentered.past⟩
  · intro connection between nonce earlier old hhistory hclean hnow
    obtain ⟨c, hc, hconnection, hlater⟩ :=
      hk.recent connection between nonce earlier old hhistory hclean hnow
    refine ⟨c, ?_, hconnection, hlater⟩
    change h.now < earlier + second at hnow
    simp only [Host.retain, List.mem_filter, hc, true_and, decide_eq_true_eq]
    simp only [second] at hnow ⊢
    omega
  · intro nonce
    have hle := (List.filter_sublist (p := fun c : PendingPeerChallenge =>
      decide (h.now - c.issued < 5 * second)) (l := h.challenges)).countP_le
      (p := fun c => !c.used && decide (c.nonce.data = nonce))
    exact le_trans (Nat.add_le_add_left hle _) (hk.counted nonce)

theorem Kept.cleanup (hk : h.Kept) (connection : UInt64) : (h.cleanup connection).Kept := by
  refine ⟨?_, ?_, ?_, ?_, ?_, trivial, hk.sound⟩
  · exact le_trans (List.length_filter_le _ _) hk.bound
  · exact hk.unique.sublist (List.filter_sublist.map _)
  · intro c hc
    simp only [Host.cleanup, List.mem_filter, decide_eq_true_eq] at hc
    obtain ⟨⟨between, old, hhistory, hbetween⟩, hpast⟩ := hk.entered c hc.1
    refine ⟨⟨.cleaned connection :: between, old, ?_, ?_⟩, hpast⟩
    · simp only [Host.cleanup, hhistory, List.cons_append]
    · intro e he
      rcases List.mem_cons.mp he with rfl | he
      · exact .inr hc.2.symm
      · exact hbetween e he
  · intro other between nonce earlier old hhistory hclean hnow
    cases between with
    | nil => cases hhistory
    | cons e between =>
      obtain ⟨rfl, hbefore⟩ := List.cons.inj hhistory
      rw [List.mem_cons, not_or] at hclean
      obtain ⟨c, hc, hconnection, hlater⟩ :=
        hk.recent other between nonce earlier old hbefore hclean.2 hnow
      refine ⟨c, ?_, hconnection, hlater⟩
      simp only [Host.cleanup, List.mem_filter, hc, true_and, decide_eq_true_eq, hconnection]
      exact fun heq => hclean.1 (by rw [heq])
  · intro nonce
    have hle := (List.filter_sublist (p := fun c : PendingPeerChallenge =>
      decide (c.connection ≠ connection)) (l := h.challenges)).countP_le
      (p := fun c => !c.used && decide (c.nonce.data = nonce))
    have hcounted := hk.counted nonce
    simp only [Host.cleanup, List.countP_cons, Event.accepts, Event.issues]
    simp only [Bool.false_eq_true, if_false, Nat.add_zero]
    omega

theorem has_iff (connection : UInt64) :
    h.has connection = true ↔ ∃ c ∈ h.challenges, c.connection = connection := by
  simp [Host.has]

theorem Kept.insert (hk : h.Kept) (connection : UInt64) (nonce : Fixed 32)
    (hrate : ∀ c ∈ h.challenges, c.connection = connection → second ≤ h.now - c.issued)
    (hroom : h.challenges.length < 128 ∨ h.has connection = true) :
    (h.insert connection nonce).Kept := by
  refine ⟨?_, ?_, ?_, ?_, ?_, ?_, hk.sound⟩
  · have hle := List.length_filter_le (fun c : PendingPeerChallenge => decide (c.connection ≠ connection))
      h.challenges
    simp only [Host.insert, List.length_cons]
    rcases hroom with hroom | hhas
    · omega
    · obtain ⟨c, hc, hconnection⟩ := (has_iff connection).mp hhas
      have hlt : (h.challenges.filter fun c => decide (c.connection ≠ connection)).length <
          h.challenges.length :=
        List.length_filter_lt_length_iff_exists.mpr ⟨c, hc, by simp [hconnection]⟩
      have hbound := hk.bound
      omega
  · simp only [Host.insert, List.map_cons, List.nodup_cons]
    refine ⟨?_, hk.unique.sublist (List.filter_sublist.map _)⟩
    intro hmem
    obtain ⟨c, hc, hconnection⟩ := List.mem_map.mp hmem
    simp [hconnection] at hc
  · intro c hc
    rcases List.mem_cons.mp hc with rfl | hc
    · exact ⟨⟨[], h.history, rfl, fun e he => absurd he List.not_mem_nil⟩, le_rfl⟩
    · simp only [List.mem_filter, decide_eq_true_eq] at hc
      obtain ⟨⟨between, old, hhistory, hbetween⟩, hpast⟩ := hk.entered c hc.1
      refine ⟨⟨.issued connection nonce.data h.now :: between, old, ?_, ?_⟩, hpast⟩
      · simp only [Host.insert, hhistory, List.cons_append]
      · intro e he
        rcases List.mem_cons.mp he with rfl | he
        · exact .inr hc.2.symm
        · exact hbetween e he
  · intro other between last earlier old hhistory hclean hnow
    cases between with
    | nil =>
      cases hhistory
      exact ⟨_, List.mem_cons_self, rfl, le_rfl⟩
    | cons e between =>
      obtain ⟨rfl, hbefore⟩ := List.cons.inj hhistory
      rw [List.mem_cons, not_or] at hclean
      obtain ⟨c, hc, hconnection, hlater⟩ :=
        hk.recent other between last earlier old hbefore hclean.2 hnow
      by_cases heq : other = connection
      · exact ⟨_, List.mem_cons_self, heq.symm, le_trans hlater (hk.entered c hc).past⟩
      · refine ⟨c, List.mem_cons_of_mem _ ?_, hconnection, hlater⟩
        simp [hc, hconnection, heq]
  · intro other
    have hle := (List.filter_sublist (p := fun c : PendingPeerChallenge =>
      decide (c.connection ≠ connection)) (l := h.challenges)).countP_le
      (p := fun c => !c.used && decide (c.nonce.data = other))
    have hcounted := hk.counted other
    simp only [Host.insert, List.countP_cons, Event.accepts, Event.issues]
    simp only [Bool.false_eq_true, if_false, Nat.add_zero, Bool.not_false, Bool.true_and,
      decide_eq_true_eq]
    omega
  · intro between last earlier old hhistory hclean
    by_contra hsoon
    obtain ⟨c, hc, hconnection, hlater⟩ :=
      hk.recent connection between last earlier old hhistory hclean (by omega)
    have hsecond := hrate c hc hconnection
    have hpast := (hk.entered c hc).past
    omega

theorem Kept.freshPeerChallenge (hk : h.Kept) (connection : UInt64) (fill : Option (Fixed 32)) :
    (h.freshPeerChallenge connection fill).1.Kept := by
  have hretained := hk.retain
  unfold Host.freshPeerChallenge
  dsimp only
  split
  · exact hretained
  · rename_i hfree
    rw [Bool.or_eq_true, not_or, List.any_eq_true, Bool.and_eq_true, not_and, not_exists] at hfree
    obtain ⟨hrate, hroom⟩ := hfree
    split
    · exact hretained
    · apply hretained.insert
      · intro c hc hconnection
        by_contra hsoon
        have hrecent : h.retain.now - c.issued < second := not_le.mp hsoon
        exact hrate c ⟨hc, by simp [hconnection, hrecent]⟩
      · by_cases hlength : h.retain.challenges.length < 128
        · exact .inl hlength
        · right
          have hhas := hroom (by simpa using hlength)
          simpa using hhas

theorem countP_use (challenges : List PendingPeerChallenge) (connection : UInt64) (nonce : Str)
    (c : PendingPeerChallenge) (hc : c ∈ challenges) (hconnection : c.connection = connection)
    (hused : c.used = false) :
    (challenges.map fun c => if c.connection = connection then { c with used := true } else c).countP
        (fun c => !c.used && c.nonce.data = nonce) + (if c.nonce.data = nonce then 1 else 0) ≤
      challenges.countP (fun c => !c.used && c.nonce.data = nonce) := by
  have hle : ∀ challenges : List PendingPeerChallenge,
      (challenges.map fun c => if c.connection = connection then { c with used := true } else c).countP
        (fun c => !c.used && c.nonce.data = nonce) ≤
      challenges.countP (fun c => !c.used && c.nonce.data = nonce) := by
    intro challenges
    induction challenges with
    | nil => exact le_rfl
    | cons d rest ih =>
      rw [List.map_cons, List.countP_cons, List.countP_cons]
      by_cases hd : d.connection = connection
      · simp only [hd, if_true, Bool.not_true, Bool.false_and, Bool.false_eq_true, if_false]
        omega
      · simp only [hd, if_false]
        omega
  induction challenges with
  | nil => exact absurd hc List.not_mem_nil
  | cons d rest ih =>
    rw [List.map_cons, List.countP_cons, List.countP_cons]
    rcases List.mem_cons.mp hc with rfl | hc
    · have hrest := hle rest
      simp only [hconnection, if_true, Bool.not_true, Bool.false_and, Bool.false_eq_true, if_false,
        hused, Bool.not_false, Bool.true_and, decide_eq_true_eq]
      omega
    · have hrest := ih hc
      by_cases hd : d.connection = connection
      · simp only [hd, if_true, Bool.not_true, Bool.false_and, Bool.false_eq_true, if_false]
        omega
      · simp only [hd, if_false]
        omega

theorem Kept.use (hk : h.Kept) (procedure : Procedure) (c : PendingPeerChallenge)
    (hc : c ∈ h.challenges) (hused : c.used = false) (htime : h.now - c.issued < 5 * second) :
    (h.use procedure c.connection c.nonce.data).Kept := by
  refine ⟨?_, ?_, ?_, ?_, ?_, ?_, hk.sound⟩
  · simpa [Host.use] using hk.bound
  · have hmap : (h.use procedure c.connection c.nonce.data).challenges.map
        PendingPeerChallenge.connection = h.challenges.map PendingPeerChallenge.connection := by
      rw [Host.use, List.map_map]
      apply List.map_congr_left
      intro d _
      rw [Function.comp_apply]
      split <;> rfl
    rw [hmap]
    exact hk.unique
  · intro marked hmarked
    obtain ⟨d, hd, rfl⟩ := List.mem_map.mp hmarked
    obtain ⟨⟨between, old, hhistory, hbetween⟩, hpast⟩ := hk.entered d hd
    have hnew : (h.use procedure c.connection c.nonce.data).history =
        (.accepted procedure c.connection c.nonce.data h.now :: between) ++
          .issued d.connection d.nonce.data d.issued :: old := by
      simp only [Host.use, hhistory, List.cons_append]
    split
    · rename_i hconnection
      refine ⟨⟨_, old, hnew, ?_⟩, hpast⟩
      intro e he
      rcases List.mem_cons.mp he with rfl | he
      · exact .inl ⟨rfl, procedure, c.nonce.data, h.now, by rw [hconnection]⟩
      · exact (hbetween e he).imp_left fun haccepted => ⟨rfl, haccepted.2⟩
    · rename_i hconnection
      refine ⟨⟨_, old, hnew, ?_⟩, hpast⟩
      intro e he
      rcases List.mem_cons.mp he with rfl | he
      · exact .inr fun heq => hconnection heq.symm
      · exact hbetween e he
  · intro connection between last earlier old hhistory hclean hnow
    cases between with
    | nil => cases hhistory
    | cons e between =>
      obtain ⟨rfl, hbefore⟩ := List.cons.inj hhistory
      rw [List.mem_cons, not_or] at hclean
      obtain ⟨d, hd, hconnection, hlater⟩ :=
        hk.recent connection between last earlier old hbefore hclean.2 hnow
      refine ⟨_, List.mem_map_of_mem hd, ?_, ?_⟩
      · split
        · exact hconnection
        · exact hconnection
      · split
        · exact hlater
        · exact hlater
  · intro nonce
    have hcount := countP_use h.challenges c.connection nonce c hc rfl hused
    have hcounted := hk.counted nonce
    simp only [Host.use, List.countP_cons, Event.accepts, Event.issues, decide_eq_true_eq,
      Bool.false_eq_true, if_false, Nat.add_zero]
    omega
  · obtain ⟨⟨between, old, hhistory, hbetween⟩, hpast⟩ := hk.entered c hc
    refine ⟨between, c.issued, old, hhistory, ?_, hpast, by omega⟩
    intro e he
    apply (hbetween e he).resolve_left
    rw [hused]
    exact fun hnever => (nomatch hnever.1)

theorem Kept.consumePeerChallenge (hk : h.Kept) (procedure : Procedure) (connection : UInt64)
    (nonce : Str) : (h.consumePeerChallenge procedure connection nonce).1.Kept := by
  unfold Host.consumePeerChallenge
  split
  · exact hk
  · rename_i c hfind
    have hc := List.mem_of_find?_eq_some hfind
    have hconnection : c.connection = connection := by
      simpa using List.find?_some hfind
    split
    · exact hk
    · rename_i hvalid
      simp only [Bool.or_eq_true, not_or, Bool.not_eq_true, decide_eq_true_eq, not_le, ne_eq, not_not]
        at hvalid
      obtain ⟨⟨hused, htime⟩, rfl⟩ := hvalid
      subst hconnection
      exact hk.use procedure c hc hused htime

theorem Kept.challenged (hk : h.Kept) (procedure : Procedure) (connection : UInt64) (addressed : Bool)
    (nonce : Str) (rest : Bool) : (h.challenged procedure connection addressed nonce rest).1.Kept := by
  have hconsumed := hk.consumePeerChallenge procedure connection nonce
  unfold Host.challenged
  split
  · split
    · rename_i hcall
      rw [hcall] at hconsumed
      exact hconsumed
    · rename_i hcall
      rw [hcall] at hconsumed
      exact hconsumed
  · exact hk

theorem Kept.step (hk : h.Kept) (step : Step) : (h.step step).Kept := by
  cases step with
  | wait nanoseconds => exact hk.wait nanoseconds
  | challenge connection fill described =>
    have hfresh := hk.freshPeerChallenge connection fill
    unfold Host.step Host.getClusterPeerChallenge
    dsimp only
    split
    · rename_i hcall
      rw [hcall] at hfresh
      exact hfresh
    · rename_i hcall
      rw [hcall] at hfresh
      exact hfresh
  | execute connection connectionId nonce rest | readHistory connection connectionId nonce rest
  | authenticate connection connectionId nonce rest => exact hk.challenged _ _ _ _ _
  | disconnect connection => exact hk.cleanup connection

theorem kept_run (steps : List Step) : (Host.run {} steps).Kept := by
  have hempty : Host.Kept {} := by
    refine ⟨by simp, by simp, fun c hc => absurd hc List.not_mem_nil, ?_, by simp, trivial⟩
    intro connection between nonce earlier old hhistory
    simp at hhistory
  induction steps using List.reverseRecOn with
  | nil => exact hempty
  | append_singleton steps step ih =>
    rw [Host.run, List.foldl_append]
    exact ih.step step

end Host

theorem count_nonces (history : List Event) (nonce : Str) :
    (nonces history).count nonce = history.countP (Event.issues nonce) := by
  induction history with
  | nil => rfl
  | cons e history ih =>
    unfold nonces at ih ⊢
    cases e with
    | issued connection other instant =>
      simp only [List.filterMap_cons, List.count_cons, List.countP_cons, ih, Event.issues,
        decide_eq_true_eq, beq_iff_eq]
    | accepted procedure connection other instant | cleaned connection =>
      simp only [List.filterMap_cons, List.countP_cons, ih, Event.issues, Bool.false_eq_true, if_false,
        Nat.add_zero]

theorem mem_nonces {history : List Event} {connection : UInt64} {nonce : Str} {instant : ℕ}
    (h : .issued connection nonce instant ∈ history) : nonce ∈ nonces history :=
  List.mem_filterMap.mpr ⟨_, h, rfl⟩

theorem issued_unique (history : List Event) (hdistinct : (nonces history).Nodup) (nonce : Str)
    (c c' : UInt64) (t t' : ℕ) (h : .issued c nonce t ∈ history) (h' : .issued c' nonce t' ∈ history) :
    c = c' ∧ t = t' := by
  induction history with
  | nil => exact absurd h List.not_mem_nil
  | cons e history ih =>
    have hrest : (nonces history).Nodup := by
      exact hdistinct.sublist ((List.sublist_cons_self _ _).filterMap _)
    rcases List.mem_cons.mp h with rfl | hin
    · rcases List.mem_cons.mp h' with heq | hin'
      · cases heq
        exact ⟨rfl, rfl⟩
      · exact absurd (mem_nonces hin') (List.nodup_cons.mp hdistinct).1
    · rcases List.mem_cons.mp h' with rfl | hin'
      · exact absurd (mem_nonces hin) (List.nodup_cons.mp hdistinct).1
      · exact ih hrest hin hin'

structure SingleUse (history : List Event) : Prop where
  once : ∀ nonce, history.countP (Event.accepts nonce) ≤ 1
  issued : ∀ procedure connection nonce instant, .accepted procedure connection nonce instant ∈ history →
    ∃ earlier, .issued connection nonce earlier ∈ history
  bound : ∀ procedure connection connection' nonce instant earlier,
    .accepted procedure connection' nonce instant ∈ history → .issued connection nonce earlier ∈ history →
      connection' = connection ∧ earlier ≤ instant ∧ instant < earlier + 5 * second

theorem Host.Kept.singleUse {h : Host} (hk : h.Kept) (hdistinct : (nonces h.history).Nodup) :
    SingleUse h.history := by
  have hfound : ∀ procedure connection nonce instant,
      .accepted procedure connection nonce instant ∈ h.history → ∃ earlier,
        .issued connection nonce earlier ∈ h.history ∧ earlier ≤ instant ∧
          instant < earlier + 5 * second := by
    intro procedure connection nonce instant hmem
    obtain ⟨after, before, hhistory⟩ := List.append_of_mem hmem
    have hsound := hk.sound
    rw [hhistory] at hsound
    obtain ⟨between, earlier, old, hbefore, _, hpast, htime⟩ := hsound.justifies
    refine ⟨earlier, ?_, hpast, htime⟩
    rw [hhistory, hbefore]
    simp
  refine ⟨?_, ?_, ?_⟩
  · intro nonce
    have hcounted := hk.counted nonce
    have hone := List.nodup_iff_count_le_one.mp hdistinct nonce
    rw [count_nonces] at hone
    omega
  · intro procedure connection nonce instant hmem
    obtain ⟨earlier, hissued, _⟩ := hfound procedure connection nonce instant hmem
    exact ⟨earlier, hissued⟩
  · intro procedure connection connection' nonce instant earlier hmem hissued
    obtain ⟨earlier', hissued', hpast, htime⟩ := hfound procedure connection' nonce instant hmem
    obtain ⟨rfl, rfl⟩ := issued_unique _ hdistinct nonce _ _ _ _ hissued hissued'
    exact ⟨rfl, hpast, htime⟩

/-- In every run: the table is bounded, two challenges of one connection are a second
apart unless it ended in between, a nonce is accepted only after it was the last one
issued to its connection, once and within five seconds; and while the random source
never repeats itself, no nonce is accepted twice or on another connection. -/
theorem challenges_single_use (steps : List Step) :
    (Host.run {} steps).challenges.length ≤ 128 ∧
      Trace.Sound Justified (Host.run {} steps).history ∧
      ((nonces (Host.run {} steps).history).Nodup → SingleUse (Host.run {} steps).history) := by
  have hkept := Host.kept_run steps
  exact ⟨hkept.bound, hkept.sound, hkept.singleUse⟩

def spentChallenge : List Step :=
  [.challenge 7 (some (Fixed.fill 32 1)) true, .execute 7 7 (Fixed.fill 32 1).data false,
    .authenticate 7 7 (Fixed.fill 32 1).data true, .challenge 7 (some (Fixed.fill 32 2)) true,
    .wait second, .challenge 7 (some (Fixed.fill 32 2)) true,
    .authenticate 7 7 (Fixed.fill 32 2).data true]

theorem challenges_single_use_sample :
    (Host.run {} spentChallenge).history =
      [.accepted .authenticateClusterClient 7 (Fixed.fill 32 2).data second,
        .issued 7 (Fixed.fill 32 2).data second,
        .accepted .executeClusterPeerRequest 7 (Fixed.fill 32 1).data 0,
        .issued 7 (Fixed.fill 32 1).data 0] ∧
      SingleUse (Host.run {} spentChallenge).history := by
  have hhistory : (Host.run {} spentChallenge).history =
      [.accepted .authenticateClusterClient 7 (Fixed.fill 32 2).data second,
        .issued 7 (Fixed.fill 32 2).data second,
        .accepted .executeClusterPeerRequest 7 (Fixed.fill 32 1).data 0,
        .issued 7 (Fixed.fill 32 1).data 0] := by
    decide +kernel
  have hdistinct : (nonces (Host.run {} spentChallenge).history).Nodup := by
    rw [hhistory]
    decide +kernel
  exact ⟨hhistory, (challenges_single_use spentChallenge).2.2 hdistinct⟩

end Rieul.Server.PeerChallenge
