import Mathlib.Data.List.DropRight
import Rieul.Screen.FeedbackOrder

/-!
# Automatic changes of quality (daemon/host/src/desktop_quality.rs)

A tick under the automatic policy first judges the evidence and then applies the change that it
asks for, with other calls in between. What a state says of the evaluations so far, and what has
held since the evaluation that asked for a change, justify the change when it is made.
-/

namespace Rieul.Screen.Tables
open Stateful Ipc Quality

theorem add_sides {e : Evidence} {now : ℕ} {track : DesktopTrack} {sample : Option Sample}
    (h : (e.add now track sample).healthy = true) : e.healthy = true ∧
      (∃ r, freshReceived now track sample = some r) ∧ ∃ s, freshSent now track sample = some s := by
  unfold Evidence.add at h
  cases hreceived : freshReceived now track sample with
  | none =>
    cases hsent : freshSent now track sample with
    | none | some s => simp [Evidence.receive, Evidence.send, hreceived, hsent] at h
  | some r =>
    cases hsent : freshSent now track sample with
    | none => simp [Evidence.receive, Evidence.send, hreceived, hsent] at h
    | some s =>
      simp only [Evidence.receive, Evidence.send, hreceived, hsent, Bool.and_eq_true] at h
      exact ⟨h.1.1, ⟨r, rfl⟩, s, rfl⟩

theorem evidence_sides (now : ℕ) (config : Quality.DesktopConfiguration)
    (sample : ℕ → Option Sample) (h : (evidence now config sample).healthy = true)
    (track : DesktopTrack) (htrack : track ∈ config.tracks) :
    (∃ r, freshReceived now track (sample track.trackId) = some r) ∧
      ∃ s, freshSent now track (sample track.trackId) = some s := by
  unfold evidence at h
  generalize (⟨false, true, none⟩ : Evidence) = e at h
  have hall : e.healthy = true ∧ ∀ t ∈ config.tracks,
      (∃ r, freshReceived now t (sample t.trackId) = some r) ∧
        ∃ s, freshSent now t (sample t.trackId) = some s := by
    generalize config.tracks = tracks at h
    induction tracks generalizing e with
    | nil => exact ⟨h, fun t ht => by cases ht⟩
    | cons u rest ih =>
      obtain ⟨hadded, hrest⟩ := ih _ h
      obtain ⟨he, hsides⟩ := add_sides hadded
      refine ⟨he, fun t ht => ?_⟩
      rcases List.mem_cons.1 ht with rfl | ht
      · exact hsides
      · exact hrest t ht
  exact hall.2 track htrack

/-- Every track has samples of its epoch that are less than two seconds old, of both sides, and
there is no pressure. -/
structure Evaluation.Healthy (e : Evaluation) : Prop where
  received (track : DesktopTrack) : track ∈ e.config.tracks → ∃ sample received,
    e.sample track.trackId = some sample ∧ sample.received = some received ∧
      fresh e.instant received.instant = true ∧ received.epoch = track.codecEpoch
  sent (track : DesktopTrack) : track ∈ e.config.tracks → ∃ sample sent,
    e.sample track.trackId = some sample ∧ sample.sent = some sent ∧
      fresh e.instant sent.instant = true ∧ sent.epoch = track.codecEpoch
  pressure : e.evidence.pressure = false

theorem evaluation_healthy (e : Evaluation) (hhealthy : e.evidence.healthy = true)
    (hpressure : e.evidence.pressure = false) : e.Healthy := by
  have hsides := evidence_sides e.instant e.config e.sample hhealthy
  refine ⟨fun track htrack => ?_, fun track htrack => ?_, hpressure⟩
  · obtain ⟨r, hr⟩ := (hsides track htrack).1
    obtain ⟨sample, hsample, hreceived, hfresh, hepoch⟩ := freshReceived_some hr
    exact ⟨sample, r, hsample, hreceived, hfresh, hepoch⟩
  · obtain ⟨s, hs⟩ := (hsides track htrack).2
    obtain ⟨sample, hsample, hsent, hfresh, hepoch⟩ := freshSent_some hs
    exact ⟨sample, s, hsample, hsent, hfresh, hepoch⟩

def OneStep (levels : List DesktopQualityTarget) (old new : DesktopQualityTarget)
    (down up : Prop) : Prop :=
  ∃ i, levels[i + 1]? = some old ∧ levels[i]? = some new ∧ down ∨
    levels[i]? = some old ∧ levels[i + 1]? = some new ∧ up

theorem OneStep.imp {levels : List DesktopQualityTarget} {old new : DesktopQualityTarget}
    {down down' up up' : Prop} (h : OneStep levels old new down up) (hdown : down → down')
    (hup : up → up') : OneStep levels old new down' up' := by
  obtain ⟨i, hstep⟩ := h
  refine ⟨i, hstep.imp (fun h => ⟨h.1, h.2.1, hdown h.2.2⟩) fun h => ⟨h.1, h.2.1, hup h.2.2⟩⟩

theorem desired_step (state : Quality.State) (e : Evidence) (config : Quality.DesktopConfiguration)
    (new : DesktopQualityTarget) (h : state.desired e config = some new) :
    OneStep (levelsOf state.adaptive) (Quality.target config) new (e.pressure = true)
      (5 ≤ state.healthy) := by
  obtain ⟨i, hi, hnew⟩ := Option.bind_eq_some_iff.1 h
  obtain ⟨hlt, heq, -⟩ := List.idxOf?_eq_some_iff.1 hi
  have hold : (levelsOf state.adaptive)[i]? = some (Quality.target config) := by
    rw [List.getElem?_eq_getElem hlt, heq]
  by_cases hpressure : e.pressure = true ∧ 0 < i
  · rw [if_pos hpressure] at hnew
    refine ⟨i - 1, .inl ⟨?_, hnew, hpressure.1⟩⟩
    rw [Nat.sub_add_cancel hpressure.2]
    exact hold
  · rw [if_neg hpressure] at hnew
    by_cases hhealthy : 5 ≤ state.healthy
    · rw [if_pos hhealthy] at hnew
      exact ⟨i, .inr ⟨hold, hnew, hhealthy⟩⟩
    · rw [if_neg hhealthy] at hnew
      cases hnew

theorem target_configurationOf (id : String) (old : Quality.DesktopConfiguration)
    (new : DesktopQualityTarget) (profile : ℕ) (codec : DesktopCodec) (epoch : ℕ)
    (htracks : old.tracks ≠ []) :
    Quality.target (configurationOf (qualityRequest id old new) profile codec epoch) = new := by
  cases htrack : old.tracks with
  | nil => exact absurd htrack htracks
  | cons track rest => simp [Quality.target, configurationOf, qualityRequest, trackOf, htrack]

def Watched.evaluationsOf (w : Watched) (id : String) : List Evaluation :=
  w.evaluations.filter fun e => e.id = id

/-- A state knows the levels, the last change, the evidence that was used, and how many evaluations
have been healthy in a row. -/
structure Tracked (w : Watched) (id : String) (state : Quality.State) : Prop where
  positive : 1 ≤ state.revision
  revision : state.revision ≤ w.runtime.nextCodecEpoch
  adaptive : state.policy = .Auto → state.adaptive = w.chosen id
  paced (config : Quality.DesktopConfiguration) :
    w.runtime.configurations.lookup id = some config → Quality.revision config = state.revision →
      ∀ c ∈ w.changes, c.id = id → c.instant ≤ state.lastChange
  used (e : Evaluation) : e ∈ w.evaluationsOf id →
    e.latest ≤ state.lastChange ∨ ∃ last, state.lastSample = some last ∧ e.latest ≤ last
  enough : state.healthy ≤ (w.evaluationsOf id).length
  healthy (e : Evaluation) : e ∈ (w.evaluationsOf id).rtake state.healthy →
    e.Healthy ∧ Quality.revision e.config = state.revision

structure Ready (w : Watched) (id : String) (old : Quality.DesktopConfiguration)
    (new : DesktopQualityTarget) (state : Quality.State) : Prop where
  policy : state.policy = .Auto
  revision : state.revision = Quality.revision old
  paced : state.lastChange + seconds 2 ≤ w.runtime.instant
  judged : ∃ e, (w.evaluationsOf id).getLast? = some e ∧ e.config = old ∧
    OneStep (levelsOf state.adaptive) (Quality.target old) new (e.evidence.pressure = true)
      (5 ≤ state.healthy)

structure Adjusted (w : Watched) : Prop where
  tracked (id : String) (state : Quality.State) :
    w.runtime.quality.lookup id = some state → Tracked w id state
  newer (id : String) : (w.evaluationsOf id).Pairwise fun a b => a.latest < b.latest
  ready (id : String) (old : Quality.DesktopConfiguration) (new : DesktopQualityTarget)
    (state : Quality.State) : w.runtime.automatic = some (id, old, new) →
      w.runtime.quality.lookup id = some state → Ready w id old new state

section
variable {w : Watched}

theorem evaluationsOf_append (w : Watched) (e : Evaluation) (id : String) (r : Runtime) :
    Watched.evaluationsOf { w with runtime := r, evaluations := w.evaluations ++ [e] } id =
      if e.id = id then w.evaluationsOf id ++ [e] else w.evaluationsOf id := by
  by_cases hid : e.id = id
  · simp [Watched.evaluationsOf, hid]
  · simp [Watched.evaluationsOf, hid]

theorem mem_evaluationsOf {e : Evaluation} {id : String} (h : e ∈ w.evaluationsOf id) :
    e ∈ w.evaluations ∧ e.id = id := by
  obtain ⟨hmem, hid⟩ := List.mem_filter.1 h
  exact ⟨hmem, by simpa using hid⟩

theorem Tracked.kept {next : Watched} {id : String} {state : Quality.State} (h : Tracked w id state)
    (hcodec : w.runtime.nextCodecEpoch ≤ next.runtime.nextCodecEpoch)
    (hchosen : next.chosen id = w.chosen id)
    (hevaluations : next.evaluationsOf id = w.evaluationsOf id)
    (hpaced : ∀ config, next.runtime.configurations.lookup id = some config →
      Quality.revision config = state.revision →
        w.runtime.configurations.lookup id = some config ∧
          ∀ c ∈ next.changes, c.id = id → c ∈ w.changes) : Tracked next id state where
  positive := h.positive
  revision := h.revision.trans hcodec
  adaptive hpolicy := (h.adaptive hpolicy).trans hchosen.symm
  paced config hconfig hrevision c hc hid := by
    obtain ⟨hold, hchanges⟩ := hpaced config hconfig hrevision
    exact h.paced config hold hrevision c (hchanges c hc hid) hid
  used := hevaluations ▸ h.used
  enough := hevaluations ▸ h.enough
  healthy := hevaluations ▸ h.healthy

theorem Ready.kept {next : Watched} {id : String} {old : Quality.DesktopConfiguration}
    {new : DesktopQualityTarget} {state : Quality.State} (h : Ready w id old new state)
    (hinstant : w.runtime.instant ≤ next.runtime.instant)
    (hevaluations : next.evaluationsOf id = w.evaluationsOf id) : Ready next id old new state :=
  ⟨h.policy, h.revision, h.paced.trans hinstant, hevaluations ▸ h.judged⟩

theorem Adjusted.kept (h : Adjusted w) {s : Runtime} {feedbacks : List Feedback}
    (hcodec : w.runtime.nextCodecEpoch ≤ s.nextCodecEpoch)
    (hinstant : w.runtime.instant ≤ s.instant)
    (hconfigurations : ∀ id config, s.configurations.lookup id = some config →
      w.runtime.configurations.lookup id = some config)
    (hquality : ∀ id state, s.quality.lookup id = some state →
      w.runtime.quality.lookup id = some state)
    (hautomatic : s.automatic = none ∨ s.automatic = w.runtime.automatic) :
    Adjusted { w with runtime := s, feedbacks := feedbacks } := by
  refine ⟨fun id state hs => ?_, h.newer, fun id old new state hpending hs => ?_⟩
  · refine (h.tracked id state (hquality id state hs)).kept hcodec rfl rfl fun config hc _ => ?_
    exact ⟨hconfigurations id config hc, fun c hmem _ => hmem⟩
  · rcases hautomatic with hnone | hsame
    · rw [hnone] at hpending
      cases hpending
    · have hold := h.ready id old new state (hsame.symm.trans hpending) (hquality id state hs)
      exact hold.kept hinstant rfl

theorem Tracked.fresh (hrecorded : Recorded w) {id : String} {state : Quality.State} {next : Watched}
    (hevaluations : next.evaluations = w.evaluations)
    (hchanges : ∀ c ∈ next.changes, c.instant ≤ w.runtime.instant)
    (hpositive : 1 ≤ state.revision) (hrevision : state.revision ≤ next.runtime.nextCodecEpoch)
    (hadaptive : state.policy = .Auto → state.adaptive = next.chosen id)
    (hchange : state.lastChange = w.runtime.instant) (hhealthy : state.healthy = 0) :
    Tracked next id state where
  positive := hpositive
  revision := hrevision
  adaptive := hadaptive
  paced config _ _ c hc _ := (hchanges c hc).trans hchange.ge
  used e he := by
    have hmem := (mem_evaluationsOf he).1
    rw [hevaluations] at hmem
    exact .inl ((hrecorded.timely.evaluations e hmem).trans hchange.ge)
  enough := by
    rw [hhealthy]
    exact Nat.zero_le _
  healthy e he := by
    rw [hhealthy, List.rtake_zero] at he
    cases he

theorem Configured.revision {p : Attachment → Prop} {r s : Runtime}
    {request : ConfigureDesktopViewportsReq} {serverOwned : Bool} {change : Option QualityChange}
    {config : Quality.DesktopConfiguration}
    (hc : Configured p r request serverOwned change config s) :
    Quality.revision config = 0 ∨ Quality.revision config = r.nextCodecEpoch + 1 := by
  by_cases htracks : config.tracks = []
  · exact .inl (revision_none config htracks)
  · exact .inr (revision_of config _ htracks hc.epoch)

theorem mem_changes {id : String} {config : Quality.DesktopConfiguration} {instant : ℕ}
    {c : Change} (hc : c ∈ w.changes ++ [⟨id, config, instant⟩]) (hid : c.id ≠ id) :
    c ∈ w.changes := by
  rcases List.mem_append.1 hc with hold | hnew
  · exact hold
  · cases List.mem_singleton.1 hnew
    exact absurd rfl hid

theorem Adjusted.configured (h : Adjusted w) {t : Runtime}
    {request : ConfigureDesktopViewportsReq} {serverOwned : Bool}
    {config : Quality.DesktopConfiguration}
    (hc : Configured (fun _ => True) w.runtime request serverOwned none config t) :
    Adjusted { w with
      runtime := t.retain
      changes := w.changes ++ [⟨request.attachId, config, w.runtime.instant⟩] } := by
  obtain ⟨-, hquality, -, hoperation, hinstant⟩ := hc.tables
  have hcodec := hc.nextCodecEpoch
  have hold : ∀ id state, t.retain.quality.lookup id = some state →
      w.runtime.quality.lookup id = some state := by
    intro id state hs
    have hs' := (Table.lookup_retain_some.1 hs).2
    rw [hquality] at hs'
    exact hs'
  have hautomatic : t.retain.automatic = w.runtime.automatic := by
    unfold Runtime.automatic Runtime.retain
    rw [hoperation]
  refine ⟨fun id state hs => ?_, h.newer, fun id old new state hpending hs => ?_⟩
  · have htracked := h.tracked id state (hold id state hs)
    refine htracked.kept (hcodec ▸ Nat.le_succ _) rfl rfl fun config' hlookup hrevision => ?_
    have hpositive := htracked.positive
    have hbelow := htracked.revision
    rcases hc.lookup hlookup with ⟨-, rfl⟩ | ⟨hother, hsame⟩
    · -- the client's configuration has another revision
      rcases hc.revision with hzero | hnew
      · omega
      · omega
    · exact ⟨hsame, fun c hmem hid => mem_changes hmem (hid ▸ hother)⟩
  · have hready := h.ready id old new state (hautomatic.symm.trans hpending) (hold id state hs)
    exact hready.kept hinstant.ge rfl

theorem Adjusted.queried (h : Adjusted w) (hrecorded : Recorded w) {t : Runtime}
    (hq : Queried w.runtime t) :
    Adjusted { w with runtime := { t.retain with operation := none } } := by
  obtain ⟨connection, now, id, config, requested, verified, d, b, hoperation, hconfig, -, -, rfl⟩ :=
    hq.result
  have hkept : ∀ other state, Tracked w other state → Tracked { w with runtime :=
      { ({ w.runtime with
        desktop := d
        quality := w.runtime.quality.insert id (State.queried (w.runtime.quality.lookup id) config
          verified w.runtime.instant) } : Runtime).retain with operation := none } } other state := by
    intro other state htracked
    refine htracked.kept le_rfl rfl rfl fun config' hlookup _ => ?_
    exact ⟨(Table.lookup_retain_some.1 hlookup).2, fun c hmem _ => hmem⟩
  refine ⟨fun other state hs => ?_, h.newer, fun other old new state hpending _ => ?_⟩
  · have hs' := (Table.lookup_retain_some.1 hs).2
    rw [Table.lookup_insert_eq] at hs'
    by_cases hid : other = id
    · rw [if_pos hid] at hs'
      cases hs'
      subst hid
      rcases queried_cases (w.runtime.quality.lookup other) config verified w.runtime.instant with
        ⟨old, hold, -, heq⟩ | heq
      · rw [heq]
        have hcarried := hkept other old (h.tracked other old hold)
        exact ⟨hcarried.positive, hcarried.revision, hcarried.adaptive, hcarried.paced,
          hcarried.used, hcarried.enough, hcarried.healthy⟩
      · rw [heq]
        obtain ⟨htracks, c, hc, hsame⟩ := hrecorded.traced.read _ hoperation
        have hsame' : c.config = config := hsame
        obtain ⟨hpositive, -⟩ := hrecorded.traced.revision hc (hsame ▸ htracks)
        obtain ⟨e, -, hle, he⟩ := hrecorded.consistent.epoch other config hconfig
        have hrevision := revision_of config e htracks he
        refine .fresh hrecorded rfl (fun c hc => hrecorded.timely.changes c hc) ?_ ?_ ?_ rfl rfl
        · exact hsame' ▸ hpositive
        · exact hrevision.le.trans hle
        · exact nofun
    · rw [if_neg hid] at hs'
      exact hkept other state (h.tracked other state hs')
  · cases hpending

theorem due_spec (state : Quality.State) (config : Quality.DesktopConfiguration) (now : ℕ)
    (h : state.due config now = true) : state.policy = .Auto ∧
      state.revision = Quality.revision config ∧ state.lastChange + seconds 2 ≤ now := by
  have hpositive : 0 < seconds 2 := by decide
  simp only [State.due, not_or, not_not, not_lt, ne_eq, decide_eq_true_eq] at h
  obtain ⟨hpolicy, hrevision, -, hpause⟩ := h
  exact ⟨hpolicy, hrevision, by omega⟩

theorem Adjusted.after (h : Adjusted w) (hrecorded : Recorded w) {e : Evaluation}
    (he : Evaluated w.runtime e) (before : Evaluation) (hbefore : before ∈ w.evaluationsOf e.id) :
    before.latest < e.latest := by
  obtain ⟨-, -, hpause⟩ := due_spec _ _ _ he.due
  obtain ⟨-, hrecent⟩ := hrecorded.timely.latest he
  rcases (h.tracked e.id e.state he.state).used before hbefore with hle | ⟨last, hlast, hle⟩
  · omega
  · exact hle.trans_lt (he.news last hlast)

def Watched.judging (w : Watched) (e : Evaluation) : Watched :=
  { w with
    runtime := w.runtime.evaluate e
    evaluations := w.evaluations ++ [e] }

theorem judging_own (w : Watched) (e : Evaluation) :
    (w.judging e).evaluationsOf e.id = w.evaluationsOf e.id ++ [e] :=
  (evaluationsOf_append w e e.id _).trans (if_pos rfl)

theorem judging_other (w : Watched) (e : Evaluation) (id : String) (hid : id ≠ e.id) :
    (w.judging e).evaluationsOf id = w.evaluationsOf id :=
  (evaluationsOf_append w e id _).trans (if_neg (Ne.symm hid))

theorem Tracked.judging {e : Evaluation} (h : Tracked w e.id e.state)
    (hrevision : e.state.revision = Quality.revision e.config)
    (hafter : ∀ before ∈ w.evaluationsOf e.id, before.latest < e.latest) :
    Tracked (w.judging e) e.id (e.state.evaluated e.evidence e.latest) := by
  have hown := judging_own w e
  refine ⟨h.positive, h.revision, h.adaptive, h.paced, fun before hbefore => ?_, ?_,
    fun before hbefore => ?_⟩
  · rw [hown] at hbefore
    refine .inr ⟨e.latest, rfl, ?_⟩
    rcases List.mem_append.1 hbefore with hbefore | hbefore
    · exact (hafter before hbefore).le
    · cases List.mem_singleton.1 hbefore
      exact le_rfl
  · rw [hown, List.length_append]
    have henough := h.enough
    unfold State.evaluated
    dsimp only
    split
    · exact Nat.succ_le_succ henough
    · exact Nat.zero_le _
  · -- a healthy evaluation goes on with the row, any other ends it
    rw [hown] at hbefore
    unfold State.evaluated at hbefore ⊢
    dsimp only at hbefore ⊢
    split at hbefore
    next hhealthy =>
      rw [List.rtake_concat_succ] at hbefore
      rcases List.mem_append.1 hbefore with hbefore | hbefore
      · exact h.healthy before hbefore
      · cases List.mem_singleton.1 hbefore
        exact ⟨evaluation_healthy e hhealthy.1 (by simpa using hhealthy.2), hrevision.symm⟩
    next =>
      rw [List.rtake_zero] at hbefore
      cases hbefore

theorem evaluate_automatic (r : Runtime) (e : Evaluation) (id : String)
    (old : Quality.DesktopConfiguration) (new : DesktopQualityTarget)
    (h : (r.evaluate e).automatic = some (id, old, new)) : id = e.id ∧ old = e.config ∧
      (e.state.evaluated e.evidence e.latest).desired e.evidence e.config = some new := by
  unfold Runtime.automatic Runtime.evaluate at h
  dsimp only at h
  cases hdesired : (e.state.evaluated e.evidence e.latest).desired e.evidence e.config with
  | none =>
    rw [hdesired] at h
    cases h
  | some target =>
    rw [hdesired] at h
    cases h
    exact ⟨rfl, rfl, rfl⟩

theorem Adjusted.judging (h : Adjusted w) (hrecorded : Recorded w) {e : Evaluation}
    (he : w.runtime.evaluation = some e) : Adjusted (w.judging e) := by
  have hspec := evaluation_spec w.runtime e he
  obtain ⟨hpolicy, hrevision, hpause⟩ := due_spec _ _ _ hspec.due
  have hafter := h.after hrecorded hspec
  have hlookup : ∀ id state, (w.runtime.evaluate e).quality.lookup id = some state →
      id = e.id ∧ state = e.state.evaluated e.evidence e.latest ∨
        id ≠ e.id ∧ w.runtime.quality.lookup id = some state := by
    intro id state hs
    have hs' := (Table.lookup_insert_eq _ _ _ _).symm.trans hs
    by_cases hid : id = e.id
    · rw [if_pos hid] at hs'
      exact .inl ⟨hid, (Option.some.inj hs').symm⟩
    · rw [if_neg hid] at hs'
      exact .inr ⟨hid, hs'⟩
  refine ⟨fun id state hs => ?_, fun id => ?_, fun id old new state hpending hs => ?_⟩
  · rcases hlookup id state hs with ⟨rfl, rfl⟩ | ⟨hid, hold⟩
    · exact (h.tracked e.id e.state hspec.state).judging hrevision hafter
    · refine (h.tracked id state hold).kept le_rfl rfl (judging_other w e id hid) fun config hc _ => ?_
      exact ⟨hc, fun c hmem _ => hmem⟩
  · by_cases hid : id = e.id
    · subst hid
      rw [judging_own]
      refine List.pairwise_append.2 ⟨h.newer e.id, List.pairwise_singleton _ _, ?_⟩
      intro before hbefore e' he'
      cases List.mem_singleton.1 he'
      exact hafter before hbefore
    · rw [judging_other w e id hid]
      exact h.newer id
  · obtain ⟨rfl, rfl, hdesired⟩ := evaluate_automatic w.runtime e id old new hpending
    rcases hlookup e.id state hs with ⟨-, rfl⟩ | ⟨hid, -⟩
    · refine ⟨hpolicy, hrevision, hpause, e, ?_, rfl, desired_step _ e.evidence e.config new hdesired⟩
      rw [judging_own]
      exact List.getLast?_concat
    · exact absurd rfl hid

def Watched.changing (w : Watched) (s : Runtime) (id : String)
    (config : Quality.DesktopConfiguration) : Watched :=
  { w with
    runtime := s
    changes := w.changes ++ [⟨id, config, w.runtime.instant⟩]
    chosen := fun id =>
      if w.runtime.choosing = some id then verifiedOf w.runtime id else w.chosen id }

theorem choosing_applying {r : Runtime} {connection now : ℕ} {id other : String}
    {old : Quality.DesktopConfiguration} {target : DesktopQualityTarget}
    {policy : DesktopQualityPolicy} {newPolicy : Bool}
    (h : r.operation = some (.applying connection now id old target policy newPolicy)) :
    r.choosing = some other ↔ id = other ∧ policy = .Auto ∧ newPolicy = true := by
  unfold Runtime.choosing
  rw [h]
  cases policy with
  | Manual target => simp
  | Auto =>
    cases newPolicy with
    | true | false => simp

theorem automatic_applying {r : Runtime} {connection now : ℕ} {id : String}
    {old : Quality.DesktopConfiguration} {target : DesktopQualityTarget}
    {policy : DesktopQualityPolicy}
    (h : r.operation = some (.applying connection now id old target policy false)) :
    r.automatic = some (id, old, target) := by
  unfold Runtime.automatic
  rw [h]

theorem Adjusted.changing (h : Adjusted w) (hrecorded : Recorded w) {id : String}
    {config : Quality.DesktopConfiguration} {t : Runtime}
    (happlied : Applied (fun _ => True) w.runtime id config t) :
    Adjusted (w.changing { t.retain with operation := none } id config) := by
  obtain ⟨connection, now, old, target, policy, newPolicy, hoperation, hc⟩ := happlied.result
  obtain ⟨-, hquality, -, -, -⟩ := hc.tables
  have hcodec := hc.nextCodecEpoch
  have htracks : old.tracks ≠ [] := (hrecorded.traced.read _ hoperation).1
  have hchoosing : ∀ other, w.runtime.choosing = some other ↔
      id = other ∧ policy = .Auto ∧ newPolicy = true := fun other => choosing_applying hoperation
  refine ⟨fun other state hs => ?_, h.newer, fun other old' new state hpending _ => ?_⟩
  · have hs' := (Table.lookup_retain_some.1 hs).2
    rw [hquality] at hs'
    rcases lookup_requalified hc.allowed hs' with ⟨rfl, before, hbefore, rfl⟩ | ⟨hother, hsame⟩
    · have hrevision : Quality.revision config = w.runtime.nextCodecEpoch + 1 := by
        obtain ⟨profile, codec, rfl⟩ := hc.made
        refine revision_of _ _ (fun hnil => htracks ?_) (configurationOf_epoch _ profile codec _)
        have hlength := congrArg List.length hnil
        simpa [configurationOf, qualityRequest] using hlength
      refine .fresh hrecorded rfl (fun c hmem => ?_) ?_ (hrevision.trans hcodec.symm).le
        (fun hpolicy => ?_) rfl rfl
      · rcases List.mem_append.1 hmem with hold | hnew
        · exact hrecorded.timely.changes c hold
        · cases List.mem_singleton.1 hnew
          exact le_rfl
      · exact hrevision.ge.trans' (Nat.le_add_left 1 _)
      · have hauto : policy = .Auto := hpolicy
        subst hauto
        cases newPolicy with
        | true =>
          have hstate : w.runtime.quality.lookup other = some before := hbefore
          have hverified : verifiedOf w.runtime other = before.verified := by
            rw [verifiedOf, hstate]
            rfl
          exact hverified.symm.trans (if_pos ((hchoosing other).2 ⟨rfl, rfl, rfl⟩)).symm
        | false =>
          have hready := h.ready other old target before (automatic_applying hoperation) hbefore
          have hadaptive := (h.tracked other before hbefore).adaptive hready.policy
          refine hadaptive.trans (if_neg fun hchosen => ?_).symm
          cases ((hchoosing other).1 hchosen).2.2
    · refine (h.tracked other state hsame).kept (hcodec ▸ Nat.le_succ _) ?_ rfl
        fun config' hlookup _ => ?_
      · exact if_neg fun hchosen => hother ((hchoosing other).1 hchosen).1.symm
      · rcases hc.lookup hlookup with ⟨hid, -⟩ | ⟨-, hold⟩
        · exact absurd hid hother
        · exact ⟨hold, fun c hmem hid => mem_changes hmem (hid ▸ hother)⟩
  · cases hpending

theorem adjusted_next {next : Watched} (h : Adjusted w) (hrecorded : Recorded w)
    (hnext : w.Next next) : Adjusted next := by
  cases hnext with
  | tame ht =>
    exact h.kept ht.nextCodecEpoch ht.instant
      (fun id config hc => (ht.configurations id config hc).1) ht.quality ht.automatic
  | @fed f t hfed =>
    obtain ⟨hconfigurations, hquality, hcodec, hoperation, hinstant⟩ := hfed.tables
    refine h.kept hcodec.ge hinstant.ge (fun id config hc => ?_) (fun id state hs => ?_) (.inr ?_)
    · rw [← hconfigurations]
      exact (Table.lookup_retain_some.1 hc).2
    · rw [← hquality]
      exact (Table.lookup_retain_some.1 hs).2
    · unfold Runtime.automatic Runtime.retain
      rw [hoperation]
  | configured hc => exact h.configured hc
  | queried hq => exact h.queried hrecorded hq
  | evaluated he => exact h.judging hrecorded he
  | applied happlied => exact h.changing hrecorded happlied

end

theorem run_adjusted (script : ℕ → SendResult) (actions : List Action) :
    Recorded (Watched.run script actions) ∧ Adjusted (Watched.run script actions) := by
  induction actions using List.reverseRecOn with
  | nil =>
    refine ⟨recorded_new script, ?_, fun id => .nil, ?_⟩
    · exact fun id state h => by cases h
    · exact fun id old new state h => by cases h
  | append_singleton actions a ih =>
    rw [Watched.run, List.foldl_append]
    exact ⟨recorded_step _ a ih.1, adjusted_next ih.2 ih.1 (Watched.next _ a)⟩

def Requested (r : Runtime) : Action → Prop
  | .configure _ _ _ _ _ _ _ => True
  | .applyQuality _ _ _ => r.automatic = none
  | _ => False

/-- What an automatic change from `old` to `config` rests on: the automatic policy, the stored
configuration, a pause, and evidence that is newer than all before. A step up rests on the last five
evaluations. -/
structure Justified (w : Watched) (id : String) (old config : Quality.DesktopConfiguration) :
    Prop where
  policy : ∃ state, w.runtime.quality.lookup id = some state ∧ state.policy = .Auto
  current : w.runtime.configurations.lookup id = some old
  paced (c : Change) : c ∈ w.changes → c.id = id → c.instant + seconds 2 ≤ w.runtime.instant
  judged : ∃ before e, w.evaluationsOf id = before ++ [e] ∧ e.config = old ∧
    (∀ e' ∈ before, e'.latest < e.latest) ∧
    OneStep (levelsOf (w.chosen id)) (Quality.target old) (Quality.target config)
      (e.evidence.pressure = true) (5 ≤ (w.evaluationsOf id).length ∧
        ∀ e' ∈ (w.evaluationsOf id).rtake 5, e'.config = old ∧ e'.Healthy)

theorem Adjusted.justified {w : Watched} (h : Adjusted w) (hrecorded : Recorded w) {id : String}
    {old config : Quality.DesktopConfiguration} {target : DesktopQualityTarget} {connection now : ℕ}
    {policy : DesktopQualityPolicy} {t : Runtime}
    (hoperation : w.runtime.operation =
      some (.applying connection now id old target policy false))
    (hc : Configured (fun _ => True) w.runtime (qualityRequest id old target) true
      (some ⟨Quality.revision old, policy, false⟩) config t) : Justified w id old config := by
  have htraced := hrecorded.traced
  obtain ⟨htracks, c, hmem, hread⟩ := htraced.read _ hoperation
  have hread' : c.config = old := hread
  obtain ⟨current, state, hcurrent, hrevision, hstate⟩ := hc.allowed _ rfl
  -- the configuration that was judged is the one that is stored
  have hsame : current = old := by
    obtain ⟨c', hmem', -, hstored⟩ := htraced.stored id current hcurrent
    have heq := htraced.unique hmem hmem' (hread ▸ htracks) (by rw [hread', hstored, hrevision])
    rw [← hstored, ← heq, hread']
  subst hsame
  have htracked := h.tracked id state hstate
  have hready := h.ready id current target state (automatic_applying hoperation) hstate
  have hadaptive := htracked.adaptive hready.policy
  obtain ⟨e, hlast, hconfig, hstep⟩ := hready.judged
  obtain ⟨before, hbefore⟩ := List.getLast?_eq_some_iff.1 hlast
  have hnewer := h.newer id
  rw [hbefore] at hnewer
  have htarget : Quality.target config = target := by
    obtain ⟨profile, codec, rfl⟩ := hc.made
    exact target_configurationOf id current target profile codec _ htracks
  refine ⟨⟨state, hstate, hready.policy⟩, hcurrent, fun c hmem hid => ?_, before, e, hbefore,
    hconfig, fun e' he' => ?_, ?_⟩
  · have hle := htracked.paced current hcurrent hready.revision.symm c hmem hid
    have hpause := hready.paced
    omega
  · exact (List.pairwise_append.1 hnewer).2.2 e' he' e (List.mem_singleton.2 rfl)
  · rw [htarget, ← hadaptive]
    refine hstep.imp (fun hdown => hdown) fun hfive => ⟨hfive.trans htracked.enough, fun e' he' => ?_⟩
    have hwithin : e' ∈ (w.evaluationsOf id).rtake state.healthy :=
      List.drop_subset_drop_left _ (Nat.sub_le_sub_left hfive _) he'
    obtain ⟨hhealthy, hrevision'⟩ := htracked.healthy e' hwithin
    have hlisted := (mem_evaluationsOf (List.mem_of_mem_drop he')).1
    obtain ⟨htracks', c', hmem', hread''⟩ := htraced.evaluated e' hlisted
    have hrevisions : Quality.revision c'.config = Quality.revision c.config := by
      rw [hread'', hrevision', hready.revision, hread']
    have heq := htraced.unique hmem' hmem (hread'' ▸ htracks') hrevisions
    exact ⟨by rw [← hread'', heq, hread'], hhealthy⟩

def Runtime.received (r : Runtime) (key : String × ℕ) : Option Received :=
  (r.samples.lookup key).bind (·.received)

theorem Tame.receivedKept {swept : Bool} {r s : Runtime} (h : Tame swept r s)
    (key : String × ℕ) : s.received key = none ∨ s.received key = r.received key := by
  unfold Runtime.received
  cases hs : s.samples.lookup key with
  | none => exact .inl rfl
  | some sample =>
    rcases h.received key sample hs with hnone | ⟨old, hold, hsame⟩
    · exact .inl hnone
    · refine .inr ?_
      rw [hold]
      exact hsame

theorem Fenced.stale {w : Watched} (h : Fenced w) {f f' : Feedback} {t : Runtime}
    (hfed : Fed w.runtime f t) (hf' : f' ∈ w.feedbacks)
    (hkey : (f'.attachId, f'.trackId) = (f.attachId, f.trackId))
    (hstale : f.Stale f'.epoch f'.group) :
    t.retain.received (f.attachId, f.trackId) = w.runtime.received (f.attachId, f.trackId) := by
  obtain ⟨hid, -⟩ := Prod.mk.inj hkey
  obtain ⟨config, hconfig, track, htrack, -, hepoch⟩ := hfed.config
  obtain ⟨d, a, flow, feedback, depth, decode, render, -, -, ⟨b, hb⟩, -⟩ := hfed.result
  have hlive : w.runtime.live f'.attachId = true := (live_iff _ _).2 ⟨b, hid ▸ hb⟩
  obtain ⟨old, before, hold, hbefore, hnewest⟩ := h.newest f' hf' hlive
  rw [hkey] at hold
  have hbound := h.current _ old before config track hold hbefore hconfig htrack
  obtain ⟨sample, received, hsample, hreceived, -, hcases⟩ := hfed.sample
  unfold Feedback.Stale at hstale hnewest
  rcases hcases with ⟨old', hold', hreceived', -⟩ | ⟨-, hnewer⟩
  · unfold Runtime.received
    rw [hsample, hold']
    exact hreceived.trans hreceived'.symm
  · have hgroups := hnewer old before hold hbefore
    omega

/-- What a step may do about quality: each configuration that is stored was there, was asked for, or
is an automatic change that is justified, and feedback on a group that is not new is not received
anew. -/
structure Controlled (w : Watched) : Prop where
  changes (a : Action) (id : String) (config : Quality.DesktopConfiguration) :
    (exec a.run w.runtime).2.configurations.lookup id = some config →
      w.runtime.configurations.lookup id = some config ∨ Requested w.runtime a ∨
        ∃ old, Justified w id old config
  feedback (auth : Auth) (connection now : ℕ) (frame : DesktopInputFrame) (f f' : Feedback) :
    feedbackOf frame = some f → f' ∈ w.feedbacks →
      (f'.attachId, f'.trackId) = (f.attachId, f.trackId) → f.Stale f'.epoch f'.group →
      let s := (exec (Action.run (.acceptInput auth connection now frame)) w.runtime).2
      s.received (f.attachId, f.trackId) = none ∨
        s.received (f.attachId, f.trackId) = w.runtime.received (f.attachId, f.trackId)

/-- Under pressure the target goes one step down, two seconds after it was chosen. -/
example : (Watched.run (fun _ => .sent) (sampleConfigured ++ [
      .queryQuality (fun _ => true) 1 0 ⟨"desktop-1", none⟩,
      .answerQuery (fun _ => true) 0 (fun _ _ => .Verified),
      .setQuality (fun _ => true) 1 0 ⟨"desktop-1", 1, 1, .Auto⟩,
      .chooseQuality,
      .applyQuality (fun _ => true) (fun _ => true) sampleDisplays,
      .wait (seconds 2),
      .recordDelivery "desktop-1" (sampleTrack 2) true,
      .adjustQuality (fun _ => true) 1 0 "desktop-1",
      .evaluateQuality,
      .applyQuality (fun _ => true) (fun _ => true) sampleDisplays])).changes.map
        (fun c => (Quality.target c.config, c.instant)) =
    [(⟨60, 20000000⟩, 0), (⟨60, 20000000⟩, 0), (⟨30, 5000000⟩, seconds 2)] := by
  decide +kernel

end Rieul.Screen.Tables
