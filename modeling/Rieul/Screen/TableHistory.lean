import Rieul.Screen.TablesKept

/-!
# The history of the tables

What a step adds to the history of a runtime, and what the history says of the tables: when things
happened, and where a configuration comes from.
-/

namespace Rieul.Screen.Tables
open Stateful Ipc Quality

inductive Watched.Next (w : Watched) : Watched → Prop where
  | tame {s : Runtime} : Tame true w.runtime s → Watched.Next w { w with runtime := s }
  | fed {f : Feedback} {t : Runtime} : Fed w.runtime f t →
      Watched.Next w { w with runtime := t.retain, feedbacks := w.feedbacks ++ [f] }
  | configured {request : ConfigureDesktopViewportsReq} {serverOwned : Bool}
      {config : Quality.DesktopConfiguration} {t : Runtime} :
      Configured (fun _ => True) w.runtime request serverOwned none config t →
      Watched.Next w { w with
        runtime := t.retain
        changes := w.changes ++ [⟨request.attachId, config, w.runtime.instant⟩] }
  | queried {t : Runtime} : Queried w.runtime t →
      Watched.Next w { w with runtime := { t.retain with operation := none } }
  | evaluated {e : Evaluation} : w.runtime.evaluation = some e →
      Watched.Next w { w with
        runtime := w.runtime.evaluate e
        evaluations := w.evaluations ++ [e] }
  | applied {id : String} {config : Quality.DesktopConfiguration} {t : Runtime} :
      Applied (fun _ => True) w.runtime id config t →
      Watched.Next w { w with
        runtime := { t.retain with operation := none }
        changes := w.changes ++ [⟨id, config, w.runtime.instant⟩]
        chosen := fun id =>
          if w.runtime.choosing = some id then verifiedOf w.runtime id else w.chosen id }

theorem Watched.next (w : Watched) (a : Action) : Watched.Next w (w.step a) := by
  have houtcome := outcome_step (r := w.runtime) a
  have hstep : w.step a = {
      runtime := (exec a.run w.runtime).2
      changes := w.noteChanges (exec a.run w.runtime).1
      evaluations := w.noteEvaluations a
      feedbacks := w.noteFeedbacks a (exec a.run w.runtime).1
      chosen := w.noteChosen a (exec a.run w.runtime).1 } := rfl
  rw [hstep]
  generalize (exec a.run w.runtime).1 = answer at houtcome ⊢
  generalize (exec a.run w.runtime).2 = s at houtcome ⊢
  cases houtcome with
  | tame ht hnote =>
    rw [hnote.changes, hnote.evaluations w rfl, hnote.feedbacks, hnote.chosen]
    exact .tame ht
  | fed hframe hfed =>
    simp only [Watched.noteFeedbacks, hframe, Option.toList_some]
    exact .fed hfed
  | configured hc => exact .configured hc
  | queried hq => exact .queried hq
  | evaluated he =>
    simp only [Watched.noteEvaluations, he, Option.toList_some]
    exact .evaluated he
  | applied happlied => exact .applied happlied

section
variable {p : Attachment → Prop} {r s : Runtime} {request : ConfigureDesktopViewportsReq}
  {serverOwned : Bool} {change : Option QualityChange} {config : Quality.DesktopConfiguration}

theorem Configured.tables (hc : Configured p r request serverOwned change config s) :
    s.configurations = r.configurations.insert request.attachId config ∧
      s.quality = r.requalified request.attachId config change ∧ s.samples = r.samples ∧
      s.operation = r.operation ∧ s.instant = r.instant := by
  obtain ⟨d, a, next, total, -, -, -, -, rfl⟩ := hc.result
  exact ⟨rfl, rfl, rfl, rfl, rfl⟩

theorem Configured.lookup (hc : Configured p r request serverOwned change config s) {id : String}
    {config' : Quality.DesktopConfiguration}
    (h : s.retain.configurations.lookup id = some config') :
    id = request.attachId ∧ config' = config ∨
      id ≠ request.attachId ∧ r.configurations.lookup id = some config' := by
  obtain ⟨d, a, next, total, -, -, -, -, rfl⟩ := hc.result
  exact lookup_configurations h

theorem lookup_requalified {id other : String} {c : QualityChange} {state : Quality.State}
    (hallowed : Allowed r id (some c))
    (h : (r.requalified id config (some c)).lookup other = some state) :
    (other = id ∧ ∃ old, r.quality.lookup id = some old ∧
      state = old.changed config c.policy c.newPolicy r.instant) ∨
      other ≠ id ∧ r.quality.lookup other = some state := by
  obtain ⟨current, old, -, -, hold⟩ := hallowed c rfl
  rw [Runtime.requalified, hold] at h
  dsimp only at h
  rw [Table.lookup_insert_eq] at h
  by_cases hid : other = id
  · rw [if_pos hid] at h
    cases h
    exact .inl ⟨hid, old, hold, rfl⟩
  · rw [if_neg hid] at h
    exact .inr ⟨hid, h⟩

end

theorem receive_cases (sample : Sample) (instant epoch group depth decode render : ℕ) :
    (∃ old, sample.received = some old ∧ old.epoch = epoch ∧ group ≤ old.group ∧
      sample.receive instant epoch group depth decode render = sample) ∨
    (∀ old, sample.received = some old → old.epoch = epoch → old.group < group) ∧
      sample.receive instant epoch group depth decode render = { sample with
        received := some ⟨instant, epoch, group, depth, saturatingAdd decode render⟩ } := by
  unfold Sample.receive
  cases hreceived : sample.received with
  | none => exact .inr ⟨fun old h => (by cases h), rfl⟩
  | some old =>
    by_cases hstale : old.epoch = epoch ∧ group ≤ old.group
    · refine .inl ⟨old, rfl, hstale.1, hstale.2, if_pos ?_⟩
      simpa using hstale
    · refine .inr ⟨fun old' h hepoch => ?_, if_neg ?_⟩
      · cases h
        exact Nat.lt_of_not_le fun hle => hstale ⟨hepoch, hle⟩
      · simpa using hstale

section
variable {r s : Runtime} {f : Feedback}

theorem Fed.tables (h : Fed r f s) : s.configurations = r.configurations ∧
    s.quality = r.quality ∧ s.nextCodecEpoch = r.nextCodecEpoch ∧ s.operation = r.operation ∧
      s.instant = r.instant := by
  obtain ⟨d, a, flow, feedback, depth, decode, render, -, -, -, rfl⟩ := h.result
  exact ⟨rfl, rfl, rfl, rfl, rfl⟩

theorem Fed.lookup (h : Fed r f s) {key : String × ℕ} {sample : Sample}
    (hsample : s.retain.samples.lookup key = some sample) :
    (key = (f.attachId, f.trackId) ∧ ∃ depth decode render,
      sample = ((r.samples.lookup key).getD ⟨none, none⟩).receive r.instant f.epoch f.group depth
        decode render) ∨
      key ≠ (f.attachId, f.trackId) ∧ r.samples.lookup key = some sample := by
  obtain ⟨d, a, flow, feedback, depth, decode, render, -, -, -, rfl⟩ := h.result
  have hlookup := (Table.lookup_retain_some.1 hsample).2
  rw [Table.lookup_upsert] at hlookup
  by_cases hkey : key = (f.attachId, f.trackId)
  · rw [if_pos hkey] at hlookup
    cases hlookup
    exact .inl ⟨hkey, depth, decode, render, by rw [hkey]⟩
  · rw [if_neg hkey] at hlookup
    exact .inr ⟨hkey, hlookup⟩

theorem Fed.sample (h : Fed r f s) :
    ∃ sample received, s.retain.samples.lookup (f.attachId, f.trackId) = some sample ∧
      sample.received = some received ∧ received.epoch = f.epoch ∧
      ((∃ old, r.samples.lookup (f.attachId, f.trackId) = some old ∧
          old.received = some received ∧ f.group ≤ received.group) ∨
        received.group = f.group ∧ ∀ old before,
          r.samples.lookup (f.attachId, f.trackId) = some old → old.received = some before →
            before.epoch = f.epoch → before.group < f.group) := by
  obtain ⟨d, a, flow, feedback, depth, decode, render, -, ha, -, rfl⟩ := h.result
  have hlive : (d.attachments.lookup f.attachId).isSome = true := by
    rw [ha]
    rfl
  have hlookup : ∀ samples : Table.Of (String × ℕ) Sample, (Table.retain
      (fun key => (d.attachments.lookup key.1).isSome) samples).lookup (f.attachId, f.trackId) =
        samples.lookup (f.attachId, f.trackId) :=
    fun samples => (Table.lookup_retain _ _ _).trans (if_pos hlive)
  have hafter := (hlookup _).trans (Table.lookup_upsert r.samples (f.attachId, f.trackId)
    (f.attachId, f.trackId) ⟨none, none⟩
    (·.receive r.instant f.epoch f.group depth decode render))
  rw [if_pos rfl] at hafter
  rcases receive_cases ((r.samples.lookup (f.attachId, f.trackId)).getD ⟨none, none⟩) r.instant
    f.epoch f.group depth decode render with ⟨old, hold, hepoch, hgroup, heq⟩ | ⟨hnewer, heq⟩
  · rw [heq] at hafter
    refine ⟨_, old, hafter, hold, hepoch, .inl ?_⟩
    cases hsample : r.samples.lookup (f.attachId, f.trackId) with
    | none =>
      rw [hsample] at hold
      cases hold
    | some sample =>
      rw [hsample] at hold
      exact ⟨sample, rfl, hold, hgroup⟩
  · rw [heq] at hafter
    refine ⟨_, _, hafter, rfl, rfl, .inr ⟨rfl, fun old before hsample hbefore hepoch => ?_⟩⟩
    refine hnewer before ?_ hepoch
    rw [hsample]
    exact hbefore

theorem Fed.other (h : Fed r f s) {key : String × ℕ} (hkey : key ≠ (f.attachId, f.trackId))
    (hlive : s.retain.live key.1 = true) : s.retain.samples.lookup key = r.samples.lookup key := by
  obtain ⟨d, a, flow, feedback, depth, decode, render, -, -, -, rfl⟩ := h.result
  refine (Table.lookup_retain _ _ _).trans ((if_pos hlive).trans ?_)
  rw [Table.lookup_upsert, if_neg hkey]

end

structure Evaluated (r : Runtime) (e : Evaluation) : Prop where
  operation : r.operation = some (.adjusting e.connection e.now e.id e.config)
  state : r.quality.lookup e.id = some e.state
  due : e.state.due e.config r.instant = true
  instant : e.instant = r.instant
  sample (trackId : ℕ) : e.sample trackId = r.samples.lookup (e.id, trackId)
  latest : e.evidence.latest = some e.latest
  news (last : ℕ) : e.state.lastSample = some last → last < e.latest

theorem evaluation_spec (r : Runtime) (e : Evaluation) (h : r.evaluation = some e) :
    Evaluated r e := by
  unfold Runtime.evaluation at h
  split at h
  next connection now id config hoperation =>
    simp only [Option.bind_eq_bind, Option.bind_eq_some_iff, Option.guard_eq_some'] at h
    obtain ⟨state, hstate, -, hdue, latest, hnews, he⟩ := h
    cases he
    obtain ⟨hlatest, hnew⟩ := Option.filter_eq_some_iff.1 hnews
    refine ⟨hoperation, hstate, hdue, rfl, fun _ => rfl, hlatest, fun last hlast => ?_⟩
    dsimp only at hlast
    rw [hlast] at hnew
    simpa using hnew
  next => cases h

structure Timely (w : Watched) : Prop where
  changes (c : Change) : c ∈ w.changes → c.instant ≤ w.runtime.instant
  evaluations (e : Evaluation) : e ∈ w.evaluations → e.latest ≤ w.runtime.instant
  lastChange (id : String) (state : Quality.State) :
    w.runtime.quality.lookup id = some state → state.lastChange ≤ w.runtime.instant
  received (key : String × ℕ) (sample : Sample) (received : Received) :
    w.runtime.samples.lookup key = some sample → sample.received = some received →
      received.instant ≤ w.runtime.instant
  sent (key : String × ℕ) (sample : Sample) (sent : Sent) :
    w.runtime.samples.lookup key = some sample → sample.sent = some sent →
      sent.instant ≤ w.runtime.instant

section
variable {now : ℕ} {P : ℕ → Prop}

theorem later_of {latest : Option ℕ} {instant : ℕ} (hlatest : ∀ l, latest = some l → P l)
    (hinstant : P instant) : P (later latest instant) := by
  cases latest with
  | none => exact hinstant
  | some l =>
    rcases max_choice l instant with h | h
    · exact (congrArg P h).mpr (hlatest l rfl)
    · exact (congrArg P h).mpr hinstant

theorem receive_latest {e : Evidence} {track : DesktopTrack} {received : Option Received}
    (he : ∀ l, e.latest = some l → P l) (hreceived : ∀ r, received = some r → P r.instant) (l : ℕ)
    (hl : (e.receive track received).latest = some l) : P l := by
  cases received with
  | none => exact he l hl
  | some r =>
    cases hl
    exact later_of he (hreceived r rfl)

theorem send_latest {e : Evidence} {sent : Option Sent} (he : ∀ l, e.latest = some l → P l)
    (hsent : ∀ s, sent = some s → P s.instant) (l : ℕ) (hl : (e.send sent).latest = some l) :
    P l := by
  cases sent with
  | none => exact he l hl
  | some s =>
    cases hl
    exact later_of he (hsent s rfl)

theorem evidence_latest (now : ℕ) (config : Quality.DesktopConfiguration)
    (sample : ℕ → Option Sample)
    (hreceived : ∀ track ∈ config.tracks, ∀ r,
      freshReceived now track (sample track.trackId) = some r → P r.instant)
    (hsent : ∀ track ∈ config.tracks, ∀ s,
      freshSent now track (sample track.trackId) = some s → P s.instant) (l : ℕ)
    (hl : (evidence now config sample).latest = some l) : P l := by
  unfold evidence at hl
  have hstart : ∀ l, (⟨false, true, none⟩ : Evidence).latest = some l → P l :=
    fun l h => by cases h
  generalize (⟨false, true, none⟩ : Evidence) = e at hl hstart
  generalize config.tracks = tracks at hl hreceived hsent
  induction tracks generalizing e with
  | nil => exact hstart l hl
  | cons track rest ih =>
    have hadded : ∀ l', (e.add now track (sample track.trackId)).latest = some l' → P l' := by
      intro l' hl'
      refine send_latest (fun l'' hl'' => ?_) (hsent track List.mem_cons_self) l' hl'
      exact receive_latest hstart (hreceived track List.mem_cons_self) l'' hl''
    exact ih _ hadded hl (fun t ht => hreceived t (List.mem_cons_of_mem track ht))
      fun t ht => hsent t (List.mem_cons_of_mem track ht)

end

theorem freshReceived_some {now : ℕ} {track : DesktopTrack} {sample : Option Sample}
    {received : Received} (h : freshReceived now track sample = some received) :
    ∃ s, sample = some s ∧ s.received = some received ∧ fresh now received.instant = true ∧
      received.epoch = track.codecEpoch := by
  obtain ⟨hreceived, hfresh⟩ := Option.filter_eq_some_iff.1 h
  obtain ⟨s, hs, hr⟩ := Option.bind_eq_some_iff.1 hreceived
  exact ⟨s, hs, hr, by simpa using hfresh⟩

theorem freshSent_some {now : ℕ} {track : DesktopTrack} {sample : Option Sample} {sent : Sent}
    (h : freshSent now track sample = some sent) :
    ∃ s, sample = some s ∧ s.sent = some sent ∧ fresh now sent.instant = true ∧
      sent.epoch = track.codecEpoch := by
  obtain ⟨hsent, hfresh⟩ := Option.filter_eq_some_iff.1 h
  obtain ⟨s, hs, hx⟩ := Option.bind_eq_some_iff.1 hsent
  exact ⟨s, hs, hx, by simpa using hfresh⟩

theorem Timely.latest {w : Watched} (h : Timely w) {e : Evaluation}
    (he : Evaluated w.runtime e) :
    e.latest ≤ w.runtime.instant ∧ w.runtime.instant < e.latest + seconds 2 := by
  have hpositive : 0 < seconds 2 := by decide
  refine evidence_latest (P := fun l => l ≤ w.runtime.instant ∧
    w.runtime.instant < l + seconds 2) e.instant e.config e.sample ?_ ?_ e.latest he.latest
  · intro track _ r hr
    obtain ⟨sample, hsample, hreceived, hfresh, -⟩ := freshReceived_some hr
    have hle := h.received _ sample r ((he.sample track.trackId).symm.trans hsample) hreceived
    have hlt : e.instant - r.instant < seconds 2 := by simpa [fresh] using hfresh
    rw [he.instant] at hlt
    omega
  · intro track _ s hs
    obtain ⟨sample, hsample, hsent, hfresh, -⟩ := freshSent_some hs
    have hle := h.sent _ sample s ((he.sample track.trackId).symm.trans hsample) hsent
    have hlt : e.instant - s.instant < seconds 2 := by simpa [fresh] using hfresh
    rw [he.instant] at hlt
    omega

section
variable {w next : Watched}

theorem Timely.tame (h : Timely w) {s : Runtime} (ht : Tame true w.runtime s) :
    Timely { w with runtime := s } where
  changes c hc := (h.changes c hc).trans ht.instant
  evaluations e he := (h.evaluations e he).trans ht.instant
  lastChange id state hs := (h.lastChange id state (ht.quality id state hs)).trans ht.instant
  received key sample received hs hr := by
    rcases ht.received key sample hs with hnone | ⟨old, hold, hsame⟩
    · rw [hnone] at hr
      cases hr
    · exact (h.received key old received hold (hsame.symm.trans hr)).trans ht.instant
  sent key sample sent hs hsent := by
    rcases ht.sent key sample sent hs hsent with hle | ⟨old, hold, hsame⟩
    · exact hle
    · exact (h.sent key old sent hold hsame).trans ht.instant

theorem Timely.sampled (h : Timely w) {s : Runtime} {changes : List Change}
    {evaluations : List Evaluation} {chosen : String → List DesktopQualityTarget}
    (hinstant : s.instant = w.runtime.instant)
    (hchanges : ∀ c ∈ changes, c ∈ w.changes ∨ c.instant = w.runtime.instant)
    (hevaluations : ∀ e ∈ evaluations, e ∈ w.evaluations ∨ e.latest ≤ w.runtime.instant)
    (hquality : ∀ id state, s.quality.lookup id = some state →
      state.lastChange ≤ w.runtime.instant)
    (hsamples : ∀ key sample, s.samples.lookup key = some sample →
      w.runtime.samples.lookup key = some sample) :
    Timely ⟨s, changes, evaluations, w.feedbacks, chosen⟩ where
  changes c hc := by
    rw [hinstant]
    exact (hchanges c hc).elim (h.changes c) fun heq => heq.le
  evaluations e he := by
    rw [hinstant]
    exact (hevaluations e he).elim (h.evaluations e) id
  lastChange id state hs := by
    rw [hinstant]
    exact hquality id state hs
  received key sample received hs hr := by
    rw [hinstant]
    exact h.received key sample received (hsamples key sample hs) hr
  sent key sample sent hs hsent := by
    rw [hinstant]
    exact h.sent key sample sent (hsamples key sample hs) hsent

theorem Timely.fed (h : Timely w) {f : Feedback} {t : Runtime} (hfed : Fed w.runtime f t) :
    Timely { w with runtime := t.retain, feedbacks := w.feedbacks ++ [f] } := by
  obtain ⟨-, hquality, -, -, hinstant⟩ := hfed.tables
  have hreceived : ∀ key r, ((w.runtime.samples.lookup key).getD ⟨none, none⟩).received = some r →
      r.instant ≤ w.runtime.instant := by
    intro key r hr
    cases hsample : w.runtime.samples.lookup key with
    | none =>
      rw [hsample] at hr
      cases hr
    | some sample =>
      rw [hsample] at hr
      exact h.received key sample r hsample hr
  have hsent : ∀ key x, ((w.runtime.samples.lookup key).getD ⟨none, none⟩).sent = some x →
      x.instant ≤ w.runtime.instant := by
    intro key x hx
    cases hsample : w.runtime.samples.lookup key with
    | none =>
      rw [hsample] at hx
      cases hx
    | some sample =>
      rw [hsample] at hx
      exact h.sent key sample x hsample hx
  refine ⟨fun c hc => ?_, fun e he => ?_, fun id state hs => ?_, fun key sample r hs hr => ?_,
    fun key sample x hs hx => ?_⟩
  · exact (h.changes c hc).trans hinstant.ge
  · exact (h.evaluations e he).trans hinstant.ge
  · have hs' := (Table.lookup_retain_some.1 hs).2
    rw [hquality] at hs'
    exact (h.lastChange id state hs').trans hinstant.ge
  · refine le_trans ?_ hinstant.ge
    rcases hfed.lookup hs with ⟨-, depth, decode, render, rfl⟩ | ⟨-, hsame⟩
    · rcases receive_cases ((w.runtime.samples.lookup key).getD ⟨none, none⟩) w.runtime.instant
        f.epoch f.group depth decode render with ⟨-, -, -, -, heq⟩ | ⟨-, heq⟩
      · exact hreceived key r (heq ▸ hr)
      · rw [heq] at hr
        cases hr
        exact le_rfl
    · exact h.received key sample r hsame hr
  · refine le_trans ?_ hinstant.ge
    rcases hfed.lookup hs with ⟨-, depth, decode, render, rfl⟩ | ⟨-, hsame⟩
    · rcases receive_cases ((w.runtime.samples.lookup key).getD ⟨none, none⟩) w.runtime.instant
        f.epoch f.group depth decode render with ⟨-, -, -, -, heq⟩ | ⟨-, heq⟩
      · exact hsent key x (heq ▸ hx)
      · rw [heq] at hx
        exact hsent key x hx
    · exact h.sent key sample x hsame hx

end

theorem queried_cases (previous : Option Quality.State) (config : Quality.DesktopConfiguration)
    (verified : List DesktopQualityTarget) (instant : ℕ) :
    (∃ old, previous = some old ∧ old.revision = Quality.revision config ∧
      State.queried previous config verified instant =
        { old with layout := config.layoutEpoch, verified := verified }) ∨
    State.queried previous config verified instant =
      ⟨Quality.revision config, config.layoutEpoch, verified, [], .Manual (Quality.target config),
        instant, 0, none⟩ := by
  cases previous with
  | none => exact .inr rfl
  | some old =>
    by_cases hrevision : old.revision = Quality.revision config
    · refine .inl ⟨old, rfl, hrevision, ?_⟩
      simp [State.queried, Option.filter, hrevision]
    · refine .inr ?_
      simp [State.queried, Option.filter, hrevision]

theorem timely_next {w next : Watched} (h : Timely w) (hnext : w.Next next) : Timely next := by
  cases hnext with
  | tame ht => exact h.tame ht
  | fed hfed => exact h.fed hfed
  | configured hc =>
    obtain ⟨-, hquality, hsamples, -, hinstant⟩ := hc.tables
    refine h.sampled hinstant (fun c hmem => ?_) (fun e he => .inl he) (fun id state hs => ?_)
      fun key sample hs => hsamples ▸ (Table.lookup_retain_some.1 hs).2
    · rcases List.mem_append.1 hmem with hold | hnew
      · exact .inl hold
      · cases List.mem_singleton.1 hnew
        exact .inr rfl
    · have hs' := (Table.lookup_retain_some.1 hs).2
      rw [hquality] at hs'
      exact h.lastChange id state hs'
  | queried hq =>
    obtain ⟨connection, now, id, config, requested, verified, d, b, -, -, -, -, rfl⟩ := hq.result
    refine h.sampled rfl (fun c hc => .inl hc) (fun e he => .inl he) (fun other state hs => ?_)
      fun key sample hs => (Table.lookup_retain_some.1 hs).2
    have hs' := (Table.lookup_retain_some.1 hs).2
    rw [Table.lookup_insert_eq] at hs'
    by_cases hid : other = id
    · rw [if_pos hid] at hs'
      cases hs'
      rcases queried_cases (w.runtime.quality.lookup id) config verified w.runtime.instant with
        ⟨old, hold, -, heq⟩ | heq
      · rw [heq]
        exact h.lastChange id old hold
      · rw [heq]
    · rw [if_neg hid] at hs'
      exact h.lastChange other state hs'
  | @evaluated e he =>
    have hspec := evaluation_spec w.runtime e he
    refine h.sampled rfl (fun c hc => .inl hc) (fun e' he' => ?_) (fun other state hs => ?_)
      fun key sample hs => hs
    · rcases List.mem_append.1 he' with hold | hnew
      · exact .inl hold
      · cases List.mem_singleton.1 hnew
        exact .inr (h.latest hspec).1
    · have hs' := (Table.lookup_insert_eq _ _ _ _).symm.trans hs
      by_cases hid : other = e.id
      · rw [if_pos hid] at hs'
        cases hs'
        exact h.lastChange e.id e.state hspec.state
      · rw [if_neg hid] at hs'
        exact h.lastChange other state hs'
  | applied happlied =>
    obtain ⟨connection, now, old, target, policy, newPolicy, -, hc⟩ := happlied.result
    obtain ⟨-, hquality, hsamples, -, hinstant⟩ := hc.tables
    refine h.sampled hinstant (fun c hmem => ?_) (fun e he => .inl he) (fun other state hs => ?_)
      fun key sample hs => hsamples ▸ (Table.lookup_retain_some.1 hs).2
    · rcases List.mem_append.1 hmem with hold | hnew
      · exact .inl hold
      · cases List.mem_singleton.1 hnew
        exact .inr rfl
    · have hs' := (Table.lookup_retain_some.1 hs).2
      rw [hquality] at hs'
      rcases lookup_requalified hc.allowed hs' with ⟨-, before, -, rfl⟩ | ⟨-, hsame⟩
      · exact le_rfl
      · exact h.lastChange other state hsame

theorem revision_of (config : Quality.DesktopConfiguration) (epoch : ℕ)
    (htracks : config.tracks ≠ []) (h : ∀ t ∈ config.tracks, t.codecEpoch = epoch) :
    Quality.revision config = epoch := by
  unfold Quality.revision
  generalize config.tracks = tracks at h htracks
  induction tracks with
  | nil => exact absurd rfl htracks
  | cons t rest ih =>
    rw [List.map_cons, List.foldr_cons, h t List.mem_cons_self]
    cases rest with
    | nil => exact Nat.max_zero epoch
    | cons u rest =>
      rw [ih (fun v hv => h v (List.mem_cons_of_mem t hv)) (List.cons_ne_nil u rest), max_self]

theorem revision_none (config : Quality.DesktopConfiguration) (htracks : config.tracks = []) :
    Quality.revision config = 0 := by
  unfold Quality.revision
  rw [htracks]
  rfl

structure Traced (w : Watched) : Prop where
  epoch (c : Change) : c ∈ w.changes → ∃ e, 1 ≤ e ∧ ∀ t ∈ c.config.tracks, t.codecEpoch = e
  distinct : w.changes.Pairwise fun a b =>
    ∀ t ∈ a.config.tracks, ∀ u ∈ b.config.tracks, t.codecEpoch < u.codecEpoch
  stored (id : String) (config : Quality.DesktopConfiguration) :
    w.runtime.configurations.lookup id = some config →
      ∃ c ∈ w.changes, c.id = id ∧ c.config = config
  read (operation : Operation) : w.runtime.operation = some operation →
    operation.config.tracks ≠ [] ∧ ∃ c ∈ w.changes, c.config = operation.config
  evaluated (e : Evaluation) : e ∈ w.evaluations →
    e.config.tracks ≠ [] ∧ ∃ c ∈ w.changes, c.config = e.config

section
variable {w : Watched}

theorem Traced.revision (h : Traced w) {c : Change} (hc : c ∈ w.changes)
    (htracks : c.config.tracks ≠ []) :
    1 ≤ Quality.revision c.config ∧
      ∀ t ∈ c.config.tracks, t.codecEpoch = Quality.revision c.config := by
  obtain ⟨e, hpositive, he⟩ := h.epoch c hc
  rw [revision_of c.config e htracks he]
  exact ⟨hpositive, he⟩

theorem Traced.unique (h : Traced w) {a b : Change} (ha : a ∈ w.changes) (hb : b ∈ w.changes)
    (htracks : a.config.tracks ≠ [])
    (hrevision : Quality.revision a.config = Quality.revision b.config) : a = b := by
  let Before : Change → Change → Prop := fun a b =>
    ∀ t ∈ a.config.tracks, ∀ u ∈ b.config.tracks, t.codecEpoch < u.codecEpoch
  let Apart : Change → Change → Prop := fun a b => a = b ∨ Before a b ∨ Before b a
  have hapart : w.changes.Pairwise Apart := h.distinct.imp fun hlt => .inr (.inl hlt)
  have hapart' : w.changes.Pairwise (flip Apart) := h.distinct.imp fun hlt => .inr (.inr hlt)
  have hboth := hapart.forall_of_forall_of_flip (fun _ _ => .inl rfl) hapart'
  obtain ⟨hpositive, hepoch⟩ := h.revision ha htracks
  have htracks' : b.config.tracks ≠ [] := fun hnil => by
    have := revision_none b.config hnil
    omega
  obtain ⟨-, hepoch'⟩ := h.revision hb htracks'
  obtain ⟨t, ht⟩ := List.exists_mem_of_ne_nil _ htracks
  obtain ⟨u, hu⟩ := List.exists_mem_of_ne_nil _ htracks'
  have hsame : t.codecEpoch = u.codecEpoch :=
    (hepoch t ht).trans (hrevision.trans (hepoch' u hu).symm)
  rcases hboth ha hb with heq | hlt | hgt
  · exact heq
  · have := hlt t ht u hu
    omega
  · have := hgt u hu t ht
    omega

theorem Traced.readable (h : Traced w) {config : Quality.DesktopConfiguration}
    (hconfig : Readable w.runtime config) :
    config.tracks ≠ [] ∧ ∃ c ∈ w.changes, c.config = config := by
  rcases hconfig with ⟨operation, hoperation, rfl⟩ | ⟨htracks, id, hlookup⟩
  · exact h.read operation hoperation
  · obtain ⟨c, hc, -, hsame⟩ := h.stored id config hlookup
    exact ⟨htracks, c, hc, hsame⟩

theorem Traced.kept (h : Traced w) {s : Runtime} {evaluations : List Evaluation}
    {feedbacks : List Feedback} {chosen : String → List DesktopQualityTarget}
    (hstored : ∀ id config, s.configurations.lookup id = some config →
      w.runtime.configurations.lookup id = some config)
    (hread : ∀ operation, s.operation = some operation → Readable w.runtime operation.config)
    (hevaluated : ∀ e ∈ evaluations, e ∈ w.evaluations ∨ Readable w.runtime e.config) :
    Traced ⟨s, w.changes, evaluations, feedbacks, chosen⟩ :=
  ⟨h.epoch, h.distinct, fun id config hlookup => h.stored id config (hstored id config hlookup),
    fun operation hoperation => h.readable (hread operation hoperation),
    fun e he => (hevaluated e he).elim (h.evaluated e) h.readable⟩

theorem Traced.added (h : Traced w) (hnumbered : w.Numbered) {s : Runtime} {id : String}
    {config : Quality.DesktopConfiguration} {instant : ℕ}
    {chosen : String → List DesktopQualityTarget}
    (hepoch : ∀ t ∈ config.tracks, t.codecEpoch = w.runtime.nextCodecEpoch + 1)
    (hstored : ∀ other config', s.configurations.lookup other = some config' →
      other = id ∧ config' = config ∨
        other ≠ id ∧ w.runtime.configurations.lookup other = some config')
    (hread : ∀ operation, s.operation = some operation → Readable w.runtime operation.config) :
    Traced ⟨s, w.changes ++ [⟨id, config, instant⟩], w.evaluations, w.feedbacks, chosen⟩ where
  epoch c hc := by
    rcases List.mem_append.1 hc with hold | hnew
    · exact h.epoch c hold
    · cases List.mem_singleton.1 hnew
      exact ⟨w.runtime.nextCodecEpoch + 1, Nat.le_add_left 1 _, hepoch⟩
  distinct := by
    refine List.pairwise_append.2 ⟨h.distinct, List.pairwise_singleton _ _, ?_⟩
    intro c hc c' hc' t ht u hu
    cases List.mem_singleton.1 hc'
    rw [hepoch u hu]
    exact Nat.lt_succ_of_le (hnumbered c hc t ht)
  stored other config' hlookup := by
    rcases hstored other config' hlookup with ⟨rfl, rfl⟩ | ⟨-, hold⟩
    · exact ⟨_, List.mem_append_right _ (List.mem_singleton.2 rfl), rfl, rfl⟩
    · obtain ⟨c, hc, hsame⟩ := h.stored other config' hold
      exact ⟨c, List.mem_append_left _ hc, hsame⟩
  read operation hoperation := by
    obtain ⟨htracks, c, hc, hsame⟩ := h.readable (hread operation hoperation)
    exact ⟨htracks, c, List.mem_append_left _ hc, hsame⟩
  evaluated e he := by
    obtain ⟨htracks, c, hc, hsame⟩ := h.evaluated e he
    exact ⟨htracks, c, List.mem_append_left _ hc, hsame⟩

theorem traced_next {next : Watched} (h : Traced w) (hnumbered : w.Numbered)
    (hnext : w.Next next) : Traced next := by
  cases hnext with
  | tame ht =>
    exact h.kept (fun id config hc => (ht.configurations id config hc).1) ht.operation
      fun e he => .inl he
  | @fed f t hfed =>
    obtain ⟨hconfigurations, -, -, hoperation, -⟩ := hfed.tables
    refine h.kept (fun id config hc => ?_) (fun operation hop => ?_) fun e he => .inl he
    · rw [← hconfigurations]
      exact (Table.lookup_retain_some.1 hc).2
    · exact .inl ⟨operation, hoperation.symm.trans hop, rfl⟩
  | configured hc =>
    obtain ⟨-, -, -, hoperation, -⟩ := hc.tables
    exact h.added hnumbered hc.epoch (fun _ _ => hc.lookup) fun operation hop =>
      .inl ⟨operation, hoperation.symm.trans hop, rfl⟩
  | queried hq =>
    obtain ⟨connection, now, id, config, requested, verified, d, b, -, -, -, -, rfl⟩ := hq.result
    refine h.kept (fun id config hc => (Table.lookup_retain_some.1 hc).2) (fun operation hop => ?_)
      fun e he => .inl he
    cases hop
  | @evaluated e he =>
    have hspec := evaluation_spec w.runtime e he
    refine h.kept (fun id config hc => hc) (fun operation hop => ?_) fun e' he' => ?_
    · obtain ⟨target, -, rfl⟩ := Option.map_eq_some_iff.1 hop
      exact .inl ⟨_, hspec.operation, rfl⟩
    · rcases List.mem_append.1 he' with hold | hnew
      · exact .inl hold
      · cases List.mem_singleton.1 hnew
        exact .inr (.inl ⟨_, hspec.operation, rfl⟩)
  | applied happlied =>
    obtain ⟨connection, now, old, target, policy, newPolicy, -, hc⟩ := happlied.result
    refine h.added hnumbered hc.epoch (fun _ _ hlookup => hc.lookup hlookup) fun operation hop => ?_
    cases hop

end

end Rieul.Screen.Tables
