import Rieul.Screen.Configure

/-!
# What an action of the runtime comes to

An action is tame, or it is one of a few that put something new into the tables.
-/

namespace Rieul.Screen.Tables
open Stateful Ipc Quality

structure Fed (r : Runtime) (f : Feedback) (s : Runtime) : Prop where
  config : ∃ config, r.configurations.lookup f.attachId = some config ∧
    ∃ t ∈ config.tracks, t.trackId = f.trackId ∧ t.codecEpoch = f.epoch
  result : ∃ d a flow feedback depth decode render, Left r.desktop d ∧
    d.attachments.lookup f.attachId = some a ∧
    (∃ b, r.desktop.attachments.lookup f.attachId = some b) ∧
    s = { r with
      desktop := d
      flow := flow
      samples := Table.upsert (f.attachId, f.trackId) ⟨none, none⟩
        (·.receive r.instant f.epoch f.group depth decode render) r.samples
      feedback := feedback }

theorem feedback_spec (auth : Auth) (connection now : ℕ) (frame : DesktopInputFrame)
    (trackId codecEpoch groupId decodeMicros renderMicros queueDepth : ℕ) (r : Runtime) :
    Triple (fun s => s = r) (acceptFeedback auth connection now frame trackId codecEpoch groupId
        decodeMicros renderMicros queueDepth)
      (fun _ s => ∃ t, Fed r ⟨frame.attachId, trackId, codecEpoch, groupId⟩ t ∧ s = t.retain)
      (Tame true r) := by
  refine mutate_triple (Triple.weaken
    (Q := fun _ => Fed r ⟨frame.attachId, trackId, codecEpoch, groupId⟩) (E := Tame false r) ?_
    (fun _ t ht => ⟨t, ht, rfl⟩) fun t ht => ht.retain) (Tame.refl r).swept
  have hauthorize := authorize_section (fun _ => True) auth connection now frame.attachId r
    fun _ _ => trivial
  refine .bind (hauthorize.weaken (fun _ _ hs => hs) fun _ hs => hs.tame) fun a =>
    .get_bind fun s hs => ?_
  obtain ⟨⟨d, hd, rfl⟩, ha⟩ := hs
  have hfail : ∀ t, t = { r with desktop := d } → Tame false r t :=
    fun t ht => ht ▸ (Tame.refl r).desktop hd.left
  refine .require_bind (fun config hconfig => .ensure_bind (fun htrack => ?_) hfail) hfail
  refine .ensure_bind (fun _ => .ensure_bind (fun _ => ?_) hfail) hfail
  intro t ht
  rw [ht, exec_bind, onDesktop_eq, exec_modify]
  have hbefore : r.desktop.attachments.lookup frame.attachId = some a := by
    rcases hd.attachments frame.attachId with hsame | ⟨hnone, -⟩
    · exact hsame ▸ ha
    · rw [hnone] at ha
      cases ha
  have hafter : (d.update frame.attachId fun a =>
      { a with sequence := frame.sequence }).attachments.lookup frame.attachId =
        some { a with sequence := frame.sequence } := by
    rw [lookup_update, if_pos rfl, ha]
    rfl
  have hleft := left_update r.desktop d frame.attachId
    (fun a => { a with sequence := frame.sequence }) (fun _ => rfl) hd.left
  dsimp only
  rw [exec_modify]
  exact ⟨⟨config, hconfig, htrack.2⟩, _, _, _, _, queueDepth, decodeMicros, renderMicros, hleft,
    hafter, ⟨a, hbefore⟩, rfl⟩

structure Queried (r : Runtime) (s : Runtime) : Prop where
  result : ∃ connection now id config requested verified d a,
    r.operation = some (.querying connection now id config requested) ∧
    r.configurations.lookup id = some config ∧ Left r.desktop d ∧
    d.attachments.lookup id = some a ∧ s = { r with
      desktop := d
      quality := r.quality.insert id
        (State.queried (r.quality.lookup id) config verified r.instant) }

theorem query_spec (auth : Auth) (elapsed : ℕ)
    (probe : DesktopQualityTarget → DesktopTrack → DesktopQualityVerification) (r : Runtime) :
    Triple (fun s => s = r) (answerQuery auth elapsed probe)
      (fun _ s => ∃ t, Queried r t ∧ s = { t.retain with operation := none }) (Tame true r) := by
  have hkept : ∀ t, t = r → Tame true r t := fun t ht => ht ▸ (Tame.refl r).swept
  refine .get_bind fun s hs => ?_
  subst hs
  cases hoperation : s.operation with
  | none => exact .throw hkept
  | some operation =>
    cases operation with
    | setting | adjusting | applying => exact .throw hkept
    | querying connection now id config requested =>
      refine .finish (F := fun _ t => ∃ u, Queried s u ∧ t = u.retain) (D := Tame true s) ?_
        (fun _ t ht => ?_) fun t ht => ht.same rfl rfl rfl rfl le_rfl (.inl rfl) le_rfl
      · refine mutate_triple (Triple.weaken (Q := fun _ => Queried s) (E := Tame false s) ?_
          (fun _ t ht => ⟨t, ht, rfl⟩) fun t ht => ht.retain) (Tame.refl s).swept
        have hauthorize := authorize_section (fun _ => True) auth connection
          (saturatingAdd now elapsed) id s fun _ _ => trivial
        refine .bind (hauthorize.weaken (fun _ _ ht => ht) fun _ ht => ht.tame) fun a =>
          .get_bind fun t ht => ?_
        obtain ⟨⟨d, hd, rfl⟩, ha⟩ := ht
        have hfail : ∀ u, u = { s with desktop := d } → Tame false s u :=
          fun u hu => hu ▸ (Tame.refl s).desktop hd.left
        refine .ensure_bind (fun hconfig => ?_) hfail
        refine .modify_bind (.pure fun u hu => hu) fun u hu => ?_
        exact ⟨connection, now, id, config, requested, _, d, a, hoperation, hconfig, hd.left, ha,
          by rw [hu]⟩
      · obtain ⟨u, hu, rfl⟩ := ht
        exact ⟨u, hu, rfl⟩

theorem Refused.tame {p : Attachment → Prop} {r s : Runtime} (h : Refused p r s) :
    Tame false r s := by
  obtain ⟨d, n, hd, hn, rfl⟩ := h
  exact ((Tame.refl r).desktop hd.left).same rfl rfl rfl rfl hn (.inr rfl) le_rfl

theorem evaluation_operation (r : Runtime) (e : Evaluation) (h : r.evaluation = some e) :
    ∃ connection now id config, r.operation = some (.adjusting connection now id config) := by
  unfold Runtime.evaluation at h
  split at h
  next connection now id config hoperation => exact ⟨connection, now, id, config, hoperation⟩
  next => cases h

theorem evaluate_cases (r : Runtime) :
    (∃ e, r.evaluation = some e ∧ exec evaluateQuality r = (.ok (), r.evaluate e)) ∨
      r.evaluation = none ∧ Tame true r (exec evaluateQuality r).2 := by
  have hkept := (Tame.refl r).swept
  unfold evaluateQuality
  rw [exec_bind, exec_get]
  dsimp only
  split
  next e _ he => exact .inl ⟨e, he, rfl⟩
  next _ hnone => exact .inr ⟨hnone, hkept.same rfl rfl rfl rfl le_rfl (.inl rfl) le_rfl⟩
  next hsome hnone =>
    refine .inr ⟨?_, hkept⟩
    cases he : r.evaluation with
    | none => rfl
    | some e =>
      obtain ⟨connection, now, id, config, hoperation⟩ := evaluation_operation r e he
      exact absurd he (hsome connection now id config e hoperation)

structure Applied (p : Attachment → Prop) (r : Runtime) (id : String)
    (config : Quality.DesktopConfiguration) (s : Runtime) : Prop where
  result : ∃ connection now old target policy newPolicy,
    r.operation = some (.applying connection now id old target policy newPolicy) ∧
    Configured p r (qualityRequest id old target) true
      (some ⟨Quality.revision old, policy, newPolicy⟩) config s

theorem apply_spec (auth later : Auth) (displays : List DesktopDisplay) (r : Runtime) :
    Triple (fun s => s = r) (applyQuality auth later displays)
      (fun answer s => ∃ t, Applied (fun _ => True) r answer.1 answer.2 t ∧
        s = { t.retain with operation := none }) (Tame true r) := by
  have hkept : ∀ t, t = r → Tame true r t := fun t ht => ht ▸ (Tame.refl r).swept
  refine .get_bind fun s hs => ?_
  subst hs
  cases hoperation : s.operation with
  | none => exact .throw hkept
  | some operation =>
    cases operation with
    | querying | setting | adjusting => exact .throw hkept
    | applying connection now id config target policy newPolicy =>
      refine .finish (F := fun answer u => ∃ t,
          Applied (fun _ => True) s answer.1 answer.2 t ∧ u = t.retain) (D := Tame true s) ?_
        (fun _ u hu => ?_) fun u hu => hu.same rfl rfl rfl rfl le_rfl (.inl rfl) le_rfl
      · have hspec := configure_spec (fun _ => True) auth later connection now displays
          (qualityRequest id config target) true (some ⟨Quality.revision config, policy, newPolicy⟩) s
          (fun _ _ => trivial) fun _ _ => trivial
        refine .bind (hspec.weaken (fun _ _ h => h) ?_) fun next => .pure fun u hu => ?_
        · rintro u (rfl | ⟨t, ht, rfl⟩)
          · exact (Tame.refl _).swept
          · exact ht.tame.retain
        · obtain ⟨t, ht, rfl⟩ := hu
          exact ⟨t, ⟨connection, now, config, target, policy, newPolicy, hoperation, ht⟩, rfl⟩
      · obtain ⟨t, ht, rfl⟩ := hu
        exact ⟨t, ht, rfl⟩

structure Unnoted (r : Runtime) (a : Action) (answer : Except Error Answer) : Prop where
  changes (w : Watched) : w.noteChanges answer = w.changes
  evaluations (w : Watched) : w.runtime = r → w.noteEvaluations a = w.evaluations
  feedbacks (w : Watched) : w.noteFeedbacks a answer = w.feedbacks
  chosen (w : Watched) : w.noteChosen a answer = w.chosen

inductive Outcome (r : Runtime) : Action → Except Error Answer → Runtime → Prop where
  | tame {a : Action} {answer : Except Error Answer} {s : Runtime} : Tame true r s →
      Unnoted r a answer → Outcome r a answer s
  | fed {auth : Auth} {connection now : ℕ} {frame : DesktopInputFrame} {f : Feedback}
      {t : Runtime} : feedbackOf frame = some f → Fed r f t →
      Outcome r (.acceptInput auth connection now frame) (.ok none) t.retain
  | configured {auth later : Auth} {connection now : ℕ} {displays : List DesktopDisplay}
      {request : ConfigureDesktopViewportsReq} {serverOwned : Bool}
      {config : Quality.DesktopConfiguration} {t : Runtime} :
      Configured (fun _ => True) r request serverOwned none config t →
      Outcome r (.configure auth later connection now displays request serverOwned)
        (.ok (some (request.attachId, config))) t.retain
  | queried {auth : Auth} {elapsed : ℕ}
      {probe : DesktopQualityTarget → DesktopTrack → DesktopQualityVerification} {t : Runtime} :
      Queried r t →
      Outcome r (.answerQuery auth elapsed probe) (.ok none) { t.retain with operation := none }
  | evaluated {e : Evaluation} : r.evaluation = some e →
      Outcome r .evaluateQuality (.ok none) (r.evaluate e)
  | applied {auth later : Auth} {displays : List DesktopDisplay} {id : String}
      {config : Quality.DesktopConfiguration} {t : Runtime} :
      Applied (fun _ => True) r id config t →
      Outcome r (.applyQuality auth later displays) (.ok (some (id, config)))
        { t.retain with operation := none }

theorem noteChanges_none (w : Watched) (answer : Except Error Answer)
    (h : ∀ c, answer ≠ .ok (some c)) : w.noteChanges answer = w.changes := by
  unfold Watched.noteChanges
  split
  next id config => exact absurd rfl (h (id, config))
  next => rfl

theorem exec_quiet {α : Type} (x : Work α) (r : Runtime) :
    exec (quiet x) r = (match (exec x r).1 with
      | .ok _ => .ok none
      | .error e => .error e, (exec x r).2) := by
  unfold quiet
  rw [exec_bind]
  rcases exec x r with ⟨answer, s⟩
  cases answer with
  | ok a | error e => rfl

theorem quiet_answer {α : Type} (x : Work α) (r : Runtime) (c : String × Quality.DesktopConfiguration) :
    (exec (quiet x) r).1 ≠ .ok (some c) := by
  rw [exec_quiet]
  cases (exec x r).1 with
  | ok a | error e => exact nofun

section
variable {r : Runtime}

def Action.plain : Action → Bool
  | .acceptInput _ _ _ _ | .evaluateQuality | .applyQuality _ _ _ => false
  | _ => true

theorem unnoted_plain (a : Action) (answer : Except Error Answer) (ha : a.plain = true)
    (h : ∀ c, answer ≠ .ok (some c)) : Unnoted r a answer := by
  refine ⟨fun w => noteChanges_none w answer h, fun w _ => ?_, fun w => ?_, fun w => ?_⟩
  · cases a <;> first | rfl | cases ha
  · cases a <;> first | rfl | cases ha
  · cases a <;> first | rfl | cases ha

theorem outcome_quiet {α : Type} {x : Work α} {a : Action} (ha : a.plain = true)
    (hrun : a.run = quiet x) (hx : Tames r x) :
    Outcome r a (exec a.run r).1 (exec a.run r).2 := by
  rw [hrun]
  refine .tame ?_ (unnoted_plain a _ ha (quiet_answer x r))
  rw [quiet_state]
  exact Triple.of_exec hx r (.refl r)

theorem outcome_acceptInput (auth : Auth) (connection now : ℕ) (frame : DesktopInputFrame) :
    Outcome r (.acceptInput auth connection now frame)
      (exec (Action.run (.acceptInput auth connection now frame)) r).1
      (exec (Action.run (.acceptInput auth connection now frame)) r).2 := by
  show Outcome r _ (exec (quiet (acceptInput auth connection now frame)) r).1
    (exec (quiet (acceptInput auth connection now frame)) r).2
  rw [exec_quiet]
  have hrefused : ∀ (e : Error) (s : Runtime), Tame true r s →
      Outcome r (.acceptInput auth connection now frame) (.error e) s :=
    fun e s hs => .tame hs ⟨fun _ => rfl, fun _ _ => rfl, fun _ => rfl, fun _ => rfl⟩
  cases hevent : frame.event with
  | Feedback trackId codecEpoch groupId decodeMicros renderMicros queueDepth keyframe objectId =>
    have hx : acceptInput auth connection now frame = acceptFeedback auth connection now frame
        trackId codecEpoch groupId decodeMicros renderMicros queueDepth := by
      unfold acceptInput
      rw [hevent]
    have hspec := feedback_spec auth connection now frame trackId codecEpoch groupId decodeMicros
      renderMicros queueDepth r r rfl
    rw [hx]
    rcases hexec : exec (acceptFeedback auth connection now frame trackId codecEpoch groupId
      decodeMicros renderMicros queueDepth) r with ⟨answer, s⟩
    rw [hexec] at hspec
    cases answer with
    | ok u =>
      obtain ⟨t, ht, rfl⟩ := hspec
      refine .fed ?_ ht
      unfold feedbackOf
      rw [hevent]
    | error e => exact hrefused e s hspec
  | _ =>
    have hx : acceptInput auth connection now frame =
        mutate (onDesktop (input auth connection now frame)) := by
      unfold acceptInput
      rw [hevent]
    have hnone : feedbackOf frame = none := by
      unfold feedbackOf
      rw [hevent]
    have htame := Triple.of_exec (tames_call fun d => left_input d auth connection now frame) r
      (.refl r)
    rw [hx]
    rcases hexec : exec (mutate (onDesktop (input auth connection now frame))) r with ⟨answer, s⟩
    rw [hexec] at htame
    cases answer with
    | error e => exact hrefused e s htame
    | ok u =>
      refine .tame htame ⟨fun _ => rfl, fun _ _ => rfl, fun w => ?_, fun _ => rfl⟩
      simp only [Watched.noteFeedbacks, hnone, Option.toList_none, List.append_nil]

theorem outcome_configure (auth later : Auth) (connection now : ℕ) (displays : List DesktopDisplay)
    (request : ConfigureDesktopViewportsReq) (serverOwned : Bool) :
    Outcome r (.configure auth later connection now displays request serverOwned)
      (exec (Action.run (.configure auth later connection now displays request serverOwned)) r).1
      (exec (Action.run (.configure auth later connection now displays request serverOwned)) r).2 := by
  have hspec := configure_spec (fun _ => True) auth later connection now displays request
    serverOwned none r (fun _ _ => trivial) (fun _ _ => trivial) r rfl
  simp only [Action.run, exec_bind]
  rcases hexec : exec (configureImpl auth later connection now displays request serverOwned none) r
    with ⟨answer, s⟩
  rw [hexec] at hspec
  cases answer with
  | ok config =>
    obtain ⟨t, ht, rfl⟩ := hspec
    exact .configured ht
  | error e =>
    refine .tame ?_ (unnoted_plain _ _ rfl fun c h => by cases h)
    rcases hspec with rfl | ⟨t, ht, rfl⟩
    · exact (Tame.refl _).swept
    · exact ht.tame.retain

theorem outcome_answerQuery (auth : Auth) (elapsed : ℕ)
    (probe : DesktopQualityTarget → DesktopTrack → DesktopQualityVerification) :
    Outcome r (.answerQuery auth elapsed probe)
      (exec (Action.run (.answerQuery auth elapsed probe)) r).1
      (exec (Action.run (.answerQuery auth elapsed probe)) r).2 := by
  have hspec := query_spec auth elapsed probe r r rfl
  simp only [Action.run, exec_quiet]
  rcases hexec : exec (answerQuery auth elapsed probe) r with ⟨answer, s⟩
  rw [hexec] at hspec
  cases answer with
  | ok support =>
    obtain ⟨t, ht, rfl⟩ := hspec
    exact .queried ht
  | error e => exact .tame hspec (unnoted_plain _ _ rfl fun c h => by cases h)

theorem outcome_evaluateQuality :
    Outcome r .evaluateQuality (exec (Action.run .evaluateQuality) r).1
      (exec (Action.run .evaluateQuality) r).2 := by
  simp only [Action.run]
  rcases evaluate_cases r with ⟨e, he, hexec⟩ | ⟨hnone, htame⟩
  · rw [exec_quiet, hexec]
    exact .evaluated he
  · refine .tame ?_ ⟨fun w => noteChanges_none w _ (quiet_answer _ r), fun w hw => ?_,
      fun _ => rfl, fun _ => rfl⟩
    · rw [quiet_state]
      exact htame
    · simp only [Watched.noteEvaluations, hw, hnone, Option.toList_none, List.append_nil]

theorem outcome_applyQuality (auth later : Auth) (displays : List DesktopDisplay) :
    Outcome r (.applyQuality auth later displays)
      (exec (Action.run (.applyQuality auth later displays)) r).1
      (exec (Action.run (.applyQuality auth later displays)) r).2 := by
  have hspec := apply_spec auth later displays r r rfl
  simp only [Action.run, exec_bind]
  rcases hexec : exec (applyQuality auth later displays) r with ⟨answer, s⟩
  rw [hexec] at hspec
  cases answer with
  | ok next =>
    obtain ⟨t, ht, rfl⟩ := hspec
    exact .applied ht
  | error e => exact .tame hspec ⟨fun _ => rfl, fun _ _ => rfl, fun _ => rfl, fun _ => rfl⟩

theorem outcome_step (a : Action) : Outcome r a (exec a.run r).1 (exec a.run r).2 := by
  cases a with
  | attach auth admitted connection client now caps supported request =>
    exact outcome_quiet rfl rfl
      (tames_attach auth admitted connection client now caps supported request)
  | setControl auth connection id now action =>
    exact outcome_quiet rfl rfl
      (tames_call fun d => left_setControl d auth connection id now action)
  | acceptInput auth connection now frame => exact outcome_acceptInput auth connection now frame
  | renew auth connection id now =>
    exact outcome_quiet rfl rfl (tames_call fun d => left_renew d auth connection id now)
  | detach auth connection id now =>
    exact outcome_quiet rfl rfl (tames_call fun d => (left_removing d).detach auth connection id now)
  | close connection =>
    exact outcome_quiet rfl rfl (tames_call fun d => (left_removing d).disconnect connection)
  | remove id => exact outcome_quiet rfl rfl (tames_call fun d => (left_removing d).remove id)
  | expire auth now =>
    exact outcome_quiet rfl rfl (tames_call fun d => (left_removing d).expire auth now)
  | release id epoch =>
    exact outcome_quiet rfl rfl (tames_call fun d => left_releaseControl d id epoch)
  | configure auth later connection now displays request serverOwned =>
    exact outcome_configure auth later connection now displays request serverOwned
  | refreshLayout displays => exact outcome_quiet rfl rfl (tames_refreshLayout displays)
  | reconcile admitted result => exact outcome_quiet rfl rfl (tames_reconcile admitted result)
  | lose releases => exact outcome_quiet rfl rfl (tames_lose releases)
  | mediaFlow id track => exact outcome_quiet rfl rfl (tames_mediaFlow id track)
  | recordDelivery id track slow =>
    exact outcome_quiet rfl rfl (tames_recordDelivery id track slow)
  | queryQuality auth connection now request =>
    exact outcome_quiet rfl rfl (tames_queryQuality auth connection now request)
  | answerQuery auth elapsed probe => exact outcome_answerQuery auth elapsed probe
  | setQuality auth connection now request =>
    exact outcome_quiet rfl rfl (tames_setQuality auth connection now request)
  | chooseQuality =>
    refine .tame ?_ (unnoted_plain _ _ rfl (quiet_answer chooseQuality r))
    simp only [Action.run, quiet_state]
    exact Triple.of_exec tames_chooseQuality r rfl
  | adjustQuality auth connection now id =>
    exact outcome_quiet rfl rfl (tames_adjustQuality auth connection now id)
  | evaluateQuality => exact outcome_evaluateQuality
  | applyQuality auth later displays => exact outcome_applyQuality auth later displays
  | wait nanos => exact outcome_quiet rfl rfl (tames_wait nanos)

end

end Rieul.Screen.Tables
