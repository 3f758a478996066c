import Rieul.RootUpdate.Readiness

/-!
# What a resume keeps

Each operation of the worker keeps what is known at its stage; it leaves the daemons
alone and takes the record forward.
-/

namespace Rieul.RootUpdate
open Trace

namespace Host
variable {host next : Host}

theorem Seen.forward {m : Migration} (h : Seen host.dir.migration m)
    (hforward : host.Forward next) : Seen next.dir.migration m := by
  intro m' hm'
  obtain ⟨before, hbefore, hle⟩ := hforward m' hm'
  exact Nat.le_trans (h before hbefore) hle

theorem late_iff (m : Migration) :
    m.phase = .starting ∨ m.phase = .complete ↔ 3 ≤ m.phase.rank := by
  cases m.phase <;> decide

theorem Late.forward (h : Late host.dir.migration) (hforward : host.Forward next) :
    Late next.dir.migration := by
  intro m' hm'
  obtain ⟨before, hbefore, hle⟩ := hforward m' hm'
  rw [late_iff]
  exact Nat.le_trans ((late_iff before).mp (h before hbefore)) hle

theorem Seen.late {record : Option Migration} {m : Migration} (h : Seen record m)
    (hlate : m.phase = .starting ∨ m.phase = .complete) : Late record := by
  intro m' hm'
  rw [late_iff] at hlate ⊢
  exact Nat.le_trans hlate (h m' hm')

theorem Forward.of_eq (h : next.dir.migration = host.dir.migration) : host.Forward next := by
  intro m' hm'
  exact ⟨m', h ▸ hm', Nat.le_refl _⟩

theorem Forward.trans {last : Host} (h : host.Forward next) (h' : next.Forward last) :
    host.Forward last := by
  intro m'' hm''
  obtain ⟨m', hm', hle'⟩ := h' m'' hm''
  obtain ⟨m, hm, hle⟩ := h m' hm'
  exact ⟨m, hm, Nat.le_trans hle hle'⟩

theorem FitsDaemon.imp {starts : List StartEvent} {unready unready' late late' : Prop}
    {daemon : Daemon} (h : FitsDaemon starts unready late daemon) (hunready : unready → unready')
    (hlate : late → late') : FitsDaemon starts unready' late' daemon := by
  cases daemon with
  | allowed ownHash | capturing ownHash => exact ⟨h.1, h.2.1, hlate h.2.2⟩
  | parking ownHash m => exact ⟨h.1, hunready h.2⟩
  | _ => exact h

theorem Kept.works (h : host.Kept) (hdaemons : next.daemons = host.daemons)
    (hstarts : next.starts = host.starts)
    (hready : next.dir.ready = host.dir.ready ∨ next.dir.ready = none)
    (hforward : host.Forward next) (hresumed : Sound ResumeEvent.Justified next.resumed)
    (hworker : ∀ m stage, next.worker = some (.resuming m stage) →
      Fits next.dir next.resumed m stage ∧ (stage ≠ .discardApp → next.dir.migration = some m))
    (hguis : ∀ pending, next.dir.migrationGuis = some pending → pending.Nodup)
    (hretired : next.dir.migration = none → next.dir.policy = some ⟨1, true⟩) : next.Kept := by
  have hunready : ∀ pid, Unready host.dir pid → Unready next.dir pid := by
    intro pid hunready ready hfile
    rcases hready with hsame | hnone
    · exact hunready ready (hsame ▸ hfile)
    · rw [hnone] at hfile
      cases hfile
  refine ⟨hresumed, ?_, hworker, hguis, hretired, ?_, ?_, ?_⟩
  · rw [hstarts]
    exact h.starts
  · rw [hstarts]
    exact fun pid m hread => (h.seen pid m hread).forward hforward
  · rw [hdaemons, hstarts]
    exact fun pid daemon hdaemon =>
      (h.daemons pid daemon hdaemon).imp (hunready pid) fun hlate => Late.forward hlate hforward
  · rw [hstarts]
    exact fun pid hparks => hunready pid (h.parks pid hparks)

theorem Kept.endWorker (h : host.Kept) : { host with worker := none }.Kept :=
  h.works rfl rfl (.inl rfl) (Forward.of_eq rfl) h.resumed nofun h.guis
    h.retired

variable {m : Migration} {stage : Stage}

section
variable (h : host.Kept) (hrecord : host.dir.migration = some m)
include h hrecord

theorem Kept.goOn (stage : Stage)
    (hfits : Fits host.dir host.resumed m stage) : (host.goOn m stage).Kept := by
  refine h.works rfl rfl (.inl rfl) (Forward.of_eq rfl) h.resumed ?_ h.guis h.retired
  rintro _ _ ⟨⟩
  exact ⟨hfits, fun _ => hrecord⟩

theorem Kept.goNoting (stage : Stage)
    (event : ResumeEvent) (hjustified : event.Justified host.resumed)
    (hfits : Fits host.dir (event :: host.resumed) m stage) :
    ((host.goOn m stage).note event).Kept := by
  refine h.works rfl rfl (.inl rfl) (Forward.of_eq rfl) ⟨hjustified, h.resumed⟩ ?_ h.guis h.retired
  rintro _ _ ⟨⟩
  exact ⟨hfits, fun _ => hrecord⟩

theorem Kept.savePhase (phase : Phase)
    (hle : m.phase.rank ≤ phase.rank) (stage : Stage)
    (hfits : ∀ dir, Fits dir host.resumed { m with phase := phase } stage) :
    (host.savePhase m phase stage).Kept ∧ host.Forward (host.savePhase m phase stage) := by
  have hforward : host.Forward (host.savePhase m phase stage) := by
    rintro _ ⟨⟩
    exact ⟨m, hrecord, hle⟩
  refine ⟨?_, hforward⟩
  refine h.works rfl rfl (.inl rfl) hforward h.resumed ?_ h.guis nofun
  rintro _ _ ⟨⟩
  exact ⟨hfits _, fun _ => rfl⟩

end

theorem sessions_nodup (processes : List ℕ) : (sessions processes).Nodup :=
  ((List.perm_insertionSort _ _).nodup_iff).mpr (List.nodup_dedup _)

theorem initialGuis_nodup (processes : List ℕ) (discovered : ℕ → Bool) (console : ℕ) :
    (initialGuis processes discovered console).Nodup := by
  have hfound := (sessions_nodup processes).filter discovered
  unfold initialGuis
  dsimp only
  split
  · next hconsole =>
    rw [List.nodup_append]
    refine ⟨hfound, List.nodup_singleton _, ?_⟩
    intro uid hmem _ hlast
    rw [List.mem_singleton.mp hlast]
    rintro rfl
    exact hconsole.2 hmem
  · exact hfound

theorem Trying.begun {resumed : List ResumeEvent} {pending : List ℕ} (huntried : Untried resumed)
    (hhealthy : Healthy resumed) (hnodup : pending.Nodup) : Trying resumed pending pending [] := by
  refine ⟨hhealthy, hnodup, hnodup, fun uid _ => huntried uid, ?_, ?_⟩
  · intro uid
    exact (or_iff_left (huntried uid)).symm
  · intro uid
    exact iff_of_false List.not_mem_nil (huntried uid)

theorem Healthy.cons {resumed : List ResumeEvent} (h : Healthy resumed) (event : ResumeEvent) :
    Healthy (event :: resumed) := by
  obtain ⟨pid, hmem⟩ := h
  exact ⟨pid, List.mem_cons_of_mem event hmem⟩

section
variable {resumed : List ResumeEvent} {pending rest errors : List ℕ} {uid : ℕ}

theorem Trying.failed (h : Trying resumed pending (uid :: rest) errors) :
    Trying (.session uid false :: resumed) pending rest (errors ++ [uid]) := by
  obtain ⟨hfresh, hnodup⟩ := List.nodup_cons.mp h.nodup
  refine ⟨h.healthy.cons _, hnodup, h.kept, ?_, ?_, ?_⟩
  · intro other hother hmem
    rcases List.mem_cons.mp hmem with heq | hmem
    · cases heq
      exact hfresh hother
    · exact h.untried other (List.mem_cons_of_mem uid hother) hmem
  · intro other
    rw [h.pending other]
    simp only [List.mem_cons, ResumeEvent.session.injEq, and_true]
    tauto
  · intro other
    rw [List.mem_append, h.errors other, List.mem_singleton]
    simp only [List.mem_cons, ResumeEvent.session.injEq, and_true]
    tauto

theorem Trying.succeeded (h : Trying resumed pending (uid :: rest) errors) :
    Trying (.session uid true :: resumed) (pending.filter (· ≠ uid)) rest errors := by
  obtain ⟨hfresh, hnodup⟩ := List.nodup_cons.mp h.nodup
  have hfailed : ∀ other, ResumeEvent.session other false ∈ .session uid true :: resumed ↔
      .session other false ∈ resumed := by
    intro other
    simp
  refine ⟨h.healthy.cons _, hnodup, h.kept.filter _, ?_, ?_, ?_⟩
  · intro other hother
    rw [hfailed]
    exact h.untried other (List.mem_cons_of_mem uid hother)
  · intro other
    rw [hfailed, List.mem_filter, h.pending other, List.mem_cons]
    have hnever := h.untried uid List.mem_cons_self
    by_cases heq : other = uid
    · subst heq
      simp [hfresh, hnever]
    · simp [heq]
  · intro other
    rw [hfailed]
    exact h.errors other

end

theorem Kept.resume (h : host.Kept) (hstep : host.resume = some next) :
    next.Kept ∧ host.Forward next := by
  unfold Host.resume at hstep
  split at hstep
  · cases hstep
    cases hrecord : host.dir.migration with
    | none => exact ⟨h.endWorker, Forward.of_eq rfl⟩
    | some m =>
      dsimp only
      by_cases hschema : m.schema = 1
      · rw [if_pos hschema]
        refine ⟨?_, Forward.of_eq rfl⟩
        refine h.works rfl rfl (.inl rfl) (Forward.of_eq rfl) trivial ?_ h.guis h.retired
        rintro _ _ ⟨⟩
        exact ⟨fun _ => List.not_mem_nil, fun _ => hrecord⟩
      · rw [if_neg hschema]
        exact ⟨h.endWorker, Forward.of_eq rfl⟩
  · cases hstep

section
variable (h : host.Kept) (hworker : host.worker = some (.resuming m stage))
include h hworker

theorem Kept.inspectJob {job : Option (Option ℕ)}
    (hstep : host.inspectJob m job stage = some next) : next.Kept ∧ host.Forward next := by
  obtain ⟨hfits, hrecord⟩ := h.worker m stage hworker
  unfold Host.inspectJob at hstep
  split at hstep
  · next use =>
    cases hstep
    refine ⟨h.goOn (hrecord (by simp)) _ ?_, Forward.of_eq rfl⟩
    cases job with
    | none => cases use <;> exact hfits
    | some process =>
      cases process with
      | none => cases use <;> exact hfits
      | some pid => exact hfits
  · cases hstep

theorem Kept.discoverGuis {processes : List ℕ} {discovered : ℕ → Bool} {console : ℕ}
    (hstep : host.discoverGuis m processes discovered console stage = some next) :
    next.Kept ∧ host.Forward next := by
  obtain ⟨hfits, hrecord⟩ := h.worker m stage hworker
  unfold Host.discoverGuis at hstep
  split at hstep
  · dsimp only at hstep
    split at hstep
    · cases hstep
      refine ⟨h.goOn (hrecord (by simp)) _ ?_, Forward.of_eq rfl⟩
      exact ⟨hfits.1, hfits.2, initialGuis_nodup processes discovered console⟩
    · cases hstep
  · cases hstep

theorem Kept.trySession {ok : Bool} (hstep : host.trySession m ok stage = some next) :
    next.Kept ∧ host.Forward next := by
  obtain ⟨hfits, hrecord⟩ := h.worker m stage hworker
  unfold Host.trySession at hstep
  split at hstep
  · next pending uid rest errors =>
    cases hstep
    refine ⟨h.goNoting (hrecord (by simp)) _ _ trivial ?_, Forward.of_eq rfl⟩
    cases ok with
    | false => exact ⟨hfits.1.failed, hfits.2⟩
    | true => exact hfits.1.succeeded
  · cases hstep

theorem Kept.work (hstep : host.work m stage = some next) : next.Kept ∧ host.Forward next := by
  obtain ⟨hfits, hrecord⟩ := h.worker m stage hworker
  cases stage with
  | validate =>
    cases hstep
    refine ⟨h.goOn (hrecord (by simp)) _ ?_, Forward.of_eq rfl⟩
    cases hphase : m.phase <;> exact ⟨by rw [hphase]; decide, hfits⟩
  | saveStopping =>
    cases hstep
    refine h.savePhase (hrecord (by simp)) .stopping hfits.1 _ ?_
    exact fun _ => ⟨by simp [Phase.rank], hfits.2⟩
  | stopLegacy | installRegistration | stopJob | startJob | installAgent =>
    cases hstep
    exact ⟨h.goOn (hrecord (by simp)) _ hfits, Forward.of_eq rfl⟩
  | saveRegistered =>
    cases hstep
    refine h.savePhase (hrecord (by simp)) .registered hfits.1 _ ?_
    exact fun _ => ⟨by simp [Phase.rank], hfits.2⟩
  | saveStarting =>
    cases hstep
    refine h.savePhase (hrecord (by simp)) .starting hfits.1 _ ?_
    exact fun _ => ⟨by simp [Phase.rank], hfits.2⟩
  | inspectJob use | discoverGuis => cases hstep
  | readParked use pid =>
    cases hstep
    refine ⟨h.goOn (hrecord (by simp)) _ ?_, Forward.of_eq rfl⟩
    split
    · cases use <;> exact hfits
    · exact hfits
  | readReady use pid =>
    dsimp only [Host.work] at hstep
    split at hstep
    · cases hstep
      have huntried : Untried (.counted pid :: host.resumed) := by
        intro uid
        simpa using hfits.2 uid
      refine ⟨h.goNoting (hrecord (by simp)) _ (.counted pid) trivial ?_, Forward.of_eq rfl⟩
      cases use with
      | start => exact ⟨hfits.1, huntried⟩
      | health => exact ⟨hfits.1, huntried, List.mem_cons_self⟩
    · cases hstep
      refine ⟨h.goOn (hrecord (by simp)) _ ?_, Forward.of_eq rfl⟩
      cases use <;> exact hfits
  | verifyPid pid =>
    cases hstep
    obtain ⟨hle, huntried, hcounted⟩ := hfits
    refine ⟨h.goNoting (hrecord (by simp)) _ _ hcounted ?_, Forward.of_eq rfl⟩
    refine ⟨hle, ?_, pid, List.mem_cons_self⟩
    intro uid
    simpa using huntried uid
  | removeReady =>
    cases hstep
    refine ⟨?_, Forward.of_eq rfl⟩
    refine h.works rfl rfl (.inr rfl) (Forward.of_eq rfl) h.resumed ?_ h.guis h.retired
    rintro _ _ ⟨⟩
    exact ⟨hfits, fun _ => hrecord (by simp)⟩
  | saveRequest | saveResult =>
    cases hstep
    refine ⟨?_, Forward.of_eq rfl⟩
    refine h.works rfl rfl (.inl rfl) (Forward.of_eq rfl) h.resumed ?_ h.guis h.retired
    rintro _ _ ⟨⟩
    exact ⟨hfits, fun _ => hrecord (by simp)⟩
  | saveComplete =>
    cases hstep
    refine h.savePhase (hrecord (by simp)) .complete ?_ _ fun _ => hfits.2
    cases m.phase <;> decide
  | loadGuis =>
    cases hstep
    refine ⟨h.goOn (hrecord (by simp)) _ ?_, Forward.of_eq rfl⟩
    split
    · next pending hfile => exact ⟨Trying.begun hfits.1 hfits.2 (h.guis pending hfile), hfile⟩
    · exact hfits
  | saveGuis pending =>
    cases hstep
    refine ⟨?_, Forward.of_eq rfl⟩
    obtain ⟨huntried, hhealthy, hnodup⟩ := hfits
    refine h.works rfl rfl (.inl rfl) (Forward.of_eq rfl) h.resumed ?_ ?_ h.retired
    · rintro _ _ ⟨⟩
      exact ⟨⟨Trying.begun huntried hhealthy hnodup, rfl⟩, fun _ => hrecord (by simp)⟩
    · rintro _ ⟨⟩
      exact hnodup
  | session pending rest errors =>
    cases rest with
    | cons uid rest => cases hstep
    | nil =>
      obtain ⟨htrying, hfile⟩ := hfits
      have hpending : ∀ uid, uid ∈ pending ↔ .session uid false ∈ host.resumed := by
        intro uid
        simpa using htrying.pending uid
      have hjustified :
          (ResumeEvent.tried host.dir.migrationGuis).Justified host.resumed :=
        ⟨pending, hfile, hpending⟩
      dsimp only [Host.work] at hstep
      split at hstep
      · next hnone =>
        cases hstep
        refine ⟨h.goNoting (hrecord (by simp)) _ _ hjustified ?_, Forward.of_eq rfl⟩
        have hempty : pending = [] := by
          rw [List.eq_nil_iff_forall_not_mem]
          intro uid hmem
          have herror := (htrying.errors uid).mpr ((hpending uid).mp hmem)
          rw [hnone] at herror
          exact List.not_mem_nil herror
        obtain ⟨pid, hmem⟩ := htrying.healthy
        exact ⟨[], host.resumed, pid, by rw [hfile, hempty]; rfl, hmem⟩
      · cases hstep
        refine ⟨?_, Forward.of_eq rfl⟩
        exact h.works rfl rfl (.inl rfl) (Forward.of_eq rfl) ⟨hjustified, h.resumed⟩
          nofun h.guis h.retired
  | savePending pending rest errors =>
    cases hstep
    refine ⟨?_, Forward.of_eq rfl⟩
    refine h.works rfl rfl (.inl rfl) (Forward.of_eq rfl) h.resumed ?_ ?_ h.retired
    · rintro _ _ ⟨⟩
      exact ⟨⟨hfits, rfl⟩, fun _ => hrecord (by simp)⟩
    · rintro _ ⟨⟩
      exact hfits.kept
  | enable =>
    cases hstep
    refine ⟨?_, Forward.of_eq rfl⟩
    refine h.works rfl rfl (.inl rfl) (Forward.of_eq rfl) ⟨hfits, h.resumed⟩ ?_ h.guis
      fun _ => rfl
    rintro _ _ ⟨⟩
    exact ⟨rfl, fun _ => hrecord (by simp)⟩
  | removeRecord =>
    cases hstep
    have hforward : host.Forward
        ({ host with dir := { host.dir with migration := none } }.goOn m .discardApp) := by
      intro m' hm'
      cases hm'
    refine ⟨?_, hforward⟩
    refine h.works rfl rfl (.inl rfl) hforward h.resumed ?_ h.guis fun _ => hfits
    rintro _ _ ⟨⟩
    exact ⟨trivial, fun hne => absurd rfl hne⟩
  | discardApp =>
    cases hstep
    exact ⟨h.endWorker, Forward.of_eq rfl⟩

end

end Host
end Rieul.RootUpdate
