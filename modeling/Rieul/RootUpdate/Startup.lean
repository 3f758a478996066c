import Rieul.RootUpdate.Resume

/-!
# What a daemon keeps as it starts, and every run of the host

A daemon writes that it is parked, or a receipt for its own process, and none of the
files that say how far the migration is.
-/

namespace Rieul.RootUpdate
open Trace

namespace Host
variable {host next : Host} {m : Migration} {stage : Stage}

theorem Fits.of_files {dir dir' : Dir} {resumed : List ResumeEvent} (h : Fits dir resumed m stage)
    (hguis : dir'.migrationGuis = dir.migrationGuis) (hpolicy : dir'.policy = dir.policy) :
    Fits dir' resumed m stage := by
  cases stage with
  | session pending rest errors => exact ⟨h.1, hguis.trans h.2⟩
  | saveResult | removeRecord => exact hpolicy.trans h
  | _ => exact h

structure SameFiles (host next : Host) : Prop where
  migration : next.dir.migration = host.dir.migration
  guis : next.dir.migrationGuis = host.dir.migrationGuis
  policy : next.dir.policy = host.dir.policy

theorem Kept.moves (h : host.Kept) (pid : ℕ) (hfiles : host.SameFiles next)
    (hresumed : next.resumed = host.resumed)
    (hworker : ∀ m stage, next.worker = some (.resuming m stage) →
      host.worker = some (.resuming m stage))
    (hothers : ∀ other, other ≠ pid → next.daemons other = host.daemons other ∧
      next.starts other = host.starts other ∧
      (Unready host.dir other → Unready next.dir other))
    (hsound : Sound StartEvent.Justified (next.starts pid))
    (hseen : ∀ m, .read (some m) ∈ next.starts pid → Seen host.dir.migration m)
    (hdaemon : ∀ daemon, next.daemons pid = some daemon →
      FitsDaemon (next.starts pid) (Unready next.dir pid) (Late host.dir.migration) daemon)
    (hparks : .parks ∈ next.starts pid → Unready next.dir pid) :
    next.Kept ∧ host.Forward next := by
  refine ⟨⟨?_, ?_, ?_, ?_, ?_, ?_, ?_, ?_⟩, Forward.of_eq hfiles.migration⟩
  · rw [hresumed]
    exact h.resumed
  · intro other
    by_cases heq : other = pid
    · rw [heq]
      exact hsound
    · rw [(hothers other heq).2.1]
      exact h.starts other
  · intro m stage hresuming
    obtain ⟨hfits, hrecord⟩ := h.worker m stage (hworker m stage hresuming)
    rw [hresumed, hfiles.migration]
    exact ⟨hfits.of_files hfiles.guis hfiles.policy, hrecord⟩
  · rw [hfiles.guis]
    exact h.guis
  · rw [hfiles.migration, hfiles.policy]
    exact h.retired
  · rw [hfiles.migration]
    intro other m hread
    by_cases heq : other = pid
    · rw [heq] at hread
      exact hseen m hread
    · rw [(hothers other heq).2.1] at hread
      exact h.seen other m hread
  · rw [hfiles.migration]
    intro other daemon hother
    by_cases heq : other = pid
    · rw [heq] at hother ⊢
      exact hdaemon daemon hother
    · obtain ⟨hsame, hstarts, hunready⟩ := hothers other heq
      rw [hsame] at hother
      rw [hstarts]
      exact (h.daemons other daemon hother).imp hunready id
  · intro other hmem
    by_cases heq : other = pid
    · rw [heq] at hmem ⊢
      exact hparks hmem
    · obtain ⟨-, hstarts, hunready⟩ := hothers other heq
      rw [hstarts] at hmem
      exact hunready (h.parks other hmem)

section
variable {pid : ℕ} {after : Option Daemon}

theorem become_self (pid : ℕ) (after : Option Daemon) :
    (host.become pid after).daemons pid = after := Function.update_self ..

theorem Kept.becomes (h : host.Kept) (dir : Dir) (hfiles : host.SameFiles { host with dir := dir })
    (hunready : ∀ other, (other ≠ pid ∨ .parks ∈ host.starts pid) →
      Unready host.dir other → Unready dir other)
    (hdaemon : ∀ daemon, after = some daemon →
      FitsDaemon (host.starts pid) (Unready dir pid) (Late host.dir.migration) daemon) :
    ({ host with dir := dir }.become pid after).Kept ∧
      host.Forward ({ host with dir := dir }.become pid after) := by
  refine h.moves pid ⟨hfiles.migration, hfiles.guis, hfiles.policy⟩ rfl
    (fun _ _ hsame => hsame) ?_ (h.starts pid) (h.seen pid) ?_ ?_
  · intro other hne
    exact ⟨Function.update_of_ne hne _ _, rfl, hunready other (.inl hne)⟩
  · intro daemon hafter
    exact hdaemon daemon (become_self pid after ▸ hafter)
  · intro hmem
    exact hunready pid (.inr hmem) (h.parks pid hmem)

theorem Kept.tells (h : host.Kept) (dir : Dir) (hfiles : host.SameFiles { host with dir := dir })
    (hready : dir.ready = host.dir.ready) (event : StartEvent)
    (hjustified : event.Justified (host.starts pid))
    (hseen : ∀ m, event = .read (some m) → Seen host.dir.migration m)
    (hparks : event = .parks → Unready dir pid)
    (hdaemon : ∀ daemon, after = some daemon →
      FitsDaemon (event :: host.starts pid) (Unready dir pid) (Late host.dir.migration) daemon) :
    (({ host with dir := dir }.become pid after).tell pid event).Kept ∧
      host.Forward (({ host with dir := dir }.become pid after).tell pid event) := by
  have hunready : ∀ other, Unready host.dir other → Unready dir other := by
    intro other hfree ready hfile
    exact hfree ready (hready ▸ hfile)
  have hstarts : (({ host with dir := dir }.become pid after).tell pid event).starts pid =
      event :: host.starts pid := Function.update_self ..
  refine h.moves pid ⟨hfiles.migration, hfiles.guis, hfiles.policy⟩ rfl
    (fun _ _ hsame => hsame) ?_ ?_ ?_ ?_ ?_
  · intro other hne
    exact ⟨Function.update_of_ne hne _ _, Function.update_of_ne hne _ _, hunready other⟩
  · rw [hstarts]
    exact ⟨hjustified, h.starts pid⟩
  · rw [hstarts]
    intro m hmem
    rcases List.mem_cons.mp hmem with heq | hmem
    · exact hseen m heq.symm
    · exact h.seen pid m hmem
  · rw [hstarts]
    intro daemon hafter
    exact hdaemon daemon (become_self pid after ▸ hafter)
  · rw [hstarts]
    intro hmem
    rcases List.mem_cons.mp hmem with heq | hmem
    · exact hparks heq.symm
    · exact hunready pid (h.parks pid hmem)

end

theorem ensureWorker_eq (host : Host) : host.ensureWorker.starts = host.starts ∧
    host.ensureWorker.daemons = host.daemons ∧ host.ensureWorker.dir = host.dir ∧
    host.ensureWorker.resumed = host.resumed := by
  unfold ensureWorker
  split <;> exact ⟨rfl, rfl, rfl, rfl⟩

theorem Kept.ensureWorker (h : host.Kept) :
    host.ensureWorker.Kept ∧ host.Forward host.ensureWorker := by
  unfold Host.ensureWorker
  split
  · exact ⟨h, Forward.of_eq rfl⟩
  · exact ⟨h.works rfl rfl (.inl rfl) (Forward.of_eq rfl) h.resumed
      nofun h.guis h.retired, Forward.of_eq rfl⟩

theorem Kept.daemonStep {pid schema : ℕ} {daemon : Daemon} (h : host.Kept)
    (hdaemon : host.daemons pid = some daemon)
    (hstep : host.daemonStep pid schema daemon = some next) : next.Kept ∧ host.Forward next := by
  have hfits := h.daemons pid daemon hdaemon
  have hends : (host.become pid none).Kept ∧ host.Forward (host.become pid none) :=
    h.becomes host.dir ⟨rfl, rfl, rfl⟩ (fun _ _ hunready => hunready) fun _ hnone => by cases hnone
  cases daemon with
  | launched ownHash =>
    cases hstep
    cases hrecord : host.dir.migration with
    | none =>
      refine h.tells host.dir ⟨rfl, rfl, rfl⟩ rfl _ trivial nofun
        nofun ?_
      rintro _ ⟨⟩
      refine ⟨by simpa [FitsDaemon] using hfits, .inl List.mem_cons_self, ?_⟩
      rw [hrecord]
      intro m hm
      cases hm
    | some m =>
      dsimp only
      by_cases hbound : m.schema = 1 ∧ m.request.valid ∧ m.request.daemonSha256 = ownHash
      · rw [if_pos hbound]
        refine h.tells host.dir ⟨rfl, rfl, rfl⟩ rfl _ trivial ?_ nofun ?_
        · rintro _ ⟨⟩ m' hm'
          rw [hrecord] at hm'
          cases hm'
          exact Nat.le_refl _
        · rintro _ ⟨⟩
          exact ⟨by simpa [FitsDaemon] using hfits, List.mem_cons_self⟩
      · rw [if_neg hbound]
        exact hends
  | bound ownHash m =>
    cases hstep
    obtain ⟨hparks, hread⟩ := hfits
    refine h.tells host.dir ⟨rfl, rfl, rfl⟩ rfl _ trivial nofun
      nofun ?_
    rintro _ ⟨⟩
    refine ⟨by simpa using hparks, List.mem_cons_of_mem _ hread, ?_⟩
    intro hrunning
    rw [hrunning]
    exact List.mem_cons_self
  | inspected ownHash m workerRunning =>
    cases hstep
    obtain ⟨hparks, hread, hrunning⟩ := hfits
    by_cases hphase : m.phase = .starting ∨ m.phase = .complete
    · rw [if_pos hphase]
      refine h.tells host.dir ⟨rfl, rfl, rfl⟩ rfl _ trivial nofun
        nofun ?_
      rintro _ ⟨⟩
      have hstill : .parks ∉ StartEvent.requested host.dir.startRequest :: host.starts pid := by
        simpa using hparks
      split
      · next hallowed =>
        refine ⟨hstill, .inr ⟨m, List.mem_cons_of_mem _ hread, hphase,
          List.mem_cons_of_mem _ (hrunning hallowed.2), ?_⟩, (h.seen pid m hread).late hphase⟩
        rw [hallowed.1]
        exact List.mem_cons_self
      · exact hstill
    · rw [if_neg hphase]
      refine h.becomes host.dir ⟨rfl, rfl, rfl⟩ (fun _ _ hunready => hunready) ?_
      rintro _ ⟨⟩
      exact hparks
  | allowed ownHash =>
    cases hstep
    refine h.becomes { host.dir with parked := none } ⟨rfl, rfl, rfl⟩ (fun _ _ hsame => hsame) ?_
    rintro _ ⟨⟩
    exact hfits
  | refused ownHash m =>
    cases hstep
    refine h.becomes { host.dir with ready := none } ⟨rfl, rfl, rfl⟩ ?_ ?_
    · intro other _ _ ready hnone
      cases hnone
    · rintro _ ⟨⟩
      refine ⟨hfits, ?_⟩
      intro ready hnone
      cases hnone
  | parking ownHash m =>
    cases hstep
    refine h.tells { host.dir with parked := some ⟨m.nonce, pid, ownHash⟩ } ⟨rfl, rfl, rfl⟩ rfl
      .parks trivial nofun (fun _ => hfits.2) ?_
    rintro _ ⟨⟩
    exact List.mem_cons_self
  | waking =>
    cases hstep
    have hstarts : host.ensureWorker.starts = host.starts := host.ensureWorker_eq.1
    obtain ⟨hkept, hforward⟩ := h.ensureWorker
    refine (hkept.becomes host.ensureWorker.dir ⟨rfl, rfl, rfl⟩
      (fun _ _ hunready => hunready) ?_).imp id hforward.trans
    rintro _ ⟨⟩
    rw [hstarts]
    exact hfits
  | parked => cases hstep
  | capturing ownHash =>
    cases hstep
    obtain ⟨hparks, hadmitted, hlate⟩ := hfits
    split
    · refine h.tells host.dir ⟨rfl, rfl, rfl⟩ rfl _ ⟨hadmitted, hlate⟩ nofun
        nofun ?_
      rintro _ ⟨⟩
      simpa [FitsDaemon] using hparks
    · exact hends
  | serving request =>
    cases request with
    | none => cases hstep
    | some request =>
      cases hstep
      refine h.becomes host.dir ⟨rfl, rfl, rfl⟩ (fun _ _ hunready => hunready) ?_
      intro daemon hafter
      split at hafter
      · cases hafter
        exact hfits
      · cases hafter
  | acknowledging request =>
    cases hstep
    refine h.becomes { host.dir with ready := some ⟨request, pid, DATABASE_SCHEMA⟩ }
      ⟨rfl, rfl, rfl⟩ ?_ ?_
    · rintro other (hne | hparks) _ ready ⟨⟩
      · exact hne.symm
      · exact absurd hparks hfits
    · rintro _ ⟨⟩
      exact hfits

theorem kept_resuming {operation : Migration → Stage → Option Host}
    (hoperation : ∀ m stage, host.worker = some (.resuming m stage) →
      operation m stage = some next → next.Kept ∧ host.Forward next)
    (hstep : host.resuming operation = some next) : next.Kept ∧ host.Forward next := by
  unfold Host.resuming at hstep
  split at hstep
  · next m stage hworker => exact hoperation m stage hworker hstep
  · cases hstep

theorem Kept.step {step : HostStep} (h : host.Kept) (hstep : host.step step = some next) :
    next.Kept ∧ host.Forward next := by
  cases step with
  | launchWorker =>
    cases hstep
    exact h.ensureWorker
  | endWorker =>
    cases hstep
    exact ⟨h.endWorker, Forward.of_eq rfl⟩
  | resume => exact h.resume hstep
  | work => exact kept_resuming (fun m stage hworker => h.work hworker) hstep
  | inspectJob job => exact kept_resuming (fun m stage hworker => h.inspectJob hworker) hstep
  | discoverGuis processes discovered console =>
    exact kept_resuming (fun m stage hworker => h.discoverGuis hworker) hstep
  | trySession ok => exact kept_resuming (fun m stage hworker => h.trySession hworker) hstep
  | launchDaemon pid ownHash =>
    dsimp only [Host.step] at hstep
    split at hstep
    · cases hstep
      refine h.moves pid ⟨rfl, rfl, rfl⟩ rfl (fun _ _ hsame => hsame) ?_ ?_ ?_ ?_ ?_
      · intro other hne
        exact ⟨Function.update_of_ne hne _ _, Function.update_of_ne hne _ _, id⟩
      all_goals dsimp only; rw [Function.update_self]
      · trivial
      · exact fun m hmem => absurd hmem List.not_mem_nil
      · intro daemon hdaemon
        rw [become_self] at hdaemon
        cases hdaemon
        exact List.not_mem_nil
      · exact fun hmem => absurd hmem List.not_mem_nil
    · cases hstep
  | endDaemon pid =>
    cases hstep
    exact h.becomes host.dir ⟨rfl, rfl, rfl⟩ (fun _ _ hunready => hunready)
      fun _ hnone => by cases hnone
  | daemon pid schema =>
    obtain ⟨daemon, hdaemon, hnext⟩ := Option.bind_eq_some_iff.mp hstep
    exact h.daemonStep hdaemon hnext
  | reboot =>
    cases hstep
    refine ⟨⟨h.resumed, h.starts, ?_, h.guis, h.retired, h.seen, ?_, h.parks⟩, Forward.of_eq rfl⟩
    · exact nofun
    · exact nofun

theorem Kept.run {steps : List HostStep} (h : host.Kept)
    (hrun : steps.foldlM Host.step host = some next) : next.Kept ∧ host.Forward next := by
  induction steps generalizing host with
  | nil =>
    obtain rfl := Option.some.inj hrun
    exact ⟨h, Forward.of_eq rfl⟩
  | cons step steps ih =>
    obtain ⟨middle, hstep, hrest⟩ := Option.bind_eq_some_iff.mp hrun
    obtain ⟨hkept, hforward⟩ := h.step hstep
    obtain ⟨hlast, hrest⟩ := ih hkept hrest
    exact ⟨hlast, hforward.trans hrest⟩

theorem kept_prepared (dir : Dir) (m : Migration) : (prepared dir m).Kept := by
  refine ⟨trivial, fun _ => trivial, ?_, ?_, ?_, ?_, ?_, ?_⟩
  · exact nofun
  · exact nofun
  · exact nofun
  · exact fun _ _ hmem => absurd hmem List.not_mem_nil
  · exact nofun
  · exact fun _ hmem => absurd hmem List.not_mem_nil

def Quiet (host next : Host) : Prop :=
  next.dir.policy = host.dir.policy ∧ ∀ pid, next.resumed ≠ .counted pid :: host.resumed

theorem Quiet.of_same (hpolicy : next.dir.policy = host.dir.policy)
    (hresumed : next.resumed = host.resumed) : host.Quiet next := by
  refine ⟨hpolicy, ?_⟩
  intro pid
  rw [hresumed]
  exact (List.cons_ne_self _ _).symm

theorem daemonStep_quiet {pid schema : ℕ} {daemon : Daemon}
    (hstep : host.daemonStep pid schema daemon = some next) : host.Quiet next := by
  cases daemon with
  | launched ownHash =>
    cases hstep
    split
    · exact .of_same rfl rfl
    · split <;> exact .of_same rfl rfl
  | inspected ownHash m workerRunning | capturing ownHash =>
    cases hstep
    split <;> exact .of_same rfl rfl
  | waking =>
    cases hstep
    obtain ⟨-, -, hdir, hresumed⟩ := host.ensureWorker_eq
    exact .of_same (congrArg Dir.policy hdir) hresumed
  | parked => cases hstep
  | serving request =>
    cases request with
    | none => cases hstep
    | some request =>
      cases hstep
      exact .of_same rfl rfl
  | _ =>
    cases hstep
    exact .of_same rfl rfl

def Counts (host next : Host) : Prop :=
  next.dir = host.dir ∧ ∃ (m : Migration) (pid : ℕ), next.resumed = .counted pid :: host.resumed ∧
    ∃ ready, host.dir.ready = some ready ∧ ready.isFor m.request pid m.request.daemonSha256

theorem work_notes (hstep : host.work m stage = some next) :
    host.Quiet next ∨ host.Counts next ∨ next.resumed = .enabled :: host.resumed := by
  cases stage with
  | inspectJob use | discoverGuis => cases hstep
  | readReady use pid =>
    dsimp only [Host.work] at hstep
    split at hstep
    · next hcounted =>
      cases hstep
      exact .inr (.inl ⟨rfl, m, pid, rfl, (Option.any_eq_true _ _).mp hcounted⟩)
    · cases hstep
      exact .inl (.of_same rfl rfl)
  | verifyPid pid =>
    cases hstep
    refine .inl ⟨rfl, ?_⟩
    intro other hsame
    cases hsame
  | session pending rest errors =>
    cases rest with
    | cons uid rest => cases hstep
    | nil =>
      dsimp only [Host.work] at hstep
      split at hstep <;>
      · cases hstep
        refine .inl ⟨rfl, ?_⟩
        intro other hsame
        cases hsame
  | enable =>
    cases hstep
    exact .inr (.inr rfl)
  | _ =>
    cases hstep
    exact .inl (.of_same rfl rfl)

theorem step_notes {step : HostStep} (hstep : host.step step = some next) :
    host.Quiet next ∨ host.Counts next ∨ next.resumed = .enabled :: host.resumed := by
  cases step with
  | launchWorker =>
    cases hstep
    obtain ⟨-, -, hdir, hresumed⟩ := host.ensureWorker_eq
    exact .inl (.of_same (congrArg Dir.policy hdir) hresumed)
  | resume =>
    dsimp only [Host.step, Host.resume] at hstep
    split at hstep
    · cases hstep
      left
      split
      · split
        · refine ⟨rfl, ?_⟩
          intro pid hsame
          cases hsame
        · exact .of_same rfl rfl
      · exact .of_same rfl rfl
    · cases hstep
  | work =>
    dsimp only [Host.step, Host.resuming] at hstep
    split at hstep
    · exact work_notes hstep
    · cases hstep
  | inspectJob job =>
    dsimp only [Host.step, Host.resuming, Host.inspectJob] at hstep
    split at hstep
    · split at hstep
      · cases hstep
        exact .inl (.of_same rfl rfl)
      · cases hstep
    · cases hstep
  | discoverGuis processes discovered console =>
    dsimp only [Host.step, Host.resuming, Host.discoverGuis] at hstep
    split at hstep
    · split at hstep
      · split at hstep
        · cases hstep
          exact .inl (.of_same rfl rfl)
        · cases hstep
      · cases hstep
    · cases hstep
  | trySession ok =>
    dsimp only [Host.step, Host.resuming, Host.trySession] at hstep
    split at hstep
    · split at hstep
      · cases hstep
        refine .inl ⟨rfl, ?_⟩
        intro pid hsame
        cases hsame
      · cases hstep
    · cases hstep
  | launchDaemon pid ownHash =>
    dsimp only [Host.step] at hstep
    split at hstep
    · cases hstep
      exact .inl (.of_same rfl rfl)
    · cases hstep
  | daemon pid schema =>
    obtain ⟨daemon, -, hnext⟩ := Option.bind_eq_some_iff.mp hstep
    exact .inl (daemonStep_quiet hnext)
  | _ =>
    cases hstep
    exact .inl (.of_same rfl rfl)

theorem Kept.guarded (h : host.Kept) : host.Guarded := by
  refine ⟨h.resumed, ?_, ?_, h.retired, h.starts, ?_, ?_⟩
  · intro step next hstep hpolicy
    rcases step_notes hstep with hquiet | hcounts | henabled
    · exact absurd hquiet.1 hpolicy
    · exact absurd (congrArg Dir.policy hcounts.1) hpolicy
    · exact henabled
  · intro steps next hrun
    exact (h.run hrun).2
  · intro step next pid hstep hcounted hparks
    rcases step_notes hstep with hquiet | hcounts | henabled
    · exact hquiet.2 pid hcounted
    · obtain ⟨-, m, other, hother, ready, hfile, hfor⟩ := hcounts
      obtain rfl : other = pid := by
        simpa [hother] using hcounted
      simp only [Receipt.isFor, Bool.and_eq_true, decide_eq_true_eq] at hfor
      exact h.parks other hparks ready hfile hfor.1.1.1.2
    · rw [henabled] at hcounted
      cases hcounted
  · rintro pid (hwaking | hparked)
    · exact h.daemons pid _ hwaking
    · exact h.daemons pid _ hparked

theorem migration_guarded (dir : Dir) (m : Migration) (steps : List HostStep) (host : Host)
    (hrun : steps.foldlM step (prepared dir m) = some host) : host.Guarded :=
  ((kept_prepared dir m).run hrun).1.guarded

def sampleMigration : Migration where
  schema := 1
  phase := .prepared
  identity := ⟨"a3f1a3f1a3f1a3f1a3f1a3f1a3f1a3f1a3f1a3f1a3f1a3f1a3f1a3f1a3f1a3f1"⟩
  nonce := "07d207d207d207d207d207d207d207d207d207d207d207d207d207d207d207d2"

/-- A daemon that is early parks and has the worker launched; the one that is asked for opens the
database, and the session of the only user is started anew. -/
def sampleSteps : List HostStep :=
  [HostStep.launchDaemon 5 sampleMigration.identity.daemonSha256] ++
  List.replicate 6 (HostStep.daemon 5 2) ++ [HostStep.resume] ++ List.replicate 6 HostStep.work ++
  [HostStep.inspectJob none] ++ List.replicate 3 HostStep.work ++
  [HostStep.launchDaemon 7 sampleMigration.identity.daemonSha256] ++
  List.replicate 7 (HostStep.daemon 7 2) ++ [HostStep.inspectJob (some (some 7))] ++
  List.replicate 6 HostStep.work ++
  [HostStep.discoverGuis [0, 501, 501] (fun _ => true) 501, .work, .trySession true] ++
  List.replicate 6 HostStep.work

def sampleDir : Dir := ⟨none, none, none, none, none, none, none⟩

theorem migration_guarded_sample : ∃ host, sampleSteps.foldlM step (prepared sampleDir
    sampleMigration) = some host ∧ host.dir.policy = some ⟨1, true⟩ ∧ host.dir.migration = none ∧
    host.daemons 5 = some .parked ∧
    host.resumed = [.enabled, .tried (some []), .session 501 true, .healthy 7, .counted 7] ∧
    host.Guarded := by
  have hrun : (sampleSteps.foldlM step (prepared sampleDir sampleMigration)).map (fun host =>
      (host.dir.policy, host.dir.migration, host.daemons 5, host.resumed)) =
      some (some ⟨1, true⟩, none, some .parked,
        [.enabled, .tried (some []), .session 501 true, .healthy 7, .counted 7]) := by
    decide +kernel
  obtain ⟨host, hhost, hview⟩ := Option.map_eq_some_iff.mp hrun
  simp only [Prod.mk.injEq] at hview
  obtain ⟨hpolicy, hrecord, hparked, hresumed⟩ := hview
  exact ⟨host, hhost, hpolicy, hrecord, hparked, hresumed, migration_guarded _ _ _ host hhost⟩

end Host
end Rieul.RootUpdate
