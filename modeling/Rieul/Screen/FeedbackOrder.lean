import Rieul.Screen.TableHistory

/-!
# The order of feedback

A sample holds the newest group of the newest epoch that the feedback of its track has named.
-/

namespace Rieul.Screen.Tables
open Stateful Ipc Quality

def Feedback.Stale (f : Feedback) (epoch group : ℕ) : Prop :=
  f.epoch < epoch ∨ f.epoch = epoch ∧ f.group ≤ group

structure Fenced (w : Watched) : Prop where
  received (key : String × ℕ) (sample : Sample) (received : Received) :
    w.runtime.samples.lookup key = some sample → sample.received = some received →
      received.epoch ≤ w.runtime.nextCodecEpoch
  current (key : String × ℕ) (sample : Sample) (received : Received)
    (config : Quality.DesktopConfiguration) (t : DesktopTrack) :
    w.runtime.samples.lookup key = some sample → sample.received = some received →
      w.runtime.configurations.lookup key.1 = some config → t ∈ config.tracks →
      received.epoch ≤ t.codecEpoch
  named (f : Feedback) :
    f ∈ w.feedbacks → ∃ n, n ≤ w.runtime.desktop.nextId ∧ f.attachId = attachName n
  newest (f : Feedback) : f ∈ w.feedbacks → w.runtime.live f.attachId = true →
    ∃ sample received, w.runtime.samples.lookup (f.attachId, f.trackId) = some sample ∧
      sample.received = some received ∧ f.Stale received.epoch received.group

section
variable {w : Watched}

def Remains (r s : Runtime) : Prop :=
  ∀ id, s.live id = true → r.live id = true ∨ ∃ n, r.desktop.nextId < n ∧ id = attachName n

theorem Fenced.live (h : Fenced w) {s : Runtime} (hlive : Remains w.runtime s) {f : Feedback}
    (hf : f ∈ w.feedbacks) (hs : s.live f.attachId = true) :
    w.runtime.live f.attachId = true := by
  rcases hlive f.attachId hs with hold | ⟨n, hlt, hname⟩
  · exact hold
  · obtain ⟨m, hle, hname'⟩ := h.named f hf
    have := attachName_injective (hname'.symm.trans hname)
    omega

theorem Fenced.kept (h : Fenced w) {s : Runtime} {changes : List Change}
    {evaluations : List Evaluation} {chosen : String → List DesktopQualityTarget}
    (hnext : w.runtime.desktop.nextId ≤ s.desktop.nextId) (hlive : Remains w.runtime s)
    (hconfigurations : ∀ id config, s.configurations.lookup id = some config →
      w.runtime.configurations.lookup id = some config ∨
        ∀ t ∈ config.tracks, w.runtime.nextCodecEpoch ≤ t.codecEpoch)
    (hcodec : w.runtime.nextCodecEpoch ≤ s.nextCodecEpoch)
    (hreceived : ∀ key sample, s.samples.lookup key = some sample → sample.received = none ∨
      ∃ old, w.runtime.samples.lookup key = some old ∧ sample.received = old.received)
    (hkept : ∀ key old, w.runtime.samples.lookup key = some old → s.live key.1 = true →
      ∃ sample, s.samples.lookup key = some sample ∧ sample.received = old.received) :
    Fenced ⟨s, changes, evaluations, w.feedbacks, chosen⟩ := by
  have hold : ∀ key sample received, s.samples.lookup key = some sample →
      sample.received = some received → ∃ old, w.runtime.samples.lookup key = some old ∧
        old.received = some received := by
    intro key sample received hsample hr
    rcases hreceived key sample hsample with hnone | ⟨old, hlookup, hsame⟩
    · rw [hnone] at hr
      cases hr
    · exact ⟨old, hlookup, hsame.symm.trans hr⟩
  refine ⟨fun key sample received hs hr => ?_, fun key sample received config t hs hr hc ht => ?_,
    fun f hf => ?_, fun f hf hid => ?_⟩
  · obtain ⟨old, hlookup, hr'⟩ := hold key sample received hs hr
    exact (h.received key old received hlookup hr').trans hcodec
  · obtain ⟨old, hlookup, hr'⟩ := hold key sample received hs hr
    rcases hconfigurations key.1 config hc with hsame | hnew
    · exact h.current key old received config t hlookup hr' hsame ht
    · exact (h.received key old received hlookup hr').trans (hnew t ht)
  · obtain ⟨n, hle, hname⟩ := h.named f hf
    exact ⟨n, hle.trans hnext, hname⟩
  · obtain ⟨old, received, hlookup, hr, hstale⟩ := h.newest f hf (h.live hlive hf hid)
    obtain ⟨sample, hsample, hsame⟩ := hkept _ old hlookup hid
    exact ⟨sample, received, hsample, hsame.trans hr, hstale⟩

theorem Fenced.fed (h : Fenced w) (hconsistent : Consistent w.runtime) {f : Feedback} {t : Runtime}
    (hfed : Fed w.runtime f t) :
    Fenced { w with runtime := t.retain, feedbacks := w.feedbacks ++ [f] } := by
  obtain ⟨config, hconfig, track, htrack, -, hepoch⟩ := hfed.config
  obtain ⟨hconfigurations, -, hcodec, -, -⟩ := hfed.tables
  have hother := @Fed.other _ _ _ hfed
  obtain ⟨sample, received, hsample, hreceived, hsame, hcases⟩ := hfed.sample
  obtain ⟨d, a, flow, feedback, depth, decode, render, hd, ha, ⟨b, hb⟩, ht⟩ := hfed.result
  have hlive : w.runtime.live f.attachId = true := (live_iff _ _).2 ⟨b, hb⟩
  have hremains : Remains w.runtime t.retain := by
    intro id hid
    rw [ht] at hid
    rcases hd.live id hid with hold | ⟨n, hlt, -, hname⟩
    · exact .inl hold
    · exact .inr ⟨n, hlt, hname⟩
  have hnext : w.runtime.desktop.nextId ≤ t.desktop.nextId := by
    rw [ht]
    exact hd.nextId
  obtain ⟨e, -, hle, he⟩ := hconsistent.epoch f.attachId config hconfig
  have he' : e = f.epoch := (he track htrack).symm.trans hepoch
  have hlookup : ∀ key x, t.retain.samples.lookup key = some x → key = (f.attachId, f.trackId) ∨
      w.runtime.samples.lookup key = some x := by
    intro key x hx
    exact (hfed.lookup hx).imp (·.1) (·.2)
  have hcurrent : ∀ id config', t.retain.configurations.lookup id = some config' →
      w.runtime.configurations.lookup id = some config' := by
    intro id config' hc
    rw [← hconfigurations]
    exact (Table.lookup_retain_some.1 hc).2
  refine ⟨fun key x rcv hx hrcv => ?_, fun key x rcv config' u hx hrcv hc hu => ?_,
    fun g hg => ?_, fun g hg hid => ?_⟩
  · refine le_trans ?_ hcodec.ge
    rcases hlookup key x hx with rfl | hold
    · cases hsample.symm.trans hx
      cases hreceived.symm.trans hrcv
      omega
    · exact h.received key x rcv hold hrcv
  · rcases hlookup key x hx with rfl | hold
    · cases hsample.symm.trans hx
      cases hreceived.symm.trans hrcv
      cases hconfig.symm.trans (hcurrent _ config' hc)
      have := he u hu
      omega
    · exact h.current key x rcv config' u hold hrcv (hcurrent _ config' hc) hu
  · rcases List.mem_append.1 hg with hg | hg
    · obtain ⟨n, hn, hname⟩ := h.named g hg
      exact ⟨n, hn.trans hnext, hname⟩
    · cases List.mem_singleton.1 hg
      obtain ⟨n, hn, hname⟩ := hconsistent.named f.attachId hlive
      exact ⟨n, hn.trans hnext, hname⟩
  · -- the newest group of the track is that of this feedback or was there before
    rcases List.mem_append.1 hg with hg | hg
    · obtain ⟨old, before, hold, hbefore, hstale⟩ := h.newest g hg (h.live hremains hg hid)
      by_cases hkey : (g.attachId, g.trackId) = (f.attachId, f.trackId)
      · rw [hkey] at hold ⊢
        refine ⟨sample, received, hsample, hreceived, ?_⟩
        have hbound := h.current _ old before config track hold hbefore hconfig htrack
        rcases hcases with ⟨old', hold', hreceived', -⟩ | ⟨hgroup, hnewer⟩
        · cases hold.symm.trans hold'
          cases hbefore.symm.trans hreceived'
          exact hstale
        · have hgroups := hnewer old before hold hbefore
          unfold Feedback.Stale at hstale ⊢
          omega
      · exact ⟨old, before, (hother hkey hid).trans hold, hbefore, hstale⟩
    · cases List.mem_singleton.1 hg
      refine ⟨sample, received, hsample, hreceived, .inr ⟨hsame.symm, ?_⟩⟩
      rcases hcases with ⟨-, -, -, hgroup⟩ | ⟨hgroup, -⟩
      · exact hgroup
      · exact hgroup.ge

theorem Configured.remains {p : Attachment → Prop} {r s : Runtime}
    {request : ConfigureDesktopViewportsReq} {serverOwned : Bool} {change : Option QualityChange}
    {config : Quality.DesktopConfiguration}
    (hc : Configured p r request serverOwned change config s) :
    Remains r s ∧ s.desktop.nextId = r.desktop.nextId := by
  obtain ⟨d, a, next, total, hended, ha, -, -, rfl⟩ := hc.result
  refine ⟨fun id hid => .inl ?_, configured_fields.1.trans hended.nextId⟩
  obtain ⟨b, hb⟩ := (live_iff _ id).1 hid
  rw [lookup_configured] at hb
  have hbefore : ∃ c, d.attachments.lookup id = some c := by
    by_cases hsame : id = request.attachId
    · exact ⟨a, hsame ▸ ha⟩
    · rw [if_neg hsame] at hb
      exact ⟨b, hb⟩
  obtain ⟨c, hc'⟩ := hbefore
  rcases hended.attachments id with hold | ⟨hnone, -⟩
  · exact (live_iff r id).2 ⟨c, hold ▸ hc'⟩
  · rw [hnone] at hc'
    cases hc'

theorem Fenced.configured (h : Fenced w) {p : Attachment → Prop} {t : Runtime}
    {request : ConfigureDesktopViewportsReq} {serverOwned : Bool} {change : Option QualityChange}
    {config : Quality.DesktopConfiguration} {changes : List Change}
    {chosen : String → List DesktopQualityTarget} (operation : Option Operation)
    (hc : Configured p w.runtime request serverOwned change config t) :
    Fenced ⟨{ t.retain with operation := operation }, changes, w.evaluations, w.feedbacks,
      chosen⟩ := by
  obtain ⟨-, -, hsamples, -, -⟩ := hc.tables
  obtain ⟨hremains, hnext⟩ := hc.remains
  have hcodec := hc.nextCodecEpoch
  refine h.kept hnext.ge hremains (fun id config' hlookup => ?_)
    (hcodec ▸ Nat.le_succ _) (fun key sample hs => .inr ⟨sample, ?_, rfl⟩) fun key old hold hid => ?_
  · rcases hc.lookup hlookup with ⟨-, rfl⟩ | ⟨-, hsame⟩
    · exact .inr fun u hu => (hc.epoch u hu).ge.trans' (Nat.le_succ _)
    · exact .inl hsame
  · rw [← hsamples]
    exact (Table.lookup_retain_some.1 hs).2
  · rw [← hsamples] at hold
    exact ⟨old, Table.lookup_retain_some.2 ⟨hid, hold⟩, rfl⟩

theorem fenced_next {next : Watched} (h : Fenced w) (hconsistent : Consistent w.runtime)
    (hnext : w.Next next) : Fenced next := by
  cases hnext with
  | tame ht =>
    refine h.kept ht.nextId (fun id hid => ?_)
      (fun id config hc => .inl (ht.configurations id config hc).1) ht.nextCodecEpoch ht.received
      fun key old hold hid => ht.kept key old hold fun _ => hid
    rcases ht.live id hid with hold | ⟨n, hlt, -, hname⟩
    · exact .inl hold
    · exact .inr ⟨n, hlt, hname⟩
  | fed hfed => exact h.fed hconsistent hfed
  | @configured request serverOwned config t hc => exact h.configured t.operation hc
  | queried hq =>
    obtain ⟨connection, now, id, config, requested, verified, d, b, -, -, hd, -, rfl⟩ := hq.result
    refine h.kept hd.nextId (fun id hid => ?_)
      (fun id config hc => .inl (Table.lookup_retain_some.1 hc).2) le_rfl
      (fun key sample hs => .inr ⟨sample, (Table.lookup_retain_some.1 hs).2, rfl⟩)
      fun key old hold hid => ⟨old, Table.lookup_retain_some.2 ⟨hid, hold⟩, rfl⟩
    rcases hd.live id hid with hold | ⟨n, hlt, -, hname⟩
    · exact .inl hold
    · exact .inr ⟨n, hlt, hname⟩
  | evaluated he =>
    exact h.kept le_rfl (fun id hid => .inl hid) (fun id config hc => .inl hc) le_rfl
      (fun key sample hs => .inr ⟨sample, hs, rfl⟩) fun key old hold _ => ⟨old, hold, rfl⟩
  | applied happlied =>
    obtain ⟨connection, now, old, target, policy, newPolicy, -, hc⟩ := happlied.result
    exact h.configured none hc

end

structure Recorded (w : Watched) : Prop where
  consistent : Consistent w.runtime
  numbered : w.Numbered
  timely : Timely w
  traced : Traced w
  fenced : Fenced w

theorem recorded_new (script : ℕ → SendResult) : Recorded (Watched.new script) where
  consistent := consistent_new script
  numbered c hc := by cases hc
  timely := by
    refine ⟨?_, ?_, ?_, ?_, ?_⟩
    · exact fun c hc => by cases hc
    · exact fun e he => by cases he
    · exact fun id state h => by cases h
    · exact fun key sample received h => by cases h
    · exact fun key sample sent h => by cases h
  traced := by
    refine ⟨?_, .nil, ?_, ?_, ?_⟩
    · exact fun c hc => by cases hc
    · exact fun id config h => by cases h
    · exact fun operation h => by cases h
    · exact fun e he => by cases he
  fenced := by
    refine ⟨?_, ?_, ?_, ?_⟩
    · exact fun key sample received h => by cases h
    · exact fun key sample received config t h => by cases h
    · exact fun f hf => by cases hf
    · exact fun f hf => by cases hf

theorem recorded_step (w : Watched) (a : Action) (h : Recorded w) : Recorded (w.step a) where
  consistent := consistent_step w.runtime a h.consistent
  numbered := numbered_step w a h.numbered
  timely := timely_next h.timely (w.next a)
  traced := traced_next h.traced h.numbered (w.next a)
  fenced := fenced_next h.fenced h.consistent (w.next a)

end Rieul.Screen.Tables
