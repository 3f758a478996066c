import Rieul.Screen.CaptureEnd

/-!
# Media tasks (daemon/host/src/server/desktop_rpc.rs)

The media task of a track starts a blocking producer for each group and waits for it.
When the task returns or is aborted, a cleanup on a blocking thread of its own calls
`end_track`; an aborted task leaves its producer running.
-/

namespace Rieul.Screen.Ipc
open System

theorem succeeded_append (rs rs' : List (Call × Except Error UserDesktopResult)) (key : ℕ × ℕ) :
    Succeeded (rs ++ rs') key ↔ Succeeded rs key ∨ Succeeded rs' key := by
  unfold Succeeded
  simp only [List.mem_append, or_and_right, exists_or]

theorem Succeeded.of_close (rs : List (Call × Except Error UserDesktopResult))
    (pending : List (ℕ × Call)) (key : ℕ × ℕ)
    (h : Succeeded (rs ++ pending.map fun e => (e.2, .error .Backend)) key) :
    Succeeded rs key := by
  rcases (succeeded_append _ _ key).mp h with h | ⟨r, hr, _, hvalue⟩
  · exact h
  · obtain ⟨e, _, rfl⟩ := List.mem_map.mp hr
    cases hvalue

theorem Succeeded.of_reply (rs : List (Call × Except Error UserDesktopResult)) (call : Call)
    (value : Except Error UserDesktopResult) (key : ℕ × ℕ)
    (h : Succeeded (rs ++ [(call, value)]) key) :
    Succeeded rs key ∨ (call.command.ends key ∧ value = .ok .Done) := by
  rcases (succeeded_append _ _ key).mp h with h | ⟨r, hr, hends, hvalue⟩
  · exact .inl h
  · rw [List.mem_singleton.mp hr] at hends hvalue
    exact .inr ⟨hends, hvalue⟩

section
variable (s t : State) (key : ℕ × ℕ)

theorem capturing_close (pending : List (ℕ × Call)) (h : s.Capturing key) :
    (s.close pending).Capturing key :=
  h.answer key s.link s.helper s.native s.minimumCodecEpoch _ _ fun hs =>
    .inl (hs.of_close s.replies pending key)

theorem capturing_reply (call : Call) (value : Except Error UserDesktopResult)
    (h : s.Capturing key)
    (hv : call.command.ends key → value = .ok .Done → Free key s.helper s.native) :
    (s.reply call value).Capturing key := by
  apply h.answer key s.link s.helper s.native s.minimumCodecEpoch
  intro hs
  rcases hs.of_reply s.replies call value key with hs | ⟨hends, hvalue⟩
  · exact .inl hs
  · exact .inr (hv hends hvalue)

theorem capturing_call (command : UserDesktopCommand) (recovery : Bool)
    (minimum generation deadline : ℕ) (h : s.Capturing key)
    (ht : s.call command recovery minimum generation deadline = some t) : t.Capturing key := by
  unfold State.call at ht
  split at ht
  · cases ht
    exact h
  · cases ht

theorem capturing_endTrack (track : DesktopTrack) (minimum generation deadline : ℕ)
    (h : s.Capturing key) (ht : s.endTrack track minimum generation deadline = some t) :
    t.Capturing key := by
  unfold State.endTrack at ht
  split at ht
  · cases ht
  · rename_i hminimum
    split at ht
    · rename_i hbelow
      cases ht
      apply capturing_reply s key _ _ h
      intro hends _
      have hkey : track.key = key := of_decide_eq_true hends
      apply h.free_of_below
      rw [← hkey]
      exact Nat.lt_of_lt_of_le hbelow (Nat.le_of_not_lt hminimum)
    · exact capturing_call s t key _ false 0 generation deadline h ht

theorem capturing_connect (connected : Except Error Unit) (h : s.Capturing key)
    (ht : s.connect connected = some t) : t.Capturing key := by
  unfold State.connect at ht
  split at ht
  · rename_i call calls _ _
    dsimp only at ht
    split at ht
    · cases ht
      exact capturing_reply { s with calls := calls } key call (.error .Stale) h fun _ hv =>
        (nomatch hv)
    · split at ht
      · rename_i e
        cases ht
        exact capturing_reply { s with calls := calls } key call (.error (connectError e)) h
          fun _ hv => (nomatch hv)
      · split at ht
        · rename_i hnone
          cases ht
          have hnone : s.helper = none := Option.isNone_iff_eq_none.mp hnone
          unfold State.Capturing at h
          rw [hnone] at h
          exact h.start key s.link s.native s.minimumCodecEpoch _ s.generation
        · cases ht
  · cases ht

theorem capturing_take (h : s.Capturing key) (ht : s.take = some t) : t.Capturing key := by
  unfold State.take at ht
  split at ht
  · split at ht
    · cases ht
      exact h
    · cases ht
  · cases ht

/-- An `EndTrack` that is answered without being sent is from before the last recovery. -/
theorem refusal_done (call : Call) (hends : call.command.ends key)
    (h : s.refusal call = some (.ok .Done)) : key.2 < s.minimumCodecEpoch := by
  unfold State.refusal at h
  split at h
  · cases h
  · split at h
    · cases h
    · cases hcommand : call.command with
      | EndTrack track =>
        rw [hcommand] at h hends
        have hkey : track.key = key := of_decide_eq_true hends
        dsimp only at h
        split at h
        · rename_i hbelow
          rw [← hkey]
          exact hbelow
        · cases h
      | _ =>
        rw [hcommand] at hends
        cases hends

theorem refusal_streams (call : Call) (hr : s.refusal call = none)
    (hbelow : key.2 < s.minimumCodecEpoch) : ¬ call.command.streams key := by
  intro hstreams
  unfold State.refusal at hr
  split at hr
  · cases hr
  · split at hr
    · cases hr
    · cases hcommand : call.command with
      | StreamGroup track refresh bitrate =>
        rw [hcommand] at hr hstreams
        have hkey : track.key = key := of_decide_eq_true hstreams
        dsimp only at hr
        split at hr
        · cases hr
        · rename_i hnot
          rw [← hkey] at hbelow
          exact hnot hbelow
      | _ =>
        rw [hcommand] at hstreams
        cases hstreams

theorem capturing_submit (write : Write) (hi : s.Inv False) (h : s.Capturing key)
    (ht : s.submit write = some t) : t.Capturing key := by
  unfold State.submit at ht
  split at ht
  · rename_i w hw
    split at ht
    · rename_i call hinitial
      split at ht
      · rename_i value hvalue
        cases ht
        apply capturing_reply { s with worker := some { w with initial := none } } key call value h
        intro hends hdone
        rw [hdone] at hvalue
        exact h.free_of_below key s.link s.helper s.native s.minimumCodecEpoch _
          (refusal_done s key call hends hvalue)
      · rename_i hr
        split at ht
        · cases ht
          exact capturing_close s key w.pending h
        · split at ht
          · cases ht
            exact capturing_reply
              { s with worker := some { w with initial := none, next := w.next + 1 } } key call
              (.error .Stale) h fun _ hv => (nomatch hv)
          · cases ht
            have hnext := next_send s w call False hi hw hinitial hr w.firstRequest
            have hwrite := h.write key s.link s.helper s.native s.minimumCodecEpoch _ hi.link
              call.generation _ hnext (refusal_streams s key call hr) write
            unfold State.send
            cases write with
            | sent => exact hwrite
            | failed delivered => exact capturing_close _ key _ hwrite
    · cases ht
  · cases ht

theorem capturing_heartbeat (write : Write) (hi : s.Inv False) (h : s.Capturing key)
    (ht : s.heartbeat write = some t) : t.Capturing key := by
  unfold State.heartbeat at ht
  split at ht
  · rename_i w hw
    split at ht
    · cases ht
    · split at ht
      · cases ht
        exact capturing_close s key w.pending h
      · have hwrite := h.write key s.link s.helper s.native s.minimumCodecEpoch _ hi.link
          s.generation _ (next_ping s.link) (fun _ hs => (nomatch hs)) write
        cases write with
        | sent =>
          cases ht
          exact hwrite
        | failed delivered =>
          cases ht
          exact capturing_close _ key _ hwrite
  · cases ht

theorem acknowledge_helper (id : ℕ) (call : Call) (result : UserDesktopResult) :
    (s.acknowledge id call result).helper = s.helper ∧
      (s.acknowledge id call result).native = s.native := by
  unfold State.acknowledge
  by_cases hdone : result = .Done
  · rw [if_pos hdone]
    split
    · exact ⟨rfl, rfl⟩
    · split
      · exact ⟨rfl, rfl⟩
      · exact ⟨rfl, rfl⟩
  · rw [if_neg hdone]
    split
    · exact ⟨rfl, rfl⟩
    · split
      · exact ⟨rfl, rfl⟩
      · exact ⟨rfl, rfl⟩

theorem capturing_acknowledge (id : ℕ) (call : Call) (result : UserDesktopResult)
    (h : s.Capturing key) (hdone : call.recovery → result = .Done)
    (hover : s.link.Streamed key → call.recovery → ¬ key.2 < call.minimumCodecEpoch) :
    (s.acknowledge id call result).Capturing key := by
  unfold State.acknowledge
  by_cases hrec : call.recovery
  · rw [if_pos (hdone hrec), if_pos hrec]
    exact { h with below := fun hbelow hstreamed => hover hstreamed hrec hbelow }
  · rw [if_neg hrec]
    split
    · split
      · exact h
      · exact h
    · split
      · exact h
      · exact h

theorem capturing_settle (w : Worker) (id : ℕ) (call : Call) (result : UserDesktopResult)
    (gone : Bool) (h : s.Capturing key)
    (hfree : call.command.ends key → result = .Done → Free key s.helper s.native)
    (hover : s.link.Streamed key → call.recovery → result = .Done → s.now < call.deadline →
      ¬ key.2 < call.minimumCodecEpoch) :
    (s.settle w id call result gone).Capturing key := by
  have h1 : State.Capturing
      { s with worker := some { w with pending := w.pending.filter fun e => decide (e.1 ≠ id) } }
      key := h
  unfold State.settle
  dsimp only
  split
  · exact capturing_close _ key _ (capturing_reply _ key call _ h1 fun _ hv => (nomatch hv))
  · rename_i hdeadline
    split
    · apply capturing_reply _ key call _ h1
      intro hends hvalue
      split at hvalue
      · cases hvalue
      · exact hfree hends (Except.ok.inj hvalue)
    · split
      · exact capturing_close _ key _ (capturing_reply _ key call _ h1 fun _ hv => (nomatch hv))
      · rename_i hfailed
        have hdone : call.recovery → result = .Done := by
          intro hrec
          by_contra hne
          exact hfailed ⟨hrec, hne⟩
        have hack := capturing_acknowledge _ key id call result h1 hdone fun hstreamed hrec =>
          hover hstreamed hrec (hdone hrec) (Nat.lt_of_not_le hdeadline)
        split
        · exact capturing_close _ key _ hack
        · apply capturing_reply _ key call _ hack
          intro hends hvalue
          obtain ⟨hhelper, hnative⟩ := acknowledge_helper
            { s with
              worker := some { w with pending := w.pending.filter fun e => decide (e.1 ≠ id) } }
            id call result
          rw [hhelper, hnative]
          exact hfree hends (Except.ok.inj hvalue)

theorem capturing_receive (full gone : Bool) (hi : s.Inv False) (h : s.Capturing key)
    (hover : ¬ s.Overtaken (.receive full gone) key) (ht : s.receive full gone = some t) :
    t.Capturing key := by
  unfold State.receive at ht
  split at ht
  · rename_i w id result responses hw hr
    have hpop : State.Capturing { s with link := { s.link with responses := responses } } key :=
      h.pop key s.link s.helper s.native s.minimumCodecEpoch _ _ responses hr
    dsimp only at ht
    split at ht
    · cases ht
    · rename_i hinitial
      have hnone : w.initial = none := Option.not_isSome_iff_eq_none.mp hinitial
      split at ht
      · cases ht
        split
        · exact hpop
        · exact capturing_close _ key _ hpop
      · rename_i hid
        split at ht
        · cases ht
          exact capturing_close _ key _ hpop
        · split at ht
          · cases ht
            exact capturing_close _ key _ hpop
          · split at ht
            · cases ht
              exact capturing_close _ key _ hpop
            · cases ht
              exact hpop
        · rename_i result _ _ call hl _
          cases ht
          obtain ⟨h0, _, _, e, he, heid, hecommand⟩ :=
            (hi.worker w hw).pending _ (lookup_mem w.pending id call hl)
          apply capturing_settle _ key w id call result gone hpop
          · -- A success of the key's end is the helper's.
            intro hends hdone
            exact h.settled _ (hr ▸ List.mem_cons_self) h0 hdone e he heid (hecommand ▸ hends)
          · intro hstreamed hrec hdone hnow hbelow
            exact hover ⟨hstreamed, id, call,
              ⟨⟨full, gone, rfl⟩, w, responses, hw, hnone, hdone ▸ hr, hid, hl, hrec, hnow⟩, hbelow⟩
  · cases ht

theorem capturing_lose (h : s.Capturing key) (ht : s.lose = some t) : t.Capturing key := by
  unfold State.lose at ht
  split at ht
  · rename_i w _
    split at ht
    · cases ht
    · cases ht
      exact capturing_close s key w.pending h
  · cases ht

theorem capturing_serve (outcome : Outcome) (hi : s.Inv False) (h : s.Capturing key)
    (hlate : ¬ s.Late (.serve outcome) key) (ht : s.serve outcome = some t) : t.Capturing key := by
  unfold State.serve at ht
  split at ht
  · rename_i helper g m hh hm
    split at ht
    · cases ht
    · rename_i hrunning
      rw [not_or, Option.not_isSome_iff_eq_none] at hrunning
      have hreads := receive_reads helper s.native m outcome
      generalize helper.receive s.native m outcome = e at ht hreads
      cases ht
      have hc : Ipc.Capturing key s.link (some helper) s.native s.minimumCodecEpoch
          (Succeeded s.replies key) := by
        rw [← hh]
        exact h
      apply hc.serve key s.link s.native s.minimumCodecEpoch _ hi.link helper g m hm e hreads ?_
        hrunning.2
      intro hended hstreams
      exact hlate ⟨⟨outcome, rfl⟩, hended, (g, m), hm, hstreams⟩
  · cases ht

theorem capturing_work (work : Work) (hi : s.Inv False) (h : s.Capturing key)
    (ht : s.work work = some t) : t.Capturing key := by
  unfold State.work at ht
  split at ht
  · rename_i helper hh
    split at ht
    · rename_i h' n' response hwork
      cases ht
      have hc : Ipc.Capturing key s.link (some helper) s.native s.minimumCodecEpoch
          (Succeeded s.replies key) := by
        rw [← hh]
        exact h
      exact hc.work key s.link s.native s.minimumCodecEpoch _ hi.link helper (h', n', response)
        (work_works helper s.native work _ hwork)
    · cases ht
  · cases ht

theorem capturing_step (a : Action) (hi : s.Inv False) (h : s.Capturing key)
    (hlate : ¬ s.Late a key) (hover : ¬ s.Overtaken a key) (ht : s.step a = some t) :
    t.Capturing key := by
  cases a with
  | call command generation deadline =>
    simp only [State.step] at ht
    split at ht
    · cases ht
    · exact capturing_call s t key command false 0 generation deadline h ht
  | endTrack track minimum generation deadline =>
    exact capturing_endTrack s t key track minimum generation deadline h ht
  | streamGroup track refresh bitrate minimum generation deadline =>
    simp only [State.step, State.streamGroup] at ht
    split at ht
    · cases ht
    · exact capturing_call s t key _ false 0 generation deadline h ht
  | recover minimum generation deadline =>
    exact capturing_call s t key _ true minimum generation deadline h ht
  | connect connected => exact capturing_connect s t key connected h ht
  | take => exact capturing_take s t key h ht
  | submit write => exact capturing_submit s t key write hi h ht
  | receive full gone => exact capturing_receive s t key full gone hi h hover ht
  | heartbeat write => exact capturing_heartbeat s t key write hi h ht
  | lose => exact capturing_lose s t key h ht
  | serve outcome => exact capturing_serve s t key outcome hi h hlate ht
  | work work => exact capturing_work s t key work hi h ht
  | retire outcome =>
    simp only [State.step, State.retire] at ht
    split at ht
    · split at ht
      · cases ht
        exact h.exit key s.link s.helper s.native s.minimumCodecEpoch _ _
      · cases ht
    · cases ht
  | crash =>
    simp only [State.step, State.crash] at ht
    split at ht
    · cases ht
      exact h.exit key s.link s.helper s.native s.minimumCodecEpoch _ s.native
    · cases ht
  | wait ms =>
    cases ht
    exact h

end

theorem receive_entry (helper : Helper) (n : Native) (start : Bool) (id : ℕ) (track : DesktopTrack)
    (refresh : Bool) (bitrate : ℕ) (outcome : Outcome) :
    (helper.receive n ⟨start, ⟨id, .StreamGroup track refresh bitrate⟩⟩ outcome).1.stopped ∨
      (helper.receive n ⟨start, ⟨id, .StreamGroup track refresh bitrate⟩⟩ outcome).1.entryOf
        track.key ≠ none := by
  unfold Helper.receive
  split
  · exact .inl rfl
  · split
    · exact .inl rfl
    · show (Helper.group _ id track bitrate).stopped = true ∨
        (Helper.group _ id track bitrate).entryOf track.key ≠ none
      unfold Helper.group
      dsimp only
      split
      · exact .inl rfl
      · split
        · exact .inl rfl
        · right
          show (if _ then helper.tracks ++ [track] else helper.tracks).find? _ ≠ none
          split
          · rw [ne_eq, List.find?_eq_none]
            intro hnone
            exact hnone track (List.mem_append_right _ List.mem_cons_self) (decide_eq_true rfl)
          · rename_i hentry
            exact hentry

theorem late_entry (s t : State) (outcome : Outcome) (key : ℕ × ℕ)
    (hlate : s.Late (.serve outcome) key) (ht : s.serve outcome = some t) (h' : Helper)
    (hh' : t.helper = some h') : h'.stopped ∨ h'.entryOf key ≠ none := by
  obtain ⟨_, _, ⟨g, start, id, command⟩, hm, hstreams⟩ := hlate
  cases command with
  | StreamGroup track refresh bitrate =>
    have hkey : track.key = key := of_decide_eq_true hstreams
    unfold State.serve at ht
    split at ht
    · rename_i helper g' m' hh hm'
      rw [hm] at hm'
      cases hm'
      split at ht
      · cases ht
      · have hentry := receive_entry helper s.native start id track refresh bitrate outcome
        generalize helper.receive s.native ⟨start, ⟨id, .StreamGroup track refresh bitrate⟩⟩
          outcome = e at ht hentry
        cases ht
        cases hh'
        rw [← hkey]
        exact hentry
    · cases ht
  | _ => cases hstreams

inductive Thread where
  | absent
  | spawned
  | called
  deriving DecidableEq

structure Media where
  channel : State
  running : Bool
  producer : Thread
  cleanup : Thread

def Media.init : Media := ⟨.init, true, .absent, .absent⟩

inductive MediaAction where
  | spawn
  | produce (refresh : Bool) (bitrate minimum generation deadline : ℕ)
  | produced
  | returns
  | abort
  | endTrack (minimum generation deadline : ℕ)
  | channel (a : Action)

def Action.foreign (key : ℕ × ℕ) : Action → Bool
  | .endTrack track .. => track.key ≠ key
  | .streamGroup track .. => track.key ≠ key
  | _ => true

/-- The drop of `TrackCleanup`. -/
def Media.drop (m : Media) : Media := { m with running := false, cleanup := .spawned }

def Media.step (track : DesktopTrack) (m : Media) : MediaAction → Option Media
  | .spawn =>
    if m.running ∧ m.producer = .absent then some { m with producer := .spawned } else none
  | .produce refresh bitrate minimum generation deadline =>
    if m.producer = .spawned then
      match m.channel.streamGroup track refresh bitrate minimum generation deadline with
      | some s => some { m with channel := s, producer := .called }
      | none => some { m with producer := .absent }
    else none
  | .produced => if m.producer = .called then some { m with producer := .absent } else none
  | .returns => if m.running ∧ m.producer = .absent then some m.drop else none
  | .abort => if m.running then some m.drop else none
  | .endTrack minimum generation deadline =>
    if m.cleanup = .spawned then
      match m.channel.endTrack track minimum generation deadline with
      | some s => some { m with channel := s, cleanup := .called }
      | none => some { m with cleanup := .called }
    else none
  | .channel a =>
    if a.foreign track.key then
      match m.channel.step a with
      | some s => some { m with channel := s }
      | none => none
    else none

def Media.Benign (track : DesktopTrack) (m : Media) (a : MediaAction) : Prop :=
  ∀ c, a = .channel c → ¬ m.channel.Late c track.key ∧ ¬ m.channel.Overtaken c track.key

def Media.Reached (track : DesktopTrack) (m : Media) : Prop :=
  Reachable (· = Media.init) (fun m n => ∃ a, m.Benign track a ∧ m.step track a = some n) m

theorem media_step (track : DesktopTrack) (m n : Media) (a : MediaAction)
    (hb : m.Benign track a) (ht : m.step track a = some n) : n.channel = m.channel ∨
      ∃ c, m.channel.step c = some n.channel ∧ ¬ m.channel.Late c track.key ∧
        ¬ m.channel.Overtaken c track.key := by
  cases a with
  | spawn | produced | returns | abort =>
    simp only [Media.step] at ht
    split at ht
    · cases ht
      exact .inl rfl
    · cases ht
  | produce refresh bitrate minimum generation deadline =>
    simp only [Media.step] at ht
    split at ht
    · split at ht
      · rename_i s hs
        cases ht
        refine .inr ⟨.streamGroup track refresh bitrate minimum generation deadline, hs, ?_, ?_⟩
        · intro hlate
          obtain ⟨⟨_, hserve⟩, _⟩ := hlate
          cases hserve
        · intro hover
          obtain ⟨_, _, _, ⟨⟨_, _, hreceive⟩, _⟩, _⟩ := hover
          cases hreceive
      · cases ht
        exact .inl rfl
    · cases ht
  | endTrack minimum generation deadline =>
    simp only [Media.step] at ht
    split at ht
    · split at ht
      · rename_i s hs
        cases ht
        refine .inr ⟨.endTrack track minimum generation deadline, hs, ?_, ?_⟩
        · intro hlate
          obtain ⟨⟨_, hserve⟩, _⟩ := hlate
          cases hserve
        · intro hover
          obtain ⟨_, _, _, ⟨⟨_, _, hreceive⟩, _⟩, _⟩ := hover
          cases hreceive
      · cases ht
        exact .inl rfl
    · cases ht
  | channel c =>
    obtain ⟨hlate, hover⟩ := hb c rfl
    simp only [Media.step] at ht
    split at ht
    · split at ht
      · rename_i s hs
        cases ht
        exact .inr ⟨c, hs, hlate, hover⟩
      · cases ht
    · cases ht

theorem capturing_init (key : ℕ × ℕ) : State.init.Capturing key where
  idle := fun _ => rfl
  entry := fun _ hh => (nomatch hh)
  groups := fun _ hh => (nomatch hh)
  capture := fun hkey => absurd hkey (Finset.notMem_empty key)
  ending := fun _ _ hh => (nomatch hh)
  settled := fun _ hr => absurd hr List.not_mem_nil
  below := fun hbelow => absurd hbelow (Nat.not_lt_zero _)
  succeeded := by
    intro hs
    obtain ⟨r, hr, _⟩ := hs
    exact absurd hr List.not_mem_nil

theorem Media.Reached.capturing (track : DesktopTrack) (m : Media) (h : m.Reached track) :
    m.channel.Inv False ∧ m.channel.Capturing track.key := by
  refine Reachable.invariant (fun m => m.channel.Inv False ∧ m.channel.Capturing track.key) ?_ ?_ h
  · intro m hm
    rw [hm]
    exact ⟨inv_init False, capturing_init track.key⟩
  · intro m n hinv hstep
    obtain ⟨a, hb, ht⟩ := hstep
    rcases media_step track m n a hb ht with hsame | ⟨c, hc, hlate, hover⟩
    · rw [hsame]
      exact hinv
    · exact ⟨inv_step m.channel n.channel c False hinv.1 False.elim hc,
        capturing_step m.channel n.channel track.key c hinv.1 hinv.2 hlate hover hc⟩

/-- As long as no group of the track comes late, once its `end_track` has succeeded the helper has
neither an entry of it nor an open capture; and a late group has its entry made anew, unless the
helper ends. -/
theorem ended_track_free (track : DesktopTrack) (m : Media) (h : m.Reached track) :
    (Succeeded m.channel.replies track.key →
      (∀ helper, m.channel.helper = some helper → helper.entryOf track.key = none) ∧
        track.key ∉ m.channel.native.captures) ∧
    ∀ (outcome : Outcome) (n : Media), m.step track (.channel (.serve outcome)) = some n →
      m.channel.Late (.serve outcome) track.key → ∀ helper, n.channel.helper = some helper →
        helper.stopped ∨ helper.entryOf track.key ≠ none := by
  obtain ⟨_, hc⟩ := h.capturing
  constructor
  · intro hs
    have hfree := hc.succeeded hs
    exact ⟨hfree.entry, hfree.capture⟩
  · intro outcome n ht hlate
    simp only [Media.step] at ht
    split at ht
    · split at ht
      · rename_i s hs
        cases ht
        exact late_entry m.channel s outcome track.key hlate hs
      · cases ht
    · cases ht

def sampleTrack : DesktopTrack :=
  ⟨1, ⟨"v", "d", ⟨0, 0, 100, 100⟩, 100, 100, 60, 1000000⟩, ⟨"avc1.42e01f", none, true⟩, 1, none⟩

def sendCall : List MediaAction := [.channel .take, .channel (.submit .sent), .channel (.serve .done)]

def serveGroup : List MediaAction :=
  [.channel (.work (.capture (1, 1))), .channel (.work (.groupDone (1, 1) .done)),
    .channel (.receive false false)]

def firstGroup : List MediaAction :=
  [.spawn, .produce false 1000000 0 0 3000, .channel (.connect (.ok ())), .channel (.submit .sent),
    .channel (.serve .done)] ++ serveGroup ++ [.produced]

def endGroup : List MediaAction :=
  [.endTrack 0 0 3000] ++ sendCall ++
    [.channel (.work (.endTrack .done)), .channel (.receive false false)]

def abortedRun : List MediaAction :=
  firstGroup ++ [.spawn, .abort] ++ endGroup ++ [.produce false 1000000 0 0 3000] ++ sendCall ++
    serveGroup ++ [.produced]

def Media.after (run : List MediaAction) : Media :=
  (run.foldlM (Media.step sampleTrack) Media.init).getD Media.init

theorem aborted_task_leaks : ∃ m : Media,
    Reachable (· = Media.init) (fun m n => ∃ a, m.step sampleTrack a = some n) m ∧
      m.running = false ∧ m.producer = .absent ∧ m.cleanup = .called ∧ m.channel.calls = [] ∧
      (m.channel.worker.map fun w => (w.pending.length, w.initial.isNone)) = some (0, true) ∧
      m.channel.link.read = m.channel.link.written.length ∧
      (m.channel.helper.map fun h => (h.groups.length, h.ending.isNone)) = some (0, true) ∧
      Succeeded m.channel.replies sampleTrack.key ∧
      (m.channel.helper.map fun h => h.entryOf sampleTrack.key) = some (some sampleTrack) ∧
      sampleTrack.key ∈ m.channel.native.captures := by
  refine ⟨Media.after abortedRun, ?_, rfl, rfl, rfl, rfl, rfl, rfl, rfl, ?_, rfl, ?_⟩
  · exact Reachable.foldlM (Media.step sampleTrack) abortedRun (.start _ rfl) rfl
  · exact ⟨_, List.mem_cons_of_mem _ List.mem_cons_self, rfl, rfl⟩
  · exact Finset.mem_insert_self _ _

def State.safe (s : State) (key : ℕ × ℕ) : Action → Bool
  | .serve _ =>
    (s.link.written[s.link.read]?).all (fun e => e.2.command.streams key = false) ∨
      (s.replies.all (fun r => r.1.command.ends key = false) ∧
        (s.link.written.take s.link.read).all fun e => e.2.command.ends key = false)
  | .receive .. => s.worker.all fun w => w.pending.all fun e => e.2.recovery = false
  | _ => true

theorem not_late_of_safe (s : State) (key : ℕ × ℕ) (a : Action) (h : s.safe key a) :
    ¬ s.Late a key := by
  intro hlate
  obtain ⟨⟨outcome, ha⟩, hended, e, he, hstreams⟩ := hlate
  rw [ha] at h
  rcases of_decide_eq_true h with hgroup | ⟨hreplies, htaken⟩
  · rw [he] at hgroup
    rw [of_decide_eq_true hgroup] at hstreams
    cases hstreams
  · rcases hended with ⟨r, hr, hends, _⟩ | ⟨e', he', hends⟩
    · have hno := of_decide_eq_true (List.all_eq_true.mp hreplies r hr)
      rw [hno] at hends
      cases hends
    · have hno := of_decide_eq_true (List.all_eq_true.mp htaken e' he')
      rw [hno] at hends
      cases hends

theorem not_overtaken_of_safe (s : State) (key : ℕ × ℕ) (a : Action) (h : s.safe key a) :
    ¬ s.Overtaken a key := by
  intro hover
  obtain ⟨_, id, call, ⟨⟨full, gone, ha⟩, w, responses, hw, _, _, _, hcall, hrecovery, _⟩, _⟩ :=
    hover
  rw [ha] at h
  have hall : s.worker.all (fun w => w.pending.all fun e => e.2.recovery = false) := h
  rw [hw] at hall
  have hno := of_decide_eq_true (List.all_eq_true.mp hall (id, call) (lookup_mem _ _ _ hcall))
  rw [hno] at hrecovery
  cases hrecovery

def Media.safe (track : DesktopTrack) (m : Media) : MediaAction → Bool
  | .channel c => m.channel.safe track.key c
  | _ => true

theorem benign_of_safe (track : DesktopTrack) (m : Media) (a : MediaAction)
    (h : m.safe track a) : m.Benign track a := by
  intro c ha
  rw [ha] at h
  exact ⟨not_late_of_safe m.channel track.key c h, not_overtaken_of_safe m.channel track.key c h⟩

def Media.safely (track : DesktopTrack) (m : Media) (a : MediaAction) : Option Media :=
  if m.safe track a then m.step track a else none

theorem reached_of_run_safely (track : DesktopTrack) (run : List MediaAction) (m n : Media)
    (hm : m.Reached track) (h : run.foldlM (Media.safely track) m = some n) : n.Reached track := by
  induction run generalizing m with
  | nil =>
    cases h
    exact hm
  | cons a run ih =>
    rw [List.foldlM_cons] at h
    obtain ⟨o, ho, h⟩ := Option.bind_eq_some_iff.mp h
    unfold Media.safely at ho
    split at ho
    · rename_i hsafe
      apply ih o ?_ h
      exact hm.next m o ⟨a, benign_of_safe track m a hsafe, ho⟩
    · cases ho

def returnedRun : List MediaAction := firstGroup ++ [.returns] ++ endGroup

theorem ended_track_free_sample : ∃ m : Media, m.Reached sampleTrack ∧
    Succeeded m.channel.replies sampleTrack.key ∧ sampleTrack.key ∉ m.channel.native.captures := by
  have h : (Media.after returnedRun).Reached sampleTrack :=
    reached_of_run_safely sampleTrack returnedRun Media.init _ (.start _ rfl) rfl
  have hs : Succeeded (Media.after returnedRun).channel.replies sampleTrack.key :=
    ⟨_, List.mem_cons_of_mem _ List.mem_cons_self, rfl, rfl⟩
  exact ⟨_, h, hs, ((ended_track_free sampleTrack _ h).1 hs).2⟩

end Rieul.Screen.Ipc
