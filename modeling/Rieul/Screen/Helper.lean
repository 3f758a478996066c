import Rieul.Screen.Ipc

/-!
# The helper (`serve_until` of daemon/host/src/desktop_ipc.rs)

The helper reads the requests of its one stream in order. A group of frames and a
probe run on threads of their own; everything else is executed before the next
request is read. A violation of the protocol, like a broken stream, ends the helper:
it drains its groups, releases all input and retires.
-/

namespace Rieul.Screen.Ipc

structure Group where
  requestId : ℕ
  track : DesktopTrack
  bitrate : ℕ

/-- `ending` is the `EndTrack` that waits for the lock of its track. -/
structure Helper where
  first : Bool
  last : ℕ
  tracks : List DesktopTrack
  groups : List Group
  probe : Option UserDesktopRequest
  ending : Option UserDesktopRequest
  stopped : Bool

def Helper.start : Helper := ⟨true, 0, [], [], none, none, false⟩

def validateEncoderRate (track : DesktopTrack) (bitrate : ℕ) : Bool :=
  ¬ (bitrate = 0 ∨ track.viewport.bitrate < bitrate ∨ 2 ^ 32 - 1 < bitrate)

def Helper.entryOf (h : Helper) (key : ℕ × ℕ) : Option DesktopTrack :=
  h.tracks.find? (·.key = key)

def Helper.group? (h : Helper) (key : ℕ × ℕ) : Option Group :=
  h.groups.find? (·.track.key = key)

theorem group?_some (h : Helper) (key : ℕ × ℕ) (g : Group) (hg : h.group? key = some g) :
    g ∈ h.groups ∧ g.track.key = key := by
  unfold Helper.group? at hg
  have hkey := List.find?_some hg
  exact ⟨List.mem_of_find?_eq_some hg, of_decide_eq_true hkey⟩

def Helper.locked (h : Helper) (key : ℕ × ℕ) : Bool := (h.group? key).isSome

def Helper.stop (h : Helper) : Helper := { h with stopped := true }

def Helper.group (h : Helper) (requestId : ℕ) (track : DesktopTrack) (bitrate : ℕ) : Helper :=
  if 32 ≤ h.tracks.length ∧ h.entryOf track.key = none then h.stop
  else
    let tracks := if h.entryOf track.key = none then h.tracks ++ [track] else h.tracks
    if (h.entryOf track.key).getD track ≠ track ∨ h.locked track.key ∨ 8 ≤ h.groups.length then
      { h.stop with tracks := tracks }
    else { h with tracks := tracks, groups := h.groups ++ [⟨requestId, track, bitrate⟩] }

abbrev Effect := Helper × Native × Option UserDesktopResponse

def Helper.request (h : Helper) (n : Native) (request : UserDesktopRequest) (outcome : Outcome) :
    Effect :=
  match request.command with
  | .StreamGroup track _ bitrate => (h.group request.requestId track bitrate, n, none)
  | .ProbeVideo _ =>
    if h.probe.isSome then (h, n, some ⟨request.requestId, .Failed .Busy⟩)
    else ({ h with probe := some request }, n, none)
  | .EndTrack track =>
    ({ h with
        tracks := h.tracks.filter (·.key ≠ track.key)
        ending := some request }, n, none)
  | command =>
    let (n', result) := execute n command outcome
    (h, n', some ⟨request.requestId, result⟩)

def Helper.admits (h : Helper) (m : Message) : Bool :=
  m.start = h.first ∧ ¬ (m.command.isRecovery ∧ ¬ h.first) ∧
    (m.id = 0 ∨ h.last < m.id)

def Helper.receive (h : Helper) (n : Native) (m : Message) (outcome : Outcome) : Effect :=
  if ¬ h.admits m then (h.stop, n, none)
  else if m.id = 0 then
    if m.command.isPing then ({ h with first := false }, n, some ⟨0, .Done⟩)
    else (h.stop, n, none)
  else Helper.request { h with first := false, last := m.id } n m.request outcome

inductive Work where
  /-- The waiting `EndTrack` has the lock. -/
  | endTrack (outcome : Outcome)
  /-- The group of the key opens its capture. -/
  | capture (key : ℕ × ℕ)
  | frame (key : ℕ × ℕ) (bytes : ℕ)
  | groupDone (key : ℕ × ℕ) (outcome : Outcome)
  | probeDone (outcome : Outcome)
  /-- The stream broke, or the helper was told to stop. -/
  | stop

def Helper.work (h : Helper) (n : Native) : Work → Option Effect
  | .endTrack outcome =>
    match h.ending with
    | some ⟨id, .EndTrack track⟩ =>
      if h.locked track.key then none
      else
        let (n', result) := execute n (.EndTrack track) outcome
        some ({ h with ending := none }, n', some ⟨id, result⟩)
    | _ => none
  | .capture key =>
    match h.group? key with
    | some g =>
      if validateEncoderRate g.track g.bitrate then
        some (h, { n with captures := insert key n.captures }, none)
      else none
    | none => none
  | .frame key bytes =>
    match h.group? key with
    | some g => some (h, n, some ⟨g.requestId, .GroupFrame bytes⟩)
    | none => none
  | .groupDone key outcome =>
    match h.group? key with
    | some g =>
      some ({ h with groups := h.groups.filter (·.track.key ≠ key) }, n,
        some ⟨g.requestId, outcome.result .Done⟩)
    | none => none
  | .probeDone outcome =>
    match h.probe with
    | some ⟨id, .ProbeVideo track⟩ =>
      let (n', result) := execute n (.ProbeVideo track) outcome
      some ({ h with probe := none }, n', some ⟨id, result⟩)
    | _ => none
  | .stop => if h.ending.isNone then some (h.stop, n, none) else none

def Helper.drained (h : Helper) : Bool :=
  h.stopped ∧ h.groups.isEmpty ∧ h.probe.isNone ∧ h.ending.isNone

def Helper.Owes (h : Helper) (id : ℕ) : Prop :=
  (∃ g ∈ h.groups, g.requestId = id) ∨ (∃ r ∈ h.probe, r.requestId = id) ∨
    ∃ r ∈ h.ending, r.requestId = id

def Harmless (request : UserDesktopRequest) (response : Option UserDesktopResponse) : Prop :=
  ∀ r ∈ response, r.requestId = request.requestId ∧ request.command.isInput = false

theorem group_first (h : Helper) (id : ℕ) (track : DesktopTrack) (bitrate : ℕ) :
    (h.group id track bitrate).first = h.first := by
  unfold Helper.group
  dsimp only
  split
  · rfl
  · split
    · rfl
    · rfl

theorem group_owes (h : Helper) (id : ℕ) (track : DesktopTrack) (bitrate n : ℕ)
    (hn : (h.group id track bitrate).Owes n) : h.Owes n ∨ n = id := by
  unfold Helper.group at hn
  dsimp only at hn
  split at hn
  · exact .inl hn
  · split at hn
    · exact .inl hn
    · rcases hn with ⟨g, hg, hid⟩ | hn
      · rcases List.mem_append.mp hg with hg | hg
        · exact .inl (.inl ⟨g, hg, hid⟩)
        · right
          rw [List.mem_singleton.mp hg] at hid
          exact hid.symm
      · exact .inl (.inr hn)

section
variable (h : Helper) (n : Native) (r : UserDesktopRequest) (outcome : Outcome)
include h n r outcome

theorem request_cases :
    (r.command.isInput = false ∧ (h.request n r outcome).2.1 = n ∧
        Harmless r (h.request n r outcome).2.2) ∨
      (h.request n r outcome) =
        (h, (execute n r.command outcome).1, some ⟨r.requestId, (execute n r.command outcome).2⟩) := by
  obtain ⟨id, command⟩ := r
  cases command with
  | StreamGroup track refresh bitrate | EndTrack track => exact .inl ⟨rfl, rfl, nofun⟩
  | ProbeVideo track =>
    refine .inl ⟨rfl, ?_⟩
    simp only [Helper.request]
    split
    · refine ⟨rfl, fun r hr => ?_⟩
      cases hr
      exact ⟨rfl, rfl⟩
    · exact ⟨rfl, nofun⟩
  | _ => exact .inr rfl

theorem request_first :
    (h.request n r outcome).1.first = h.first := by
  obtain ⟨id, command⟩ := r
  cases command with
  | StreamGroup track refresh bitrate => exact group_first h id track bitrate
  | ProbeVideo track =>
    simp only [Helper.request]
    split
    · rfl
    · rfl
  | _ => rfl

theorem request_owes (m : ℕ) (hm : (h.request n r outcome).1.Owes m) :
    h.Owes m ∨ (m = r.requestId ∧ r.command.isInput = false) := by
  obtain ⟨id, command⟩ := r
  cases command with
  | StreamGroup track refresh bitrate =>
    rcases group_owes h id track bitrate m hm with hm | hm
    · exact .inl hm
    · exact .inr ⟨hm, rfl⟩
  | ProbeVideo track =>
    simp only [Helper.request] at hm
    split at hm
    · exact .inl hm
    · rcases hm with hm | ⟨r, hr, hid⟩ | hm
      · exact .inl (.inl hm)
      · cases hr
        exact .inr ⟨hid.symm, rfl⟩
      · exact .inl (.inr (.inr hm))
  | EndTrack track =>
    rcases hm with hm | hm | ⟨r, hr, hid⟩
    · exact .inl (.inl hm)
    · exact .inl (.inr (.inl hm))
    · cases hr
      exact .inr ⟨hid.symm, rfl⟩
  | _ => exact .inl hm

end

section
variable (h : Helper) (n : Native) (m : Message) (outcome : Outcome)
include h n m outcome

/-- What the next message does: it is not an input and nothing is acknowledged, or it is executed; a
recovery only as the first message. -/
theorem receive_cases :
    ((h.receive n m outcome).2.1 = n ∧ Harmless m.request (h.receive n m outcome).2.2) ∨
      (m.id ≠ 0 ∧ (m.command.isRecovery → h.first) ∧
        (h.receive n m outcome).2.1 = (execute n m.command outcome).1 ∧
        (h.receive n m outcome).2.2 = some ⟨m.id, (execute n m.command outcome).2⟩) := by
  unfold Helper.receive
  split
  · exact .inl ⟨rfl, nofun⟩
  · rename_i hadmits
    simp only [not_not] at hadmits
    split
    · rename_i hid
      split
      · rename_i hping
        refine .inl ⟨rfl, fun r hr => ?_⟩
        cases hr
        exact ⟨hid.symm, isPing_not_input m.command hping⟩
      · exact .inl ⟨rfl, nofun⟩
    · rename_i hid
      rcases request_cases { h with first := false, last := m.id } n m.request outcome with
        ⟨_, hn, hr⟩ | heq
      · exact .inl ⟨hn, hr⟩
      · refine .inr ⟨hid, ?_, ?_⟩
        · intro hrec
          simp only [Helper.admits, decide_eq_true_eq] at hadmits
          by_contra hfirst
          exact hadmits.2.1 ⟨hrec, hfirst⟩
        · rw [heq]
          exact ⟨rfl, rfl⟩

theorem receive_first (hs : (h.receive n m outcome).1.stopped = false) :
    (h.receive n m outcome).1.first = false := by
  unfold Helper.receive at hs ⊢
  split at hs
  · cases hs
  · rename_i hadmits
    rw [if_neg hadmits]
    split at hs
    · rename_i hid
      rw [if_pos hid]
      split at hs
      · rename_i hping
        rw [if_pos hping]
      · cases hs
    · rename_i hid
      rw [if_neg hid]
      exact request_first _ n m.request outcome

theorem receive_owes (id : ℕ)
    (hid : (h.receive n m outcome).1.Owes id) :
    h.Owes id ∨ (id = m.id ∧ m.id ≠ 0 ∧ m.command.isInput = false) := by
  unfold Helper.receive at hid
  split at hid
  · exact .inl hid
  · split at hid
    · split at hid
      · exact .inl hid
      · exact .inl hid
    · rename_i hne
      rcases request_owes _ n m.request outcome id hid with hid | ⟨hid, hcommand⟩
      · exact .inl hid
      · exact .inr ⟨hid, hne, hcommand⟩

end

structure Effect.Quiet (h : Helper) (n : Native) (e : Effect) : Prop where
  held : e.2.1.held = n.held
  tracked : e.2.1.tracked = n.tracked
  first : e.1.first = h.first
  stopped : e.1.stopped = false → h.stopped = false
  owes : ∀ id, e.1.Owes id → h.Owes id
  answers : ∀ r ∈ e.2.2, h.Owes r.requestId

theorem work_quiet (h : Helper) (n : Native) (work : Work) (e : Effect)
    (he : h.work n work = some e) : e.Quiet h n := by
  cases work with
  | endTrack outcome =>
    simp only [Helper.work] at he
    split at he
    · rename_i id track hending
      split at he
      · cases he
      · cases he
        refine ⟨?_, ?_, rfl, fun hs => hs, ?_, ?_⟩
        · cases outcome with
          | _ => rfl
        · cases outcome with
          | _ => rfl
        · intro id hid
          rcases hid with hid | hid | ⟨r, hr, _⟩
          · exact .inl hid
          · exact .inr (.inl hid)
          · cases hr
        · intro r hr
          cases hr
          exact .inr (.inr ⟨_, hending, rfl⟩)
    · cases he
  | capture key =>
    simp only [Helper.work] at he
    split at he
    · split at he
      · cases he
        exact ⟨rfl, rfl, rfl, fun hs => hs, fun _ hid => hid, nofun⟩
      · cases he
    · cases he
  | frame key bytes =>
    simp only [Helper.work] at he
    split at he
    · rename_i g hg
      cases he
      refine ⟨rfl, rfl, rfl, fun hs => hs, fun _ hid => hid, fun r hr => ?_⟩
      cases hr
      exact .inl ⟨g, List.mem_of_find?_eq_some hg, rfl⟩
    · cases he
  | groupDone key outcome =>
    simp only [Helper.work] at he
    split at he
    · rename_i g hg
      cases he
      refine ⟨rfl, rfl, rfl, fun hs => hs, ?_, fun r hr => ?_⟩
      · intro id hid
        rcases hid with ⟨g', hg', hid⟩ | hid
        · exact .inl ⟨g', (List.mem_filter.mp hg').1, hid⟩
        · exact .inr hid
      · cases hr
        exact .inl ⟨g, List.mem_of_find?_eq_some hg, rfl⟩
    · cases he
  | probeDone outcome =>
    simp only [Helper.work] at he
    split at he
    · rename_i id track hprobe
      cases he
      refine ⟨rfl, rfl, rfl, fun hs => hs, ?_, ?_⟩
      · intro id hid
        rcases hid with hid | ⟨r, hr, _⟩ | hid
        · exact .inl hid
        · cases hr
        · exact .inr (.inr hid)
      · intro r hr
        cases hr
        exact .inr (.inl ⟨_, hprobe, rfl⟩)
    · cases he
  | stop =>
    simp only [Helper.work] at he
    split at he
    · cases he
      exact ⟨rfl, rfl, rfl, nofun, fun _ hid => hid, nofun⟩
    · cases he

end Rieul.Screen.Ipc
