import Rieul.Screen.HelperRecovery

/-!
# Captures of the helper

The group of a track opens its capture, and `EndTrack` closes it and forgets the track.
-/

namespace Rieul.Screen.Ipc
open System

def UserDesktopCommand.streams (key : ℕ × ℕ) : UserDesktopCommand → Bool
  | .StreamGroup track _ _ => track.key = key
  | _ => false

def UserDesktopCommand.ends (key : ℕ × ℕ) : UserDesktopCommand → Bool
  | .EndTrack track => track.key = key
  | _ => false

theorem ends_isCapture (key : ℕ × ℕ) (command : UserDesktopCommand) (h : command.ends key) :
    command.isCapture := by
  cases command with
  | EndTrack track => rfl
  | _ => cases h

theorem streams_not_ends (key key' : ℕ × ℕ) (command : UserDesktopCommand)
    (h : command.streams key') : command.ends key = false := by
  cases command with
  | StreamGroup track refresh bitrate => rfl
  | _ => cases h

theorem entry_append (tracks : List DesktopTrack) (track : DesktopTrack) (key : ℕ × ℕ)
    (h : (tracks ++ [track]).find? (·.key = key) ≠ none) :
    tracks.find? (·.key = key) ≠ none ∨ track.key = key := by
  rw [List.find?_append] at h
  cases htracks : tracks.find? (·.key = key) with
  | some t => exact .inl nofun
  | none =>
    rw [htracks, Option.none_or, List.find?_singleton] at h
    right
    by_contra hne
    rw [if_neg (by simpa using hne)] at h
    exact h rfl

theorem entry_filter (tracks : List DesktopTrack) (key : ℕ × ℕ) :
    (tracks.filter (·.key ≠ key)).find? (·.key = key) = none := by
  rw [List.find?_eq_none]
  intro t ht hkey
  have hne := of_decide_eq_true (List.mem_filter.mp ht).2
  exact hne (of_decide_eq_true hkey)

theorem entry_filter_some (tracks : List DesktopTrack) (key key' : ℕ × ℕ)
    (h : (tracks.filter (·.key ≠ key')).find? (·.key = key) ≠ none) :
    tracks.find? (·.key = key) ≠ none := by
  intro hnone
  rw [List.find?_eq_none] at hnone
  apply h
  rw [List.find?_eq_none]
  exact fun t ht => hnone t (List.mem_filter.mp ht).1

/-- Reading a message makes an entry or a group only for a group of its key, and answers nothing
about a capture. -/
structure Effect.Reads (h : Helper) (n : Native) (m : Message) (e : Effect) : Prop where
  captures : e.2.1.captures = n.captures
  entry : ∀ key, e.1.entryOf key ≠ none → h.entryOf key ≠ none ∨ m.command.streams key
  groups : ∀ g ∈ e.1.groups, g ∈ h.groups ∨
    (g.requestId = m.id ∧ m.id ≠ 0 ∧ m.command.streams g.track.key)
  ending : ∀ r, e.1.ending = some r → h.ending = some r ∨
    (r = m.request ∧ m.id ≠ 0 ∧ ∀ track, r.command = .EndTrack track → e.1.entryOf track.key = none)
  answers : ∀ r ∈ e.2.2, r.requestId = m.id ∧ (m.id ≠ 0 → m.command.isCapture = false)

theorem execute_captures (n : Native) (command : UserDesktopCommand) (outcome : Outcome)
    (h : command.isCapture = false) : (execute n command outcome).1.captures = n.captures := by
  cases command with
  | Input event viewport =>
    cases event with
    | PhysicalKey usage down repeats | Button v x y button down =>
      cases down <;> cases outcome <;> rfl
    | ReleaseAll => cases outcome <;> rfl
    | _ => rfl
  | RecoverInput keys buttons =>
    simp only [execute]
    split
    · cases outcome <;> rfl
    · rfl
  | StreamGroup track refresh bitrate | EndTrack track => cases h
  | _ => rfl

section
variable (h : Helper) (n : Native) (m : Message)
include h n m

theorem group_reads (track : DesktopTrack) (refresh : Bool)
    (bitrate : ℕ) (hm : m.command = .StreamGroup track refresh bitrate) (h0 : m.id ≠ 0) :
    Effect.Reads h n m (h.group m.id track bitrate, n, none) := by
  have hentry : ∀ key, (if h.entryOf track.key = none then h.tracks ++ [track]
      else h.tracks).find? (·.key = key) ≠ none →
        h.entryOf key ≠ none ∨ m.command.streams key := by
    intro key hkey
    split at hkey
    · rcases entry_append h.tracks track key hkey with hkey | hkey
      · exact .inl hkey
      · right
        rw [hm]
        exact decide_eq_true hkey
    · exact .inl hkey
  unfold Helper.group
  dsimp only
  split
  · exact ⟨rfl, fun _ hkey => .inl hkey, fun _ hg => .inl hg, fun _ hr => .inl hr, nofun⟩
  · split
    · exact ⟨rfl, hentry, fun _ hg => .inl hg, fun _ hr => .inl hr, nofun⟩
    · refine ⟨rfl, hentry, ?_, fun _ hr => .inl hr, nofun⟩
      intro g hg
      rcases List.mem_append.mp hg with hg | hg
      · exact .inl hg
      · right
        rw [List.mem_singleton.mp hg]
        refine ⟨rfl, h0, ?_⟩
        rw [hm]
        exact decide_eq_true rfl

theorem executed_reads (outcome : Outcome)
    (hc : m.command.isCapture = false) : Effect.Reads h n m
      (h, (execute n m.command outcome).1, some ⟨m.id, (execute n m.command outcome).2⟩) := by
  refine ⟨execute_captures n m.command outcome hc, fun _ hkey => .inl hkey, fun _ hg => .inl hg,
    fun _ hr => .inl hr, ?_⟩
  intro r hr
  cases hr
  exact ⟨rfl, fun _ => hc⟩

theorem request_reads (outcome : Outcome) (h0 : m.id ≠ 0) :
    Effect.Reads h n m (h.request n m.request outcome) := by
  obtain ⟨start, id, command⟩ := m
  cases command with
  | StreamGroup track refresh bitrate =>
    exact group_reads h n ⟨start, id, .StreamGroup track refresh bitrate⟩ track refresh bitrate rfl h0
  | ProbeVideo track =>
    simp only [Helper.request]
    split
    · refine ⟨rfl, fun _ hkey => .inl hkey, fun _ hg => .inl hg, fun _ hr => .inl hr, ?_⟩
      intro r hr
      cases hr
      exact ⟨rfl, fun _ => rfl⟩
    · exact ⟨rfl, fun _ hkey => .inl hkey, fun _ hg => .inl hg, fun _ hr => .inl hr, by simp⟩
  | EndTrack track =>
    refine ⟨rfl, ?_, fun _ hg => .inl hg, ?_, ?_⟩
    · exact fun key hkey => .inl (entry_filter_some h.tracks key track.key hkey)
    · intro r hr
      cases hr
      refine .inr ⟨rfl, h0, fun track' htrack => ?_⟩
      cases htrack
      exact entry_filter h.tracks track.key
    · intro r hr
      cases hr
  | Ping => exact executed_reads h n ⟨start, id, .Ping⟩ outcome rfl
  | Capabilities => exact executed_reads h n ⟨start, id, .Capabilities⟩ outcome rfl
  | Displays => exact executed_reads h n ⟨start, id, .Displays⟩ outcome rfl
  | Cursor layoutEpoch => exact executed_reads h n ⟨start, id, .Cursor layoutEpoch⟩ outcome rfl
  | Input event viewport => exact executed_reads h n ⟨start, id, .Input event viewport⟩ outcome rfl
  | RecoverInput keys buttons =>
    exact executed_reads h n ⟨start, id, .RecoverInput keys buttons⟩ outcome rfl

theorem receive_reads (outcome : Outcome) :
    (h.receive n m outcome).Reads h n m := by
  unfold Helper.receive
  split
  · exact ⟨rfl, fun _ hkey => .inl hkey, fun _ hg => .inl hg, fun _ hr => .inl hr, nofun⟩
  · split
    · rename_i hid
      split
      · refine ⟨rfl, fun _ hkey => .inl hkey, fun _ hg => .inl hg, fun _ hr => .inl hr, ?_⟩
        intro r hr
        cases hr
        exact ⟨hid.symm, fun h0 => absurd hid h0⟩
      · exact ⟨rfl, fun _ hkey => .inl hkey, fun _ hg => .inl hg, fun _ hr => .inl hr, nofun⟩
    · rename_i hid
      exact { request_reads { h with first := false, last := m.id } n m outcome hid with }

end

structure Effect.Works (h : Helper) (n : Native) (e : Effect) : Prop where
  tracks : e.1.tracks = h.tracks
  groups : ∀ g ∈ e.1.groups, g ∈ h.groups
  ending : ∀ r, e.1.ending = some r → h.ending = some r
  captures : ∀ key ∈ e.2.1.captures, key ∈ n.captures ∨ h.group? key ≠ none
  done : ∀ r ∈ e.2.2, r.result = .Done → (∃ g ∈ h.groups, g.requestId = r.requestId) ∨
    ∃ track, h.ending = some ⟨r.requestId, .EndTrack track⟩ ∧ e.1.group? track.key = none ∧
      track.key ∉ e.2.1.captures

theorem probe_not_done (outcome : Outcome) : outcome.result .VideoProbe ≠ .Done := by
  cases outcome with
  | _ => exact nofun

theorem work_works (h : Helper) (n : Native) (work : Work) (e : Effect)
    (he : h.work n work = some e) : e.Works h n := by
  cases work with
  | endTrack outcome =>
    simp only [Helper.work] at he
    split at he
    · rename_i id track hending
      split at he
      · cases he
      · rename_i hlocked
        cases he
        refine ⟨rfl, fun _ hg => hg, fun _ hr => (by cases hr), ?_, ?_⟩
        · intro key hkey
          left
          cases outcome with
          | done => exact (Finset.mem_erase.mp hkey).2
          | _ => exact hkey
        · intro r hr hdone
          cases hr
          right
          have houtcome : outcome = .done := result_done outcome .Done hdone
          subst houtcome
          refine ⟨track, hending, ?_, Finset.notMem_erase track.key n.captures⟩
          exact Option.not_isSome_iff_eq_none.mp hlocked
    · cases he
  | capture key =>
    simp only [Helper.work] at he
    split at he
    · rename_i g hg
      split at he
      · cases he
        refine ⟨rfl, fun _ hg => hg, fun _ hr => hr, ?_, fun _ hr => (by cases hr)⟩
        intro key' hkey
        rcases Finset.mem_insert.mp hkey with hkey | hkey
        · right
          rw [hkey, hg]
          exact Option.some_ne_none g
        · exact .inl hkey
      · cases he
    · cases he
  | frame key bytes =>
    simp only [Helper.work] at he
    split at he
    · cases he
      refine ⟨rfl, fun _ hg => hg, fun _ hr => hr, fun _ hkey => .inl hkey, ?_⟩
      intro r hr hdone
      cases hr
      cases hdone
    · cases he
  | groupDone key outcome =>
    simp only [Helper.work] at he
    split at he
    · rename_i g hg
      cases he
      refine ⟨rfl, fun _ hg => (List.mem_filter.mp hg).1, fun _ hr => hr,
        fun _ hkey => .inl hkey, ?_⟩
      intro r hr _
      cases hr
      exact .inl ⟨g, List.mem_of_find?_eq_some hg, rfl⟩
    · cases he
  | probeDone outcome =>
    simp only [Helper.work] at he
    split at he
    · cases he
      refine ⟨rfl, fun _ hg => hg, fun _ hr => hr, fun _ hkey => .inl hkey, ?_⟩
      intro r hr hdone
      cases hr
      exact absurd hdone (probe_not_done outcome)
    · cases he
  | stop =>
    simp only [Helper.work] at he
    split at he
    · cases he
      exact ⟨rfl, fun _ hg => hg, fun _ hr => hr, fun _ hkey => .inl hkey,
        fun _ hr => (by cases hr)⟩
    · cases he

end Rieul.Screen.Ipc
