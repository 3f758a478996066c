import Rieul.Screen.Transport

/-!
# The reader of desktop frames (daemon/core/src/desktop_transport.rs)

A frame is a big-endian length and a body. The reader is given a stream in pieces of any
size, and hands every complete body to its caller.
-/

namespace Rieul.Screen.Transport
open Bytes

structure Frames where
  header : Str
  body : Str
  length : Option ℕ
  failed : Bool
  header_lt : header.length < 4
  body_lt : body.length < length.getD 1
  length_le : length.getD 1 ≤ maxObject

namespace Frames

/-- `Frames::default`. -/
def new : Frames := ⟨[], [], none, false, by decide, by decide, by decide⟩

def failure (f : Frames) : Frames where
  header := []
  body := []
  length := f.length
  failed := true
  header_lt := by decide
  body_lt := Nat.zero_lt_of_lt f.body_lt
  length_le := f.length_le

def readHeader (f : Frames) (bytes : Str) : Except Error (Frames × Str) :=
  match hlength : f.length with
  | some _ => .ok (f, bytes)
  | none =>
    let n := min (4 - f.header.length) bytes.length
    let header := f.header ++ bytes.take n
    if hheader : header.length < 4 then
      .ok ({ f with header := header, header_lt := hheader }, bytes.drop n)
    else
      let length := beNat header
      if hlimit : length = 0 ∨ length > maxObject then .error .Limit
      else .ok (⟨[], f.body, some length, f.failed, by decide, by
          have hbody := f.body_lt
          rw [hlength] at hbody
          exact Nat.lt_of_lt_of_le hbody (Nat.pos_of_ne_zero (not_or.mp hlimit).1),
          Nat.not_lt.mp (not_or.mp hlimit).2⟩, bytes.drop n)

def readBody (f : Frames) (bytes : Str) : Frames × Option Str × Str :=
  match hlength : f.length with
  | none => (f, none, bytes)
  | some length =>
    let n := min (length - f.body.length) bytes.length
    let body := f.body ++ bytes.take n
    if hbody : body.length = length then
      (⟨f.header, [], none, f.failed, f.header_lt, by decide, by decide⟩, some body, bytes.drop n)
    else
      ({ f with
        body := body
        body_lt := by
          have hlt := f.body_lt
          rw [hlength] at hlt ⊢
          have htake := List.length_take_le n bytes
          simp only [body, List.length_append, Option.getD_some] at hbody hlt ⊢
          omega }, none, bytes.drop n)

/-- One pass of the loop: what an error of the caller leaves, what the pass leaves, the body if it
is complete, and the rest of the bytes. An error comes with what it leaves. -/
structure Pass where
  refused : Frames
  next : Frames
  complete : Option Str
  rest : Str

def pass (f : Frames) (bytes : Str) : Except (Frames × Error) Pass :=
  match f.readHeader bytes with
  | .error e => .error (f.failure, e)
  | .ok (g, rest) =>
    .ok ⟨g.failure, (g.readBody rest).1, (g.readBody rest).2.1, (g.readBody rest).2.2⟩

@[ext] theorem eq_of_fields {f g : Frames} (hheader : f.header = g.header) (hbody : f.body = g.body)
    (hlength : f.length = g.length) (hfailed : f.failed = g.failed) : f = g := by
  cases f
  cases g
  cases hheader
  cases hbody
  cases hlength
  cases hfailed
  rfl

theorem readHeader_some {f : Frames} {length : ℕ} (h : f.length = some length) (bytes : Str) :
    f.readHeader bytes = .ok (f, bytes) := by
  unfold readHeader
  split
  · rfl
  · rename_i hnone
    cases h.symm.trans hnone

theorem readHeader_short {f g : Frames} (hlength : f.length = none) (b : UInt8)
    (hshort : f.header.length + 1 < 4) (hheader : g.header = f.header ++ [b])
    (hbody : g.body = f.body) (hnone : g.length = none) (hfailed : g.failed = f.failed)
    (bytes : Str) : f.readHeader (b :: bytes) = g.readHeader bytes := by
  have hcount : min (4 - f.header.length) (b :: bytes).length =
      min (4 - g.header.length) bytes.length + 1 := by
    rw [hheader, List.length_append, List.length_cons, List.length_singleton]
    omega
  have hread : f.header ++ (b :: bytes).take (min (4 - f.header.length) (b :: bytes).length) =
      g.header ++ bytes.take (min (4 - g.header.length) bytes.length) := by
    rw [hcount, List.take_succ_cons, hheader, List.append_assoc, List.singleton_append]
  have hrest : (b :: bytes).drop (min (4 - f.header.length) (b :: bytes).length) =
      bytes.drop (min (4 - g.header.length) bytes.length) := by
    rw [hcount, List.drop_succ_cons]
  unfold readHeader
  split
  · rename_i hsome
    cases hlength.symm.trans hsome
  · split
    · rename_i hsome
      cases hnone.symm.trans hsome
    · simp only [hread, hrest, hbody, hfailed, hlength, hnone]

theorem readHeader_last {f : Frames} (hlength : f.length = none) (b : UInt8)
    (hlast : f.header.length = 3) :
    (∀ bytes, f.readHeader (b :: bytes) = .error .Limit) ∨
      ∃ g length, g.length = some length ∧ ∀ bytes, f.readHeader (b :: bytes) = .ok (g, bytes) := by
  have hcount (bytes : Str) : min (4 - f.header.length) (b :: bytes).length = 1 := by
    rw [List.length_cons]
    omega
  have hfull : ¬ (f.header ++ [b]).length < 4 := by simp [hlast]
  by_cases hlimit : beNat (f.header ++ [b]) = 0 ∨ beNat (f.header ++ [b]) > maxObject
  · refine .inl fun bytes => ?_
    unfold readHeader
    split
    · rename_i hsome
      cases hlength.symm.trans hsome
    · simp only [hcount, List.take_succ_cons, List.take_zero, hfull, hlimit, dite_true, dite_false]
  · have hbody := f.body_lt
    rw [hlength] at hbody
    refine .inr ⟨⟨[], f.body, some (beNat (f.header ++ [b])), f.failed, by decide,
      Nat.lt_of_lt_of_le hbody (Nat.pos_of_ne_zero (not_or.mp hlimit).1),
      Nat.not_lt.mp (not_or.mp hlimit).2⟩, _, rfl, fun bytes => ?_⟩
    unfold readHeader
    split
    · rename_i hsome
      cases hlength.symm.trans hsome
    · simp only [hcount, List.take_succ_cons, List.take_zero, List.drop_succ_cons, List.drop_zero,
        hfull, hlimit, dite_false]

theorem readBody_short {f g : Frames} {length : ℕ} (hlength : f.length = some length) (b : UInt8)
    (hshort : f.body.length + 1 < length) (hbody : g.body = f.body ++ [b])
    (hheader : g.header = f.header) (hsame : g.length = some length) (hfailed : g.failed = f.failed)
    (bytes : Str) : f.readBody (b :: bytes) = g.readBody bytes := by
  have hcount : min (length - f.body.length) (b :: bytes).length =
      min (length - g.body.length) bytes.length + 1 := by
    rw [hbody, List.length_append, List.length_cons, List.length_singleton]
    omega
  have hread : f.body ++ (b :: bytes).take (min (length - f.body.length) (b :: bytes).length) =
      g.body ++ bytes.take (min (length - g.body.length) bytes.length) := by
    rw [hcount, List.take_succ_cons, hbody, List.append_assoc, List.singleton_append]
  have hrest : (b :: bytes).drop (min (length - f.body.length) (b :: bytes).length) =
      bytes.drop (min (length - g.body.length) bytes.length) := by
    rw [hcount, List.drop_succ_cons]
  unfold readBody
  split
  · rename_i hnone
    cases hlength.symm.trans hnone
  · split
    · rename_i hnone
      cases hsame.symm.trans hnone
    · rename_i l hl l' hl'
      obtain rfl : length = l := Option.some.inj (hlength.symm.trans hl)
      obtain rfl : length = l' := Option.some.inj (hsame.symm.trans hl')
      simp only [hread, hrest, hheader, hfailed, hlength, hsame]

theorem readBody_last {f : Frames} {length : ℕ} (hlength : f.length = some length) (b : UInt8)
    (hlast : f.body.length + 1 = length) :
    ∃ g, ∀ bytes, f.readBody (b :: bytes) = (g, some (f.body ++ [b]), bytes) := by
  refine ⟨⟨f.header, [], none, f.failed, f.header_lt, by decide, by decide⟩, fun bytes => ?_⟩
  have hcount : min (length - f.body.length) (b :: bytes).length = 1 := by
    rw [List.length_cons]
    omega
  have hfull : (f.body ++ [b]).length = length := by rw [List.length_append, ← hlast]; rfl
  unfold readBody
  split
  · rename_i hnone
    cases hlength.symm.trans hnone
  · rename_i l hl
    obtain rfl : length = l := Option.some.inj (hlength.symm.trans hl)
    simp only [hcount, List.take_succ_cons, List.take_zero, List.drop_succ_cons, List.drop_zero,
      hfull, dite_true]

theorem readHeader_nil (f : Frames) : f.readHeader [] = .ok (f, []) := by
  unfold readHeader
  split
  · rfl
  · rename_i hnone
    simp only [List.length_nil, Nat.min_zero, List.take_zero, List.drop_zero, List.append_nil,
      f.header_lt, dite_true]

theorem readBody_nil (f : Frames) : f.readBody [] = (f, none, []) := by
  unfold readBody
  split
  · rfl
  · rename_i length hlength
    have hlt := f.body_lt
    rw [hlength, Option.getD_some] at hlt
    simp only [List.length_nil, Nat.min_zero, List.take_zero, List.drop_zero, List.append_nil,
      hlt.ne, dite_false]

theorem readHeader_rest {f g : Frames} {bytes rest : Str}
    (h : f.readHeader bytes = .ok (g, rest)) : rest.length ≤ bytes.length := by
  unfold readHeader at h
  split at h
  · cases h
    exact le_rfl
  · dsimp only at h
    split at h
    · cases h
      simp
    · split at h
      · cases h
      · cases h
        simp

theorem readBody_rest (f : Frames) (bytes : Str) :
    (f.readBody bytes).2.2.length ≤ bytes.length := by
  unfold readBody
  split
  · exact le_rfl
  · dsimp only
    split
    · simp
    · simp

theorem pass_nil (f : Frames) : f.pass [] = .ok ⟨f.failure, f, none, []⟩ := by
  unfold pass
  rw [readHeader_nil]
  simp only [readBody_nil]

theorem pass_rest {f : Frames} {bytes : Str} {p : Pass} (h : f.pass bytes = .ok p) :
    p.rest.length ≤ bytes.length := by
  unfold pass at h
  split at h
  · cases h
  · rename_i g rest hheader
    cases h
    exact (readBody_rest g rest).trans (readHeader_rest hheader)

theorem pass_of_length {f : Frames} {length : ℕ} (h : f.length = some length) (bytes : Str) :
    f.pass bytes = .ok ⟨f.failure, (f.readBody bytes).1, (f.readBody bytes).2.1,
      (f.readBody bytes).2.2⟩ := by
  unfold pass
  rw [readHeader_some h]

theorem pass_cons (f : Frames) (b : UInt8) :
    (∃ e, ∀ bytes, f.pass (b :: bytes) = .error e) ∨
      (∃ g next body, ∀ bytes, f.pass (b :: bytes) = .ok ⟨g, next, some body, bytes⟩) ∨
      ∃ g : Frames, ∀ bytes, f.pass (b :: bytes) = g.pass bytes := by
  cases hlength : f.length with
  | none =>
    by_cases hshort : f.header.length + 1 < 4
    · have hheader : (f.header ++ [b]).length < 4 := by rwa [List.length_append]
      let g : Frames := ⟨f.header ++ [b], f.body, none, f.failed, hheader, hlength ▸ f.body_lt,
        by decide⟩
      have hfailure : f.failure = g.failure := eq_of_fields rfl rfl hlength rfl
      refine .inr (.inr ⟨g, fun bytes => ?_⟩)
      unfold pass
      rw [readHeader_short (g := g) hlength b hshort rfl rfl rfl rfl, hfailure]
    · have hlt := f.header_lt
      rcases readHeader_last hlength b (by omega) with herror | ⟨g, length, hg, hread⟩
      · refine .inl ⟨(f.failure, .Limit), fun bytes => ?_⟩
        unfold pass
        rw [herror]
      · refine .inr (.inr ⟨g, fun bytes => ?_⟩)
        rw [pass_of_length hg]
        unfold pass
        rw [hread]
  | some length =>
    have hlt := f.body_lt
    have hle := f.length_le
    rw [hlength, Option.getD_some] at hlt hle
    by_cases hshort : f.body.length + 1 < length
    · have hbody : (f.body ++ [b]).length < length := by rwa [List.length_append]
      let g : Frames := ⟨f.header, f.body ++ [b], some length, f.failed, f.header_lt, hbody, hle⟩
      have hfailure : f.failure = g.failure := eq_of_fields rfl rfl hlength rfl
      refine .inr (.inr ⟨g, fun bytes => ?_⟩)
      rw [pass_of_length hlength, pass_of_length (f := g) rfl,
        readBody_short (g := g) hlength b hshort rfl rfl rfl rfl, hfailure]
    · obtain ⟨next, hread⟩ := readBody_last hlength b (by omega)
      refine .inr (.inl ⟨f.failure, next, f.body ++ [b], fun bytes => ?_⟩)
      rw [pass_of_length hlength, hread]

theorem pass_rest_lt {f : Frames} {bytes : Str} {p : Pass} (hbytes : bytes ≠ [])
    (h : f.pass bytes = .ok p) : p.rest.length < bytes.length := by
  cases bytes with
  | nil => exact absurd rfl hbytes
  | cons b bytes =>
    rw [List.length_cons, Nat.lt_succ_iff]
    rcases f.pass_cons b with ⟨e, herror⟩ | ⟨g, next, body, hlast⟩ | ⟨g, hshort⟩
    · cases (herror bytes).symm.trans h
    · cases (hlast bytes).symm.trans h
      exact le_rfl
    · exact pass_rest ((hshort bytes).symm.trans h)

section
variable {σ : Type} (consume : σ → Str → σ × Except Error Unit)

/-- What `feed` leaves of the reader and of its caller, and its result. -/
structure Fed (σ : Type) where
  frames : Frames
  sink : σ
  result : Except Error Unit

/-- The closure of `feed`, and the flag that an error of it sets. -/
def run (f : Frames) (sink : σ) (bytes : Str) : Fed σ :=
  if _hbytes : bytes = [] then ⟨f, sink, .ok ()⟩
  else
    match _hpass : f.pass bytes with
    | .error (failure, e) => ⟨failure, sink, .error e⟩
    | .ok p =>
      match p.complete with
      | none => run p.next sink p.rest
      | some body =>
        match consume sink body with
        | (sink, .error e) => ⟨p.refused, sink, .error e⟩
        | (sink, .ok ()) => run p.next sink p.rest
termination_by bytes.length
decreasing_by
  · exact pass_rest_lt _hbytes _hpass
  · exact pass_rest_lt _hbytes _hpass

def feed (f : Frames) (sink : σ) (bytes : Str) : Fed σ :=
  if f.failed then ⟨f, sink, .error .Malformed⟩ else f.run consume sink bytes

def push (f : Frames) (sink : σ) : List Str → Frames × σ × Option Error
  | [] => (f, sink, none)
  | piece :: pieces =>
    match f.feed consume sink piece with
    | ⟨f, sink, .ok ()⟩ => push f sink pieces
    | ⟨f, sink, .error e⟩ => ((push f sink pieces).1, (push f sink pieces).2.1, some e)

def recording (s : σ × List Str) (body : Str) : (σ × List Str) × Except Error Unit :=
  (((consume s.1 body).1, s.2 ++ [body]), (consume s.1 body).2)

end

def finish (f : Frames) : Except Error Unit :=
  if f.failed ∨ f.length.isSome ∨ f.header ≠ [] then .error .Truncated else .ok ()

section
variable {σ : Type} {consume : σ → Str → σ × Except Error Unit}
variable (f : Frames)

theorem run_nil (sink : σ) : f.run consume sink [] = ⟨f, sink, .ok ()⟩ := by
  rw [run, dif_pos rfl]

theorem run_eq (sink : σ) (bytes : Str) : f.run consume sink bytes =
    match f.pass bytes with
    | .error (failure, e) => ⟨failure, sink, .error e⟩
    | .ok p =>
      match p.complete with
      | none => p.next.run consume sink p.rest
      | some body =>
        match consume sink body with
        | (sink, .error e) => ⟨p.refused, sink, .error e⟩
        | (sink, .ok ()) => p.next.run consume sink p.rest := by
  by_cases hbytes : bytes = []
  · subst hbytes
    rw [pass_nil]
  · rw [run, dif_neg hbytes]
    split
    · rename_i h
      rw [h]
    · rename_i h
      rw [h]

def Fed.more (consume : σ → Str → σ × Except Error Unit) (fed : Fed σ) (bytes : Str) : Fed σ :=
  match fed.result with
  | .ok () => fed.frames.run consume fed.sink bytes
  | .error _ => fed

theorem run_append (sink : σ) (x y : Str) :
    f.run consume sink (x ++ y) = (f.run consume sink x).more consume y := by
  induction x generalizing f sink with
  | nil =>
    rw [run_nil]
    rfl
  | cons b x ih =>
    rw [List.cons_append, f.run_eq sink (b :: (x ++ y)), f.run_eq sink (b :: x)]
    rcases f.pass_cons b with ⟨e, herror⟩ | ⟨g, next, body, hlast⟩ | ⟨g, hshort⟩
    · rw [herror, herror]
      rfl
    · rw [hlast, hlast]
      dsimp only
      rcases consume sink body with ⟨sink', _ | _⟩
      · rfl
      · exact ih next sink'
    · rw [hshort, hshort, ← g.run_eq sink (x ++ y), ← g.run_eq sink x]
      exact ih g sink

theorem readHeader_failed {f g : Frames} {bytes rest : Str}
    (h : f.readHeader bytes = .ok (g, rest)) : g.failed = f.failed := by
  unfold readHeader at h
  split at h
  · cases h
    rfl
  · dsimp only at h
    split at h
    · cases h
      rfl
    · split at h
      · cases h
      · cases h
        rfl

theorem readBody_failed (bytes : Str) : (f.readBody bytes).1.failed = f.failed := by
  unfold readBody
  split
  · rfl
  · dsimp only
    split
    · rfl
    · rfl

theorem readBody_complete (bytes body : Str)
    (h : (f.readBody bytes).2.1 = some body) : 0 < body.length ∧ body.length ≤ maxObject := by
  have hlt := f.body_lt
  have hle := f.length_le
  unfold readBody at h
  split at h
  · cases h
  · rename_i length hlength
    rw [hlength, Option.getD_some] at hlt hle
    dsimp only at h
    split at h
    · rename_i hbody
      obtain rfl := Option.some.inj h
      omega
    · cases h

theorem pass_error {f failure : Frames} {bytes : Str} {e : Error}
    (h : f.pass bytes = .error (failure, e)) : failure.failed = true := by
  unfold pass at h
  split at h
  · cases h
    rfl
  · cases h

theorem pass_ok {f : Frames} {bytes : Str} {p : Pass} (h : f.pass bytes = .ok p) :
    p.refused.failed = true ∧ p.next.failed = f.failed ∧
      ∀ body, p.complete = some body → 0 < body.length ∧ body.length ≤ maxObject := by
  unfold pass at h
  split at h
  · cases h
  · rename_i g rest hheader
    cases h
    exact ⟨rfl, (readBody_failed g rest).trans (readHeader_failed hheader),
      readBody_complete g rest⟩

theorem run_result (hfailed : f.failed = false) (sink : σ) (bytes : Str)
    (P : σ → Prop) (hP : ∀ s body, 0 < body.length → body.length ≤ maxObject → P s →
      P (consume s body).1) (hsink : P sink) :
    P (f.run consume sink bytes).sink ∧
      ((f.run consume sink bytes).frames.failed = false ↔
        (f.run consume sink bytes).result = .ok ()) := by
  induction hn : bytes.length using Nat.strong_induction_on generalizing f sink bytes with
  | _ n ih =>
    by_cases hbytes : bytes = []
    · rw [hbytes, run_nil]
      exact ⟨hsink, by simp [hfailed]⟩
    · rw [run_eq]
      cases hpass : f.pass bytes with
      | error failure =>
        obtain ⟨failure, e⟩ := failure
        exact ⟨hsink, by simp [pass_error hpass]⟩
      | ok p =>
        obtain ⟨hrefused, hnext, hbody⟩ := pass_ok hpass
        have hlt := hn ▸ pass_rest_lt hbytes hpass
        dsimp only
        cases hcomplete : p.complete with
        | none => exact ih _ hlt p.next (hnext.trans hfailed) sink p.rest hsink rfl
        | some body =>
          obtain ⟨hpos, hle⟩ := hbody body hcomplete
          have hsink' := hP sink body hpos hle hsink
          dsimp only
          rcases hc : consume sink body with ⟨sink', e | u⟩
          · rw [hc] at hsink'
            exact ⟨hsink', by simp [hrefused]⟩
          · rw [hc] at hsink'
            exact ih _ hlt p.next (hnext.trans hfailed) sink' p.rest hsink' rfl

theorem push_failed (hfailed : f.failed = true) (sink : σ) (pieces : List Str) :
    (push consume f sink pieces).1 = f ∧ (push consume f sink pieces).2.1 = sink := by
  induction pieces with
  | nil => exact ⟨rfl, rfl⟩
  | cons piece pieces ih =>
    have hfeed : f.feed consume sink piece = ⟨f, sink, .error .Malformed⟩ := if_pos hfailed
    simp only [push, hfeed]
    exact ih

theorem push_eq (hfailed : f.failed = false) (sink : σ) (pieces : List Str) :
    push consume f sink pieces =
      ((f.run consume sink pieces.flatten).frames, (f.run consume sink pieces.flatten).sink,
        match (f.run consume sink pieces.flatten).result with
        | .ok () => none
        | .error e => some e) := by
  induction pieces generalizing f sink with
  | nil =>
    rw [List.flatten_nil, run_nil]
    rfl
  | cons piece pieces ih =>
    have hfeed : f.feed consume sink piece = f.run consume sink piece :=
      if_neg (by simp [hfailed])
    have hflag := (@run_result σ consume f hfailed sink piece (fun _ => True)
      (fun _ _ _ _ _ => trivial) trivial).2
    rw [List.flatten_cons, run_append, push, hfeed]
    rcases hrun : f.run consume sink piece with ⟨g, sink', e | u⟩
    · rw [hrun] at hflag
      obtain ⟨hg, hs⟩ := @push_failed σ consume g (by simpa using hflag) sink' pieces
      simp only [Fed.more, hg, hs]
    · rw [hrun] at hflag
      exact ih g (hflag.mpr rfl) sink'

/-- How a stream is cut does not matter: neither for the bodies, nor for the first error, nor for
the end. The buffer holds one object at most. -/
theorem frames_chunking (consume : σ → Str → σ × Except Error Unit) (sink : σ)
    (pieces : List Str) :
    push (recording consume) new (sink, []) pieces =
      push (recording consume) new (sink, []) [pieces.flatten] ∧
    (push (recording consume) new (sink, []) pieces).1.finish =
      (push (recording consume) new (sink, []) [pieces.flatten]).1.finish ∧
    (push (recording consume) new (sink, []) pieces).1.body.length ≤ maxObject ∧
    ∀ body ∈ (push (recording consume) new (sink, []) pieces).2.1.2,
      0 < body.length ∧ body.length ≤ maxObject := by
  have hwhole : push (recording consume) new (sink, []) pieces =
      push (recording consume) new (sink, []) [pieces.flatten] := by
    rw [push_eq new rfl, push_eq new rfl, List.flatten_singleton]
  refine ⟨hwhole, by rw [hwhole], ?_, ?_⟩
  · have hlt := (push (recording consume) new (sink, []) pieces).1.body_lt
    have hle := (push (recording consume) new (sink, []) pieces).1.length_le
    omega
  · rw [push_eq new rfl]
    refine (@run_result _ (recording consume) new rfl (sink, []) pieces.flatten
      (fun s => ∀ body ∈ s.2, 0 < body.length ∧ body.length ≤ maxObject) ?_ ?_).1
    · intro s body hpos hle hs b hb
      rcases List.mem_append.mp hb with hb | hb
      · exact hs b hb
      · rw [List.mem_singleton.mp hb]
        exact ⟨hpos, hle⟩
    · intro body hbody
      cases hbody

end

end Frames
end Rieul.Screen.Transport
