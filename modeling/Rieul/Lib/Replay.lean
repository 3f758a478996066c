import Mathlib.Data.List.Induction
import Rieul.Lib.Fallible

/-!
# Replaying a journal

A journal is replayed by a fallible step from a first state.
-/

namespace Replay
open Fallible
variable {ε σ α : Type}

def replay (step : σ → α → Except ε σ) (s : σ) : List α → Except ε σ
  | [] => .ok s
  | a :: as => do
    let t ← step s a
    replay step t as

section
variable (step : σ → α → Except ε σ)
include step

@[simp] theorem replay_nil (s : σ) : replay step s [] = .ok s := rfl

theorem replay_append (s : σ) (as bs : List α) :
    replay step s (as ++ bs) = (do let t ← replay step s as; replay step t bs) := by
  induction as generalizing s with
  | nil => rfl
  | cons a as ih =>
    simp only [List.cons_append, replay]
    cases step s a with
    | error e => rfl
    | ok t => exact ih t

theorem replay_append_eq_ok (s u : σ) (as bs : List α) :
    replay step s (as ++ bs) = .ok u ↔
      ∃ t, replay step s as = .ok t ∧ replay step t bs = .ok u := by
  rw [replay_append, bind_eq_ok]

theorem replay_snoc_eq_ok (s u : σ) (as : List α) (a : α) :
    replay step s (as ++ [a]) = .ok u ↔ ∃ t, replay step s as = .ok t ∧ step t a = .ok u := by
  rw [replay_append_eq_ok]
  simp [replay]

theorem replay_ne_error (e : ε) (h : ∀ s a, step s a ≠ .error e)
    (s : σ) (as : List α) : replay step s as ≠ .error e := by
  induction as generalizing s with
  | nil => exact fun he => nomatch he
  | cons a as ih => exact bind_ne_error _ _ e (h s a) fun t _ => ih t

theorem replay_prefix (s u : σ) (as bs : List α) (hp : as <+: bs)
    (h : replay step s bs = .ok u) : ∃ t, replay step s as = .ok t := by
  obtain ⟨cs, rfl⟩ := hp
  obtain ⟨t, ht, -⟩ := (replay_append_eq_ok step s u as cs).mp h
  exact ⟨t, ht⟩

theorem replay_induction (s : σ) (P : List α → σ → Prop) (h0 : P [] s)
    (hstep : ∀ (as : List α) (t u : σ) (a : α), replay step s as = .ok t → P as t →
      step t a = .ok u → P (as ++ [a]) u)
    (as : List α) (t : σ) (h : replay step s as = .ok t) : P as t := by
  induction as using List.reverseRecOn generalizing t with
  | nil =>
    cases h
    exact h0
  | append_singleton as a ih =>
    obtain ⟨u, hu, ha⟩ := (replay_snoc_eq_ok step s t as a).mp h
    exact hstep as u t a hu (ih u hu) ha

theorem replay_invariant (P : σ → Prop)
    (hstep : ∀ (t u : σ) (a : α), P t → step t a = .ok u → P u)
    (as : List α) (s t : σ) (h0 : P s) (h : replay step s as = .ok t) : P t :=
  replay_induction step s (fun _ => P) h0 (fun _ t u a _ ht ha => hstep t u a ht ha) as t h

theorem replay_keeps (P : σ → Prop) (as : List α)
    (hstep : ∀ a ∈ as, ∀ t u : σ, P t → step t a = .ok u → P u)
    (s t : σ) (h0 : P s) (h : replay step s as = .ok t) : P t := by
  induction as generalizing s with
  | nil =>
    cases h
    exact h0
  | cons a as ih =>
    obtain ⟨u, hu, hrest⟩ := (bind_eq_ok _ _ _).mp h
    exact ih (fun b hb => hstep b (List.mem_cons_of_mem a hb)) u
      (hstep a List.mem_cons_self s u h0 hu) hrest

theorem replay_at (s u : σ) (as bs : List α) (a : α)
    (h : replay step s (as ++ a :: bs) = .ok u) :
    ∃ t v, replay step s as = .ok t ∧ step t a = .ok v ∧ replay step v bs = .ok u := by
  obtain ⟨t, ht, hr⟩ := (replay_append_eq_ok step s u as (a :: bs)).mp h
  simp only [replay, bind_eq_ok] at hr
  obtain ⟨v, hv, hb⟩ := hr
  exact ⟨t, v, ht, hv, hb⟩

end

section
variable {δ τ β : Type} (step : σ → α → Except ε σ) (step' : τ → β → Except δ τ)
  (R : σ → τ → Prop) (Q : α → β → Prop)

theorem replay_simulates
    (hstep : ∀ s t s' a b, R s t → Q a b → step s a = .ok s' → ∃ t', step' t b = .ok t' ∧ R s' t')
    (as : List α) (bs : List β) (s s' : σ) (t : τ) (hq : List.Forall₂ Q as bs) (hr : R s t)
    (h : replay step s as = .ok s') : ∃ t', replay step' t bs = .ok t' ∧ R s' t' := by
  induction hq generalizing s t with
  | nil =>
    cases h
    exact ⟨t, rfl, hr⟩
  | cons hab _ ih =>
    simp only [replay, bind_eq_ok] at h
    obtain ⟨u, hu, h⟩ := h
    obtain ⟨v, hv, huv⟩ := hstep s t u _ _ hr hab hu
    obtain ⟨t', ht', hr'⟩ := ih u v huv h
    exact ⟨t', by rw [replay, hv, ok_bind, ht'], hr'⟩

theorem replay_reflects (P : β → Prop)
    (hstep : ∀ s t t' b, R s t → P b → step' t b = .ok t' →
      ∃ a s', Q a b ∧ step s a = .ok s' ∧ R s' t')
    (bs : List β) (s : σ) (t t' : τ) (hp : ∀ b ∈ bs, P b) (hr : R s t)
    (h : replay step' t bs = .ok t') :
    ∃ as s', List.Forall₂ Q as bs ∧ replay step s as = .ok s' ∧ R s' t' := by
  induction bs generalizing s t with
  | nil =>
    cases h
    exact ⟨[], s, .nil, rfl, hr⟩
  | cons b bs ih =>
    simp only [replay, bind_eq_ok] at h
    obtain ⟨v, hv, h⟩ := h
    obtain ⟨a, u, hab, hu, huv⟩ := hstep s t v b hr (hp b List.mem_cons_self) hv
    obtain ⟨as, s', hq, hs', hr'⟩ := ih u v (fun c hc => hp c (List.mem_cons_of_mem b hc)) huv h
    exact ⟨a :: as, s', .cons hab hq, by rw [replay, hu, ok_bind, hs'], hr'⟩

end

end Replay
