import Mathlib.Data.List.Basic

/-!
# Scripts that talk to a host

A `Script` is a program that sends requests to a host, one after another, and goes on
according to the answers; it ends with a value or with an error. `Script.run` plays it
against a host that answers from everything it has been sent.

`Script.Meets P Q` says of a script that every request it can send satisfies `P`, and every
value it can end with satisfies `Q`, whatever the host answers. The rules `Meets.pure`,
`Meets.fail`, `Meets.send` and `Meets.bind` follow the syntax, and `Meets.requests` and
`Meets.result` say what a proof of `Meets` is worth for a run.
-/

namespace Framework

/-- A conversation with a host. -/
inductive Script (Req Rep Err : Type) (α : Type) where
  | pure (a : α)
  | fail (e : Err)
  | send (r : Req) (k : Rep → Script Req Rep Err α)

namespace Script

variable {Req Rep Err α β : Type}

def bind (p : Script Req Rep Err α) (f : α → Script Req Rep Err β) : Script Req Rep Err β :=
  match p with
  | .pure a => f a
  | .fail e => .fail e
  | .send r k => .send r fun rep => (k rep).bind f

instance : Monad (Script Req Rep Err) where
  pure := .pure
  bind := .bind

/-- Go on if a condition holds, else fail. -/
def require (c : Prop) [Decidable c] (e : Err) : Script Req Rep Err Unit :=
  if c then .pure () else .fail e

/-- Play a script against a host: everything sent, after what had been sent before, and the
end of the script. -/
def run (host : List Req → Rep) (sent : List Req) :
    Script Req Rep Err α → List Req × Except Err α
  | .pure a => (sent, .ok a)
  | .fail e => (sent, .error e)
  | .send r k => (k (host (sent ++ [r]))).run host (sent ++ [r])

/-- Every request meets `P` and every result meets `Q`. -/
def Meets (P : Req → Prop) (Q : α → Prop) : Script Req Rep Err α → Prop
  | .pure a => Q a
  | .fail _ => True
  | .send r k => P r ∧ ∀ rep, (k rep).Meets P Q

variable {P : Req → Prop} {Q : α → Prop} {R : β → Prop} {p : Script Req Rep Err α}

theorem Meets.pure {a : α} (h : Q a) :
    Meets P Q (Pure.pure a : Script Req Rep Err α) := h

theorem Meets.fail {e : Err} : Meets P Q (.fail e : Script Req Rep Err α) := trivial

theorem Meets.send {r : Req} {k : Rep → Script Req Rep Err α} (h : P r)
    (hk : ∀ rep, (k rep).Meets P Q) : Meets P Q (.send r k) := ⟨h, hk⟩

/-- **Composition.** What the first script ends with is what the second may assume. -/
theorem Meets.bind {f : α → Script Req Rep Err β} (hp : p.Meets P Q)
    (hf : ∀ a, Q a → (f a).Meets P R) : Meets P R (p >>= f) := by
  induction p with
  | pure a => exact hf a hp
  | fail e => trivial
  | send r k ih => exact ⟨hp.1, fun rep => ih rep (hp.2 rep)⟩

/-- A check that fails the script unless `c` holds. -/
theorem Meets.require {c : Prop} [Decidable c] {e : Err} :
    Meets P (fun _ => c) (Script.require c e : Script Req Rep Err Unit) := by
  unfold Script.require
  split
  · next h => exact h
  · trivial

theorem Meets.ite {c : Prop} [Decidable c] {p q : Script Req Rep Err α}
    (hp : c → p.Meets P Q) (hq : ¬c → q.Meets P Q) : Meets P Q (if c then p else q) := by
  split
  · next h => exact hp h
  · next h => exact hq h

/-- A weaker condition on the results. -/
theorem Meets.mono {Q' : α → Prop} (h : p.Meets P Q) (h_imp : ∀ a, Q a → Q' a) :
    p.Meets P Q' := by
  induction p with
  | pure a => exact h_imp a h
  | fail e => trivial
  | send r k ih => exact ⟨h.1, fun rep => ih rep (h.2 rep)⟩

/-- A run only adds to what has been sent. -/
theorem run_extends (p : Script Req Rep Err α) (host : List Req → Rep) (sent : List Req) :
    sent <+: (p.run host sent).1 := by
  induction p generalizing sent with
  | pure a => exact List.prefix_rfl
  | fail e => exact List.prefix_rfl
  | send r k ih => exact (List.prefix_append sent [r]).trans (ih _ _)

/-- The first request is sent. -/
theorem mem_run_send (r : Req) (k : Rep → Script Req Rep Err α) (host : List Req → Rep) :
    r ∈ ((Script.send r k).run host []).1 :=
  (run_extends (k (host [r])) host [r]).subset List.mem_cons_self

/-- A check that holds is passed over. -/
theorem require_bind {c : Prop} [Decidable c] (h : c) {e : Err} {f : Unit → Script Req Rep Err α} :
    (Script.require c e >>= f) = f () := by
  rw [Script.require, if_pos h]
  rfl

/-- What is sent in a run. -/
theorem Meets.requests (h : p.Meets P Q) (host : List Req → Rep) (sent : List Req) :
    ∀ r ∈ (p.run host sent).1, r ∈ sent ∨ P r := by
  induction p generalizing sent with
  | pure a => exact fun r h_mem => .inl h_mem
  | fail e => exact fun r h_mem => .inl h_mem
  | send r k ih =>
    intro r' h_mem
    obtain h_sent | h_P := ih _ (h.2 _) _ r' h_mem
    · rcases List.mem_append.mp h_sent with h_old | h_new
      · exact .inl h_old
      · obtain rfl := List.mem_singleton.mp h_new
        exact .inr h.1
    · exact .inr h_P

/-- What a run ends with. -/
theorem Meets.result (h : p.Meets P Q) (host : List Req → Rep) (sent : List Req) {a : α}
    (h_end : (p.run host sent).2 = .ok a) : Q a := by
  induction p generalizing sent with
  | pure b =>
    obtain rfl := Except.ok.inj h_end
    exact h
  | fail e => exact absurd h_end (by simp [run])
  | send r k ih => exact ih _ (h.2 _) _ h_end

-- a goal about a script is taken apart by the rules, and not by playing the script
attribute [irreducible] Meets

end Script
end Framework
