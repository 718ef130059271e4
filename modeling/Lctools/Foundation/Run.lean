import Mathlib.Data.List.Basic

/-! # Runs of a machine

A machine answers calls and changes its state; a call may also end in a fault,
after which nothing more happens.
-/

namespace Lctools

variable {σ κ ρ ε : Type} (step : σ → κ → Except ε (ρ × σ))

/-- The answers to a list of calls and the state after them. -/
def run : σ → List κ → Except ε (List ρ × σ)
  | state, [] => .ok ([], state)
  | state, call :: calls =>
      match step state call with
      | .error fault => .error fault
      | .ok (reply, next) =>
          match run next calls with
          | .error fault => .error fault
          | .ok (replies, last) => .ok (reply :: replies, last)

namespace Run

variable {step} {state next last : σ} {call : κ} {calls first second : List κ} {reply : ρ}
  {replies : List ρ}

theorem run_cons_ok (next : σ) (stepped : step state call = .ok (reply, next))
    (ran : run step next calls = .ok (replies, last)) :
    run step state (call :: calls) = .ok (reply :: replies, last) := by
  rw [run, stepped]
  simp only [ran]

theorem run_cons_error {fault : ε} (stepped : step state call = .error fault) :
    run step state (call :: calls) = .error fault := by
  rw [run, stepped]

theorem run_cons_eq_error_iff {fault : ε} (stepped : step state call = .ok (reply, next)) :
    run step state (call :: calls) = .error fault ↔ run step next calls = .error fault := by
  rw [run, stepped]
  simp only
  rcases run step next calls with other | ⟨replies, last⟩
  · simp
  · simp

theorem run_cons_inversion (ran : run step state (call :: calls) = .ok (replies, last)) :
    ∃ reply next rest, step state call = .ok (reply, next) ∧
      run step next calls = .ok (rest, last) ∧ replies = reply :: rest := by
  rw [run] at ran
  rcases stepped : step state call with fault | ⟨reply, next⟩
  · simp [stepped] at ran
  · rw [stepped] at ran
    rcases rest : run step next calls with fault | ⟨more, final⟩
    · simp [rest] at ran
    · simp only [rest, Except.ok.injEq, Prod.mk.injEq] at ran
      exact ⟨reply, next, more, rfl, by rw [rest, ran.2], ran.1.symm⟩

theorem run_append_ok {others : List ρ} (next : σ)
    (ran : run step state first = .ok (replies, next))
    (ranOthers : run step next second = .ok (others, last)) :
    run step state (first ++ second) = .ok (replies ++ others, last) := by
  induction first generalizing state replies with
  | nil =>
      cases ran
      exact ranOthers
  | cons call first induction =>
      rcases run_cons_inversion ran with ⟨reply, following, rest, stepped, ranRest, rfl⟩
      exact run_cons_ok following stepped (induction ranRest)

theorem run_invariant {holds : σ → Prop} {allowed : κ → Prop}
    (keeps : ∀ state call reply next, holds state → allowed call →
      step state call = .ok (reply, next) → holds next) :
    ∀ (calls : List κ) (state : σ) (replies : List ρ) (last : σ), holds state →
      (∀ call ∈ calls, allowed call) → run step state calls = .ok (replies, last) →
      holds last
  | [], state, replies, last, holding, _, ran => by
      cases ran
      exact holding
  | call :: calls, state, replies, last, holding, allowed', ran => by
      rcases run_cons_inversion ran with ⟨reply, next, rest, stepped, ranRest, _⟩
      exact run_invariant keeps calls next rest last
        (keeps state call reply next holding (allowed' call (List.mem_cons_self ..)) stepped)
        (fun other member => allowed' other (List.mem_cons_of_mem _ member)) ranRest

/-- Every call of a run is allowed in the state in which it is made. -/
def Along (step : σ → κ → Except ε (ρ × σ)) (allowed : σ → κ → Prop) : σ → List κ → Prop
  | _, [] => True
  | state, call :: calls =>
      allowed state call ∧
        ∀ reply next, step state call = .ok (reply, next) → Along step allowed next calls

theorem along_cons_ok {allowed : σ → κ → Prop} (stepped : step state call = .ok (reply, next)) :
    Along step allowed state (call :: calls) ↔
      allowed state call ∧ Along step allowed next calls := by
  rw [Along, stepped]
  constructor
  · rintro ⟨first, rest⟩
    exact ⟨first, rest reply next rfl⟩
  · rintro ⟨first, rest⟩
    refine ⟨first, ?_⟩
    intro reply next same
    cases same
    exact rest

theorem along_cons_error {allowed : σ → κ → Prop} {fault : ε}
    (failed : step state call = .error fault) :
    Along step allowed state (call :: calls) ↔ allowed state call := by
  rw [Along, failed]
  constructor
  · exact And.left
  · intro first
    exact ⟨first, nofun⟩

theorem along_invariant {holds : σ → Prop} {allowed : σ → κ → Prop}
    (keeps : ∀ state call reply next, holds state → allowed state call →
      step state call = .ok (reply, next) → holds next) :
    ∀ (calls : List κ) (state : σ) (replies : List ρ) (last : σ), holds state →
      Along step allowed state calls → run step state calls = .ok (replies, last) → holds last
  | [], state, replies, last, holding, _, ran => by
      cases ran
      exact holding
  | call :: calls, state, replies, last, holding, along, ran => by
      rcases run_cons_inversion ran with ⟨reply, next, rest, stepped, ranRest, _⟩
      exact along_invariant keeps calls next rest last
        (keeps state call reply next holding along.1 stepped) (along.2 reply next stepped) ranRest

theorem along_congr {holds : σ → Prop} {first second : σ → κ → Prop}
    (keeps : ∀ state call reply next, holds state → step state call = .ok (reply, next) →
      holds next)
    (agree : ∀ state call, holds state → (first state call ↔ second state call)) :
    ∀ (calls : List κ) (state : σ), holds state →
      (Along step first state calls ↔ Along step second state calls)
  | [], _, _ => Iff.rfl
  | call :: calls, state, holding => by
      rcases stepped : step state call with fault | ⟨reply, next⟩
      · rw [along_cons_error stepped, along_cons_error stepped]
        exact agree state call holding
      · rw [along_cons_ok stepped, along_cons_ok stepped, agree state call holding,
          along_congr keeps agree calls next (keeps state call reply next holding stepped)]

theorem along_of_mem {allowed : κ → Prop} :
    ∀ (calls : List κ) (state : σ), (∀ call ∈ calls, allowed call) →
      Along step (fun _ call => allowed call) state calls
  | [], _, _ => trivial
  | call :: calls, _, all =>
      ⟨all call List.mem_cons_self, fun _ next _ => along_of_mem calls next fun later member =>
        all later (List.mem_cons_of_mem _ member)⟩

theorem along_of_forall {allowed : σ → κ → Prop} (always : ∀ state call, allowed state call) :
    ∀ (calls : List κ) (state : σ), Along step allowed state calls
  | [], _ => trivial
  | call :: calls, state =>
      ⟨always state call, fun _ next _ => along_of_forall always calls next⟩

/-- A property of the state and of the calls so far that lets every allowed call succeed, and
holds again after it, holds after every run of allowed calls, and the run succeeds. -/
theorem run_history {holds : σ → List κ → Prop} {allowed : σ → κ → Prop}
    (succeeds : ∀ state past call, holds state past → allowed state call →
      ∃ reply next, step state call = .ok (reply, next) ∧ holds next (past ++ [call])) :
    ∀ (calls : List κ) (state : σ) (past : List κ), holds state past →
      Along step allowed state calls →
      ∃ replies last, run step state calls = .ok (replies, last) ∧ holds last (past ++ calls)
  | [], state, past, holding, _ => ⟨[], state, rfl, by rwa [List.append_nil]⟩
  | call :: calls, state, past, holding, along => by
      rcases succeeds state past call holding along.1 with ⟨reply, next, stepped, held⟩
      rcases run_history succeeds calls next (past ++ [call]) held (along.2 reply next stepped) with
        ⟨replies, last, ran, final⟩
      rw [List.append_assoc] at final
      exact ⟨reply :: replies, last, run_cons_ok next stepped ran, final⟩

/-- What goes in by the calls comes out in the answers or is still there, in its order, if
this is so for every call. -/
theorem run_conserves {α : Type} {content : σ → List α} {input : κ → List α}
    {output : ρ → List α}
    (conserves : ∀ state call reply next, step state call = .ok (reply, next) →
      content state ++ input call = output reply ++ content next) :
    ∀ (calls : List κ) (state : σ) (replies : List ρ) (last : σ),
      run step state calls = .ok (replies, last) →
      content state ++ calls.flatMap input = replies.flatMap output ++ content last
  | [], state, replies, last, ran => by
      cases ran
      simp
  | call :: calls, state, replies, last, ran => by
      rcases run_cons_inversion ran with ⟨reply, next, rest, stepped, ranRest, rfl⟩
      rw [List.flatMap_cons, ← List.append_assoc, conserves state call reply next stepped,
        List.append_assoc, run_conserves conserves calls next rest last ranRest,
        List.flatMap_cons, List.append_assoc]

theorem run_cons_replies (stepped : step state call = .ok (reply, next)) :
    (run step state (call :: calls)).map Prod.fst =
      ((run step next calls).map Prod.fst).map (reply :: ·) := by
  rw [run, stepped]
  simp only
  rcases run step next calls with fault | ⟨replies, last⟩
  · rfl
  · rfl

/-- Related states that answer every call alike, and stay related, answer every list
of calls alike. -/
theorem run_related {related : σ → σ → Prop}
    (agree : ∀ left right call, related left right →
      (∃ fault, step left call = .error fault ∧ step right call = .error fault) ∨
      ∃ reply leftNext rightNext, step left call = .ok (reply, leftNext) ∧
        step right call = .ok (reply, rightNext) ∧ related leftNext rightNext)
    (calls : List κ) : ∀ left right, related left right →
      (run step left calls).map Prod.fst = (run step right calls).map Prod.fst := by
  induction calls with
  | nil =>
      intro left right _
      rfl
  | cons call calls induction =>
      intro left right holds
      rcases agree left right call holds with ⟨fault, leftFails, rightFails⟩ |
        ⟨reply, leftNext, rightNext, leftSteps, rightSteps, stays⟩
      · rw [run_cons_error leftFails, run_cons_error rightFails]
      · rw [run_cons_replies leftSteps, run_cons_replies rightSteps,
          induction leftNext rightNext stays]

end Run

end Lctools
