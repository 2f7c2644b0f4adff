/-!
# Machines that answer

A machine gives an answer to each input and goes over to its next state.  The
last answer to a list of inputs is the answer that the state after the others
gives.  Two machines whose states stay related, and which answer alike in
related states, give the same answers to every list of inputs.
-/

namespace TemplateLexer

namespace Machine

variable {State Other Input Output : Type} {step : State → Input → Output × State}
  {state : State} {inputs : List Input}

def answers (step : State → Input → Output × State) : State → List Input → List Output
  | _, [] => []
  | state, input :: inputs =>
      (step state input).1 :: answers step (step state input).2 inputs

def after (step : State → Input → Output × State) (state : State) (inputs : List Input) : State :=
  inputs.foldl (fun state input => (step state input).2) state

theorem eq_answers {run : State → List Input → List Output} (hnil : ∀ state, run state [] = [])
    (hcons : ∀ state input inputs,
      run state (input :: inputs) = (step state input).1 :: run (step state input).2 inputs)
    (state : State) (inputs : List Input) : run state inputs = answers step state inputs := by
  induction inputs generalizing state with
  | nil => exact hnil state
  | cons input inputs ih => rw [hcons, answers, ih]

theorem after_append (front back : List Input) :
    after step state (front ++ back) = after step (after step state front) back :=
  List.foldl_append

theorem after_concat (inputs : List Input) (last : Input) :
    after step state (inputs ++ [last]) = (step (after step state inputs) last).2 :=
  after_append inputs [last]

theorem getLast?_answers_concat (inputs : List Input) (last : Input) :
    (answers step state (inputs ++ [last])).getLast? =
      some (step (after step state inputs) last).1 := by
  induction inputs generalizing state with
  | nil => rfl
  | cons input inputs ih =>
      rw [List.cons_append, answers, List.getLast?_cons, ih]
      rfl

theorem after_preserves (P : State → Prop)
    (hstep : ∀ input ∈ inputs, ∀ state, P state → P (step state input).2) (h : P state) :
    P (after step state inputs) := by
  induction inputs generalizing state with
  | nil => exact h
  | cons input inputs ih =>
      obtain ⟨hinput, hinputs⟩ := List.forall_mem_cons.mp hstep
      exact ih hinputs (hinput state h)

theorem answers_eq_of_related {other : Other → Input → Output × Other} {partner : Other}
    (R : State → Other → Prop)
    (hstep : ∀ state partner input, R state partner →
      (step state input).1 = (other partner input).1 ∧
        R (step state input).2 (other partner input).2)
    (h : R state partner) (inputs : List Input) :
    answers step state inputs = answers other partner inputs := by
  induction inputs generalizing state partner with
  | nil => rfl
  | cons input inputs ih =>
      obtain ⟨hanswer, hrelated⟩ := hstep state partner input h
      rw [answers, answers, hanswer, ih hrelated]

end Machine

end TemplateLexer
