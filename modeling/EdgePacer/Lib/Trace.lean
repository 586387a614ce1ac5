import Mathlib.Data.List.Basic

/-!
# Runs of a deterministic step function

A system whose environment is made explicit is a step function `step : σ → ε → σ`: the input of a
step carries everything the environment decides. A run is a list of inputs. `Always step P s es`
says that `P` holds in every state the run passes through, the first one included, and
`Each step C s es` that every step meets the condition `C` in the state it starts from.

An invariant that every step meeting `C` keeps holds along every run whose steps meet `C`
(`always_of_each`). If the invariant turns `P` after a step into `C` before it, the two ways of
looking at a run agree (`always_iff_each`).
-/

namespace EdgePacer.Lib

universe u v

variable {σ : Type u} {ε : Type v}

/-- `P` holds in every state of the run `es` from `s`. -/
def Always (step : σ → ε → σ) (P : σ → Prop) : σ → List ε → Prop
  | s, [] => P s
  | s, e :: es => P s ∧ Always step P (step s e) es

/-- Every step of the run `es` from `s` meets `C` in the state it starts from. -/
def Each (step : σ → ε → σ) (C : σ → ε → Prop) : σ → List ε → Prop
  | _, [] => True
  | s, e :: es => C s e ∧ Each step C (step s e) es

instance Always.decidable (step : σ → ε → σ) (P : σ → Prop) [DecidablePred P] :
    ∀ s es, Decidable (Always step P s es)
  | s, [] => inferInstanceAs (Decidable (P s))
  | s, e :: es =>
      have := Always.decidable step P (step s e) es
      inferInstanceAs (Decidable (P s ∧ Always step P (step s e) es))

instance Each.decidable (step : σ → ε → σ) (C : σ → ε → Prop) [∀ s e, Decidable (C s e)] :
    ∀ s es, Decidable (Each step C s es)
  | _, [] => inferInstanceAs (Decidable True)
  | s, e :: es =>
      have := Each.decidable step C (step s e) es
      inferInstanceAs (Decidable (C s e ∧ Each step C (step s e) es))

section

variable {step : σ → ε → σ} {P I : σ → Prop} {C D : σ → ε → Prop}

variable {s : σ} {es : List ε} {E : σ → ε → Prop}

theorem Always.head (h : Always step P s es) : P s := by
  cases es with
  | nil => exact h
  | cons e es => exact h.1

theorem Always.last (h : Always step P s es) : P (es.foldl step s) := by
  induction es generalizing s with
  | nil => exact h
  | cons e es ih => exact ih h.2

theorem Always.mono {Q : σ → Prop} (hPQ : ∀ s, P s → Q s) (h : Always step P s es) :
    Always step Q s es := by
  induction es generalizing s with
  | nil => exact hPQ s h
  | cons e es ih => exact ⟨hPQ s h.1, ih h.2⟩

theorem Each.mono (hCD : ∀ s e, C s e → D s e) (h : Each step C s es) : Each step D s es := by
  induction es generalizing s with
  | nil => trivial
  | cons e es ih => exact ⟨hCD s e h.1, ih h.2⟩

/-- **Invariant rule.** An invariant kept by every step that meets `C` holds along every run whose
steps meet `C`. -/
theorem always_of_each (hstep : ∀ s e, I s → C s e → I (step s e)) (hs : I s)
    (hes : Each step C s es) : Always step I s es := by
  induction es generalizing s with
  | nil => exact hs
  | cons e es ih => exact ⟨hs, ih (hstep s e hs hes.1) hes.2⟩

theorem always_of_step (hstep : ∀ s e, I s → I (step s e)) (hs : I s) (es : List ε) :
    Always step I s es := by
  induction es generalizing s with
  | nil => exact hs
  | cons e es ih => exact ⟨hs, ih (hstep s e hs)⟩

/-- **Exact conditions.** In a run whose steps meet `E`: if, under the invariant, `P` holds after a
step exactly when the step meets `C`, then `P` holds throughout the run exactly when all its steps
meet `C`. -/
theorem always_iff_each_of_each (hP : ∀ s, I s → P s)
    (hstep : ∀ s e, I s → E s e → C s e → I (step s e))
    (hexact : ∀ s e, I s → E s e → P (step s e) → C s e) (hs : I s) (hes : Each step E s es) :
    Always step P s es ↔ Each step C s es := by
  induction es generalizing s with
  | nil => exact ⟨fun _ => trivial, fun _ => hP s hs⟩
  | cons e es ih =>
    constructor
    · intro h
      have hC : C s e := hexact s e hs hes.1 h.2.head
      exact ⟨hC, (ih (hstep s e hs hes.1 hC) hes.2).1 h.2⟩
    · intro h
      exact ⟨hP s hs, (ih (hstep s e hs hes.1 h.1) hes.2).2 h.2⟩

theorem each_true (s : σ) (es : List ε) : Each step (fun _ _ => True) s es := by
  induction es generalizing s with
  | nil => trivial
  | cons e es ih => exact ⟨trivial, ih _⟩

/-- Exact conditions without an assumption on the steps. -/
theorem always_iff_each (hP : ∀ s, I s → P s) (hstep : ∀ s e, I s → C s e → I (step s e))
    (hexact : ∀ s e, I s → P (step s e) → C s e) (hs : I s) (es : List ε) :
    Always step P s es ↔ Each step C s es :=
  always_iff_each_of_each hP (fun s e hI _ => hstep s e hI) (fun s e hI _ => hexact s e hI) hs
    (each_true s es)

/-- In a run whose steps meet `E`, two step conditions that agree under an invariant agree along the
run. -/
theorem each_iff_each (hstep : ∀ s e, I s → E s e → I (step s e))
    (hCD : ∀ s e, I s → E s e → (C s e ↔ D s e)) (hs : I s) (hes : Each step E s es) :
    Each step C s es ↔ Each step D s es := by
  induction es generalizing s with
  | nil => exact Iff.rfl
  | cons e es ih => exact and_congr (hCD s e hs hes.1) (ih (hstep s e hs hes.1) hes.2)

theorem each_append {es' : List ε} (h : Each step C s es) (h' : Each step C (es.foldl step s) es') :
    Each step C s (es ++ es') := by
  induction es generalizing s with
  | nil => exact h'
  | cons e es ih => exact ⟨h.1, ih h.2 h'⟩

theorem each_append_iff {es' : List ε} :
    Each step C s (es ++ es') ↔ Each step C s es ∧ Each step C (es.foldl step s) es' := by
  refine ⟨fun h => ?_, fun h => each_append h.1 h.2⟩
  induction es generalizing s with
  | nil => exact ⟨trivial, h⟩
  | cons e es ih => exact ⟨⟨h.1, (ih h.2).1⟩, (ih h.2).2⟩

theorem each_of_mem (h : ∀ e ∈ es, ∀ s, C s e) (s : σ) : Each step C s es := by
  induction es generalizing s with
  | nil => trivial
  | cons e es ih =>
    exact ⟨h e List.mem_cons_self s, ih (fun e' he' => h e' (List.mem_cons_of_mem _ he')) _⟩

theorem each_ite_nil {c : Prop} [Decidable c] (h : c → Each step C s es) :
    Each step C s (if c then es else []) := by
  split
  · next hc => exact h hc
  · trivial

theorem Each.and (h : Each step C s es) (h' : Each step D s es) :
    Each step (fun s e => C s e ∧ D s e) s es := by
  induction es generalizing s with
  | nil => trivial
  | cons e es ih => exact ⟨⟨h.1, h'.1⟩, ih h.2 h'.2⟩

end

end EdgePacer.Lib
