import Mathlib.Logic.Basic

/-!
# Programs over shared memory, one call at a time

`Prog Op Res α` is a program that makes one atomic call on shared memory after the other and goes on
with the answers. Between two calls other parties may change the memory.

* `Calls P p`: every call `p` can make, whatever the answers, satisfies `P`. It is what a writer
  guarantees to the others.
* `Ensures rely answers Q p s`: `p` last looked at the memory in state `s`; whatever the others do
  within `rely` before each of its calls, its result satisfies `Q` in the state of its last call. It
  is what a reader obtains from the others.

Both go through `bind`, so a program is verified in the order in which it is written.
-/

namespace EdgePacer.Lib

/-- A program: it returns, or makes a call and goes on with the answer. -/
inductive Prog (Op Res α : Type) where
  | ret (a : α)
  | call (op : Op) (next : Res → Prog Op Res α)

namespace Prog

variable {Op Res α β σ : Type}

/-- One call. -/
def ask (op : Op) : Prog Op Res Res := .call op .ret

def bind : Prog Op Res α → (α → Prog Op Res β) → Prog Op Res β
  | .ret a, f => f a
  | .call op next, f => .call op fun r => (next r).bind f

/-- `p && q`: `q` runs only when `p` returned `true`. -/
def andAlso (p q : Prog Op Res Bool) : Prog Op Res Bool :=
  p.bind fun b => if b then q else .ret false

/-! ## What a program may call -/

def Calls (P : Op → Prop) : Prog Op Res α → Prop
  | .ret _ => True
  | .call op next => P op ∧ ∀ r, (next r).Calls P

theorem Calls.bind {P : Op → Prop} {p : Prog Op Res α} {f : α → Prog Op Res β} (hp : p.Calls P)
    (hf : ∀ a, (f a).Calls P) : (p.bind f).Calls P := by
  induction p with
  | ret a => exact hf a
  | call op next ih => exact ⟨hp.1, fun r => ih r (hp.2 r)⟩

/-! ## What a program obtains -/

/-- `rely s s'`: the others may take the memory from `s` to `s'`. `answers s op r`: in state `s` the
call `op` may be answered by `r`. -/
def Ensures (rely : σ → σ → Prop) (answers : σ → Op → Res → Prop) (Q : α → σ → Prop) :
    Prog Op Res α → σ → Prop
  | .ret a, s => Q a s
  | .call op next, s => ∀ s' r, rely s s' → answers s' op r → (next r).Ensures rely answers Q s'

section

variable {rely : σ → σ → Prop} {answers : σ → Op → Res → Prop}

/-- **Sequencing.** -/
theorem Ensures.bind {Q : α → σ → Prop} {Q' : β → σ → Prop} {p : Prog Op Res α}
    {f : α → Prog Op Res β} {s : σ} (hp : p.Ensures rely answers Q s)
    (hf : ∀ a s', Q a s' → (f a).Ensures rely answers Q' s') :
    (p.bind f).Ensures rely answers Q' s := by
  induction p generalizing s with
  | ret a => exact hf a s hp
  | call op next ih => exact fun s' r hrely hr => ih r (hp s' r hrely hr)

/-- A fact that the others cannot destroy survives any program that only reads. -/
theorem Ensures.of_stable {F : σ → Prop} (hF : ∀ s s', rely s s' → F s → F s') {s : σ} (hs : F s)
    (p : Prog Op Res α) : p.Ensures rely answers (fun _ s' => F s') s := by
  induction p generalizing s with
  | ret a => exact hs
  | call op next ih => exact fun s' r hrely _ => ih r (hF s s' hrely hs)

/-- The short-circuit conjunction: `q` starts from what `p` has found. -/
theorem Ensures.andAlso {Q Q' : σ → Prop} {p q : Prog Op Res Bool} {s : σ}
    (hp : p.Ensures rely answers (fun b s' => b = true → Q s') s)
    (hq : ∀ s', Q s' → q.Ensures rely answers (fun b s'' => b = true → Q' s'') s') :
    (p.andAlso q).Ensures rely answers (fun b s' => b = true → Q' s') s := by
  refine hp.bind fun b s' hb => ?_
  cases b with
  | true => exact hq s' (hb rfl)
  | false => exact nofun

end

end Prog

end EdgePacer.Lib
