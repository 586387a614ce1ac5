import Mathlib.Data.List.Basic

/-!
# Texts joined by a separator

`joined sep parts` puts a separator between the parts. A part without the separator can be cut off
at either end (`cut_first`, `cut_last`), and when no part has it the parts can all be read back
(`joined_inj`). A separator may also be a whole label: `fields_inj` reads labelled fields back.
-/

namespace EdgePacer.Lib

open List

universe u

variable {α : Type u} {sep : α}

def joined (sep : α) (parts : List (List α)) : List α := intercalate [sep] parts

@[simp] theorem joined_singleton (x : List α) : joined sep [x] = x := intercalate_singleton

@[simp] theorem joined_cons_cons (x y : List α) (zs : List (List α)) :
    joined sep (x :: y :: zs) = x ++ sep :: joined sep (y :: zs) := by
  rfl

/-- The first part ends at the first separator. -/
theorem cut_first : ∀ {x x' r r' : List α}, sep ∉ x → sep ∉ x' →
    x ++ sep :: r = x' ++ sep :: r' → x = x' ∧ r = r'
  | [], [], _, _, _, _, h => ⟨rfl, (cons.inj h).2⟩
  | [], a :: x', _, _, _, hx', h =>
      absurd (cons.inj h).1 fun he => hx' (he ▸ mem_cons_self)
  | a :: x, [], _, _, hx, _, h =>
      absurd (cons.inj h).1 fun he => hx (he ▸ mem_cons_self)
  | a :: x, a' :: x', _, _, hx, hx', h => by
    obtain ⟨rfl, htail⟩ := cons.inj h
    obtain ⟨rfl, hr⟩ := cut_first (fun hm => hx (mem_cons_of_mem _ hm))
      (fun hm => hx' (mem_cons_of_mem _ hm)) htail
    exact ⟨rfl, hr⟩

theorem cut_last {x x' r r' : List α} (hx : sep ∉ x) (hx' : sep ∉ x')
    (h : r ++ sep :: x = r' ++ sep :: x') : r = r' ∧ x = x' := by
  have hrev : x.reverse ++ sep :: r.reverse = x'.reverse ++ sep :: r'.reverse := by
    simpa using congrArg reverse h
  obtain ⟨hxs, hrs⟩ := cut_first (by simpa using hx) (by simpa using hx') hrev
  exact ⟨reverse_injective hrs, reverse_injective hxs⟩

/-- A separator of several symbols whose first one does not come again: where two texts cut at it
differ, it stands inside the longer rest. -/
theorem infix_of_append_eq {rest x x' r r' : List α} (hrest : sep ∉ rest)
    (h : x ++ (sep :: rest) ++ r = x' ++ (sep :: rest) ++ r') (hlt : r.length < r'.length) :
    (sep :: rest) <:+: r' := by
  obtain ⟨mid, -, rfl⟩ | ⟨mid, hcut, rfl⟩ := append_eq_append_iff.1 h
  · rw [length_append] at hlt
    omega
  -- `mid` is what the longer rest has in front of the shorter one; the separator ends it
  · obtain ⟨t, hx', hsep⟩ | ⟨t, -, rfl⟩ := append_eq_append_iff.1 hcut
    · cases t with
      | nil => exact ⟨[], r, by rw [hsep]; rfl⟩
      | cons c t =>
        -- otherwise the two separators overlap, and the second starts inside the first
        rw [cons_append] at hsep
        obtain ⟨rfl, rfl⟩ := cons.inj hsep
        rw [mem_append, not_or] at hrest
        have hsame := cut_last (by simpa using hrest) hrest.1 hx'
        have hnil : mid = [] := append_cancel_left (hsame.2.trans (append_nil t).symm)
        rw [hnil] at hlt
        exact absurd hlt (Nat.lt_irrefl _)
    · exact ⟨t, r, rfl⟩

/-- Two fields and a last one of fixed length between fixed texts, the second behind such a
separator: the text determines them unless the second field has the separator. -/
theorem fields_inj {a d e rest v v' p p' x x' : List α} (hrest : sep ∉ rest)
    (hp : ¬ (sep :: rest) <:+: p) (hp' : ¬ (sep :: rest) <:+: p') (hlen : x.length = x'.length)
    (h : a ++ v ++ (sep :: rest) ++ p ++ d ++ x ++ e =
      a ++ v' ++ (sep :: rest) ++ p' ++ d ++ x' ++ e) : v = v' ∧ p = p' ∧ x = x' := by
  -- the last field from the end, then the text in front of it without the first label
  obtain ⟨hfront, hx⟩ := append_inj' (append_cancel_right h) hlen
  have hcut : v ++ (sep :: rest) ++ p = v' ++ (sep :: rest) ++ p' := by
    have hlabel := append_cancel_right hfront
    simp only [append_assoc] at hlabel ⊢
    exact append_cancel_left hlabel
  have hsame : p.length = p'.length := by
    rcases Nat.lt_trichotomy p.length p'.length with hlt | heq | hgt
    · exact absurd (infix_of_append_eq hrest hcut hlt) hp'
    · exact heq
    · exact absurd (infix_of_append_eq hrest hcut.symm hgt) hp
  obtain ⟨hv, hpp⟩ := append_inj' hcut hsame
  exact ⟨append_cancel_right hv, hpp, hx⟩

theorem mem_joined_cons_cons (x y : List α) (zs : List (List α)) :
    sep ∈ joined sep (x :: y :: zs) := by
  exact mem_append_right _ mem_cons_self

/-- Parts without the separator can be read back from the joined text. -/
theorem joined_inj : ∀ {xs ys : List (List α)}, (∀ x ∈ xs, sep ∉ x) → (∀ y ∈ ys, sep ∉ y) →
    xs ≠ [] → ys ≠ [] → joined sep xs = joined sep ys → xs = ys
  | [x], [y], _, _, _, _, h => by rw [joined_singleton, joined_singleton] at h; rw [h]
  | [x], y :: y' :: ys, hx, _, _, _, h => by
    rw [joined_singleton] at h
    exact absurd (h ▸ mem_joined_cons_cons y y' ys) (hx x mem_cons_self)
  | x :: x' :: xs, [y], _, hy, _, _, h => by
    rw [joined_singleton] at h
    exact absurd (h.symm ▸ mem_joined_cons_cons x x' xs) (hy y mem_cons_self)
  | x :: x' :: xs, y :: y' :: ys, hx, hy, _, _, h => by
    obtain ⟨rfl, hrest⟩ := cut_first (hx x mem_cons_self) (hy y mem_cons_self) h
    rw [joined_inj ((forall_mem_cons.1 hx).2)
      ((forall_mem_cons.1 hy).2) (cons_ne_nil _ _)
      (cons_ne_nil _ _) hrest]

end EdgePacer.Lib
