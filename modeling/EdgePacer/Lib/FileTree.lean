import EdgePacer.Lib.Paths
import Mathlib.Data.List.Infix

/-!
# File trees

What stands at each path. Nothing stands below a path where nothing stands, and a tree carries the
proof of that. `rename` moves a directory with everything in it: what a path holds afterwards is
what its `origin` held before. `put` writes a file into a directory that is there.
-/

namespace EdgePacer.Lib

open List

universe u

variable {ν : Type u}

/-- Nothing is below a place that is empty. -/
structure FileTree (ν : Type u) where
  at? : Location → Option ν
  closed : ∀ {p q : Location}, p <+: q → at? p = none → at? q = none

theorem prefix_dropLast {p q : Location} (h : p <+: q) (hne : p ≠ q) : p <+: q.dropLast := by
  obtain ⟨rest, rfl⟩ := h
  rw [dropLast_append_of_ne_nil fun hrest => hne (by rw [hrest, append_nil])]
  exact prefix_append _ _

/-- Where what a path holds after the move came from: from below `a` if it is below `b`, from
nowhere if it is below `a`. -/
def origin (a b p : Location) : Option Location :=
  if b <+: p then some (a ++ p.drop b.length) else if a <+: p then none else some p

theorem origin_append (a b r : Location) : origin a b (b ++ r) = some (a ++ r) := by
  rw [origin, if_pos (prefix_append b r), drop_left]

theorem origin_self (a b : Location) : origin a b b = some a := by
  simpa using origin_append a b []

theorem origin_of_beside {a b p : Location} (ha : ¬ a <+: p) (hb : ¬ b <+: p) :
    origin a b p = some p := by
  rw [origin, if_neg hb, if_neg ha]

namespace FileTree

/-- A directory is not moved below itself, and the directory it is moved into is there. -/
def CanRename (t : FileTree ν) (a b : Location) : Prop :=
  ¬ a <+: b ∧ b ≠ [] ∧ (t.at? b.dropLast).isSome = true

instance (t : FileTree ν) (a b : Location) : Decidable (t.CanRename a b) :=
  inferInstanceAs (Decidable (_ ∧ _ ∧ _))

variable {t : FileTree ν} {a b : Location}

theorem closed_rename (h : t.CanRename a b) {p q : Location} (hpq : p <+: q)
    (hp : (origin a b p).bind t.at? = none) : (origin a b q).bind t.at? = none := by
  by_cases hbq : b <+: q
  · obtain ⟨r, rfl⟩ := hbq
    rw [origin_append]
    rcases prefix_or_prefix_of_prefix hpq (prefix_append b r) with hpb | hbp
    · by_cases hne : p = b
      · subst hne
        rw [origin_self] at hp
        exact t.closed (prefix_append a r) hp
      · -- above the new place nothing has changed
        have hap : ¬ a <+: p := fun hap => h.1 (hap.trans hpb)
        have hbp : ¬ b <+: p := fun hbp => hne (hpb.eq_of_length_le hbp.length_le)
        rw [origin_of_beside hap hbp] at hp
        have hparent := h.2.2
        rw [t.closed (prefix_dropLast hpb hne) hp] at hparent
        cases hparent
    · obtain ⟨r', rfl⟩ := hbp
      rw [origin_append] at hp
      exact t.closed ((prefix_append_right_inj a).2 ((prefix_append_right_inj b).1 hpq)) hp
  · have hbp : ¬ b <+: p := fun hbp => hbq (hbp.trans hpq)
    by_cases haq : a <+: q
    · rw [origin, if_neg hbq, if_pos haq]
      rfl
    · have hap : ¬ a <+: p := fun hap => haq (hap.trans hpq)
      rw [origin_of_beside hap hbp] at hp
      rw [origin_of_beside haq hbq]
      exact t.closed hpq hp

/-- The tree after the move; without a place to move to nothing happens. -/
def rename (t : FileTree ν) (a b : Location) : FileTree ν :=
  if h : t.CanRename a b then
    ⟨fun p => (origin a b p).bind t.at?, fun hpq hp => closed_rename h hpq hp⟩
  else t

theorem at?_rename (h : t.CanRename a b) (p : Location) :
    (t.rename a b).at? p = (origin a b p).bind t.at? := by
  rw [rename, dif_pos h]

theorem at?_rename_append (h : t.CanRename a b) (r : Location) :
    (t.rename a b).at? (b ++ r) = t.at? (a ++ r) := by
  rw [at?_rename h, origin_append]
  rfl

/-- Write a file. -/
def put (t : FileTree ν) (p : Location) (node : ν) : FileTree ν :=
  if h : (t.at? p.dropLast).isSome = true then
    ⟨fun q => if q = p then some node else t.at? q, by
      intro q q' hqq' hq
      by_cases hqp : q = p
      · rw [if_pos hqp] at hq
        exact nomatch hq
      rw [if_neg hqp] at hq
      by_cases hq'p : q' = p
      · subst hq'p
        rw [t.closed (prefix_dropLast hqq' hqp) hq] at h
        cases h
      · rw [if_neg hq'p]
        exact t.closed hqq' hq⟩
  else t

theorem at?_put {p : Location} (h : (t.at? p.dropLast).isSome = true) (node : ν) (q : Location) :
    (t.put p node).at? q = if q = p then some node else t.at? q := by
  rw [put, dif_pos h]

/-- The tree with the given entries, which must have the directories above each. -/
def ofEntries (entries : List (Location × ν))
    (h : ∀ e ∈ entries, ∀ p ∈ e.1.inits, p ∈ entries.map Prod.fst) : FileTree ν where
  at? p := entries.lookup p
  closed {p q} hpq hp := by
    rw [lookup_eq_none_iff] at hp ⊢
    intro e he
    by_contra hq
    have heq : q = e.1 := by simpa using hq
    subst heq
    obtain ⟨e', he', heq'⟩ := mem_map.1 (h e he p (mem_inits _ _ |>.2 hpq))
    have hne := hp e' he'
    rw [heq'] at hne
    simp at hne

end FileTree

end EdgePacer.Lib
