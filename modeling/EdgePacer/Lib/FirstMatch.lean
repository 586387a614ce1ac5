import Mathlib.Tactic.Common
import Mathlib.Data.List.Pairwise

/-!
# Assignment by the first matching rule

An ordered list of rules is matched against a list of items. Each item goes to the first rule that
matches it (`assign`), and the pairs are listed rule by rule. `unseen` keeps the first element of
every key. Both are lists in an order that the rules and the items determine (`pairwise_assign`),
so that what `unseen` drops can be told without running it (`mem_unseen_iff`).
-/

namespace EdgePacer.Lib

open List

universe u v w

/-! ## The first element of each key -/

section

variable {α : Type u} {κ : Type v} [DecidableEq κ] (key : α → κ)

/-- The elements whose key was not seen before. -/
def unseen : List κ → List α → List α
  | _, [] => []
  | seen, a :: as =>
      if key a ∈ seen then unseen seen as else a :: unseen (key a :: seen) as

variable {key}

theorem unseen_sublist : ∀ (as : List α) (seen : List κ), (unseen key seen as).Sublist as
  | [], _ => List.Sublist.refl _
  | a :: as, seen => by
    rw [unseen]
    split
    · exact (unseen_sublist as seen).cons a
    · exact (unseen_sublist as _).cons_cons a

variable {a : α}

theorem mem_of_mem_unseen {as : List α} {seen : List κ} (h : a ∈ unseen key seen as) : a ∈ as :=
  (unseen_sublist as seen).subset h

theorem key_not_mem_of_mem_unseen : ∀ {as : List α} {seen : List κ},
    a ∈ unseen key seen as → key a ∉ seen
  | b :: bs, seen, h => by
    rw [unseen] at h
    split at h
    · exact key_not_mem_of_mem_unseen h
    · rename_i hb
      rcases mem_cons.1 h with rfl | h
      · exact hb
      · exact fun ha => key_not_mem_of_mem_unseen h (mem_cons_of_mem _ ha)

theorem nodup_map_unseen : ∀ (as : List α) (seen : List κ), ((unseen key seen as).map key).Nodup
  | [], _ => nodup_nil
  | a :: as, seen => by
    rw [unseen]
    split
    · exact nodup_map_unseen as seen
    · rw [map_cons, nodup_cons]
      refine ⟨fun ha => ?_, nodup_map_unseen as _⟩
      obtain ⟨b, hb, hkey⟩ := mem_map.1 ha
      exact key_not_mem_of_mem_unseen hb (hkey ▸ mem_cons_self)

/-- Every key that was not seen before has an element. -/
theorem exists_mem_unseen : ∀ {as : List α} {seen : List κ},
    a ∈ as → key a ∉ seen → ∃ b ∈ unseen key seen as, key b = key a
  | b :: bs, seen, ha, hseen => by
    rw [unseen]
    rcases mem_cons.1 ha with rfl | ha
    · rw [if_neg hseen]
      exact ⟨a, mem_cons_self, rfl⟩
    · split
      · exact exists_mem_unseen ha hseen
      · by_cases hkey : key a = key b
        · exact ⟨b, mem_cons_self, hkey.symm⟩
        · obtain ⟨c, hc, hc'⟩ :=
            exists_mem_unseen ha (show key a ∉ key b :: seen from by simp [hkey, hseen])
          exact ⟨c, mem_cons_of_mem _ hc, hc'⟩

/-- In a list that is ordered by an asymmetric relation, the elements that are kept are those
below which no element has their key. -/
theorem mem_unseen_iff {R : α → α → Prop} (hasymm : ∀ a b, R a b → ¬ R b a) :
    ∀ {as : List α} {seen : List κ}, as.Pairwise R →
      (a ∈ unseen key seen as ↔ a ∈ as ∧ key a ∉ seen ∧ ∀ b ∈ as, R b a → key b ≠ key a)
  | [], seen, _ => by simp [unseen]
  | b :: bs, seen, hR => by
    obtain ⟨hb, hbs⟩ := pairwise_cons.1 hR
    by_cases hmem : a ∈ bs
    · -- `b` stands before `a`, so its key counts as seen
      have hba : R b a := hb a hmem
      have hne : a ≠ b := fun h => hasymm b a hba (h ▸ hba)
      have hkept : a ∈ unseen key seen (b :: bs) ↔ a ∈ unseen key (key b :: seen) bs := by
        rw [unseen]
        split
        · rename_i hseen
          rw [mem_unseen_iff hasymm hbs, mem_unseen_iff hasymm hbs, mem_cons, not_or]
          refine and_congr_right fun _ => and_congr_left fun _ => ⟨fun h => ⟨?_, h⟩, And.right⟩
          exact fun hkey => h (hkey ▸ hseen)
        · rw [mem_cons, or_iff_right hne]
      rw [hkept, mem_unseen_iff hasymm hbs, mem_cons, not_or]
      constructor
      · rintro ⟨-, ⟨hkey, hseen⟩, hbelow⟩
        refine ⟨mem_cons_of_mem b hmem, hseen, fun c hc hca => ?_⟩
        rcases mem_cons.1 hc with rfl | hc
        · exact Ne.symm hkey
        · exact hbelow c hc hca
      · rintro ⟨-, hseen, hbelow⟩
        exact ⟨hmem, ⟨Ne.symm (hbelow b mem_cons_self hba), hseen⟩,
          fun c hc => hbelow c (mem_cons_of_mem b hc)⟩
    · constructor
      · intro h
        have ha := mem_of_mem_unseen h
        rcases mem_cons.1 ha with rfl | ha'
        · refine ⟨ha, key_not_mem_of_mem_unseen h, fun c hc hca => ?_⟩
          rcases mem_cons.1 hc with rfl | hc
          · exact absurd hca (hasymm c c hca)
          · exact absurd hca (hasymm a c (hb c hc))
        · exact absurd ha' hmem
      · rintro ⟨ha, hseen, -⟩
        rcases mem_cons.1 ha with rfl | ha
        · rw [unseen, if_neg hseen]
          exact mem_cons_self
        · exact absurd ha hmem

end

/-! ## Rules and items -/

section

variable {δ : Type u} {γ : Type v} (p : δ → γ → Bool)

/-- The items of each rule, rule by rule. -/
def assign : List δ → List γ → List (δ × γ)
  | [], _ => []
  | d :: ds, cs => (cs.filter (p d)).map (fun c => (d, c)) ++ assign ds (cs.filter fun c => !p d c)

/-- The position of the first rule that matches. -/
def rank (ds : List δ) (c : γ) : Nat := ds.findIdx fun d => p d c

variable {p}

variable {d : δ} {ds : List δ} {c : γ}

theorem rank_cons_of_match (h : p d c = true) : rank p (d :: ds) c = 0 := by
  simp [rank, findIdx_cons, h]

theorem rank_cons_of_not_match (h : p d c = false) : rank p (d :: ds) c = rank p ds c + 1 := by
  simp [rank, findIdx_cons, h]

/-- Every item goes to the first rule that matches it. -/
theorem mem_assign : ∀ {ds : List δ} {cs : List γ},
    (d, c) ∈ assign p ds cs ↔ c ∈ cs ∧ ds.find? (fun d => p d c) = some d
  | [], cs => by simp [assign]
  | d' :: ds, cs => by
    rw [assign, mem_append, mem_assign]
    cases hp : p d' c with
    | true =>
      have hfind : (d' :: ds).find? (fun d => p d c) = some d' := by simp [hp]
      rw [hfind]
      constructor
      · rintro (h | ⟨h, -⟩)
        · obtain ⟨c', hc', heq⟩ := mem_map.1 h
          cases heq
          exact ⟨(mem_filter.1 hc').1, rfl⟩
        · simp [hp] at h
      · rintro ⟨hc, heq⟩
        exact .inl (mem_map.2 ⟨c, mem_filter.2 ⟨hc, hp⟩, by rw [Option.some.inj heq]⟩)
    | false => simp [hp]

/-- The pairs are ordered by rule, and for one rule as the items are. -/
theorem pairwise_assign {R : γ → γ → Prop} : ∀ {ds : List δ} {cs : List γ}, cs.Pairwise R →
    (assign p ds cs).Pairwise fun x y =>
      rank p ds x.2 < rank p ds y.2 ∨ rank p ds x.2 = rank p ds y.2 ∧ R x.2 y.2
  | [], _, _ => List.Pairwise.nil
  | d :: ds, cs, hcs => by
    have hfirst : ∀ x ∈ (cs.filter (p d)).map (fun c => (d, c)), rank p (d :: ds) x.2 = 0 := by
      intro x hx
      obtain ⟨c, hc, rfl⟩ := mem_map.1 hx
      exact rank_cons_of_match (mem_filter.1 hc).2
    have hrest : ∀ x ∈ assign p ds (cs.filter fun c => !p d c),
        rank p (d :: ds) x.2 = rank p ds x.2 + 1 := by
      intro x hx
      have hmem := (mem_assign.1 hx).1
      exact rank_cons_of_not_match (by simpa using (mem_filter.1 hmem).2)
    refine pairwise_append.2 ⟨?_, ?_, ?_⟩
    · refine (pairwise_map.2 ((hcs.filter _).imp_of_mem ?_))
      intro c c' hc hc' hR
      exact .inr ⟨by
        rw [rank_cons_of_match (mem_filter.1 hc).2, rank_cons_of_match (mem_filter.1 hc').2], hR⟩
    · refine (pairwise_assign (hcs.filter fun c => !p d c)).imp_of_mem ?_
      intro x y hx hy h
      rw [hrest x hx, hrest y hy]
      exact h.imp Nat.succ_lt_succ fun h => ⟨congrArg Nat.succ h.1, h.2⟩
    · intro x hx y hy
      rw [hfirst x hx, hrest y hy]
      exact .inl (Nat.succ_pos _)

end

end EdgePacer.Lib
