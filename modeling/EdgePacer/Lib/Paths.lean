import Mathlib.Data.List.DropRight
import Mathlib.Data.List.Forall2

/-!
# Trimmed texts and paths

`trim p` drops what meets `p` from both ends of a list. It leaves a middle part
(`exists_eq_append_trim`) and does not see what is added at the ends (`trim_append`).

A path is the list of its components from the root. Joining a text to a path splits the text at the
slashes, skips empty and `.` components, and starts over from the root if the text does. `..` is
kept as a component: where it leads depends on what is on disk, so a path with one is not counted
as lying inside any directory (`Inside`).
-/

namespace EdgePacer.Lib

open List

universe u

section

variable {α : Type u} (p : α → Bool)

def trim (xs : List α) : List α := (xs.dropWhile p).rdropWhile p

theorem exists_eq_append_trim (xs : List α) :
    ∃ l r, xs = l ++ trim p xs ++ r ∧ ∀ a ∈ l ++ r, p a = true := by
  have hright : xs.dropWhile p = trim p xs ++ (xs.dropWhile p).rtakeWhile p :=
    rdropWhile_append_rtakeWhile.symm
  refine ⟨xs.takeWhile p, (xs.dropWhile p).rtakeWhile p, ?_, ?_⟩
  · rw [append_assoc, ← hright, takeWhile_append_dropWhile]
  · intro a ha
    rcases mem_append.1 ha with ha | ha
    · exact mem_takeWhile_imp ha
    · exact mem_rtakeWhile_imp ha

theorem trim_of_all {xs : List α} (h : ∀ a ∈ xs, p a = true) : trim p xs = [] := by
  rw [trim, dropWhile_eq_nil_iff.2 h]
  rfl

theorem trim_eq_nil_iff (xs : List α) : trim p xs = [] ↔ ∀ a ∈ xs, p a = true := by
  refine ⟨fun h => ?_, trim_of_all p⟩
  obtain ⟨l, r, heq, hall⟩ := exists_eq_append_trim p xs
  rw [h, append_nil] at heq
  rwa [heq]

theorem trim_append {l r : List α} (hl : ∀ a ∈ l, p a = true) (hr : ∀ a ∈ r, p a = true)
    (m : List α) : trim p (l ++ m ++ r) = trim p m := by
  rw [append_assoc, trim, dropWhile_append_of_pos hl, dropWhile_append]
  by_cases hm : (m.dropWhile p).isEmpty = true
  · rw [if_pos hm]
    have hnil := isEmpty_iff.1 hm
    rw [trim, hnil, dropWhile_eq_nil_iff.2 hr]
  · rw [if_neg hm, trim]
    unfold List.rdropWhile
    rw [reverse_append, dropWhile_append_of_pos]
    exact fun a ha => hr a (mem_reverse.1 ha)

theorem mem_of_mem_trim {xs : List α} {a : α} (h : a ∈ trim p xs) : a ∈ xs := by
  obtain ⟨l, r, heq, -⟩ := exists_eq_append_trim p xs
  rw [heq]
  exact mem_append_left _ (mem_append_right _ h)

end

/-- Lists that a function cannot tell apart are so element by element. -/
theorem map_eq_map_iff_forall₂ {α : Type u} {β : Type u} (f : α → β) (xs ys : List α) :
    xs.map f = ys.map f ↔ List.Forall₂ (fun a b => f a = f b) xs ys := by
  rw [← List.forall₂_map_right_iff, ← List.forall₂_map_left_iff, List.forall₂_eq_eq_eq]

/-! ## Paths -/

abbrev Location := List (List Char)

/-- The parts of a text between its slashes. -/
def segments : List Char → List (List Char)
  | [] => [[]]
  | c :: cs =>
      if c = '/' then [] :: segments cs
      else
        match segments cs with
        | [] => [[c]]
        | s :: rest => (c :: s) :: rest

/-- The components of a text, without empty ones and `.`. -/
def components (text : List Char) : List (List Char) :=
  (segments text).filter fun s => decide (s ≠ [] ∧ s ≠ ['.'])

def isAbsolute (text : List Char) : Bool := text.head? == some '/'

/-- Join a text to a path. -/
def join (base : Location) (text : List Char) : Location :=
  if isAbsolute text then components text else base ++ components text

/-- The path lies below the directory, without leaving it on the way. -/
def Inside (dir path : Location) : Prop :=
  ∃ rest, rest ≠ [] ∧ path = dir ++ rest ∧ ['.', '.'] ∉ rest

/-- Neither path is the other or lies below it. -/
def Unrelated (p q : Location) : Prop := ¬ p <+: q ∧ ¬ q <+: p

theorem segments_of_no_slash {text : List Char} (h : '/' ∉ text) : segments text = [text] := by
  induction text with
  | nil => rfl
  | cons c cs ih =>
    have hc : c ≠ '/' := fun hc => h (hc ▸ mem_cons_self)
    rw [segments, if_neg hc, ih fun hmem => h (mem_cons_of_mem _ hmem)]

/-- A name joined to a path is one more component. -/
theorem join_of_name (base : Location) {text : List Char} (h : '/' ∉ text) (hne : text ≠ [])
    (hdot : text ≠ ['.']) : join base text = base ++ [text] := by
  have habs : isAbsolute text = false := by
    cases text with
    | nil => rfl
    | cons c cs =>
      have hc : c ≠ '/' := fun hc => h (hc ▸ mem_cons_self)
      simpa [isAbsolute] using hc
  rw [join, habs, components, segments_of_no_slash h]
  simp [hne, hdot]

theorem inside_append {dir rest : Location} (hne : rest ≠ []) (hup : ['.', '.'] ∉ rest) :
    Inside dir (dir ++ rest) := ⟨rest, hne, rfl, hup⟩

theorem inside_append_iff {dir rest : Location} :
    Inside dir (dir ++ rest) ↔ rest ≠ [] ∧ ['.', '.'] ∉ rest := by
  constructor
  · rintro ⟨rest', hne, heq, hup⟩
    rw [append_cancel_left heq]
    exact ⟨hne, hup⟩
  · exact fun h => inside_append h.1 h.2

theorem unrelated_append_iff (dir : Location) {p q : Location} :
    Unrelated (dir ++ p) (dir ++ q) ↔ Unrelated p q := by
  unfold Unrelated
  rw [prefix_append_right_inj, prefix_append_right_inj]

end EdgePacer.Lib
