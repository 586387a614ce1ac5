import EdgePacer.Lib.Paths

/-!
# Where sources keep their state

Three components map a source id to a place on disk. The orchestrator and the trace proxy manager
fold the id into a name; the overflow store joins the id to its directory as it is.

Folding is not injective, and a joined id can have several components, go up, or start from the
root. `separate_iff` says which pairs of ids are nevertheless kept apart, whatever the data
directory; `folded_ids_share` is a pair that is not.
-/

namespace EdgePacer.Orchestrator

open Lib List

/-! ## Places -/

/-- Replace the characters that do not belong into a file name. -/
def foldChar (c : Char) : Char :=
  if c = '/' ∨ c = '\\' ∨ c = ':' ∨ c = '.' ∨ c = ' ' then '_' else c

variable (id : String)

/-- The characters of the folded name of an id. -/
def folded : List Char := trim (fun c => c == '_') (id.toList.map foldChar)

def sanitizeId : String := String.ofList (folded id)

variable (dataDir : Location)

def sourceDataDir (logSourceId : String) : Location := join dataDir (sanitizeId logSourceId).toList

def traceBufferPath (logSourceId : String) : Location :=
  join dataDir ("trace-buffer-" ++ sanitizeId logSourceId ++ ".sqlite").toList

/-- The name of the overflow store's directory. -/
def overflowName : List Char := ['o', 'v', 'e', 'r', 'f', 'l', 'o', 'w']

/-- The overflow store's directory of a source. -/
def overflowDir (logSourceId : String) : Location :=
  join (join dataDir overflowName) logSourceId.toList

def placesOf (id : String) : List Location :=
  [sourceDataDir dataDir id, traceBufferPath dataDir id, overflowDir dataDir id]

/-- No place of one id is or contains one of the other, and all are inside the data directory. -/
def Separate (a b : String) : Prop :=
  (∀ p ∈ placesOf dataDir a, ∀ q ∈ placesOf dataDir b, Unrelated p q) ∧
    ∀ p ∈ placesOf dataDir a ++ placesOf dataDir b, Inside dataDir p

/-! ## Ids -/

/-- The characters that folding does not tell from one another. -/
def IsSeparator (c : Char) : Prop := c = '/' ∨ c = '\\' ∨ c = ':' ∨ c = '.' ∨ c = ' ' ∨ c = '_'

/-- Some character is not a separator. -/
def Named : Prop := ∃ c ∈ id.toList, ¬ IsSeparator c

/-- The ids differ in separators only: in which ones they have, and in those at the ends. -/
def Alike (a b : String) : Prop :=
  ∃ l m r l' m' r', a.toList = l ++ m ++ r ∧ b.toList = l' ++ m' ++ r' ∧
    (∀ c ∈ l ++ r, IsSeparator c) ∧ (∀ c ∈ l' ++ r', IsSeparator c) ∧
    List.Forall₂ (fun c c' => c = c' ∨ IsSeparator c ∧ IsSeparator c') m m'

/-- The id is the word `overflow` between separators. -/
def Reserved : Prop := ∃ l r, id.toList = l ++ overflowName ++ r ∧ ∀ c ∈ l ++ r, IsSeparator c

/-- The id does not start from the root and does not go up. -/
def Descends : Prop := isAbsolute id.toList = false ∧ ['.', '.'] ∉ components id.toList

/-- Two ids whose places cannot meet. -/
structure Apart (a b : String) : Prop where
  named : Named a ∧ Named b
  unlike : ¬ Alike a b
  unreserved : ¬ Reserved a ∧ ¬ Reserved b
  descend : Descends a ∧ Descends b
  unrelated : Unrelated (components a.toList) (components b.toList)

/-! ## Folded names -/

theorem foldChar_of_separator {c : Char} (h : IsSeparator c) : foldChar c = '_' := by
  rcases h with rfl | rfl | rfl | rfl | rfl | rfl <;> rfl

theorem foldChar_of_not_separator {c : Char} (h : ¬ IsSeparator c) : foldChar c = c := by
  rw [foldChar, if_neg]
  rintro (rfl | rfl | rfl | rfl | rfl) <;> exact h (by simp [IsSeparator])

theorem foldChar_eq_underscore_iff (c : Char) : foldChar c = '_' ↔ IsSeparator c := by
  refine ⟨fun h => ?_, foldChar_of_separator⟩
  by_contra hsep
  rw [foldChar_of_not_separator hsep] at h
  exact hsep (h ▸ by simp [IsSeparator])

theorem foldChar_eq_iff (c c' : Char) :
    foldChar c = foldChar c' ↔ c = c' ∨ IsSeparator c ∧ IsSeparator c' := by
  constructor
  · intro h
    by_cases hc : IsSeparator c
    · rw [foldChar_of_separator hc, eq_comm, foldChar_eq_underscore_iff] at h
      exact .inr ⟨hc, h⟩
    · have hc' : ¬ IsSeparator c' := by
        intro hc'
        rw [foldChar_of_separator hc', foldChar_eq_underscore_iff] at h
        exact hc h
      rw [foldChar_of_not_separator hc, foldChar_of_not_separator hc'] at h
      exact .inl h
  · rintro (rfl | ⟨hc, hc'⟩)
    · rfl
    · rw [foldChar_of_separator hc, foldChar_of_separator hc']

theorem exists_middle : ∃ l m r, id.toList = l ++ m ++ r ∧ m.map foldChar = folded id ∧
      ∀ c ∈ l ++ r, IsSeparator c := by
  obtain ⟨l, r, heq, hall⟩ := exists_eq_append_trim (fun c => c == '_') (id.toList.map foldChar)
  obtain ⟨lm, r', hid, hlm, hr⟩ := map_eq_append_iff.1 heq
  obtain ⟨l', m, hlm', hl, hm⟩ := map_eq_append_iff.1 hlm
  refine ⟨l', m, r', by rw [hid, hlm'], hm, ?_⟩
  intro c hc
  rw [← foldChar_eq_underscore_iff]
  have hmem : foldChar c ∈ l ++ r := by
    rw [← hl, ← hr, ← map_append]
    exact mem_map_of_mem hc
  exact beq_iff_eq.1 (hall _ hmem)

/-- Separators at the ends do not show. -/
theorem folded_of_middle {id : String} {l m r : List Char} (hid : id.toList = l ++ m ++ r)
    (hsep : ∀ c ∈ l ++ r, IsSeparator c) :
    folded id = trim (fun c => c == '_') (m.map foldChar) := by
  have hends : ∀ c ∈ (l ++ r).map foldChar, (c == '_') = true := by
    intro c hc
    obtain ⟨c', hc', rfl⟩ := mem_map.1 hc
    rw [foldChar_of_separator (hsep c' hc')]
    rfl
  rw [map_append] at hends
  rw [folded, hid, map_append, map_append, trim_append]
  · exact (forall_mem_append.1 hends).1
  · exact (forall_mem_append.1 hends).2

theorem folded_eq_iff (a b : String) : folded a = folded b ↔ Alike a b := by
  constructor
  · intro h
    obtain ⟨l, m, r, ha, hm, hsep⟩ := exists_middle a
    obtain ⟨l', m', r', hb, hm', hsep'⟩ := exists_middle b
    refine ⟨l, m, r, l', m', r', ha, hb, hsep, hsep', ?_⟩
    have hmap : m.map foldChar = m'.map foldChar := hm.trans (h.trans hm'.symm)
    exact ((map_eq_map_iff_forall₂ foldChar m m').1 hmap).imp fun c c' => (foldChar_eq_iff c c').1
  · rintro ⟨l, m, r, l', m', r', ha, hb, hsep, hsep', hmid⟩
    have hmap : m.map foldChar = m'.map foldChar :=
      (map_eq_map_iff_forall₂ foldChar m m').2 (hmid.imp fun c c' => (foldChar_eq_iff c c').2)
    rw [folded_of_middle ha hsep, folded_of_middle hb hsep', hmap]

theorem folded_eq_nil_iff : folded id = [] ↔ ¬ Named id := by
  rw [folded, trim_eq_nil_iff, forall_mem_map]
  simp only [beq_iff_eq, foldChar_eq_underscore_iff, Named, not_exists, not_and, not_not]

theorem folded_eq_overflow_iff : folded id = overflowName ↔ Reserved id := by
  constructor
  · intro h
    obtain ⟨l, m, r, hid, hm, hsep⟩ := exists_middle id
    -- no letter of the word comes from a separator
    have hself : m.map foldChar = m := by
      conv_rhs => rw [← map_id m]
      refine map_congr_left fun c hc => foldChar_of_not_separator fun hc' => ?_
      have hmem : foldChar c ∈ overflowName := by
        rw [← h, ← hm]
        exact mem_map_of_mem hc
      rw [foldChar_of_separator hc'] at hmem
      exact absurd hmem (by decide)
    exact ⟨l, r, by rw [hid, ← hself, hm, h], hsep⟩
  · rintro ⟨l, r, hid, hsep⟩
    rw [folded_of_middle hid hsep]
    decide

theorem not_mem_folded {id : String} {c : Char} (hc : c = '/' ∨ c = '.') : c ∉ folded id := by
  intro hmem
  obtain ⟨c', -, rfl⟩ := mem_map.1 (mem_of_mem_trim _ hmem)
  by_cases hsep : IsSeparator c'
  · rw [foldChar_of_separator hsep] at hc
    revert hc
    decide
  · rw [foldChar_of_not_separator hsep] at hc
    refine hsep ?_
    rcases hc with rfl | rfl
    · exact .inl rfl
    · exact .inr (.inr (.inr (.inl rfl)))

/-! ## The three places -/

variable (dataDir : Location)

theorem sourceDataDir_eq :
    sourceDataDir dataDir id = if folded id = [] then dataDir else dataDir ++ [folded id] := by
  rw [sourceDataDir, sanitizeId, String.toList_ofList]
  split
  · next hnil =>
    rw [hnil]
    exact append_nil _
  · next hne =>
    refine join_of_name dataDir (not_mem_folded (.inl rfl)) hne ?_
    intro hdot
    exact @not_mem_folded id _ (.inr rfl) (hdot ▸ mem_singleton.2 rfl)

theorem sourceDataDir_eq_iff (a b : String) :
    sourceDataDir dataDir a = sourceDataDir dataDir b ↔ Alike a b := by
  rw [← folded_eq_iff, sourceDataDir_eq, sourceDataDir_eq]
  by_cases ha : folded a = [] <;> by_cases hb : folded b = []
  · simp [hb]
  · simp [ha, hb]
  · simp [hb]
  · simp [ha, hb]

/-- The file name of a trace buffer. -/
def traceBufferName : List Char :=
  ['t', 'r', 'a', 'c', 'e', '-', 'b', 'u', 'f', 'f', 'e', 'r', '-'] ++ folded id ++
    ['.', 's', 'q', 'l', 'i', 't', 'e']

theorem traceBufferName_ne {id : String} {text : List Char} (h : text.length < 13) :
    traceBufferName id ≠ text := by
  rintro rfl
  rw [traceBufferName, length_append, length_append] at h
  exact absurd h (by simp; omega)

theorem traceBufferPath_eq : traceBufferPath dataDir id = dataDir ++ [traceBufferName id] := by
  have htext : ("trace-buffer-" ++ sanitizeId id ++ ".sqlite").toList = traceBufferName id := by
    have hstem : "trace-buffer-".toList =
        ['t', 'r', 'a', 'c', 'e', '-', 'b', 'u', 'f', 'f', 'e', 'r', '-'] := by decide +kernel
    have hsuffix : ".sqlite".toList = ['.', 's', 'q', 'l', 'i', 't', 'e'] := by decide +kernel
    rw [String.toList_append, String.toList_append, hstem, hsuffix, sanitizeId,
      String.toList_ofList, traceBufferName]
  rw [traceBufferPath, htext]
  refine join_of_name dataDir ?_ (traceBufferName_ne (by decide)) (traceBufferName_ne (by decide))
  rw [traceBufferName, mem_append, mem_append]
  rintro ((h | h) | h)
  · exact absurd h (by simp)
  · exact not_mem_folded (.inl rfl) h
  · exact absurd h (by simp)

theorem overflowDir_eq {id : String} (h : isAbsolute id.toList = false) (dataDir : Location) :
    overflowDir dataDir id = dataDir ++ (overflowName :: components id.toList) := by
  have hbase : join dataDir overflowName = dataDir ++ [overflowName] :=
    join_of_name dataDir (by decide) (by decide) (by decide)
  rw [overflowDir, hbase, join, h, append_assoc]
  rfl

/-- The places of a named id that does not start from the root, seen from the data directory. -/
def below : List Location :=
  [[folded id], [traceBufferName id], overflowName :: components id.toList]

theorem placesOf_eq {id : String} (hnamed : Named id) (hrelative : isAbsolute id.toList = false)
    (dataDir : Location) : placesOf dataDir id = (below id).map (dataDir ++ ·) := by
  have hne : folded id ≠ [] := fun h => (folded_eq_nil_iff id).1 h hnamed
  rw [placesOf, sourceDataDir_eq, if_neg hne, traceBufferPath_eq, overflowDir_eq hrelative]
  rfl

/-! ## Which ids are kept apart -/

theorem unrelated_cons_cons {x y : List Char} {xs ys : Location} :
    Unrelated (x :: xs) (y :: ys) ↔ x ≠ y ∨ Unrelated xs ys := by
  unfold Unrelated
  rw [cons_prefix_cons, cons_prefix_cons]
  by_cases hxy : x = y
  · simp [hxy]
  · simp [hxy, Ne.symm hxy]

theorem not_unrelated_nil_left (ys : Location) : ¬ Unrelated [] ys := fun h => h.1 nil_prefix

theorem not_unrelated_nil_right (xs : Location) : ¬ Unrelated xs [] := fun h => h.2 nil_prefix

theorem folded_ne_traceBufferName (a b : String) : folded a ≠ traceBufferName b := by
  intro h
  refine @not_mem_folded a _ (.inr rfl) ?_
  rw [h, traceBufferName]
  exact mem_append_right _ (by simp)

theorem traceBufferName_inj {a b : String} :
    traceBufferName a = traceBufferName b ↔ folded a = folded b := by
  rw [traceBufferName, traceBufferName, append_left_inj, append_right_inj]

/-- The places below the data directory do not meet. -/
theorem unrelated_below_iff (a b : String) :
    (∀ p ∈ below a, ∀ q ∈ below b, Unrelated p q) ↔
      ¬ Alike a b ∧ ¬ Reserved a ∧ ¬ Reserved b ∧
        Unrelated (components a.toList) (components b.toList) := by
  have htrace : ∀ id, traceBufferName id ≠ overflowName := fun id =>
    traceBufferName_ne (by decide)
  simp only [below, forall_mem_cons, not_mem_nil, false_implies, implies_true, and_true,
    unrelated_cons_cons, not_unrelated_nil_left, not_unrelated_nil_right, or_false, ne_eq,
    ← folded_eq_iff, ← folded_eq_overflow_iff, traceBufferName_inj, folded_ne_traceBufferName,
    (folded_ne_traceBufferName _ _).symm, htrace, (htrace _).symm, not_true_eq_false,
    not_false_eq_true, true_and, false_or]
  constructor
  · rintro ⟨⟨hunlike, hresa⟩, -, hresb, hunrelated⟩
    exact ⟨hunlike, hresa, fun h => hresb h.symm, hunrelated⟩
  · rintro ⟨hunlike, hresa, hresb, hunrelated⟩
    exact ⟨⟨hunlike, hresa⟩, hunlike, fun h => hresb h.symm, hunrelated⟩

theorem inside_below_iff {id : String} :
    (∀ p ∈ (below id).map (dataDir ++ ·), Inside dataDir p) ↔
      ['.', '.'] ∉ components id.toList := by
  have hfolded : folded id ≠ ['.', '.'] := by
    intro h
    exact @not_mem_folded id _ (.inr rfl) (h ▸ mem_cons_self)
  have htrace : traceBufferName id ≠ ['.', '.'] := traceBufferName_ne (by decide)
  rw [forall_mem_map]
  simp only [inside_append_iff]
  rw [below, forall_mem_cons, forall_mem_cons, forall_mem_singleton]
  constructor
  · exact fun h hup => h.2.2.2 (mem_cons_of_mem _ hup)
  · intro hup
    refine ⟨⟨cons_ne_nil _ _, ?_⟩, ⟨cons_ne_nil _ _, ?_⟩, cons_ne_nil _ _, ?_⟩
    · exact fun h => hfolded (mem_singleton.1 h).symm
    · exact fun h => htrace (mem_singleton.1 h).symm
    · rintro (_ | ⟨_, h⟩)
      exact hup h

theorem isAbsolute_of_separate {a : String}
    (h : ∀ dataDir, Inside dataDir (overflowDir dataDir a)) : isAbsolute a.toList = false := by
  by_contra habs
  rw [Bool.not_eq_false] at habs
  obtain ⟨rest, hne, heq, -⟩ := h (components a.toList)
  rw [overflowDir, join, habs] at heq
  exact hne (append_right_eq_self.1 heq.symm)

theorem named_of_separate {a : String} {dataDir : Location}
    (h : Inside dataDir (sourceDataDir dataDir a)) : Named a := by
  by_contra hnamed
  obtain ⟨rest, hne, heq, -⟩ := h
  rw [sourceDataDir_eq, if_pos ((folded_eq_nil_iff a).2 hnamed)] at heq
  exact hne (append_right_eq_self.1 heq.symm)

/-- **Separation.** The state directories, trace buffers and overflow directories of two ids are
disjoint and inside the data directory, wherever that is, exactly if both ids have a character that
is not a separator, differ in more than separators, are not the word `overflow` between separators,
neither start from the root nor go up, and neither leads, component by component, to or below the
other. -/
theorem separate_iff (a b : String) : (∀ dataDir, Separate dataDir a b) ↔ Apart a b := by
  constructor
  · intro h
    have hplaces := fun dataDir =>
      forall_mem_append.1 (h dataDir).2
    have hfirst : ∀ dataDir id, sourceDataDir dataDir id ∈ placesOf dataDir id :=
      fun _ _ => mem_cons_self
    have hlast : ∀ dataDir id, overflowDir dataDir id ∈ placesOf dataDir id := fun _ _ => by
      simp [placesOf]
    have hnamed : Named a ∧ Named b :=
      ⟨named_of_separate ((hplaces []).1 _ (hfirst [] a)),
        named_of_separate ((hplaces []).2 _ (hfirst [] b))⟩
    have hrelative : isAbsolute a.toList = false ∧ isAbsolute b.toList = false :=
      ⟨isAbsolute_of_separate fun dataDir => (hplaces dataDir).1 _ (hlast dataDir a),
        isAbsolute_of_separate fun dataDir => (hplaces dataDir).2 _ (hlast dataDir b)⟩
    obtain ⟨hdisjoint, -⟩ := h []
    obtain ⟨hina, hinb⟩ := hplaces []
    rw [placesOf_eq hnamed.1 hrelative.1] at hdisjoint hina
    rw [placesOf_eq hnamed.2 hrelative.2] at hdisjoint hinb
    have hbelow : ∀ p ∈ below a, ∀ q ∈ below b, Unrelated p q := by
      simpa using hdisjoint
    obtain ⟨hunlike, hresa, hresb, hunrelated⟩ := (unrelated_below_iff a b).1 hbelow
    exact ⟨hnamed, hunlike, ⟨hresa, hresb⟩, ⟨⟨hrelative.1, (inside_below_iff []).1 hina⟩,
      ⟨hrelative.2, (inside_below_iff []).1 hinb⟩⟩, hunrelated⟩
  · intro h dataDir
    obtain ⟨hnamed, hunlike, hres, ⟨⟨hrela, hupa⟩, ⟨hrelb, hupb⟩⟩, hunrelated⟩ := h
    unfold Separate
    rw [placesOf_eq hnamed.1 hrela, placesOf_eq hnamed.2 hrelb]
    constructor
    · have hbelow := (unrelated_below_iff a b).2 ⟨hunlike, hres.1, hres.2, hunrelated⟩
      rw [forall_mem_map]
      intro p hp
      rw [forall_mem_map]
      intro q hq
      exact (unrelated_append_iff dataDir).2 (hbelow p hp q hq)
    · exact forall_mem_append.2
        ⟨(inside_below_iff dataDir).2 hupa, (inside_below_iff dataDir).2 hupb⟩

/-- Two ids, one with a slash where the other has an underscore, have one state directory. -/
theorem folded_ids_share :
    "shop/web" ≠ "shop_web" ∧ ¬ ∀ dataDir, Separate dataDir "shop/web" "shop_web" := by
  refine ⟨by decide, fun h => ?_⟩
  have hsame : sourceDataDir [] "shop/web" = sourceDataDir [] "shop_web" := by decide
  have hpair := (h []).1 _ mem_cons_self _ mem_cons_self
  rw [hsame] at hpair
  exact hpair.1 (prefix_refl _)

end EdgePacer.Orchestrator
