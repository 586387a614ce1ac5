import EdgePacer.Config.Services

/-!
# What the hashed text of a source tells

A source is restarted when the digest of its settings changes. The digest is taken of a text in
which the settings stand one after the other, divided by bars. The text of a file source has its
path and all its settings, and they can be read back from it unless a bar stands inside one of
them (`settings_eq_of_fileText_eq`). The text of a streaming source has the directive's locator and
strategy in place of what is read: it tells the settings (`settings_eq_of_hashText_eq`), not the
target.
-/

namespace EdgePacer.Config

open Inventory Inventory.Container Discovery Lib
  List MultilineConfig

/-! ## Settings -/

/-- What a multi-line reader is given. -/
def MultilineConfig.settings (m : MultilineConfig) : List String × Nat × Nat :=
  (m.patterns, m.maxLines, m.timeoutSecs)

/-- Where a source ships to, and how its lines are put together. -/
structure Settings where
  (endpoint archiveId repoId : String)
  multiline : Option (List String × Nat × Nat)
  deriving DecidableEq

def CollectStreamConfig.settings (s : CollectStreamConfig) : Settings :=
  ⟨s.subboxEndpoint, s.archiveId, s.repoId, s.multiline.map MultilineConfig.settings⟩

def LogStreamConfig.settings (s : LogStreamConfig) : Settings :=
  ⟨s.endpoint, s.archiveId, s.repoId, s.multiline.map MultilineConfig.settings⟩

def StreamingSourceConfig.settings (s : StreamingSourceConfig) : Settings :=
  ⟨s.endpoint, s.archiveId, s.repoId, s.multiline.map MultilineConfig.settings⟩

def Source.settings : Source → Settings
  | .file s => s.settings
  | .streaming s => s.settings

/-! ## Plain texts -/

def NoBar (s : String) : Prop := '|' ∉ s.toList

instance (s : String) : Decidable (NoBar s) := inferInstanceAs (Decidable (_ ∉ _))

/-- No pattern has the character that divides patterns. -/
def PlainPatterns (m : Option MultilineConfig) : Prop :=
  ∀ config ∈ m, ∀ pattern ∈ config.patterns, unitSeparator ∉ pattern.toList

instance (m : Option MultilineConfig) : Decidable (PlainPatterns m) :=
  match m with
  | none => .isTrue (by simp [PlainPatterns])
  | some config =>
      decidable_of_iff (∀ pattern ∈ config.patterns, unitSeparator ∉ pattern.toList)
        (by simp [PlainPatterns])

/-- The hashed fields of a directive have no bar, patterns apart. -/
structure CollectStreamConfig.Plain (s : CollectStreamConfig) : Prop where
  locator : NoBar s.locator
  strategy : NoBar s.matchingStrategy
  endpoint : NoBar s.subboxEndpoint
  archive : NoBar s.archiveId
  repo : NoBar s.repoId
  patterns : PlainPatterns s.multiline

/-! ## Reading the texts back -/

theorem bar_not_mem_digits (n : Nat) : '|' ∉ Nat.toDigits 10 n := by
  intro h
  have hdigit : '|'.isDigit = true := Nat.isDigit_of_mem_toDigits (by decide) (by decide) h
  exact absurd hdigit (by decide)

theorem toDigits_injective : Function.Injective (Nat.toDigits 10) := by
  intro m n h
  calc
    m = Nat.ofDigitChars 10 (Nat.toDigits 10 m) 0 := Nat.ofDigitChars_ten_toDigits.symm
    _ = Nat.ofDigitChars 10 (Nat.toDigits 10 n) 0 := by rw [h]
    _ = n := Nat.ofDigitChars_ten_toDigits

theorem bar_not_mem_stampPart (b : Bool) : '|' ∉ stampPart b := by
  cases b <;> decide +kernel

theorem bar_not_mem_hashPart (format : FileSourceFormat) : '|' ∉ hashPart format := by
  cases format <;> decide +kernel

theorem MultilineConfig.patterns_ne_nil (m : MultilineConfig) : m.patterns ≠ [] := by
  rw [patterns]
  split
  · exact cons_ne_nil _ _
  · rename_i h
    simpa using h

/-- The patterns and bounds can be read back. Bars inside a pattern do not matter: the bounds are
cut off from the end. -/
theorem settings_eq_of_multilineHashPart_eq {m m' : Option MultilineConfig}
    (hm : PlainPatterns m) (hm' : PlainPatterns m')
    (h : multilineHashPart m = multilineHashPart m') : m.map settings = m'.map settings := by
  have hbar : ∀ config : MultilineConfig, '|' ∈ multilineHashPart (some config) :=
    fun config => mem_joined_cons_cons ..
  have hnone : '|' ∉ multilineHashPart none := by simp [multilineHashPart]
  match m, m' with
  | none, none => rfl
  | none, some config => exact absurd (h ▸ hbar config) hnone
  | some config, none => exact absurd (h ▸ hbar config) hnone
  | some config, some config' =>
    simp only [multilineHashPart, joined_cons_cons, joined_singleton] at h
    rw [← cons_append, ← append_assoc, ← cons_append, ← append_assoc] at h
    obtain ⟨hrest, htimeout⟩ := cut_last (bar_not_mem_digits _) (bar_not_mem_digits _) h
    obtain ⟨hpatterns, hlines⟩ := cut_last (bar_not_mem_digits _) (bar_not_mem_digits _) hrest
    have hlists : config.patterns.map String.toList = config'.patterns.map String.toList := by
      refine joined_inj ?_ ?_ (by simpa using config.patterns_ne_nil)
        (by simpa using config'.patterns_ne_nil) hpatterns
      · intro x hx
        obtain ⟨pattern, hpattern, rfl⟩ := mem_map.1 hx
        exact hm config rfl pattern hpattern
      · intro x hx
        obtain ⟨pattern, hpattern, rfl⟩ := mem_map.1 hx
        exact hm' config' rfl pattern hpattern
    have heq : config.patterns = config'.patterns :=
      map_injective_iff.2 (fun _ _ => String.toList_inj.1) hlists
    simp only [Option.map_some, settings, heq, toDigits_injective htimeout,
      toDigits_injective hlines]

/-- The settings a text has behind its first field or fields. -/
theorem settings_eq_of_tail_eq {e a r e' a' r' : String} {m m' : Option MultilineConfig}
    {rest rest' : List Char}
    (he : NoBar e) (ha : NoBar a) (hr : NoBar r) (hm : PlainPatterns m)
    (he' : NoBar e') (ha' : NoBar a') (hr' : NoBar r') (hm' : PlainPatterns m')
    (hrest : ∀ {x x'}, x ++ '|' :: rest = x' ++ '|' :: rest' → x = x')
    (h : e.toList ++ '|' :: (a.toList ++ '|' :: (r.toList ++ '|' ::
          (multilineHashPart m ++ '|' :: rest))) =
        e'.toList ++ '|' :: (a'.toList ++ '|' :: (r'.toList ++ '|' ::
          (multilineHashPart m' ++ '|' :: rest')))) :
    (⟨e, a, r, m.map settings⟩ : Settings) = ⟨e', a', r', m'.map settings⟩ := by
  obtain ⟨hendpoint, h⟩ := cut_first he he' h
  obtain ⟨harchive, h⟩ := cut_first ha ha' h
  obtain ⟨hrepo, h⟩ := cut_first hr hr' h
  rw [String.toList_inj.1 hendpoint, String.toList_inj.1 harchive, String.toList_inj.1 hrepo,
    settings_eq_of_multilineHashPart_eq hm hm' (hrest h)]

/-- **The text of a directive tells its settings.** -/
theorem settings_eq_of_hashText_eq {s s' : CollectStreamConfig} (hs : s.Plain) (hs' : s'.Plain)
    (h : s.hashText = s'.hashText) : s.settings = s'.settings := by
  simp only [CollectStreamConfig.hashText, joined_cons_cons, joined_singleton] at h
  obtain ⟨-, h⟩ := cut_first hs.locator hs'.locator h
  obtain ⟨-, h⟩ := cut_first hs.strategy hs'.strategy h
  refine settings_eq_of_tail_eq hs.endpoint hs.archive hs.repo hs.patterns hs'.endpoint hs'.archive
    hs'.repo hs'.patterns ?_ h
  intro x x' hx
  exact (cut_last (bar_not_mem_stampPart _) (bar_not_mem_stampPart _) hx).1

/-- **The text of a file source tells its path and settings.** -/
theorem settings_eq_of_fileText_eq {path path' : String} {s s' : CollectStreamConfig}
    {format format' : FileSourceFormat} (hpath : NoBar path) (hpath' : NoBar path')
    (hs : s.Plain) (hs' : s'.Plain)
    (h : LogStreamConfig.hashText path s format = LogStreamConfig.hashText path' s' format') :
    path = path' ∧ s.settings = s'.settings := by
  simp only [LogStreamConfig.hashText, joined_cons_cons, joined_singleton] at h
  obtain ⟨heq, h⟩ := cut_first hpath hpath' h
  refine ⟨String.toList_inj.1 heq, settings_eq_of_tail_eq hs.endpoint hs.archive hs.repo hs.patterns
    hs'.endpoint hs'.archive hs'.repo hs'.patterns ?_ h⟩
  intro x x' hx
  rw [← cons_append, ← append_assoc, ← cons_append, ← append_assoc] at hx
  obtain ⟨hx, -⟩ := cut_last (bar_not_mem_stampPart _) (bar_not_mem_stampPart _) hx
  exact (cut_last (bar_not_mem_hashPart _) (bar_not_mem_hashPart _) hx).1

end EdgePacer.Config
