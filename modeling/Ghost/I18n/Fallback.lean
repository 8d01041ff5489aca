import Ghost.I18n.Translator

/-!
# Where T finds a message (i18n/translator.go)

`Localize` looks in the one language its matcher picks. A text it takes from the
default language comes with an error, for which `T` drops the text; the fallback
locale is only a second tag for the matcher and is never searched.
-/

namespace Ghost.I18n
open Go Transition

variable {Tag Msg Data : Type} [DecidableEq Tag]

/-! ### What the bundle holds -/

def InFile (pkg : Packages Tag Msg Data) (paths : List String) (tag : Tag) (id : String) : Prop :=
  ∃ path ∈ paths, ∃ mf, pkg.loadMessageFile path = .ok mf ∧ mf.tag = tag ∧ ∃ m, (id, m) ∈ mf.messages

section Bundle

variable {pkg : Packages Tag Msg Data} {cfg : Config} {t : Translator Tag Msg}

theorem store_isSome (table : String → Option Msg) (messages : List (String × Msg)) (id : String) :
    (store table messages id).isSome = true ↔ (table id).isSome = true ∨ ∃ m, (id, m) ∈ messages := by
  induction messages generalizing table with
  | nil => simp [store]
  | cons entry rest ih =>
    obtain ⟨key, m⟩ := entry
    rw [store, ih]
    by_cases hkey : id = key
    · subst hkey
      simp
    · simp [hkey]

theorem addMessages_isSome (b : Bundle Tag Msg) (mf : MessageFile Tag Msg) (tag : Tag) (id : String) :
    ((b.addMessages mf.tag mf.messages).messages tag id).isSome = true ↔
      (b.messages tag id).isSome = true ∨ mf.tag = tag ∧ ∃ m, (id, m) ∈ mf.messages := by
  by_cases htag : tag = mf.tag
  · subst htag
    simp [Bundle.addMessages, store_isSome]
  · have hne : mf.tag ≠ tag := fun h => htag h.symm
    simp [Bundle.addMessages, Function.update_of_ne htag, hne]

theorem loadMessageFiles_ok {b b' : Bundle Tag Msg} {locales locales' paths : List String}
    (h : loadMessageFiles pkg b locales paths = .ok (b', locales')) :
    b'.defaultLanguage = b.defaultLanguage ∧
      ∀ tag id, (b'.messages tag id).isSome = true ↔
        (b.messages tag id).isSome = true ∨ InFile pkg paths tag id := by
  induction paths generalizing b locales with
  | nil =>
    cases h
    exact ⟨rfl, fun tag id => by simp [InFile]⟩
  | cons path paths ih =>
    unfold loadMessageFiles at h
    split at h
    · cases h
    · rename_i mf hmf
      obtain ⟨hdefault, hmessages⟩ := ih h
      refine ⟨hdefault, fun tag id => ?_⟩
      rw [hmessages, addMessages_isSome, or_assoc]
      simp [InFile, hmf]

theorem newTranslator_ok (h : newTranslator pkg cfg = .ok t) :
    t.fallbackLocale = cfg.fallbackLocale ∧ pkg.parse cfg.defaultLocale = .ok t.bundle.defaultLanguage ∧
      ∀ tag id, (t.bundle.messages tag id).isSome = true ↔ InFile pkg cfg.messageFiles tag id := by
  unfold newTranslator at h
  obtain ⟨-, h⟩ := of_check_eq_ok h
  obtain ⟨-, h⟩ := of_check_eq_ok h
  obtain ⟨-, h⟩ := of_check_eq_ok h
  split at h
  · cases h
  · rename_i defaultLang hparse
    split at h
    · cases h
    · rename_i bundle locales hload
      cases h
      obtain ⟨hdefault, hmessages⟩ := loadMessageFiles_ok hload
      refine ⟨rfl, by rw [hparse, hdefault]; rfl, fun tag id => ?_⟩
      rw [hmessages]
      simp [newBundle]

end Bundle

/-! ### Falling back -/

section Fallback

variable (pkg : Packages Tag Msg Data) (cfg : Config) (t : Translator Tag Msg) (c : Call Data)

/-- The file of a locale has the message of the call. -/
def HasMessage (locale : String) : Prop :=
  ∃ tag, pkg.parse locale = .ok tag ∧ InFile pkg cfg.messageFiles tag c.messageID

def TextIn (tag : Tag) (text : String) : Prop :=
  ∃ m, t.bundle.messages tag c.messageID = some m ∧ pkg.execute tag m c.plural c.templateData = (text, none)

/-- The text of the message in the file of a locale. -/
def TextOf (locale text : String) : Prop := ∃ tag, pkg.parse locale = .ok tag ∧ TextIn pkg t c tag text

structure FallsBack (out : Except Error String) : Prop where
  served : ¬ HasMessage pkg cfg c c.locale →
    HasMessage pkg cfg c cfg.defaultLocale ∨ HasMessage pkg cfg c cfg.fallbackLocale →
      ∃ text, out = .ok text ∧ (TextOf pkg t c cfg.defaultLocale text ∨ TextOf pkg t c cfg.fallbackLocale text)
  notFound : ∀ err, out = .error err → err.is errMessageNotFound = true →
    ∀ locale ∈ [c.locale, cfg.defaultLocale, cfg.fallbackLocale], ¬ HasMessage pkg cfg c locale

/-- The message in one language is all that a call needs. -/
structure Suffices (tag : Tag) : Prop where
  text : ¬ HasMessage pkg cfg c c.locale →
    HasMessage pkg cfg c cfg.defaultLocale ∨ HasMessage pkg cfg c cfg.fallbackLocale →
      ∃ text, TextIn pkg t c tag text ∧
        (TextOf pkg t c cfg.defaultLocale text ∨ TextOf pkg t c cfg.fallbackLocale text)
  missing : t.bundle.messages tag c.messageID = none →
    ∀ locale ∈ [c.locale, cfg.defaultLocale, cfg.fallbackLocale], ¬ HasMessage pkg cfg c locale

variable {pkg cfg t c}

section Finish

variable {localizer : List Tag}

theorem finish_of_some {m : Msg} (hm : t.bundle.messages (pkg.pick t.bundle.tags localizer) c.messageID = some m) :
    c.finish pkg t localizer =
      match pkg.execute (pkg.pick t.bundle.tags localizer) m c.plural c.templateData with
      | (text, none) => .ok text
      | (_, some failed) => .error (bundleLoad failed) := by
  rcases hexec : pkg.execute (pkg.pick t.bundle.tags localizer) m c.plural c.templateData with ⟨text, _ | failed⟩
  · simp only [Call.finish, localize, hm, hexec, Option.map_none]
  · simp only [Call.finish, localize, hm, hexec, Option.map_some, LocalizeErr.error]

-- The default language is looked at, but whatever it has, the answer is the same error.
theorem finish_of_none (hm : t.bundle.messages (pkg.pick t.bundle.tags localizer) c.messageID = none) :
    ∃ err, c.finish pkg t localizer = .error err ∧ err.is errMessageNotFound = true := by
  have hlocalize : ∃ text, localize pkg t.bundle localizer c.messageID c.plural c.templateData =
      (text, some (.messageNotFound (pkg.pick t.bundle.tags localizer) c.messageID)) := by
    simp only [localize, hm]
    split
    · exact ⟨_, rfl⟩
    · split
      · exact ⟨_, rfl⟩
      · exact ⟨_, rfl⟩
  obtain ⟨text, hlocalize⟩ := hlocalize
  refine ⟨_, by simp only [Call.finish, hlocalize]; rfl, ?_⟩
  simp [Error.is, errMessageNotFound]

theorem finish_eq_ok_iff {text : String} :
    c.finish pkg t localizer = .ok text ↔ TextIn pkg t c (pkg.pick t.bundle.tags localizer) text := by
  cases hm : t.bundle.messages (pkg.pick t.bundle.tags localizer) c.messageID with
  | none =>
    obtain ⟨err, herr, -⟩ := finish_of_none hm
    simp [herr, TextIn, hm]
  | some m =>
    rw [finish_of_some hm]
    rcases hexec : pkg.execute (pkg.pick t.bundle.tags localizer) m c.plural c.templateData with ⟨text', _ | failed⟩
    · simp [TextIn, hm, hexec]
    · simp [TextIn, hm, hexec]

theorem finish_notFound_iff :
    (∃ err, c.finish pkg t localizer = .error err ∧ err.is errMessageNotFound = true) ↔
      t.bundle.messages (pkg.pick t.bundle.tags localizer) c.messageID = none := by
  constructor
  · rintro ⟨err, herr, his⟩
    cases hm : t.bundle.messages (pkg.pick t.bundle.tags localizer) c.messageID with
    | none => rfl
    | some m =>
      rw [finish_of_some hm] at herr
      split at herr
      · cases herr
      · cases herr
        simp [bundleLoad, Error.is, errBundleLoad, errMessageNotFound] at his
  · exact finish_of_none

end Finish

-- The language in which the message of a call is looked up.
def Call.picked (c : Call Data) (pkg : Packages Tag Msg Data) (t : Translator Tag Msg) (own : Tag) : Tag :=
  pkg.pick t.bundle.tags (wantedTags pkg t c.locale own)

theorem translate_eq {own : Tag} (hown : pkg.parse c.locale = .ok own) :
    c.translate pkg t = c.finish pkg t (wantedTags pkg t c.locale own) := by
  simp only [Call.translate, newLocalizer, hown]

theorem fallsBack_translate_iff (cfg : Config) (t : Translator Tag Msg) {own : Tag} (hown : pkg.parse c.locale = .ok own) :
    FallsBack pkg cfg t c (c.translate pkg t) ↔ Suffices pkg cfg t c (c.picked pkg t own) := by
  rw [translate_eq hown]
  constructor
  · intro h
    refine ⟨fun hlacks hhas => ?_, fun hnone => ?_⟩
    · obtain ⟨text, hout, htext⟩ := h.served hlacks hhas
      exact ⟨text, finish_eq_ok_iff.mp hout, htext⟩
    · obtain ⟨err, herr, his⟩ := finish_of_none hnone
      exact h.notFound err herr his
  · intro h
    refine ⟨fun hlacks hhas => ?_, fun err herr his => h.missing (finish_notFound_iff.mp ⟨err, herr, his⟩)⟩
    obtain ⟨text, hpicked, htext⟩ := h.text hlacks hhas
    exact ⟨text, finish_eq_ok_iff.mpr hpicked, htext⟩

theorem hasMessage_iff (ht : newTranslator pkg cfg = .ok t) {locale : String} {tag : Tag}
    (htag : pkg.parse locale = .ok tag) :
    HasMessage pkg cfg c locale ↔ (t.bundle.messages tag c.messageID).isSome = true := by
  rw [(newTranslator_ok ht).2.2]
  constructor
  · rintro ⟨tag', htag', hfile⟩
    rw [htag] at htag'
    cases htag'
    exact hfile
  · intro hfile
    exact ⟨tag, htag, hfile⟩

-- The requested language suffices where it has the message, and where no file has it.
theorem suffices_own_iff (ht : newTranslator pkg cfg = .ok t) {own : Tag} (hown : pkg.parse c.locale = .ok own) :
    Suffices pkg cfg t c own ↔ HasMessage pkg cfg c c.locale ∨
      ¬ HasMessage pkg cfg c cfg.defaultLocale ∧ ¬ HasMessage pkg cfg c cfg.fallbackLocale := by
  have hhas := hasMessage_iff (c := c) ht hown
  constructor
  · intro h
    by_cases hfile : HasMessage pkg cfg c c.locale
    · exact .inl hfile
    · have hall := h.missing (by simpa [hhas] using hfile)
      exact .inr ⟨hall _ (by simp), hall _ (by simp)⟩
  · rintro (hfile | ⟨hdefault, hfallback⟩)
    · refine ⟨fun hlacks => absurd hfile hlacks, fun hnone => ?_⟩
      rw [hhas, hnone] at hfile
      cases hfile
    · refine ⟨fun _ hsome => absurd hsome (not_or.mpr ⟨hdefault, hfallback⟩), fun hnone => ?_⟩
      have hlacks : ¬ HasMessage pkg cfg c c.locale := by simp [hhas, hnone]
      simp [hlacks, hdefault, hfallback]

end Fallback

/-- In every run, a call falls back exactly as far as the one language that is
picked suffices. Where that is the requested one, there is no fallback: the call
behaves as wanted only if the requested locale has the message or none has. -/
theorem fallsBack_iff (pkg : Packages Tag Msg Data) (cfg : Config) (t : Translator Tag Msg)
    (ht : newTranslator pkg cfg = .ok t) (c : Call Data) (own : Tag) (hown : pkg.parse c.locale = .ok own)
    (as : List (Action Data)) (s : Sys Tag Data) (hrun : exec (step pkg t) start as = some s) (i : Nat)
    (out : Except Error String) (hi : s.calls i = .returned c out) :
    (FallsBack pkg cfg t c out ↔ Suffices pkg cfg t c (c.picked pkg t own)) ∧
    (c.picked pkg t own = own →
      (FallsBack pkg cfg t c out ↔ HasMessage pkg cfg c c.locale ∨
        ¬ HasMessage pkg cfg c cfg.defaultLocale ∧ ¬ HasMessage pkg cfg c cfg.fallbackLocale)) := by
  have hfalls := fallsBack_translate_iff cfg t hown
  rw [returned_eq_translate hrun hi]
  refine ⟨hfalls, fun hpicked => ?_⟩
  rw [hfalls, hpicked]
  exact suffices_own_iff ht hown

-- tags are their names; the first wanted tag that is loaded is picked
def sample : Packages String String Unit where
  parse locale := if locale = "" then .error "language: tag is not well-formed" else .ok locale
  string tag := tag
  parseAcceptLanguage l := some [l]
  quote text := "\"" ++ text ++ "\""
  loadMessageFile path :=
    if path = "en.json" then .ok ⟨"en", [("greeting", "Hello!"), ("farewell", "Goodbye!")]⟩
    else if path = "es.json" then .ok ⟨"es", [("greeting", "¡Hola!")]⟩
    else .error ("open " ++ path ++ ": no such file or directory")
  pick tags wanted := (wanted.find? fun tag => decide (tag ∈ tags)).getD (tags.headD "")
  execute _ m _ _ := (m, none)

def english : Config := ⟨"en", "en", ["en.json", "es.json"], "json"⟩

-- the same files with the two locales exchanged
def spanish : Config := ⟨"es", "en", ["en.json", "es.json"], "json"⟩

def ask (messageID : String) : Call Unit := ⟨"es", messageID, (), -1⟩

def once (c : Call Unit) : List (Action Unit) := [.call 0 c, .run 0, .run 0, .run 0]

theorem fallsBack_iff_greeting :
    ∃ t s, newTranslator sample english = .ok t ∧ exec (step sample t) start (once (ask "greeting")) = some s ∧
      s.calls 0 = .returned (ask "greeting") (.ok "¡Hola!") ∧
      FallsBack sample english t (ask "greeting") (.ok "¡Hola!") := by
  refine ⟨_, _, rfl, rfl, rfl, ?_⟩
  refine ((fallsBack_iff sample english _ rfl (ask "greeting") "es" rfl (once (ask "greeting")) _ rfl 0 _ rfl).2
    rfl).mpr (.inl ⟨"es", rfl, "es.json", by simp [english], _, rfl, rfl, "¡Hola!", by simp [ask]⟩)

-- The message is in the fallback locale's file, and the call answers that it is not found.
def NotServed (cfg : Config) : Prop :=
  ∃ t s err, newTranslator sample cfg = .ok t ∧
    exec (step sample t) start (once (ask "farewell")) = some s ∧
    s.calls 0 = .returned (ask "farewell") (.error err) ∧ err.is errMessageNotFound = true ∧
    HasMessage sample cfg (ask "farewell") cfg.fallbackLocale

/-- The requested locale lacks a message that the default locale has, or, with
the locales exchanged, that the fallback locale has: both calls fail. -/
theorem missing_message_not_served :
    english.defaultLocale = english.fallbackLocale ∧ NotServed english ∧ NotServed spanish := by
  have hfile (cfg : Config) (hpath : "en.json" ∈ cfg.messageFiles) (hlocale : cfg.fallbackLocale = "en") :
      HasMessage sample cfg (ask "farewell") cfg.fallbackLocale := by
    rw [hlocale]
    exact ⟨"en", rfl, "en.json", hpath, _, rfl, rfl, "Goodbye!", by simp [ask]⟩
  refine ⟨rfl, ?_, ?_⟩
  · exact ⟨_, _, _, rfl, rfl, rfl, by decide +kernel, hfile english (by simp [english]) rfl⟩
  · exact ⟨_, _, _, rfl, rfl, rfl, by decide +kernel, hfile spanish (by simp [spanish]) rfl⟩

end Ghost.I18n
