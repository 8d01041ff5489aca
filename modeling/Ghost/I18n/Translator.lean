import Ghost.Go.Errors
import Ghost.Transition.Run

/-!
# The translator (i18n/translator.go, i18n/i18n.go)

`NewTranslator` loads the message files into one bundle, which `T` only reads.
Calls of `T` run concurrently and share the cache of localizers; each look at the
cache and each insertion is one critical section of its mutex. What the language
and message packages compute is given, the parts of them that decide where a
message is looked up are written out.
-/

namespace Ghost.I18n
open Go Transition

def errLocaleNotFound : Error := .new "ErrLocaleNotFound" "locale not found"
def errMessageNotFound : Error := .new "ErrMessageNotFound" "message not found"
def errBundleLoad : Error := .new "ErrBundleLoad" "failed to load message bundle"

structure Config where
  defaultLocale : String
  fallbackLocale : String
  messageFiles : List String
  format : String
  deriving DecidableEq, Repr

structure MessageFile (Tag Msg : Type) where
  tag : Tag
  messages : List (String × Msg)

structure Packages (Tag Msg Data : Type) where
  -- `language.Parse`, `Tag.String` and `language.ParseAcceptLanguage`, which may fail
  parse : String → Except String Tag
  string : Tag → String
  parseAcceptLanguage : String → Option (List Tag)
  -- the `%q` verb
  quote : String → String
  loadMessageFile : String → Except String (MessageFile Tag Msg)
  -- the one of the bundle's tags that its matcher finds for the wanted ones
  pick : (tags wanted : List Tag) → Tag
  -- a message executed for a plural count and template data: its text, and what failed
  execute : Tag → Msg → Option Int → Data → String × Option String

/-! ### The bundle -/

structure Bundle (Tag Msg : Type) where
  defaultLanguage : Tag
  tags : List Tag
  messages : Tag → String → Option Msg

structure Translator (Tag Msg : Type) where
  bundle : Bundle Tag Msg
  locales : List String
  fallbackLocale : String

variable {Tag Msg Data : Type} [DecidableEq Tag]

def newBundle (defaultLanguage : Tag) : Bundle Tag Msg := ⟨defaultLanguage, [defaultLanguage], fun _ _ => none⟩

def store (table : String → Option Msg) : List (String × Msg) → String → Option Msg
  | [] => table
  | (id, m) :: rest => store (Function.update table id (some m)) rest

def Bundle.addMessages (b : Bundle Tag Msg) (tag : Tag) (messages : List (String × Msg)) : Bundle Tag Msg :=
  { b with
    tags := if tag ∈ b.tags then b.tags else b.tags ++ [tag]
    messages := Function.update b.messages tag (store (b.messages tag) messages) }

-- `fmt.Errorf("%w: …", ErrBundleLoad, …)`
def bundleLoad (text : String) : Error := .wrap (errBundleLoad.error ++ ": " ++ text) errBundleLoad

def loadMessageFiles (pkg : Packages Tag Msg Data) (b : Bundle Tag Msg) (locales : List String) :
    List String → Except Error (Bundle Tag Msg × List String)
  | [] => .ok (b, locales)
  | file :: files =>
    match pkg.loadMessageFile file with
    | .error err => .error (bundleLoad ("failed to load " ++ pkg.quote file ++ ": " ++ err))
    | .ok mf =>
      loadMessageFiles pkg (b.addMessages mf.tag mf.messages) (locales ++ [pkg.string mf.tag]) files

def newTranslator (pkg : Packages Tag Msg Data) (cfg : Config) : Except Error (Translator Tag Msg) :=
  if cfg.defaultLocale = "" then .error (bundleLoad "DefaultLocale is required")
  else if cfg.messageFiles = [] then .error (bundleLoad "at least one MessageFile is required")
  else if cfg.format ≠ "" ∧ cfg.format ≠ "json" then
    .error (bundleLoad ("unsupported format " ++ pkg.quote cfg.format ++ " (only 'json' is supported here)"))
  else
    match pkg.parse cfg.defaultLocale with
    | .error err =>
      .error (bundleLoad ("invalid DefaultLocale " ++ pkg.quote cfg.defaultLocale ++ ": " ++ err))
    | .ok defaultLang =>
      match loadMessageFiles pkg (newBundle defaultLang) [] cfg.messageFiles with
      | .error err => .error err
      | .ok (bundle, locales) => .ok ⟨bundle, locales, cfg.fallbackLocale⟩

/-! ### One call of T -/

structure Call (Data : Type) where
  locale : String
  messageID : String
  templateData : Data
  pluralCount : Int

-- the count of a plural message
def Call.plural (c : Call Data) : Option Int := if c.pluralCount ≥ 0 then some c.pluralCount else none

/- The tags of a localizer; an entry that does not parse is skipped. -/
def wantedTags (pkg : Packages Tag Msg Data) (t : Translator Tag Msg) (locale : String) (lang : Tag) : List Tag :=
  let langs := if t.fallbackLocale ≠ "" ∧ t.fallbackLocale ≠ locale then
      [pkg.string lang, t.fallbackLocale] else [pkg.string lang]
  langs.flatMap fun l => (pkg.parseAcceptLanguage l).getD []

def newLocalizer (pkg : Packages Tag Msg Data) (t : Translator Tag Msg) (locale : String) :
    Except Error (List Tag) :=
  match pkg.parse locale with
  | .error err =>
    .error (.wrap (errLocaleNotFound.error ++ ": invalid locale " ++ pkg.quote locale ++ ": " ++ err)
      errLocaleNotFound)
  | .ok lang => .ok (wantedTags pkg t locale lang)

inductive LocalizeErr (Tag : Type) where
  | messageNotFound (tag : Tag) (messageID : String)
  | other (text : String)

def LocalizeErr.error (pkg : Packages Tag Msg Data) : LocalizeErr Tag → String
  | .messageNotFound tag id =>
    "message " ++ pkg.quote id ++ " not found in language " ++ pkg.quote (pkg.string tag)
  | .other text => text

/- `Localize`: a text from the default language comes with an error. -/
def localize (pkg : Packages Tag Msg Data) (b : Bundle Tag Msg) (wanted : List Tag) (messageID : String)
    (pluralCount : Option Int) (templateData : Data) : String × Option (LocalizeErr Tag) :=
  let tag := pkg.pick b.tags wanted
  match b.messages tag messageID with
  | some m =>
    let (text, failed) := pkg.execute tag m pluralCount templateData
    (text, failed.map .other)
  | none =>
    if tag = b.defaultLanguage then ("", some (.messageNotFound tag messageID))
    else
      match b.messages b.defaultLanguage messageID with
      | some m =>
        ((pkg.execute b.defaultLanguage m pluralCount templateData).1, some (.messageNotFound tag messageID))
      | none => ("", some (.messageNotFound tag messageID))

-- `T` from the localizer on
def Call.finish (c : Call Data) (pkg : Packages Tag Msg Data) (t : Translator Tag Msg) (localizer : List Tag) :
    Except Error String :=
  match localize pkg t.bundle localizer c.messageID c.plural c.templateData with
  | (msg, none) => .ok msg
  | (_, some (.messageNotFound tag id)) =>
    .error (.wrap (errMessageNotFound.error ++ ": " ++ (LocalizeErr.messageNotFound tag id).error pkg)
      errMessageNotFound)
  | (_, some (.other text)) => .error (bundleLoad ((LocalizeErr.other text : LocalizeErr Tag).error pkg))

/-- `T` with no cache. -/
def Call.translate (c : Call Data) (pkg : Packages Tag Msg Data) (t : Translator Tag Msg) : Except Error String :=
  match newLocalizer pkg t c.locale with
  | .error err => .error err
  | .ok localizer => c.finish pkg t localizer

/-! ### Concurrent calls -/

inductive Pc (Tag Data : Type) where
  | idle
  -- before the read lock, before the write lock
  | fast (c : Call Data)
  | slow (c : Call Data)
  | localize (c : Call Data) (localizer : List Tag)
  | returned (c : Call Data) (out : Except Error String)

structure Sys (Tag Data : Type) where
  localizers : String → Option (List Tag)
  calls : Nat → Pc Tag Data

inductive Action (Data : Type) where
  | call (i : Nat) (c : Call Data)
  | run (i : Nat)

def Sys.setPc (s : Sys Tag Data) (i : Nat) (pc : Pc Tag Data) : Sys Tag Data :=
  { s with calls := Function.update s.calls i pc }

-- the second look at the cache, and the insertion, under the write lock
def slowPath (pkg : Packages Tag Msg Data) (t : Translator Tag Msg) (s : Sys Tag Data) (i : Nat)
    (c : Call Data) : Sys Tag Data :=
  match s.localizers c.locale with
  | some localizer => s.setPc i (.localize c localizer)
  | none =>
    match newLocalizer pkg t c.locale with
    | .error err => s.setPc i (.returned c (.error err))
    | .ok localizer =>
      Sys.setPc { s with localizers := Function.update s.localizers c.locale (some localizer) } i
        (.localize c localizer)

def step (pkg : Packages Tag Msg Data) (t : Translator Tag Msg) (s : Sys Tag Data) :
    Action Data → Option (Sys Tag Data)
  | .call i c =>
    match s.calls i with
    | .idle => some (s.setPc i (.fast c))
    | _ => none
  | .run i =>
    match s.calls i with
    | .fast c =>
      match s.localizers c.locale with
      | some localizer => some (s.setPc i (.localize c localizer))
      | none => some (s.setPc i (.slow c))
    | .slow c => some (slowPath pkg t s i c)
    | .localize c localizer => some (s.setPc i (.returned c (c.finish pkg t localizer)))
    | .idle | .returned _ _ => none

def start : Sys Tag Data := ⟨fun _ => none, fun _ => .idle⟩

/-! ### The cache is transparent -/

-- What a call has so far is what it would have with no cache.
def Pc.Agrees (pkg : Packages Tag Msg Data) (t : Translator Tag Msg) : Pc Tag Data → Prop
  | .localize c localizer => newLocalizer pkg t c.locale = .ok localizer
  | .returned c out => out = c.translate pkg t
  | .idle | .fast _ | .slow _ => True

structure Agrees (pkg : Packages Tag Msg Data) (t : Translator Tag Msg) (s : Sys Tag Data) : Prop where
  cache : ∀ locale localizer, s.localizers locale = some localizer → newLocalizer pkg t locale = .ok localizer
  calls : ∀ i, (s.calls i).Agrees pkg t

section Agrees

variable {pkg : Packages Tag Msg Data} {t : Translator Tag Msg} {s u : Sys Tag Data} {i : Nat} {c : Call Data}

theorem Agrees.setPc (h : Agrees pkg t s) {pc : Pc Tag Data} (hpc : pc.Agrees pkg t) :
    Agrees pkg t (s.setPc i pc) where
  cache := h.cache
  calls j := by
    by_cases hij : j = i
    · subst hij
      simpa [Sys.setPc] using hpc
    · simpa [Sys.setPc, hij] using h.calls j

theorem Agrees.insert (h : Agrees pkg t s) {locale : String} {localizer : List Tag}
    (hnew : newLocalizer pkg t locale = .ok localizer) :
    Agrees pkg t { s with localizers := Function.update s.localizers locale (some localizer) } where
  cache other cached hcached := by
    by_cases ho : other = locale
    · subst ho
      simp only [Function.update_self, Option.some.injEq] at hcached
      rw [← hcached]
      exact hnew
    · simp only [Function.update_of_ne ho] at hcached
      exact h.cache other cached hcached
  calls := h.calls

theorem agrees_slowPath (h : Agrees pkg t s) : Agrees pkg t (slowPath pkg t s i c) := by
  unfold slowPath
  split
  · rename_i localizer hcached
    exact h.setPc (h.cache c.locale localizer hcached)
  · split
    · rename_i err hnew
      refine h.setPc ?_
      simp only [Pc.Agrees, Call.translate, hnew]
    · rename_i localizer hnew
      exact (h.insert hnew).setPc hnew

theorem agrees_step (a : Action Data) (h : Agrees pkg t s) (hstep : step pkg t s a = some u) :
    Agrees pkg t u := by
  cases a with
  | call i c =>
    simp only [step] at hstep
    split at hstep <;> cases hstep
    exact h.setPc trivial
  | run i =>
    have hi := h.calls i
    simp only [step] at hstep
    split at hstep
    · rename_i c _
      split at hstep <;> cases hstep
      · rename_i localizer hcached
        exact h.setPc (h.cache c.locale localizer hcached)
      · exact h.setPc trivial
    · cases hstep
      exact agrees_slowPath h
    · rename_i c localizer hpc
      cases hstep
      rw [hpc] at hi
      refine h.setPc ?_
      simp only [Pc.Agrees, Call.translate, show newLocalizer pkg t c.locale = .ok localizer from hi]
    · cases hstep
    · cases hstep

/-- Whatever other calls did before, a call returns what it would return with no cache. -/
theorem returned_eq_translate {as : List (Action Data)} {out : Except Error String}
    (h : exec (step pkg t) start as = some s) (hi : s.calls i = .returned c out) :
    out = c.translate pkg t := by
  have hstart : Agrees pkg t (start : Sys Tag Data) := by
    refine ⟨fun _ _ hcached => ?_, fun _ => trivial⟩
    cases hcached
  have hs := exec_invariant (fun _ a _ hs hstep => agrees_step a hs hstep) hstart h
  have hcall := hs.calls i
  rw [hi] at hcall
  exact hcall

end Agrees

end Ghost.I18n
