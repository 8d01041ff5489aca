import Mathlib.Data.List.Induction
import Ghost.Go.Errors

/-!
# Configuration (kafka/config.go, kafka/client.go)

A `Config` is made by `DefaultConfig` and changed by a chain of `With…` calls;
`NewKafkaClientFromConfig` checks it and turns it into options of the franz-go
client. Durations are in nanoseconds.
-/

namespace Ghost.Kafka
open Go

/-- A `*slog.Logger`: `slog.Default()`, or one that the caller made. -/
inductive Logger where
  | default
  | caller (ref : Nat)
  deriving DecidableEq, Repr

def versionTLS12 : Nat := 0x0303

/-- A `*tls.Config`: one that the caller made, which is handed on as it is, or one of
this package with nothing set but the least version. -/
inductive TLSConfig where
  | caller (ref : Nat)
  | minVersion (version : Nat)
  deriving DecidableEq, Repr

structure Config where
  brokers : List String
  topics : List String
  groupID : String
  logger : Option Logger
  tlsEnabled : Bool
  tlsConfig : Option TLSConfig
  saslMechanism : String
  saslUsername : String
  saslPassword : String
  requiredAcks : Int
  recordRetries : Int
  requestRetries : Int
  batchMaxBytes : Int
  lingerDuration : Int
  fetchMaxWait : Int
  fetchMinBytes : Int
  fetchMaxBytes : Int
  sessionTimeout : Int
  heartbeatInterval : Int
  rebalanceTimeout : Int
  requestTimeoutOverhead : Int
  connIdleTimeout : Int
  enableOTel : Bool
  deriving DecidableEq, Repr

def millisecond : Int := 1000000
def second : Int := 1000000000

def noAck : Int := 0
def leaderAck : Int := 1
def allISRAcks : Int := -1

def defaultConfig (brokers : List String) (groupID : String) : Config where
  brokers := brokers
  topics := []
  groupID := groupID
  logger := some .default
  tlsEnabled := false
  tlsConfig := none
  saslMechanism := ""
  saslUsername := ""
  saslPassword := ""
  requiredAcks := allISRAcks
  recordRetries := 10
  requestRetries := 3
  batchMaxBytes := 1000000
  lingerDuration := 10 * millisecond
  fetchMaxWait := 500 * millisecond
  fetchMinBytes := 1
  fetchMaxBytes := 50 * 1024 * 1024
  sessionTimeout := 45 * second
  heartbeatInterval := 3 * second
  rebalanceTimeout := 60 * second
  requestTimeoutOverhead := 10 * second
  connIdleTimeout := 60 * second
  enableOTel := true

namespace Config

def withTopics (c : Config) (topics : List String) : Config := { c with topics := topics }

def withLogger (c : Config) (logger : Option Logger) : Config := { c with logger := logger }

def withTLS (c : Config) (tlsConfig : Option TLSConfig) : Config :=
  { c with tlsEnabled := true, tlsConfig := some (tlsConfig.getD (.minVersion versionTLS12)) }

def withSASLScram (c : Config) (mechanism username password : String) : Config :=
  { c with saslMechanism := mechanism, saslUsername := username, saslPassword := password }

def withSASLPlain (c : Config) (username password : String) : Config := c.withSASLScram "PLAIN" username password

end Config

/-! ### Validation -/

def validMechanisms : List String := ["PLAIN", "SCRAM-SHA-256", "SCRAM-SHA-512"]

-- `errors.New` in place: the text stands for the variable
def invalid (text : String) : Error := .new text ("kafka: " ++ text)

def validateSASL (c : Config) : Option Error :=
  if c.saslMechanism = "" then none
  else if c.saslUsername = "" ∨ c.saslPassword = "" then
    some (invalid "SASL username and password are required when SASL is enabled")
  else if c.saslMechanism ∉ validMechanisms then some (invalid ("unsupported SASL mechanism: " ++ c.saslMechanism))
  else none

def validate (c : Config) : Option Error :=
  if c.brokers = [] then some (invalid "at least one broker is required")
  else
    match validateSASL c with
    | some e => some e
    | none =>
      if c.recordRetries < 0 then some (invalid "record retries must be non-negative")
      else if c.batchMaxBytes ≤ 0 then some (invalid "batch max bytes must be positive")
      else if c.fetchMinBytes < 0 then some (invalid "fetch min bytes must be non-negative")
      else if c.fetchMaxBytes ≤ 0 then some (invalid "fetch max bytes must be positive")
      else none

/-! ### The options of the client -/

inductive Acks where
  | noAck
  | leaderAck
  | allISRAcks
  deriving DecidableEq, Repr

inductive Mechanism where
  | plain
  | scramSha256
  | scramSha512
  deriving DecidableEq, Repr

def Mechanism.name : Mechanism → String
  | .plain => "PLAIN"
  | .scramSha256 => "SCRAM-SHA-256"
  | .scramSha512 => "SCRAM-SHA-512"

inductive Codec where
  | snappy
  deriving DecidableEq, Repr

/-- Where a partition without a committed offset is read from. -/
inductive Reset where
  | atStart
  | atEnd
  deriving DecidableEq, Repr

-- `retryBackoffFn` carries the pause per try
inductive Opt where
  | seedBrokers (brokers : List String)
  | recordRetries (n : Int)
  | requestRetries (n : Int)
  | retryBackoffFn (perTry : Int)
  | producerBatchCompression (codec : Codec)
  | producerBatchMaxBytes (n : Int)
  | producerLinger (d : Int)
  | requestTimeoutOverhead (d : Int)
  | connIdleTimeout (d : Int)
  | withLogger (logger : Logger)
  | requiredAcks (acks : Acks)
  | consumerGroup (groupID : String)
  | consumeResetOffset (r : Reset)
  | disableAutoCommit
  | fetchMaxWait (d : Int)
  | fetchMinBytes (n : Int)
  | fetchMaxBytes (n : Int)
  | sessionTimeout (d : Int)
  | heartbeatInterval (d : Int)
  | rebalanceTimeout (d : Int)
  | consumeTopics (topics : List String)
  | dialTLSConfig (c : TLSConfig)
  | sasl (m : Mechanism) (username password : String)
  | hooks
  deriving DecidableEq, Repr

def commonOpts (cfg : Config) : List Opt :=
  [.seedBrokers cfg.brokers, .recordRetries cfg.recordRetries, .requestRetries cfg.requestRetries,
   .retryBackoffFn (100 * millisecond), .producerBatchCompression .snappy,
   .producerBatchMaxBytes cfg.batchMaxBytes, .producerLinger cfg.lingerDuration,
   .requestTimeoutOverhead cfg.requestTimeoutOverhead, .connIdleTimeout cfg.connIdleTimeout,
   .withLogger (cfg.logger.getD .default),
   .requiredAcks (if cfg.requiredAcks = noAck then .noAck else if cfg.requiredAcks = leaderAck then .leaderAck
     else .allISRAcks)]

def groupOpts (cfg : Config) : List Opt :=
  if cfg.groupID ≠ "" then
    [.consumerGroup cfg.groupID, .consumeResetOffset .atEnd, .disableAutoCommit, .fetchMaxWait cfg.fetchMaxWait,
     .fetchMinBytes cfg.fetchMinBytes, .fetchMaxBytes cfg.fetchMaxBytes, .sessionTimeout cfg.sessionTimeout,
     .heartbeatInterval cfg.heartbeatInterval, .rebalanceTimeout cfg.rebalanceTimeout]
  else []

def topicOpts (cfg : Config) : List Opt := if cfg.topics ≠ [] then [.consumeTopics cfg.topics] else []

def tlsOpts (cfg : Config) : List Opt :=
  match cfg.tlsEnabled, cfg.tlsConfig with
  | true, some c => [.dialTLSConfig c]
  | _, _ => []

def buildSASLOpt (cfg : Config) : Except Error Opt :=
  if cfg.saslMechanism = "PLAIN" then .ok (.sasl .plain cfg.saslUsername cfg.saslPassword)
  else if cfg.saslMechanism = "SCRAM-SHA-256" then .ok (.sasl .scramSha256 cfg.saslUsername cfg.saslPassword)
  else if cfg.saslMechanism = "SCRAM-SHA-512" then .ok (.sasl .scramSha512 cfg.saslUsername cfg.saslPassword)
  else .error (.new "buildSASLOpt" ("unsupported SASL mechanism: " ++ cfg.saslMechanism))

def saslOpts (cfg : Config) : Except Error (List Opt) :=
  if cfg.saslMechanism = "" then .ok []
  else
    match buildSASLOpt cfg with
    | .ok opt => .ok [opt]
    | .error e => .error (e.annotate "failed to configure SASL")

/-- The options that `NewKafkaClientFromConfig` hands to `kgo.NewClient`. -/
def options (cfg : Config) : Except Error (List Opt) :=
  match validate cfg with
  | some e => .error (e.annotate "invalid config")
  | none =>
    match saslOpts cfg with
    | .error e => .error e
    | .ok sasl => .ok (commonOpts cfg ++ groupOpts cfg ++ topicOpts cfg ++ tlsOpts cfg ++ sasl ++
        if cfg.enableOTel then [.hooks] else [])

/-- `kgo.NewClient` and `client.Ping`. -/
structure Kgo (C : Type) where
  newClient : List Opt → Except Error C
  ping : C → Option Error

/-- The result, with the clients that were closed again. -/
def newKafkaClientFromConfig {C : Type} (kgo : Kgo C) (cfg : Config) : Except Error C × List C :=
  match options cfg with
  | .error e => (.error e, [])
  | .ok opts =>
    match kgo.newClient opts with
    | .error e => (.error e, [])
    | .ok client =>
      match kgo.ping client with
      | some e => (.error (e.annotate "failed to connect to Kafka"), [client])
      | none => (.ok client, [])

/-! ### What a checked configuration gives -/

variable {cfg : Config} {opts : List Opt}

theorem validateSASL_eq_none : validateSASL cfg = none ↔
    cfg.saslMechanism = "" ∨
      cfg.saslUsername ≠ "" ∧ cfg.saslPassword ≠ "" ∧ cfg.saslMechanism ∈ validMechanisms := by
  unfold validateSASL
  by_cases hoff : cfg.saslMechanism = ""
  · simp [hoff]
  · by_cases hempty : cfg.saslUsername = "" ∨ cfg.saslPassword = ""
    · simp only [hoff, hempty, if_true, if_false, false_or, reduceCtorEq, false_iff, not_and]
      intro hname hpassword
      exact absurd hempty (not_or.mpr ⟨hname, hpassword⟩)
    · obtain ⟨hname, hpassword⟩ := not_or.mp hempty
      by_cases hvalid : cfg.saslMechanism ∈ validMechanisms
      · simp [hoff, hname, hpassword, hvalid]
      · simp [hoff, hname, hpassword, hvalid]

theorem mem_validMechanisms {name : String} : name ∈ validMechanisms ↔ ∃ m : Mechanism, name = m.name := by
  constructor
  · intro h
    simp only [validMechanisms, List.mem_cons, List.not_mem_nil, or_false] at h
    rcases h with rfl | rfl | rfl
    · exact ⟨.plain, rfl⟩
    · exact ⟨.scramSha256, rfl⟩
    · exact ⟨.scramSha512, rfl⟩
  · rintro ⟨m, rfl⟩
    cases m <;> decide

theorem buildSASLOpt_name {m : Mechanism} (h : cfg.saslMechanism = m.name) :
    buildSASLOpt cfg = .ok (.sasl m cfg.saslUsername cfg.saslPassword) := by
  unfold buildSASLOpt
  cases m <;> simp [h, Mechanism.name]

/-- Validation and `buildSASLOpt` know the same mechanisms, so what passes the one
never fails the other. -/
theorem saslOpts_of_valid (h : validateSASL cfg = none) :
    ∃ sasl, saslOpts cfg = .ok sasl ∧
      ∀ o, o ∈ sasl ↔ ∃ m : Mechanism, cfg.saslMechanism = m.name ∧ o = .sasl m cfg.saslUsername cfg.saslPassword := by
  rcases validateSASL_eq_none.mp h with hoff | ⟨-, -, hvalid⟩
  · refine ⟨[], by rw [saslOpts, if_pos hoff], fun o => ?_⟩
    simp only [List.not_mem_nil, false_iff, not_exists, not_and, hoff]
    intro m hm
    cases m <;> exact absurd hm (by decide)
  · obtain ⟨m, hm⟩ := mem_validMechanisms.mp hvalid
    have hon : cfg.saslMechanism ≠ "" := by
      rw [hm]
      cases m <;> decide
    refine ⟨[.sasl m cfg.saslUsername cfg.saslPassword], ?_, fun o => ?_⟩
    · rw [saslOpts, if_neg hon, buildSASLOpt_name hm]
    · constructor
      · intro ho
        exact ⟨m, hm, List.mem_singleton.mp ho⟩
      · rintro ⟨m', hm', rfl⟩
        have hsame : m = m' := by
          rw [hm] at hm'
          revert hm'
          cases m <;> cases m' <;> decide
        rw [hsame]
        exact List.mem_singleton.mpr rfl

theorem validate_eq_none : validate cfg = none ↔
    cfg.brokers ≠ [] ∧ validateSASL cfg = none ∧ 0 ≤ cfg.recordRetries ∧ 0 < cfg.batchMaxBytes ∧
      0 ≤ cfg.fetchMinBytes ∧ 0 < cfg.fetchMaxBytes := by
  unfold validate
  by_cases hbrokers : cfg.brokers = []
  · simp [hbrokers]
  · cases hsasl : validateSASL cfg with
    | some e => simp [hbrokers]
    | none =>
      simp only [hbrokers, if_false, ne_eq, not_false_eq_true, true_and]
      constructor
      · intro h
        split at h
        · cases h
        · split at h
          · cases h
          · split at h
            · cases h
            · split at h
              · cases h
              · omega
      · rintro ⟨h₁, h₂, h₃, h₄⟩
        rw [if_neg (by omega), if_neg (by omega), if_neg (by omega), if_neg (by omega)]

theorem options_eq_ok : options cfg = .ok opts ↔
    validate cfg = none ∧ ∃ sasl, saslOpts cfg = .ok sasl ∧
      opts = commonOpts cfg ++ groupOpts cfg ++ topicOpts cfg ++ tlsOpts cfg ++ sasl ++
        if cfg.enableOTel then [.hooks] else [] := by
  unfold options
  cases validate cfg with
  | some e => simp
  | none =>
    cases saslOpts cfg with
    | error e => simp
    | ok sasl =>
      simp only [Except.ok.injEq, true_and, exists_eq_left']
      exact eq_comm

/-- A checked configuration always gives options. -/
theorem options_of_valid (h : validate cfg = none) : ∃ opts, options cfg = .ok opts := by
  obtain ⟨sasl, hsasl, -⟩ := saslOpts_of_valid (validate_eq_none.mp h).2.1
  exact ⟨_, options_eq_ok.mpr ⟨h, sasl, hsasl, rfl⟩⟩

theorem mem_tlsOpts {o : Opt} :
    o ∈ tlsOpts cfg ↔ cfg.tlsEnabled = true ∧ ∃ c, cfg.tlsConfig = some c ∧ o = .dialTLSConfig c := by
  unfold tlsOpts
  cases cfg.tlsEnabled <;> cases cfg.tlsConfig <;> simp

def Opt.security : Opt → Bool
  | .dialTLSConfig _ | .sasl _ _ _ => true
  | _ => false

/-- The options that have to do with security come from the two fields for it. -/
theorem mem_options_security (h : options cfg = .ok opts) {o : Opt} (ho : o.security = true) :
    o ∈ opts ↔ (cfg.tlsEnabled = true ∧ ∃ c, cfg.tlsConfig = some c ∧ o = .dialTLSConfig c) ∨
      ∃ m : Mechanism, cfg.saslMechanism = m.name ∧ o = .sasl m cfg.saslUsername cfg.saslPassword := by
  obtain ⟨hvalid, sasl, hsasl, rfl⟩ := options_eq_ok.mp h
  obtain ⟨sasl', hsasl', hmem⟩ := saslOpts_of_valid (validate_eq_none.mp hvalid).2.1
  cases hsasl'.symm.trans hsasl
  have hcommon : o ∉ commonOpts cfg := by
    rintro hmem
    simp only [commonOpts, List.mem_cons, List.not_mem_nil, or_false] at hmem
    rcases hmem with rfl | rfl | rfl | rfl | rfl | rfl | rfl | rfl | rfl | rfl | rfl <;> cases ho
  have hgroup : o ∉ groupOpts cfg := by
    unfold groupOpts
    split
    · rintro hmem
      simp only [List.mem_cons, List.not_mem_nil, or_false] at hmem
      rcases hmem with rfl | rfl | rfl | rfl | rfl | rfl | rfl | rfl | rfl <;> cases ho
    · exact List.not_mem_nil
  have htopic : o ∉ topicOpts cfg := by
    unfold topicOpts
    split
    · rintro hmem
      rw [List.mem_singleton.mp hmem] at ho
      cases ho
    · exact List.not_mem_nil
  have hhooks : o ∉ (if cfg.enableOTel then [Opt.hooks] else []) := by
    split
    · rintro hmem
      rw [List.mem_singleton.mp hmem] at ho
      cases ho
    · exact List.not_mem_nil
  simp only [List.mem_append, hcommon, hgroup, htopic, hhooks, mem_tlsOpts, hmem, false_or, or_false]

theorem dialTLSConfig_mem (h : options cfg = .ok opts) (c : TLSConfig) :
    .dialTLSConfig c ∈ opts ↔ cfg.tlsEnabled = true ∧ cfg.tlsConfig = some c := by
  rw [mem_options_security h rfl]
  simp

theorem sasl_mem (h : options cfg = .ok opts) (m : Mechanism) (u p : String) :
    .sasl m u p ∈ opts ↔ cfg.saslMechanism = m.name ∧ cfg.saslUsername = u ∧ cfg.saslPassword = p := by
  rw [mem_options_security h rfl]
  constructor
  · rintro (⟨-, c, -, ho⟩ | ⟨m', hm', ho⟩)
    · cases ho
    · cases ho
      exact ⟨hm', rfl, rfl⟩
  · rintro ⟨hm, rfl, rfl⟩
    exact .inr ⟨m, hm, rfl⟩

/-- A client that was made is returned, or closed again. -/
theorem newKafkaClientFromConfig_made {C : Type} {kgo : Kgo C} {client : C} (h : options cfg = .ok opts)
    (hnew : kgo.newClient opts = .ok client) :
    newKafkaClientFromConfig kgo cfg = (.ok client, []) ∨
      ∃ e, newKafkaClientFromConfig kgo cfg = (.error e, [client]) := by
  unfold newKafkaClientFromConfig
  rw [h]
  dsimp only
  rw [hnew]
  dsimp only
  cases kgo.ping client with
  | none => exact .inl rfl
  | some e => exact .inr ⟨_, rfl⟩

/-! ### Any chain of `With…` calls -/

inductive Builder where
  | withTopics (topics : List String)
  | withLogger (logger : Option Logger)
  | withTLS (tlsConfig : Option TLSConfig)
  | withSASLPlain (username password : String)
  | withSASLScram (mechanism username password : String)

def Builder.apply (c : Config) : Builder → Config
  | .withTopics topics => c.withTopics topics
  | .withLogger logger => c.withLogger logger
  | .withTLS tlsConfig => c.withTLS tlsConfig
  | .withSASLPlain username password => c.withSASLPlain username password
  | .withSASLScram mechanism username password => c.withSASLScram mechanism username password

def build (brokers : List String) (groupID : String) (calls : List Builder) : Config :=
  calls.foldl Builder.apply (defaultConfig brokers groupID)

def Builder.tls : Builder → Option TLSConfig
  | .withTLS tlsConfig => some (tlsConfig.getD (.minVersion versionTLS12))
  | _ => none

def Builder.sasl : Builder → Option (String × String × String)
  | .withSASLPlain username password => some ("PLAIN", username, password)
  | .withSASLScram mechanism username password => some (mechanism, username, password)
  | _ => none

/-- What the last call of its kind has set. -/
def lastOf {β : Type} (f : Builder → Option β) (calls : List Builder) : Option β := calls.reverse.findSome? f

theorem lastOf_snoc {β : Type} (f : Builder → Option β) (calls : List Builder) (b : Builder) :
    lastOf f (calls ++ [b]) = (f b).or (lastOf f calls) := by
  rw [lastOf, List.reverse_append, List.reverse_singleton, List.singleton_append, List.findSome?_cons]
  cases f b <;> rfl

/-- The fields that the calls set, and the ones they leave. -/
structure Built (brokers : List String) (groupID : String) (calls : List Builder) (c : Config) : Prop where
  brokers : c.brokers = brokers
  group : c.groupID = groupID
  limits : 0 ≤ c.recordRetries ∧ 0 < c.batchMaxBytes ∧ 0 ≤ c.fetchMinBytes ∧ 0 < c.fetchMaxBytes
  tls : c.tlsConfig = lastOf Builder.tls calls
  tlsEnabled : c.tlsEnabled = (lastOf Builder.tls calls).isSome
  sasl : (c.saslMechanism, c.saslUsername, c.saslPassword) = (lastOf Builder.sasl calls).getD ("", "", "")

theorem build_built (brokers : List String) (groupID : String) (calls : List Builder) :
    Built brokers groupID calls (build brokers groupID calls) := by
  induction calls using List.reverseRecOn with
  | nil => exact ⟨rfl, rfl, by simp [build, defaultConfig], rfl, rfl, rfl⟩
  | append_singleton calls b ih =>
    have hbuild : build brokers groupID (calls ++ [b]) = b.apply (build brokers groupID calls) := by
      rw [build, List.foldl_append]
      rfl
    rw [hbuild]
    cases b with
    | withTopics topics | withLogger logger =>
      exact ⟨ih.brokers, ih.group, ih.limits, by rw [lastOf_snoc]; exact ih.tls,
        by rw [lastOf_snoc]; exact ih.tlsEnabled, by rw [lastOf_snoc]; exact ih.sasl⟩
    | withTLS tlsConfig =>
      exact ⟨ih.brokers, ih.group, ih.limits, by rw [lastOf_snoc]; rfl, by rw [lastOf_snoc]; rfl,
        by rw [lastOf_snoc]; exact ih.sasl⟩
    | withSASLPlain username password | withSASLScram mechanism username password =>
      exact ⟨ih.brokers, ih.group, ih.limits, by rw [lastOf_snoc]; exact ih.tls,
        by rw [lastOf_snoc]; exact ih.tlsEnabled, by rw [lastOf_snoc]; rfl⟩

/-- SASL is off, or set up in full for a known mechanism. -/
def SaslOk : Option (String × String × String) → Prop
  | none => True
  | some (mechanism, username, password) =>
    mechanism = "" ∨ username ≠ "" ∧ password ≠ "" ∧ mechanism ∈ validMechanisms

/-- For any chain of calls on the default configuration: it is accepted if and only if
there is a broker and the last SASL call is complete or names no mechanism; and a
client of it dials with TLS if and only if `WithTLS` was called, with the
configuration of the last such call, and authenticates with the data of the last
SASL call, unless that call names no mechanism. -/
theorem builders_configure (brokers : List String) (groupID : String) (calls : List Builder) :
    ((∃ opts, options (build brokers groupID calls) = .ok opts) ↔
      brokers ≠ [] ∧ SaslOk (lastOf Builder.sasl calls)) ∧
    ∀ opts, options (build brokers groupID calls) = .ok opts →
      (∀ c, .dialTLSConfig c ∈ opts ↔ lastOf Builder.tls calls = some c) ∧
      ∀ m u p, .sasl m u p ∈ opts ↔ lastOf Builder.sasl calls = some (m.name, u, p) := by
  have hbuilt := build_built brokers groupID calls
  generalize build brokers groupID calls = cfg at hbuilt ⊢
  have hsasl := hbuilt.sasl
  refine ⟨?_, ?_⟩
  · have hok : validateSASL cfg = none ↔ SaslOk (lastOf Builder.sasl calls) := by
      rw [validateSASL_eq_none]
      cases hlast : lastOf Builder.sasl calls with
      | none =>
        rw [hlast] at hsasl
        simp only [Option.getD_none, Prod.mk.injEq] at hsasl
        simp [SaslOk, hsasl.1]
      | some last =>
        obtain ⟨mechanism, username, password⟩ := last
        rw [hlast] at hsasl
        simp only [Option.getD_some, Prod.mk.injEq] at hsasl
        obtain ⟨hm, hu, hp⟩ := hsasl
        rw [hm, hu, hp]
        rfl
    constructor
    · rintro ⟨opts, hopts⟩
      obtain ⟨hvalid, -⟩ := options_eq_ok.mp hopts
      obtain ⟨hbrokers, hs, -⟩ := validate_eq_none.mp hvalid
      exact ⟨hbuilt.brokers ▸ hbrokers, hok.mp hs⟩
    · rintro ⟨hbrokers, hs⟩
      exact options_of_valid (validate_eq_none.mpr ⟨hbuilt.brokers ▸ hbrokers, hok.mpr hs, hbuilt.limits⟩)
  · intro opts hopts
    refine ⟨fun c => ?_, fun m u p => ?_⟩
    · rw [dialTLSConfig_mem hopts, hbuilt.tlsEnabled, hbuilt.tls]
      constructor
      · exact fun h => h.2
      · intro h
        exact ⟨by rw [h]; rfl, h⟩
    · rw [sasl_mem hopts]
      cases hlast : lastOf Builder.sasl calls with
      | none =>
        rw [hlast] at hsasl
        simp only [Option.getD_none, Prod.mk.injEq] at hsasl
        rw [hsasl.1]
        constructor
        · rintro ⟨hm, -⟩
          cases m <;> exact absurd hm (by decide)
        · intro h
          cases h
      | some last =>
        obtain ⟨mechanism, username, password⟩ := last
        rw [hlast] at hsasl
        simp only [Option.getD_some, Prod.mk.injEq] at hsasl
        obtain ⟨hm, hu, hp⟩ := hsasl
        rw [hm, hu, hp]
        simp

/-! ### Where a group reads on -/

/-- The reset that the options ask for; the client's own default is the start. -/
def resetOffset (opts : List Opt) : Reset :=
  (opts.findSome? fun o => match o with
    | .consumeResetOffset r => some r
    | _ => none).getD .atStart

theorem resetOffset_group (h : options cfg = .ok opts) (hgroup : cfg.groupID ≠ "") : resetOffset opts = .atEnd := by
  obtain ⟨-, sasl, -, rfl⟩ := options_eq_ok.mp h
  simp [resetOffset, commonOpts, groupOpts, hgroup]

end Ghost.Kafka
